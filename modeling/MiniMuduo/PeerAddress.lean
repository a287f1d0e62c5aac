import MiniMuduo.Acceptor

/-! How much of a peer's address arrives. `Socket::accept` hands `accept(2)` a length that it
has not set: what was on the stack decides whether the connection is taken, and how many bytes
of the address are written over the zeros. -/
namespace MiniMuduo.PeerAddress

variable {locals other : AcceptLocals} {pending : PendingConnection} {errno : Errno}

/-- The callback gets the descriptor and the peer's whole address. -/
def Arrives (errno : Errno) (locals : AcceptLocals) (pending : PendingConnection) : Prop :=
  Acceptor.handleRead true (.ok pending) errno locals =
    [.newConnection pending.descriptor ⟨pending.peer⟩]

/-- Whatever the stack holds, every address arrives, and the stack makes no difference. -/
def AddressesArrive : Prop :=
  ∀ (errno : Errno) (pending : PendingConnection),
    (∀ locals, Arrives errno locals pending) ∧
    ∀ locals other, Acceptor.handleRead true (.ok pending) errno locals =
      Acceptor.handleRead true (.ok pending) errno other

/-- The length on the stack is not negative as an `int`, and the address has only zeros from
there on. -/
def Covers (len : UInt32) (peer : SockaddrIn) : Prop :=
  0 ≤ len.toInt32.toInt ∧ ∀ i, len.toNat ≤ i → i < 16 → peer.bytes[i]? = some 0

/-- A byte of an address that is written over zeros. -/
theorem overwrite_getElem? (addr peer : SockaddrIn) (count i : Nat) :
    (addr.bzero.overwrite peer (min count 16)).bytes[i]? =
      if i < count ∨ 16 ≤ i then peer.bytes[i]? else some 0 := by
  have width := peer.whole
  have front : (peer.bytes.take (min count 16)).length = min count 16 := by
    rw [List.length_take, width]
    omega
  simp only [SockaddrIn.overwrite, SockaddrIn.bzero]
  by_cases written : i < min count 16
  · rw [List.getElem?_append_left (by omega), List.getElem?_take_of_lt written,
      if_pos (by omega)]
  · rw [List.getElem?_append_right (by omega), List.getElem?_drop, List.getElem?_replicate, front]
    by_cases inside : i < 16
    · rw [if_pos (by omega), if_neg (by omega)]
    · rw [if_neg (by omega), if_pos (by omega), List.getElem?_eq_none (by omega)]

/-- What is written over zeros is the whole address exactly if the rest of it is zeros. -/
theorem overwrite_eq_iff (addr peer : SockaddrIn) (count : Nat) :
    addr.bzero.overwrite peer (min count 16) = peer ↔
      ∀ i, count ≤ i → i < 16 → peer.bytes[i]? = some 0 := by
  constructor
  · intro same i behind inside
    rw [← same, overwrite_getElem?, if_neg (by omega)]
  · intro zeros
    apply SockaddrIn.ext
    apply List.ext_getElem?
    intro i
    rw [overwrite_getElem?]
    split
    · rfl
    · exact (zeros i (by omega) (by omega)).symm

theorem handleRead_negative (negative : locals.len.toInt32.toInt < 0) :
    Acceptor.handleRead true (.ok pending) errno locals =
      [.logError (Acceptor.acceptError einval)] := by
  have failed : ¬ einval = emfile := by decide
  simp [Acceptor.handleRead, Socket.accept, acceptCall, negative, failed]

theorem handleRead_nonnegative (nonnegative : 0 ≤ locals.len.toInt32.toInt) :
    Acceptor.handleRead true (.ok pending) errno locals =
      [.newConnection pending.descriptor
        ⟨locals.addr.bzero.overwrite pending.peer (min locals.len.toNat 16)⟩] := by
  have accepted : ¬ locals.len.toInt32.toInt < 0 := Int.not_lt.mpr nonnegative
  simp [Acceptor.handleRead, Socket.accept, acceptCall, accepted, InetAddress.setSockAddr]

/-- An address arrives whole exactly if the length on the stack covers it; and what the stack
holds makes no difference among those that do. -/
theorem address_arrives_iff (errno : Errno) (locals : AcceptLocals)
    (pending : PendingConnection) :
    (Arrives errno locals pending ↔ Covers locals.len pending.peer) ∧
      ∀ other : AcceptLocals, Covers locals.len pending.peer → Covers other.len pending.peer →
        Acceptor.handleRead true (.ok pending) errno locals =
          Acceptor.handleRead true (.ok pending) errno other := by
  have whole (locals : AcceptLocals) :
      Arrives errno locals pending ↔ Covers locals.len pending.peer := by
    rw [Covers, ← overwrite_eq_iff locals.addr]
    by_cases negative : locals.len.toInt32.toInt < 0
    · rw [Arrives, handleRead_negative negative]
      have refused : ¬ 0 ≤ locals.len.toInt32.toInt := Int.not_le.mpr negative
      simp [refused]
    · have nonnegative := Int.not_lt.mp negative
      rw [Arrives, handleRead_nonnegative nonnegative]
      simp [nonnegative]
  refine ⟨whole locals, fun other here there => ?_⟩
  exact ((whole locals).mpr here).trans ((whole other).mpr there).symm

/-- A peer at 10.0.0.1, port 80. -/
def peer : SockaddrIn where
  bytes := [2, 0, 0, 80, 10, 0, 0, 1, 0, 0, 0, 0, 0, 0, 0, 0]
  whole := rfl

theorem full_length_delivers : Arrives 0 ⟨peer.bzero, 16⟩ ⟨5, peer⟩ := by
  refine (address_arrives_iff 0 ⟨peer.bzero, 16⟩ ⟨5, peer⟩).1.mpr ⟨by decide, ?_⟩
  intro i behind inside
  exact absurd inside (Nat.not_lt.mpr behind)

/-- With 4 on the stack the family and the port arrive, and the host is lost. -/
theorem short_length_truncates : ¬ AddressesArrive := by
  intro arrive
  have arrived := (arrive 0 ⟨5, peer⟩).1 ⟨peer.bzero, 4⟩
  have truncated : Acceptor.handleRead true (.ok ⟨5, peer⟩) 0 ⟨peer.bzero, 4⟩ =
      [.newConnection 5 ⟨peer.bzero.overwrite peer 4⟩] := rfl
  rw [Arrives, truncated] at arrived
  simp [SockaddrIn.overwrite, SockaddrIn.bzero, peer] at arrived

end MiniMuduo.PeerAddress
