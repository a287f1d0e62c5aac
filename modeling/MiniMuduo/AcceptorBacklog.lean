import MiniMuduo.PeerAddress
import MiniMuduo.Library.StepSystem

/-! `Acceptor::handleRead` over whole runs, between the queue of the listening socket and the
descriptor table of the process: what becomes of the connections that arrive, of their
descriptors, and what a full table does. -/
namespace MiniMuduo.AcceptorBacklog
open PeerAddress

def eagain : Errno := 11

/-- The listening socket and the process around it. `arrived`, `foreign` and `effects` are
histories: of the peers whose connections came, of the descriptors that other code opened, and
of what the acceptor did. -/
structure Listener where
  backlog : List SockaddrIn := []
  descriptors : List Nat := []
  arrived : List SockaddrIn := []
  foreign : List Nat := []
  effects : List AcceptorEffect := []

inductive ListenerAction where
  /-- A connection of this peer comes to wait at the socket. -/
  | connect (peer : SockaddrIn)
  /-- `handleRead`, with what the stack and `errno` hold. An `accept(2)` that takes a
  connection gives it the descriptor. -/
  | handleRead (descriptor : Nat) (errno : Errno) (locals : AcceptLocals)
  /-- Other code opens a descriptor. -/
  | openOther (descriptor : Nat)
  /-- The user of a connection, or other code, closes a descriptor. -/
  | close (descriptor : Nat)

/-- What `accept(2)` finds: room in the table is looked for before the queue. -/
def Listener.queue (limit : Nat) (s : Listener) (descriptor : Nat) :
    Except Errno PendingConnection :=
  if limit ≤ s.descriptors.length then .error emfile
  else
    match s.backlog with
    | [] => .error eagain
    | peer :: _ => .ok ⟨descriptor, peer⟩

/-- The descriptor that an effect closes. -/
def closedBy : AcceptorEffect → Option Nat
  | .close sockfd => some sockfd.toNat
  | _ => none

/-- `handleRead` with the kernel's part of it. A connection is out of the queue even if its
address cannot be written; then it has no descriptor. -/
def Listener.handleRead (limit : Nat) (hasCallback : Bool) (s : Listener) (descriptor : Nat)
    (errno : Errno) (locals : AcceptLocals) : Listener :=
  let effects := Acceptor.handleRead hasCallback (s.queue limit descriptor) errno locals
  match s.queue limit descriptor with
  | .error _ => { s with effects := s.effects ++ effects }
  | .ok _ =>
    let given := if locals.len.toInt32.toInt < 0 then [] else [descriptor]
    { s with
      backlog := s.backlog.tail
      descriptors := (given ++ s.descriptors).diff (effects.filterMap closedBy)
      effects := s.effects ++ effects }

/-- One step; the kernel gives out descriptors that are not in use. -/
def Listener.step (limit : Nat) (hasCallback : Bool) (s : Listener) :
    ListenerAction → Option Listener
  | .connect peer =>
    some { s with backlog := s.backlog ++ [peer], arrived := s.arrived ++ [peer] }
  | .handleRead descriptor errno locals =>
    if descriptor ∈ s.descriptors then none
    else some (s.handleRead limit hasCallback descriptor errno locals)
  | .openOther descriptor =>
    if descriptor ∈ s.descriptors ∨ limit ≤ s.descriptors.length then none
    else some { s with
      descriptors := descriptor :: s.descriptors
      foreign := s.foreign ++ [descriptor] }
  | .close descriptor =>
    if descriptor ∈ s.descriptors then
      some { s with descriptors := s.descriptors.erase descriptor }
    else none

/-- A listening socket in a process that has these descriptors. -/
def listenerSystem (limit : Nat) (hasCallback : Bool) (start : List Nat) :
    StepSystem Listener ListenerAction where
  Start s := s = { descriptors := start, foreign := start }
  Step s action next := s.step limit hasCallback action = some next

/-- The connections that the callback got: descriptor and address. -/
def handed : List AcceptorEffect → List (Nat × SockaddrIn) :=
  List.filterMap fun
    | .newConnection sockfd peer => some (sockfd.toNat, peer.addr)
    | _ => none

/-- The stack holds a length that has room for an address. -/
def HasRoom : ListenerAction → Prop
  | .handleRead _ _ locals => 0 ≤ locals.len.toInt32.toInt ∧ 16 ≤ locals.len.toNat
  | _ => True

variable {limit : Nat} {hasCallback : Bool} {start : List Nat} {s t : Listener}
variable {action : ListenerAction} {descriptor : Nat} {errno : Errno} {locals : AcceptLocals}

@[simp] theorem handed_append (first second : List AcceptorEffect) :
    handed (first ++ second) = handed first ++ handed second :=
  List.filterMap_append

/-! ### One call -/

theorem queue_full (full : limit ≤ s.descriptors.length) :
    s.queue limit descriptor = .error emfile := if_pos full

theorem queue_empty (room : s.descriptors.length < limit) (empty : s.backlog = []) :
    s.queue limit descriptor = .error eagain := by
  rw [Listener.queue, if_neg (by omega), empty]

theorem queue_waiting {peer : SockaddrIn} {rest : List SockaddrIn}
    (room : s.descriptors.length < limit) (waiting : s.backlog = peer :: rest) :
    s.queue limit descriptor = .ok ⟨descriptor, peer⟩ := by
  rw [Listener.queue, if_neg (by omega), waiting]

/-- A call that fails, for want of a descriptor or of a connection, only logs. -/
theorem handleRead_fails {failure : Errno} (failed : s.queue limit descriptor = .error failure) :
    s.handleRead limit hasCallback descriptor errno locals =
      { s with effects := s.effects ++
        Acceptor.handleRead hasCallback (.error failure) errno locals } := by
  simp [Listener.handleRead, failed]

theorem failure_logs (failure : Errno) :
    Acceptor.handleRead hasCallback (.error failure) errno locals =
      if failure = emfile then
        [.logError (Acceptor.acceptError failure), .logError (Acceptor.limitError failure)]
      else [.logError (Acceptor.acceptError failure)] := by
  simp [Acceptor.handleRead, Socket.accept, acceptCall]

theorem failure_hands_nothing (failure : Errno) :
    handed (Acceptor.handleRead hasCallback (.error failure) errno locals) = [] := by
  rw [failure_logs]
  split <;> rfl

section
variable {peer : SockaddrIn} {rest : List SockaddrIn} (room : s.descriptors.length < limit)
variable (waiting : s.backlog = peer :: rest)
include room waiting

/-- A connection is taken, and the stack has no length for its address. -/
theorem handleRead_drops (negative : locals.len.toInt32.toInt < 0) :
    s.handleRead limit hasCallback descriptor errno locals =
      { s with
        backlog := rest
        effects := s.effects ++ [.logError (Acceptor.acceptError einval)] } := by
  have failed : ¬ einval = emfile := by decide
  simp [Listener.handleRead, queue_waiting room waiting, waiting, negative, Acceptor.handleRead,
    Socket.accept, acceptCall, failed]
  rfl

theorem handleRead_hands (nonnegative : 0 ≤ locals.len.toInt32.toInt) :
    s.handleRead limit true descriptor errno locals =
      { s with
        backlog := rest
        descriptors := descriptor :: s.descriptors
        effects := s.effects ++ [.newConnection descriptor
          ⟨locals.addr.bzero.overwrite peer (min locals.len.toNat 16)⟩] } := by
  have accepted : ¬ locals.len.toInt32.toInt < 0 := Int.not_lt.mpr nonnegative
  simp [Listener.handleRead, queue_waiting room waiting, waiting, accepted,
    handleRead_nonnegative nonnegative]
  rfl

theorem handleRead_closes (nonnegative : 0 ≤ locals.len.toInt32.toInt) :
    s.handleRead limit false descriptor errno locals =
      { s with backlog := rest, effects := s.effects ++ [.close descriptor] } := by
  have accepted : ¬ locals.len.toInt32.toInt < 0 := Int.not_lt.mpr nonnegative
  simp [Listener.handleRead, queue_waiting room waiting, waiting, accepted, Acceptor.handleRead,
    Socket.accept, acceptCall, closedBy]

end

/-! ### Runs -/

/-- Everything a step can be. -/
inductive Move (limit : Nat) (hasCallback : Bool) : Listener → ListenerAction → Listener → Prop
    where
  | connect {s : Listener} {peer : SockaddrIn} :
      Move limit hasCallback s (.connect peer)
        { s with backlog := s.backlog ++ [peer], arrived := s.arrived ++ [peer] }
  | fails {s : Listener} {descriptor : Nat} {errno failure : Errno} {locals : AcceptLocals} :
      s.queue limit descriptor = .error failure →
      Move limit hasCallback s (.handleRead descriptor errno locals)
        { s with effects := s.effects ++
          Acceptor.handleRead hasCallback (.error failure) errno locals }
  | drops {s : Listener} {descriptor : Nat} {errno : Errno} {locals : AcceptLocals}
      {peer : SockaddrIn} {rest : List SockaddrIn} : s.backlog = peer :: rest →
      locals.len.toInt32.toInt < 0 →
      Move limit hasCallback s (.handleRead descriptor errno locals)
        { s with
          backlog := rest
          effects := s.effects ++ [.logError (Acceptor.acceptError einval)] }
  | hands {s : Listener} {descriptor : Nat} {errno : Errno} {locals : AcceptLocals}
      {peer : SockaddrIn} {rest : List SockaddrIn} : s.backlog = peer :: rest →
      0 ≤ locals.len.toInt32.toInt → hasCallback = true → descriptor ∉ s.descriptors →
      Move limit hasCallback s (.handleRead descriptor errno locals)
        { s with
          backlog := rest
          descriptors := descriptor :: s.descriptors
          effects := s.effects ++ [.newConnection descriptor
            ⟨locals.addr.bzero.overwrite peer (min locals.len.toNat 16)⟩] }
  | closes {s : Listener} {descriptor : Nat} {errno : Errno} {locals : AcceptLocals}
      {peer : SockaddrIn} {rest : List SockaddrIn} : s.backlog = peer :: rest →
      0 ≤ locals.len.toInt32.toInt → hasCallback = false →
      Move limit hasCallback s (.handleRead descriptor errno locals)
        { s with backlog := rest, effects := s.effects ++ [.close descriptor] }
  | openOther {s : Listener} {descriptor : Nat} : descriptor ∉ s.descriptors →
      s.descriptors.length < limit →
      Move limit hasCallback s (.openOther descriptor)
        { s with
          descriptors := descriptor :: s.descriptors
          foreign := s.foreign ++ [descriptor] }
  | close {s : Listener} {descriptor : Nat} : descriptor ∈ s.descriptors →
      Move limit hasCallback s (.close descriptor)
        { s with descriptors := s.descriptors.erase descriptor }

theorem handleRead_move (fresh : descriptor ∉ s.descriptors) :
    Move limit hasCallback s (.handleRead descriptor errno locals)
      (s.handleRead limit hasCallback descriptor errno locals) := by
  by_cases full : limit ≤ s.descriptors.length
  · rw [handleRead_fails (queue_full full)]
    exact .fails (queue_full full)
  · have room : s.descriptors.length < limit := by omega
    cases waiting : s.backlog with
    | nil =>
      rw [handleRead_fails (queue_empty room waiting)]
      exact .fails (queue_empty room waiting)
    | cons peer rest =>
      by_cases negative : locals.len.toInt32.toInt < 0
      · rw [handleRead_drops room waiting negative]
        exact .drops waiting negative
      · have nonnegative := Int.not_lt.mp negative
        cases hasCallback with
        | true =>
          rw [handleRead_hands room waiting nonnegative]
          exact .hands waiting nonnegative rfl fresh
        | false =>
          rw [handleRead_closes room waiting nonnegative]
          exact .closes waiting nonnegative rfl

theorem step_move (stepped : (listenerSystem limit hasCallback start).Step s action t) :
    Move limit hasCallback s action t := by
  cases action with
  | connect peer =>
    cases stepped
    exact .connect
  | handleRead descriptor errno locals =>
    obtain ⟨fresh, ran⟩ := Option.ite_none_left_eq_some.mp stepped
    cases ran
    exact handleRead_move fresh
  | openOther descriptor =>
    obtain ⟨fresh, ran⟩ := Option.ite_none_left_eq_some.mp stepped
    cases ran
    obtain ⟨unused, room⟩ := not_or.mp fresh
    exact .openOther unused (Nat.lt_of_not_le room)
  | close descriptor =>
    obtain ⟨among, ran⟩ := Option.ite_none_right_eq_some.mp stepped
    cases ran
    exact .close among

/-- Every open descriptor was there before, belongs to other code, or was handed over; and no
descriptor is open twice. -/
structure Accounted (s : Listener) : Prop where
  owned : ∀ descriptor ∈ s.descriptors,
    descriptor ∈ s.foreign ∨ descriptor ∈ (handed s.effects).map Prod.fst
  apart : s.descriptors.Nodup

theorem accounted_step (accounted : Accounted s) (move : Move limit hasCallback s action t) :
    Accounted t := by
  obtain ⟨owned, apart⟩ := accounted
  cases move with
  | connect => exact ⟨owned, apart⟩
  | fails _ => exact ⟨by simpa [failure_hands_nothing] using owned, apart⟩
  | drops _ _ | closes _ _ _ => exact ⟨by simpa [handed] using owned, apart⟩
  | hands _ _ _ fresh =>
    refine ⟨?_, List.nodup_cons.mpr ⟨fresh, apart⟩⟩
    intro other member
    rcases List.mem_cons.mp member with rfl | old
    · exact Or.inr (by simp [handed])
    · exact (owned other old).imp_right fun given => by simp [given]
  | openOther fresh _ =>
    refine ⟨?_, List.nodup_cons.mpr ⟨fresh, apart⟩⟩
    intro other member
    rcases List.mem_cons.mp member with rfl | old
    · exact Or.inl (by simp)
    · exact (owned other old).imp_left fun given => by simp [given]
  | close _ =>
    exact ⟨fun other member => owned other (List.mem_of_mem_erase member), apart.erase _⟩

theorem reachable_accounted (distinct : start.Nodup)
    (reached : (listenerSystem limit hasCallback start).Reachable s) : Accounted s := by
  refine reached.invariant ?_ fun _ _ _ held step => accounted_step held (step_move step)
  rintro _ rfl
  exact ⟨fun _ => Or.inl, distinct⟩

/-- The callback has got the addresses of those that came, in their order; the others wait. -/
def Delivers (s : Listener) : Prop := (handed s.effects).map Prod.snd ++ s.backlog = s.arrived

theorem whole_address {peer : SockaddrIn} (room : 16 ≤ locals.len.toNat) :
    locals.addr.bzero.overwrite peer (min locals.len.toNat 16) = peer := by
  rw [overwrite_eq_iff]
  intro i behind inside
  omega

theorem delivers_step (delivers : Delivers s) (room : HasRoom action)
    (move : Move limit true s action t) : Delivers t := by
  unfold Delivers at delivers ⊢
  cases move with
  | connect => simp [← delivers]
  | fails _ => simpa [failure_hands_nothing] using delivers
  | drops _ negative => exact absurd room.1 (Int.not_le.mpr negative)
  | hands waiting _ _ _ =>
    rw [waiting] at delivers
    rw [whole_address room.2]
    simpa [handed] using delivers
  | closes _ _ none => cases none
  | openOther _ _ | close _ => exact delivers

/-- While the stack has room for the addresses, no connection is lost, doubled or overtaken
between the socket's queue and the callback, whatever else opens and closes descriptors and
however often the table is full; and no descriptor stays open that nobody knows of. -/
theorem no_connection_lost (distinct : start.Nodup)
    (reached : ((listenerSystem limit true start).restrict fun _ action => HasRoom action).Reachable
      s) : Delivers s ∧ Accounted s := by
  constructor
  · refine reached.invariant ?_ ?_
    · rintro _ rfl
      rfl
    · rintro _ _ _ delivers ⟨room, step⟩
      exact delivers_step delivers room (step_move step)
  · obtain ⟨first, actions, started, run⟩ := reached
    exact reachable_accounted distinct ⟨first, actions, started, run.unrestricted⟩

/-- Two connections come to a process that may have one descriptor beside the socket's; the
second is served when the first has been closed. -/
def twoConnections : List ListenerAction :=
  [.connect peer, .connect peer, .handleRead 4 0 ⟨peer, 16⟩, .handleRead 5 0 ⟨peer, 16⟩, .close 4,
    .handleRead 4 0 ⟨peer, 128⟩]

theorem second_connection_waits : ∃ s,
    ((listenerSystem 2 true [3]).restrict fun _ action => HasRoom action).Run
      { descriptors := [3], foreign := [3] } twoConnections s ∧
    Delivers s ∧ handed s.effects = [(4, peer), (4, peer)] := by
  have room : ∀ len : UInt32, len = 16 ∨ len = 128 → 0 ≤ len.toInt32.toInt ∧ 16 ≤ len.toNat := by
    rintro _ (rfl | rfl) <;> decide
  have run : ((listenerSystem 2 true [3]).restrict fun _ action => HasRoom action).Run
      { descriptors := [3], foreign := [3] } twoConnections _ :=
    .cons ⟨trivial, rfl⟩ (.cons ⟨trivial, rfl⟩ (.cons ⟨room 16 (Or.inl rfl), rfl⟩
      (.cons ⟨room 16 (Or.inl rfl), rfl⟩ (.cons ⟨trivial, rfl⟩
        (.cons ⟨room 128 (Or.inr rfl), rfl⟩ .nil)))))
  exact ⟨_, run, (no_connection_lost (by decide) ⟨_, _, rfl, run⟩).1, by decide⟩

/-! ### A full table -/

/-- How many calls of `handleRead` there are. -/
def calls (actions : List ListenerAction) : Nat :=
  actions.countP fun
    | .handleRead _ _ _ => true
    | _ => false

/-- The peers of the connections that come. -/
def peers (actions : List ListenerAction) : List SockaddrIn :=
  actions.filterMap fun
    | .connect peer => some peer
    | _ => none

theorem peers_cons (action : ListenerAction) (actions : List ListenerAction) :
    peers (action :: actions) = peers [action] ++ peers actions :=
  List.filterMap_append (l := [action])

/-- No descriptor is left, and a connection waits: `epoll_wait` reports the socket at once. -/
structure Stuck (limit : Nat) (s : Listener) : Prop where
  full : limit ≤ s.descriptors.length
  waiting : s.backlog ≠ []

/-- What a call logs then. -/
def lines : List AcceptorEffect :=
  [.logError (Acceptor.acceptError emfile), .logError (Acceptor.limitError emfile)]

theorem stuck_step (stuck : Stuck limit s) (kept : ∀ descriptor, action ≠ .close descriptor)
    (step : (listenerSystem limit hasCallback start).Step s action t) :
    Stuck limit t ∧ t.descriptors = s.descriptors ∧ t.backlog = s.backlog ++ peers [action] ∧
      t.effects = s.effects ++ (List.replicate (calls [action]) lines).flatten := by
  obtain ⟨full, waiting⟩ := stuck
  cases action with
  | connect peer =>
    cases step
    exact ⟨⟨full, by simp⟩, rfl, rfl, by simp [calls]⟩
  | handleRead descriptor errno locals =>
    obtain ⟨fresh, ran⟩ := Option.ite_none_left_eq_some.mp step
    rw [handleRead_fails (queue_full full), failure_logs] at ran
    cases ran
    exact ⟨⟨full, waiting⟩, rfl, by simp [peers], by simp [calls, lines]⟩
  | openOther descriptor =>
    obtain ⟨fresh, _⟩ := Option.ite_none_left_eq_some.mp step
    exact absurd (Or.inr full) fresh
  | close descriptor => exact absurd rfl (kept descriptor)

/-- Nothing but a close gets the acceptor out of a full table: until then every call logs two
lines, takes nothing from the queue, and leaves the socket readable. -/
theorem full_table_spins (stuck : Stuck limit s) {actions : List ListenerAction}
    (run : (listenerSystem limit hasCallback start).Run s actions t)
    (kept : ∀ descriptor, ListenerAction.close descriptor ∉ actions) :
    Stuck limit t ∧ t.descriptors = s.descriptors ∧ t.backlog = s.backlog ++ peers actions ∧
      t.effects = s.effects ++ (List.replicate (calls actions) lines).flatten := by
  induction run with
  | nil => exact ⟨stuck, rfl, by simp [peers], by simp [calls]⟩
  | @cons s middle t action actions step _ ih =>
    obtain ⟨still, same, joined, logged⟩ := stuck_step stuck
      (fun descriptor closes => kept descriptor (by simp [closes])) step
    obtain ⟨final, unchanged, queued, rest⟩ := ih still fun descriptor member =>
      kept descriptor (List.mem_cons_of_mem _ member)
    refine ⟨final, unchanged.trans same, ?_, ?_⟩
    · rw [queued, joined, peers_cons action actions, List.append_assoc]
    · have count : calls (action :: actions) = calls [action] + calls actions := by
        simp only [calls, List.countP_cons, List.countP_nil]
        omega
      rw [rest, logged, count, List.replicate_add, List.flatten_append, List.append_assoc]

/-- One connection waits, and the socket's descriptor is the only one there may be. -/
theorem one_waits_two_lines_each : ∃ s, (listenerSystem 1 true []).Run
    { descriptors := [3], backlog := [peer] }
    [.handleRead 4 0 ⟨peer, 16⟩, .connect peer, .handleRead 4 0 ⟨peer, 16⟩] s ∧
    s.backlog = [peer, peer] ∧ s.effects = lines ++ lines := by
  have run : (listenerSystem 1 true []).Run { descriptors := [3], backlog := [peer] }
      [.handleRead 4 0 ⟨peer, 16⟩, .connect peer, .handleRead 4 0 ⟨peer, 16⟩] _ :=
    .cons rfl (.cons rfl (.cons rfl .nil))
  exact ⟨_, run, (full_table_spins ⟨by decide, by simp⟩ run (by simp)).2.2⟩

end MiniMuduo.AcceptorBacklog
