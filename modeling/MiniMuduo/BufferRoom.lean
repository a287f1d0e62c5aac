import MiniMuduo.BufferRefinement

/-! What `ensureWritableBytes` promises, for every `size_t`. The sums with `len` in it wrap:
where `len + kCheapPrepend` does, the size test passes for want of a summand; where
`writerIndex_ + len` does, the vector is cut to what is left of the sum. -/
namespace MiniMuduo.BufferRoom
open Buffer BufferRefinement

variable {b after : Buffer} {len : UInt64}

/-- Either it throws, before anything has changed, or there is room for `len` bytes behind
the same content in a vector that has not shrunk. -/
def KeepsPromise (b : Buffer) (len : UInt64) : Prop :=
  match b.ensureWritableBytes len with
  | .error fault => fault = .lengthError
  | .ok after => len ≤ after.writableBytes ∧ after.content = b.content ∧ Layout after ∧
      b.buffer.length ≤ after.buffer.length

/-- The promise, for every buffer that can be and every `size_t`. -/
def RoomPromised : Prop :=
  ∀ (b : Buffer) (len : UInt64), b.WellFormed → KeepsPromise b len

/-- Where the longer sum does not wrap, neither does the other. -/
theorem fits_of_grown (wellFormed : b.WellFormed)
    (grown : b.writerIndex.toNat + len.toNat < 2 ^ 64) : b.Fits len := by
  have prepend := wellFormed.prepend
  have ordered := wellFormed.ordered
  exact ⟨by omega, grown⟩

theorem promise_of_roomFor (room : b.RoomFor len after) : len ≤ after.writableBytes ∧
    after.content = b.content ∧ Layout after ∧ b.buffer.length ≤ after.buffer.length := by
  refine ⟨UInt64.le_iff_toNat_le.mpr ?_, room.content, wellFormed_layout room.wellFormed,
    room.size⟩
  have enough := room.room
  rw [writableBytes_toNat room.wellFormed]
  omega

/-- No vector offers as much as a sum that wraps asks for. -/
theorem wrapped_short (wellFormed : b.WellFormed)
    (wraps : 2 ^ 64 ≤ b.writerIndex.toNat + len.toNat) (layout : Layout after)
    (same : after.buffer.length = b.buffer.length) : after.writableBytes < len := by
  have inside := wellFormed.inside
  have bounded := wellFormed.bounded
  have size : after.size.toNat = b.buffer.length := by
    rw [size, same]
    exact size_toNat wellFormed
  rw [UInt64.lt_iff_toNat_lt, writableBytes, UInt64.toNat_sub_of_le _ _ layout.2.2, size]
  unfold vectorMaxSize at bounded
  omega

/-- The new size is a small one, below `writerIndex_`. -/
theorem wrapped_target (wraps : 2 ^ 64 ≤ b.writerIndex.toNat + len.toNat) :
    (b.writerIndex + len).toNat < b.writerIndex.toNat := by
  have word := len.toNat_lt
  rw [UInt64.toNat_add]
  omega

/-- Where the sum wraps, the call returns without the room, or with less vector. -/
theorem wrapped_breaks (wellFormed : b.WellFormed)
    (wraps : 2 ^ 64 ≤ b.writerIndex.toNat + len.toNat) : ¬ KeepsPromise b len := by
  have inside := wellFormed.inside
  have bounded := wellFormed.bounded
  have target := wrapped_target wraps
  intro kept
  unfold KeepsPromise at kept
  cases ran : b.ensureWritableBytes len with
  | error fault =>
    rw [ran] at kept
    obtain rfl : fault = .lengthError := kept
    have large := (ensureWritableBytes_throws ran).2
    omega
  | ok after =>
    rw [ran] at kept
    obtain ⟨enough, -, layout, larger⟩ := kept
    rcases ensureWritableBytes_length ran with ⟨_, cut⟩ | ⟨_, same⟩
    · omega
    · exact absurd (wrapped_short wellFormed wraps layout same) (UInt64.not_lt.mpr enough)

/-- `ensureWritableBytes` keeps its promise exactly if `writerIndex_ + len` does not wrap. -/
theorem promise_kept_iff (wellFormed : b.WellFormed) (len : UInt64) :
    KeepsPromise b len ↔ b.writerIndex.toNat + len.toNat < 2 ^ 64 := by
  constructor
  · intro kept
    by_contra wraps
    exact wrapped_breaks wellFormed (Nat.le_of_not_lt wraps) kept
  · intro grown
    have fits := fits_of_grown wellFormed grown
    unfold KeepsPromise
    rcases ensureWritableBytes_spec wellFormed fits with ⟨after, ran, room⟩ | ⟨threw, _⟩
    · rw [ran]
      exact promise_of_roomFor room
    · rw [threw]

/-- `Buffer(2)` with one byte in it. -/
def oneByte : Buffer := ⟨List.replicate 8 0 ++ [97, 0], 8, 9⟩

theorem oneByte_wellFormed : oneByte.WellFormed :=
  ⟨by decide, by decide, by decide, by decide⟩

/-- Room for two more bytes. -/
theorem small_request_kept : KeepsPromise oneByte 2 :=
  (promise_kept_iff oneByte_wellFormed 2).mpr (by decide)

/-- With nine less than `2 ^ 64` the vector becomes empty under its one byte. -/
theorem wrapped_request_empties : ¬ RoomPromised := by
  intro promised
  have emptied : oneByte.ensureWritableBytes 18446744073709551607 = .ok ⟨[], 8, 9⟩ := by rfl
  have kept := promised oneByte 18446744073709551607 oneByte_wellFormed
  rw [KeepsPromise, emptied] at kept
  exact absurd kept.2.2.2 (by decide)

end MiniMuduo.BufferRoom
