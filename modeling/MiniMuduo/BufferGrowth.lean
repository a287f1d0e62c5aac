import MiniMuduo.BufferMemory

/-! When the vector grows. `makeSpace` compares the free space with what it needs by `<=`:
an append that would fill the buffer to the last byte, after a compaction, reallocates it. -/
namespace MiniMuduo.BufferGrowth
open Buffer BufferRefinement BufferMemory

variable {first b next : Buffer} {initialSize len : UInt64} {data : List Byte}

inductive RoomCall where
  | append (data : List Byte) (len : UInt64)
  | retrieve (len : UInt64)
  deriving DecidableEq, Repr

def perform (b : Buffer) : RoomCall → Except Fault Buffer
  | .append data len => b.append data len
  | .retrieve len => .ok (b.retrieve len)

variable {call : RoomCall} {calls : List RoomCall}

/-- The content and what comes in fit the size that was asked for; the data is there. -/
def Within (initialSize : UInt64) (b : Buffer) : RoomCall → Prop
  | .append data len => len.toNat ≤ data.length ∧
      b.readableBytes.toNat + len.toNat ≤ initialSize.toNat
  | .retrieve _ => True

/-- A `Buffer(initialSize)` under such calls. -/
def roomSystem (initialSize : UInt64) : StepSystem Buffer RoomCall where
  Start b := Buffer.new initialSize = .ok b
  Step b call next := Within initialSize b call ∧ perform b call = .ok next

/-- `buffer_.size()` is what the constructor was asked for and the reserve. -/
def Sized (initialSize : UInt64) (b : Buffer) : Prop :=
  b.buffer.length = initialSize.toNat + kCheapPrepend.toNat

/-- The call returns, and the size is as before. -/
def Keeps (initialSize : UInt64) (b : Buffer) (call : RoomCall) : Prop :=
  ∃ next, perform b call = .ok next ∧ Sized initialSize next

/-- The vector grows only when the data cannot fit. -/
def NeverGrows (initialSize : UInt64) : Prop :=
  ∀ b, (roomSystem initialSize).Reachable b → Sized initialSize b ∧
    ∀ call, Within initialSize b call → Keeps initialSize b call

/-- An append leaves a byte free, or does not need more than there is behind the content. -/
def LeavesSpare (initialSize : UInt64) (b : Buffer) : RoomCall → Prop
  | .append _ len => b.readableBytes.toNat + len.toNat < initialSize.toNat ∨
      len ≤ b.writableBytes
  | .retrieve _ => True

theorem new_sized_iff (start : Buffer.new initialSize = .ok first) :
    Sized initialSize first ↔ initialSize.toNat + kCheapPrepend.toNat < 2 ^ 64 := by
  have word := initialSize.toNat_lt
  obtain ⟨vector, resized, made⟩ := Except.bind_eq_ok start
  obtain rfl := Except.ok.inj made
  have length := vectorResize_length resized
  rw [UInt64.toNat_add] at length
  show vector.length = _ ↔ _
  rw [kCheapPrepend_toNat] at length ⊢
  omega

/-- In a buffer of this size, no sum wraps for what is within it. -/
theorem within_fits (wellFormed : b.WellFormed) (sized : Sized initialSize b)
    (within : Within initialSize b (.append data len)) : b.Fits len := by
  have ordered := wellFormed.ordered
  have inside := wellFormed.inside
  have bounded := wellFormed.bounded
  have content := within.2
  unfold Sized at sized
  rw [kCheapPrepend_toNat] at sized
  unfold vectorMaxSize at bounded
  exact ⟨by omega, by omega⟩

/-- And the two tests find too little room exactly if no byte would stay free. -/
theorem reallocates_iff_full (wellFormed : b.WellFormed) (sized : Sized initialSize b)
    (within : Within initialSize b (.append data len)) :
    b.Reallocates len ↔ ¬ LeavesSpare initialSize b (.append data len) := by
  have ordered := wellFormed.ordered
  have inside := wellFormed.inside
  have fits := within_fits wellFormed sized within
  have content := within.2
  unfold Sized at sized
  rw [readableBytes_toNat wellFormed] at content
  rw [kCheapPrepend_toNat] at sized
  rw [reallocates_iff wellFormed fits.reserve, LeavesSpare, readableBytes_toNat wellFormed,
    UInt64.le_iff_toNat_le, writableBytes_toNat wellFormed]
  omega

theorem append_throws (threw : b.append data len = .error .lengthError) : b.Reallocates len := by
  cases ensured : b.ensureWritableBytes len with
  | error fault =>
    rw [append, ensured] at threw
    obtain rfl : fault = .lengthError := Except.error.inj threw
    exact (ensureWritableBytes_throws ensured).1
  | ok roomy =>
    rw [append, ensured] at threw
    cases copied : ForwardCopy.copyFrom data roomy.buffer 0 roomy.beginWrite len.toNat with
    | none =>
      simp only [bind, Except.bind, copied] at threw
      cases threw
    | some written =>
      simp only [bind, Except.bind, copied] at threw
      cases threw

/-- An append that reallocates leaves another size. -/
theorem reallocated_size (wellFormed : b.WellFormed) (fits : b.Fits len)
    (grows : b.Reallocates len) (ran : b.append data len = .ok next) :
    b.buffer.length < next.buffer.length := by
  obtain ⟨roomy, ensured, length⟩ := append_size ran
  obtain ⟨short, _⟩ := (reallocates_iff wellFormed fits.reserve).mp grows
  rcases ensureWritableBytes_length ensured with ⟨_, target⟩ | ⟨stays, _⟩
  · rw [add_toNat fits.grown] at target
    omega
  · exact absurd grows stays

theorem append_keeps_iff (wellFormed : b.WellFormed) (sized : Sized initialSize b)
    (within : Within initialSize b (.append data len)) :
    Keeps initialSize b (.append data len) ↔ LeavesSpare initialSize b (.append data len) := by
  have fits := within_fits wellFormed sized within
  have full := reallocates_iff_full wellFormed sized within
  constructor
  · rintro ⟨next, ran, same⟩
    by_contra spare
    have grown := reallocated_size wellFormed fits (full.mpr spare) ran
    unfold Sized at sized same
    omega
  · intro spare
    have stays : ¬ b.Reallocates len := fun grows => full.mp grows spare
    rcases append_spec wellFormed fits data within.1 with ⟨next, ran, _⟩ | ⟨threw, _⟩
    · refine ⟨next, ran, ?_⟩
      obtain ⟨roomy, ensured, length⟩ := append_size ran
      rcases ensureWritableBytes_length ensured with ⟨grows, _⟩ | ⟨_, same⟩
      · exact absurd grows stays
      · exact (length.trans same).trans sized
    · exact absurd (append_throws threw) stays

theorem retrieve_sized (sized : Sized initialSize b) : Sized initialSize (b.retrieve len) := by
  unfold retrieve
  split <;> exact sized

theorem keeps_iff (wellFormed : b.WellFormed) (sized : Sized initialSize b)
    (within : Within initialSize b call) :
    Keeps initialSize b call ↔ LeavesSpare initialSize b call := by
  cases call with
  | append data len => exact append_keeps_iff wellFormed sized within
  | retrieve len => exact ⟨fun _ => trivial, fun _ => ⟨_, rfl, retrieve_sized sized⟩⟩

theorem perform_wellFormed (wellFormed : b.WellFormed) (sized : Sized initialSize b)
    (within : Within initialSize b call) (ran : perform b call = .ok next) : next.WellFormed := by
  cases call with
  | append data len =>
    have fits := within_fits wellFormed sized within
    rcases append_spec wellFormed fits data within.1 with ⟨after, done, kept, _⟩ | ⟨threw, _⟩
    · obtain rfl := Except.ok.inj (done.symm.trans ran)
      exact kept
    · cases threw.symm.trans ran
  | retrieve len =>
    obtain rfl := Except.ok.inj ran
    exact retrieve_wellFormed wellFormed

/-- What every call keeps that does not fill the vector from the front. -/
structure Steady (initialSize : UInt64) (b : Buffer) : Prop where
  wellFormed : b.WellFormed
  sized : Sized initialSize b

theorem steady_step (steady : Steady initialSize b)
    (step : ((roomSystem initialSize).restrict (LeavesSpare initialSize)).Step b call next) :
    Steady initialSize next := by
  obtain ⟨wellFormed, sized⟩ := steady
  obtain ⟨spare, within, ran⟩ := step
  obtain ⟨after, done, same⟩ := (keeps_iff wellFormed sized within).mpr spare
  obtain rfl := Except.ok.inj (done.symm.trans ran)
  exact ⟨perform_wellFormed wellFormed sized within ran, same⟩

/-- A `Buffer(initialSize)` has its size exactly if the constructor's sum does not wrap. It
then keeps it, and at every further call within that size exactly if the call is no append
that fills the vector from the front. -/
theorem size_kept_iff (start : Buffer.new initialSize = .ok first)
    (run : ((roomSystem initialSize).restrict (LeavesSpare initialSize)).Run first calls b) :
    (Sized initialSize first ↔ initialSize.toNat + kCheapPrepend.toNat < 2 ^ 64) ∧
      (initialSize.toNat + kCheapPrepend.toNat < 2 ^ 64 → Sized initialSize b ∧
        ∀ call, Within initialSize b call →
          (Keeps initialSize b call ↔ LeavesSpare initialSize b call)) := by
  have constructed := new_sized_iff start
  refine ⟨constructed, fun unwrapped => ?_⟩
  have begins : Steady initialSize first := by
    refine ⟨(new_wellFormed ?_ start).1, constructed.mpr unwrapped⟩
    rwa [kCheapPrepend_toNat, Nat.add_comm] at unwrapped
  have steady : Steady initialSize b := run.invariant (fun _ _ _ => steady_step) begins
  exact ⟨steady.sized, fun call within => keeps_iff steady.wellFormed steady.sized within⟩

/-- `Buffer(4)`: four bytes, two of them consumed, and one more, for which the two that are
left have to move to the front. -/
theorem three_of_four_kept : Sized 4 ⟨List.replicate 8 0 ++ [99, 100, 101, 100], 8, 11⟩ := by
  have run : ((roomSystem 4).restrict (LeavesSpare 4)).Run ⟨List.replicate 12 0, 8, 8⟩
      [.append [97, 98, 99, 100] 4, .retrieve 2, .append [101] 1]
      ⟨List.replicate 8 0 ++ [99, 100, 101, 100], 8, 11⟩ :=
    .cons ⟨Or.inr (by decide), ⟨by decide, by decide⟩, by rfl⟩ <|
    .cons ⟨trivial, trivial, by rfl⟩ <|
    .cons ⟨Or.inl (by decide), ⟨by decide, by decide⟩, by rfl⟩ .nil
  exact ((size_kept_iff (by rfl) run).2 (by decide)).1

/-- `Buffer(2)`: two bytes, one of them consumed, and one more, which fits. -/
theorem full_buffer_grows : ¬ ∀ initialSize, NeverGrows initialSize := by
  intro never
  have run : (roomSystem 2).Run ⟨List.replicate 10 0, 8, 8⟩
      [.append [97, 98] 2, .retrieve 1] ⟨List.replicate 8 0 ++ [97, 98], 9, 10⟩ :=
    .cons ⟨⟨by decide, by decide⟩, by rfl⟩ (.cons ⟨trivial, by rfl⟩ .nil)
  have within : Within 2 ⟨List.replicate 8 0 ++ [97, 98], 9, 10⟩ (.append [99] 1) :=
    ⟨by decide, by decide⟩
  obtain ⟨next, ran, same⟩ := (never 2 _ ⟨_, _, by rfl, run⟩).2 _ within
  have grown : perform ⟨List.replicate 8 0 ++ [97, 98], 9, 10⟩ (.append [99] 1) =
      .ok ⟨List.replicate 8 0 ++ [97, 98, 99], 9, 11⟩ := by rfl
  obtain rfl := Except.ok.inj (grown.symm.trans ran)
  have length : 11 = 10 := same
  cases length

end MiniMuduo.BufferGrowth
