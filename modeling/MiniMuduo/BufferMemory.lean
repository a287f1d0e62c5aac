import MiniMuduo.BufferReadFd
import MiniMuduo.BufferRefinement

/-! The memory of a `Buffer`. `makeSpace` grows to `writerIndex_ + len` without
reclaiming what was consumed; it does so only when the consumed prefix is itself no
longer than `len` and the reserve, so that a bounded backlog means a bounded vector. -/
namespace MiniMuduo.BufferMemory
open Buffer BufferRefinement

variable {b after : Buffer} {len : UInt64} {data bytes : List Byte}

/-- Making room leaves the size alone, or the vector was too short for `len` and the
consumed prefix not worth moving. -/
theorem ensureWritableBytes_size (wellFormed : b.WellFormed) (fits : b.Fits len)
    (ran : b.ensureWritableBytes len = .ok after) :
    after.buffer.length = b.buffer.length ∨
      (b.buffer.length < b.writerIndex.toNat + len.toNat ∧
        b.buffer.length - b.writerIndex.toNat + b.readerIndex.toNat ≤ len.toNat + 8 ∧
        after.buffer.length = b.writerIndex.toNat + len.toNat) := by
  rcases ensureWritableBytes_length ran with ⟨grows, length⟩ | ⟨_, same⟩
  · obtain ⟨short, tight⟩ := (reallocates_iff wellFormed fits.reserve).mp grows
    rw [add_toNat fits.grown] at length
    exact Or.inr ⟨by omega, tight, length⟩
  · exact Or.inl same

/-- `append` itself writes into what it was given. -/
theorem append_size (ran : b.append data len = .ok after) :
    ∃ roomy, b.ensureWritableBytes len = .ok roomy ∧
      after.buffer.length = roomy.buffer.length := by
  obtain ⟨roomy, ensured, ran⟩ := Except.bind_eq_ok ran
  obtain ⟨written, copied, ran⟩ := Except.bind_eq_ok ran
  obtain rfl := Except.ok.inj ran
  exact ⟨roomy, ensured, ForwardCopy.copyFrom_length (inBounds_eq_ok copied)⟩

/-- The vector did not shrink, and grew at most to twice the backlog and the reserve. -/
def GrowsTo (backlog : Nat) (b after : Buffer) : Prop :=
  b.buffer.length ≤ after.buffer.length ∧
    after.buffer.length ≤ max b.buffer.length (2 * backlog + 8)

variable {backlog : Nat}

theorem growsTo_of_length (same : after.buffer.length = b.buffer.length) :
    GrowsTo backlog b after :=
  ⟨Nat.le_of_eq same.symm, by rw [same]; exact Nat.le_max_left _ _⟩

/-- What an append grows to is at most twice what it then holds. -/
theorem append_grows (wellFormed : b.WellFormed) (fits : b.Fits len)
    (holds : b.readableBytes.toNat + len.toNat ≤ backlog) (ran : b.append data len = .ok after) :
    GrowsTo backlog b after := by
  have ordered := wellFormed.ordered
  rw [readableBytes_toNat wellFormed] at holds
  obtain ⟨roomy, ensured, length⟩ := append_size ran
  rcases ensureWritableBytes_size wellFormed fits ensured with same | ⟨short, tight, grown⟩
  · exact growsTo_of_length (length.trans same)
  · unfold GrowsTo
    omega

/-- The calls whose memory is counted. -/
inductive MemoryCall where
  | append (data : List Byte) (len : UInt64)
  | readFd (call : Readv)
  | retrieve (len : UInt64)
  | retrieveAll
  deriving DecidableEq, Repr

/-- The buffer a call leaves, whether it returned or threw. -/
def left (b : Buffer) : MemoryCall → Buffer
  | .append data len =>
    match b.append data len with
    | .ok after => after
    | .error _ => b
  | .readFd call =>
    match b.readFd call with
    | .ok (_, _, after) => after
    | .error _ => b.readFdThrown call
  | .retrieve len => b.retrieve len
  | .retrieveAll => b.retrieveAll

/-- What comes in together with the content is within the backlog; the data is there,
the kernel keeps its side, and no sum wraps. -/
def WithinBacklog (backlog : Nat) (b : Buffer) : MemoryCall → Prop
  | .append data len => len.toNat ≤ data.length ∧ b.Fits len ∧
      b.readableBytes.toNat + len.toNat ≤ backlog
  | .readFd call => b.Possible call ∧ ∀ bytes, call.result = .delivered bytes →
      b.readableBytes.toNat + bytes.length ≤ backlog
  | .retrieve _ | .retrieveAll => True

/-- A buffer under any such calls, from its constructor on. -/
def memorySystem (initialSize : UInt64) (backlog : Nat) : StepSystem Buffer MemoryCall where
  Start b := Buffer.new initialSize = .ok b
  Step b call next := WithinBacklog backlog b call ∧ next = left b call

theorem left_append (wellFormed : b.WellFormed) (fits : b.Fits len)
    (source : len.toNat ≤ data.length) (holds : b.readableBytes.toNat + len.toNat ≤ backlog) :
    (left b (.append data len)).WellFormed ∧ GrowsTo backlog b (left b (.append data len)) := by
  rcases append_spec wellFormed fits data source with ⟨after, ran, kept, _⟩ | ⟨threw, _⟩
  · simp only [left, ran]
    exact ⟨kept, append_grows wellFormed fits holds ran⟩
  · simp only [left, threw]
    exact ⟨wellFormed, growsTo_of_length rfl⟩

/-- Filling the tail and appending the rest takes no more than one append would. -/
theorem left_readFd {call : Readv} (wellFormed : b.WellFormed) (possible : b.Possible call)
    (holds : ∀ bytes, call.result = .delivered bytes →
      b.readableBytes.toNat + bytes.length ≤ backlog) :
    (left b (.readFd call)).WellFormed ∧ GrowsTo backlog b (left b (.readFd call)) := by
  cases result : call.result with
  | error errno =>
    simp only [left, readFd_failed result]
    exact ⟨wellFormed, growsTo_of_length rfl⟩
  | delivered bytes =>
    have within := possible.within bytes result
    by_cases fits : UInt64.ofNat bytes.length < b.writableBytes
    · obtain ⟨after, kept, _, same, ran⟩ := readFd_within wellFormed within fits
      simp only [left, ran call result]
      exact ⟨kept, growsTo_of_length same⟩
    · obtain ⟨full, filled, ran⟩ := readFd_beyond wellFormed within fits
      obtain ⟨thrown, read⟩ := ran call possible result
      have same := filled.2.2.1
      have room := filled_fits wellFormed filled within
      have word := overflow_word within
      have inner : full.readableBytes.toNat + (UInt64.ofNat (b.overflow bytes).length).toNat ≤
          backlog := by
        have total := holds bytes result
        rw [← content_length filled.1, filled.2.1, word, overflow, List.length_append,
          content_length wellFormed, List.length_take, List.length_drop]
        omega
      rcases append_spec filled.1 room (b.overflow bytes) (Nat.le_of_eq word) with
        ⟨after, appended, kept, _⟩ | ⟨threw, _⟩
      · have grows := append_grows filled.1 room inner appended
        have returned : b.readFd call = .ok (↑bytes.length, none, after) := by
          rw [read, appended]
          rfl
        simp only [left, returned]
        exact ⟨kept, by unfold GrowsTo at grows ⊢; omega⟩
      · have failed : b.readFd call = .error .lengthError := by
          rw [read, threw]
          rfl
        simp only [left, failed, thrown]
        exact ⟨filled.1, growsTo_of_length same⟩

/-- Every call keeps the layout and the bound. -/
theorem left_grows {call : MemoryCall} (wellFormed : b.WellFormed)
    (within : WithinBacklog backlog b call) :
    (left b call).WellFormed ∧ GrowsTo backlog b (left b call) := by
  cases call with
  | append data len => exact left_append wellFormed within.2.1 within.1 within.2.2
  | readFd call => exact left_readFd wellFormed within.1 within.2
  | retrieve len =>
    refine ⟨retrieve_wellFormed wellFormed, growsTo_of_length ?_⟩
    simp only [left, retrieve]
    split <;> rfl
  | retrieveAll => exact ⟨retrieveAll_wellFormed wellFormed, growsTo_of_length rfl⟩

variable {initialSize : UInt64}

/-- What every reachable buffer keeps. -/
def Bounded (initialSize : UInt64) (backlog : Nat) (b : Buffer) : Prop :=
  b.WellFormed ∧
    b.buffer.length ≤ max (initialSize.toNat + kCheapPrepend.toNat)
      (2 * backlog + kCheapPrepend.toNat)

theorem new_bounded (unwrapped : kCheapPrepend.toNat + initialSize.toNat ≤ 2 ^ 64 - 1)
    (constructed : Buffer.new initialSize = .ok b) : Bounded initialSize backlog b := by
  rw [kCheapPrepend_toNat] at unwrapped
  have small : kCheapPrepend.toNat + initialSize.toNat < 2 ^ 64 := by
    rw [kCheapPrepend_toNat]
    omega
  refine ⟨(new_wellFormed (by omega) constructed).1, ?_⟩
  obtain ⟨vector, resized, made⟩ := Except.bind_eq_ok constructed
  obtain rfl := Except.ok.inj made
  have length := vectorResize_length resized
  rw [add_toNat small] at length
  show vector.length ≤ _
  omega

theorem left_bounded {call : MemoryCall} (bounded : Bounded initialSize backlog b)
    (within : WithinBacklog backlog b call) : Bounded initialSize backlog (left b call) := by
  obtain ⟨wellFormed, small⟩ := bounded
  obtain ⟨kept, _, most⟩ := left_grows wellFormed within
  refine ⟨kept, ?_⟩
  simp only [kCheapPrepend_toNat] at small ⊢
  omega

/-- However long the run, the vector never shrinks and never exceeds what the
constructor made or twice the backlog and the reserve. -/
theorem memory_bounded_by_backlog (initialSize : UInt64) (backlog : Nat)
    (unwrapped : kCheapPrepend.toNat + initialSize.toNat ≤ 2 ^ 64 - 1)
    (reached : (memorySystem initialSize backlog).Reachable b) :
    b.size.toNat ≤
        max (initialSize.toNat + kCheapPrepend.toNat) (2 * backlog + kCheapPrepend.toNat) ∧
      ∀ call next, (memorySystem initialSize backlog).Step b call next →
        b.size.toNat ≤ next.size.toNat := by
  have bounded : Bounded initialSize backlog b :=
    reached.invariant (fun _ start => new_bounded unwrapped start) (by
      rintro _ _ _ bounded ⟨within, rfl⟩
      exact left_bounded bounded within)
  refine ⟨by rw [size_toNat bounded.1]; exact bounded.2, ?_⟩
  rintro call _ ⟨within, rfl⟩
  obtain ⟨kept, least, _⟩ := left_grows bounded.1 within
  rw [size_toNat bounded.1, size_toNat kept]
  exact least

/-- `Buffer(0)` and a backlog of two: two bytes, both consumed, two more. -/
theorem two_bytes_twice :
    UInt64.toNat (size ⟨List.replicate 8 0 ++ [99, 100], 8, 10⟩) ≤
      max ((0 : UInt64).toNat + kCheapPrepend.toNat) (2 * 2 + kCheapPrepend.toNat) := by
  have first : WithinBacklog 2 ⟨List.replicate 8 0, 8, 8⟩ (.append [97, 98] 2) :=
    ⟨by decide, ⟨by decide, by decide⟩, by decide⟩
  have second : WithinBacklog 2 ⟨List.replicate 8 0 ++ [97, 98], 8, 8⟩ (.append [99, 100] 2) :=
    ⟨by decide, ⟨by decide, by decide⟩, by decide⟩
  have run : (memorySystem 0 2).Run ⟨List.replicate 8 0, 8, 8⟩
      [.append [97, 98] 2, .retrieve 2, .append [99, 100] 2]
      ⟨List.replicate 8 0 ++ [99, 100], 8, 10⟩ :=
    .cons ⟨first, by rfl⟩ (.cons ⟨trivial, by rfl⟩ (.cons ⟨second, by rfl⟩ .nil))
  exact (memory_bounded_by_backlog 0 2 (by decide) ⟨_, _, by rfl, run⟩).1

end MiniMuduo.BufferMemory
