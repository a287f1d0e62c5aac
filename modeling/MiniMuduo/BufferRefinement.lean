import MiniMuduo.BufferProofs
import MiniMuduo.Library.StepSystem

/-! Whatever is called on it and in whatever order, a `Buffer` is a plain queue of
bytes: every run of calls, with everything the caller sees of it, is a run of the
queue, and the queue's content is what lies between the two indices. -/
namespace MiniMuduo.BufferRefinement
open Buffer

/-- A call of the public interface. -/
inductive Call where
  | append (data : List Byte) (len : UInt64)
  | retrieve (len : UInt64)
  | retrieveAll
  | retrieveAllAsString
  | retrieveAsString (len : UInt64)
  | ensureWritableBytes (len : UInt64)
  deriving DecidableEq, Repr

/-- What the caller sees: a plain return, a string with the errors logged on the
way, or a fault. -/
inductive Outcome where
  | done
  | returned (text : List Byte) (errors : List String)
  | threw (fault : Fault)
  deriving DecidableEq, Repr

/-- A call that faults leaves the caller with the buffer as it was. -/
def afterUpdate (b : Buffer) : Except Fault Buffer → Outcome × Buffer
  | .ok after => (.done, after)
  | .error fault => (.threw fault, b)

def afterRetrieval (b : Buffer) : Except Fault Retrieved → Outcome × Buffer
  | .ok retrieved => (.returned retrieved.text retrieved.errors, retrieved.rest)
  | .error fault => (.threw fault, b)

def perform (b : Buffer) : Call → Outcome × Buffer
  | .append data len => afterUpdate b (b.append data len)
  | .retrieve len => (.done, b.retrieve len)
  | .retrieveAll => (.done, b.retrieveAll)
  | .retrieveAllAsString => afterRetrieval b b.retrieveAllAsString
  | .retrieveAsString len => afterRetrieval b (b.retrieveAsString len)
  | .ensureWritableBytes len => afterUpdate b (b.ensureWritableBytes len)

/-- `writerIndex_ + len + kCheapPrepend` does not exceed `2 ^ 64 - 1`. -/
def NoWrap (b : Buffer) (len : UInt64) : Prop :=
  b.writerIndex.toNat + len.toNat + kCheapPrepend.toNat ≤ 2 ^ 64 - 1

/-- What a caller has to respect: `data` holds `len` bytes, no sum wraps, and a
string is asked for within the content. -/
def Allowed (b : Buffer) : Call → Prop
  | .append data len => len.toNat ≤ data.length ∧ NoWrap b len
  | .retrieveAsString len => len ≤ b.readableBytes
  | .ensureWritableBytes len => NoWrap b len
  | .retrieve _ | .retrieveAll | .retrieveAllAsString => True

/-- A buffer under any allowed calls, from its constructor on. -/
def bufferSystem (initialSize : UInt64) : StepSystem Buffer (Call × Outcome) where
  Start b := Buffer.new initialSize = .ok b
  Step b label next := Allowed b label.1 ∧ perform b label.1 = (label.2, next)

/-- The same calls on a queue of bytes. No call touches memory outside an array;
the two calls that may grow the vector may be refused, and then change nothing. -/
inductive QueueStep : List Byte → Call × Outcome → List Byte → Prop where
  | append {queue data : List Byte} {len : UInt64} :
      QueueStep queue (.append data len, .done) (queue ++ data.take len.toNat)
  | retrieve {queue : List Byte} {len : UInt64} :
      QueueStep queue (.retrieve len, .done) (queue.drop (min len.toNat queue.length))
  | retrieveAll {queue : List Byte} : QueueStep queue (.retrieveAll, .done) []
  | retrieveAllAsString {queue : List Byte} :
      QueueStep queue (.retrieveAllAsString, .returned queue []) []
  | retrieveAsString {text rest : List Byte} {len : UInt64} :
      text.length = len.toNat →
      QueueStep (text ++ rest) (.retrieveAsString len, .returned text []) rest
  | ensureWritableBytes {queue : List Byte} {len : UInt64} :
      QueueStep queue (.ensureWritableBytes len, .done) queue
  | appendRefused {queue data : List Byte} {len : UInt64} :
      QueueStep queue (.append data len, .threw .lengthError) queue
  | ensureRefused {queue : List Byte} {len : UInt64} :
      QueueStep queue (.ensureWritableBytes len, .threw .lengthError) queue

def byteQueue : StepSystem (List Byte) (Call × Outcome) where
  Start queue := queue = []
  Step := QueueStep

/-- `kCheapPrepend <= readerIndex_ <= writerIndex_ <= buffer_.size()`. -/
def Layout (b : Buffer) : Prop :=
  kCheapPrepend ≤ b.readerIndex ∧ b.readerIndex ≤ b.writerIndex ∧ b.writerIndex ≤ b.size

/-- The vector would have to grow beyond `max_size()`. -/
def TooLarge (b : Buffer) : Call → Prop
  | .append _ len | .ensureWritableBytes len => vectorMaxSize < b.writerIndex.toNat + len.toNat
  | .retrieve _ | .retrieveAll | .retrieveAllAsString | .retrieveAsString _ => False

/-- After every run of allowed calls the indices are in order, the run is one of
the queue ending in the content, and the next call is refused only when the
vector cannot hold what it asks for. -/
def RefinesQueue (initialSize : UInt64) : Prop :=
  ∀ first trace b, (bufferSystem initialSize).Start first →
    (bufferSystem initialSize).Run first trace b →
    Layout b ∧ byteQueue.Run [] trace b.content ∧
      ∀ call fault, Allowed b call → (perform b call).1 = .threw fault → TooLarge b call

theorem noWrap_fits (allowed : NoWrap b len) : b.Fits len := by
  unfold NoWrap at allowed
  rw [kCheapPrepend_toNat] at allowed
  exact ⟨by omega, by omega⟩

theorem wellFormed_layout (wellFormed : b.WellFormed) : Layout b := by
  refine ⟨UInt64.le_iff_toNat_le.mpr wellFormed.prepend,
    UInt64.le_iff_toNat_le.mpr wellFormed.ordered, UInt64.le_iff_toNat_le.mpr ?_⟩
  rw [size_toNat wellFormed]
  exact wellFormed.inside

private theorem afterUpdate_outcome {result : Except Fault Buffer} {bytes : List Byte}
    (spec : (∃ after, result = .ok after ∧ after.WellFormed ∧ after.content = bytes) ∨
      (result = .error .lengthError ∧ large)) :
    ((afterUpdate b result).1 = .done ∧ (afterUpdate b result).2.WellFormed ∧
        (afterUpdate b result).2.content = bytes) ∨
      (afterUpdate b result = (.threw .lengthError, b) ∧ large) := by
  rcases spec with ⟨after, rfl, kept, same⟩ | ⟨rfl, large⟩
  · exact Or.inl ⟨rfl, kept, same⟩
  · exact Or.inr ⟨rfl, large⟩

/-- One allowed call is one step of the queue, and it is refused only for size. -/
theorem perform_refines (wellFormed : b.WellFormed) (allowed : Allowed b call) :
    (perform b call).2.WellFormed ∧
      QueueStep b.content (call, (perform b call).1) (perform b call).2.content ∧
      ∀ fault, (perform b call).1 = .threw fault → TooLarge b call := by
  cases call with
  | append data len =>
    have spec := append_spec wellFormed (noWrap_fits allowed.2) data allowed.1
    rcases afterUpdate_outcome (b := b) spec with ⟨done, kept, same⟩ | ⟨threw, large⟩
    · refine ⟨kept, ?_, by simp [perform, done]⟩
      simpa only [perform, done, same] using QueueStep.append
    · simpa only [perform, threw] using ⟨wellFormed, .appendRefused, fun _ _ => large⟩
  | retrieve len =>
    have dropped : b.content.drop (min len.toNat b.content.length) = b.content.drop len.toNat :=
      List.drop_eq_drop_min.symm
    refine ⟨retrieve_wellFormed wellFormed, ?_, by simp [perform]⟩
    have step : QueueStep b.content (.retrieve len, .done) (b.content.drop len.toNat) :=
      dropped ▸ .retrieve
    simpa only [perform, retrieve_content wellFormed] using step
  | retrieveAll =>
    refine ⟨retrieveAll_wellFormed wellFormed, ?_, by simp [perform]⟩
    simpa only [perform, retrieveAll_content] using QueueStep.retrieveAll
  | retrieveAllAsString =>
    have ran := retrieveAllAsString_eq wellFormed
    refine ⟨?_, ?_, by simp [perform, ran, afterRetrieval]⟩
    · simpa only [perform, ran, afterRetrieval] using retrieveAll_wellFormed wellFormed
    · simpa only [perform, ran, afterRetrieval, retrieveAll_content] using
        QueueStep.retrieveAllAsString
  | retrieveAsString len =>
    have ran := retrieveAsString_within wellFormed allowed
    have less := UInt64.le_iff_toNat_le.mp allowed
    refine ⟨?_, ?_, by simp [perform, ran, afterRetrieval]⟩
    · simpa only [perform, ran, afterRetrieval] using retrieve_wellFormed wellFormed
    · have taken : QueueStep (b.content.take len.toNat ++ b.content.drop len.toNat)
          (.retrieveAsString len, .returned (b.content.take len.toNat) [])
          (b.content.drop len.toNat) :=
        .retrieveAsString (by rw [List.length_take, content_length wellFormed]; omega)
      rw [List.take_append_drop] at taken
      simpa only [perform, ran, afterRetrieval, retrieve_content wellFormed] using taken
  | ensureWritableBytes len =>
    have spec : (∃ after, b.ensureWritableBytes len = .ok after ∧ after.WellFormed ∧
        after.content = b.content) ∨ _ :=
      (ensureWritableBytes_spec wellFormed (noWrap_fits allowed)).imp_left
        (fun ⟨after, ran, room⟩ => ⟨after, ran, room.wellFormed, room.content⟩)
    rcases afterUpdate_outcome (b := b) spec with ⟨done, kept, same⟩ | ⟨threw, large⟩
    · refine ⟨kept, ?_, by simp [perform, done]⟩
      simpa only [perform, done, same] using QueueStep.ensureWritableBytes
    · simpa only [perform, threw] using ⟨wellFormed, .ensureRefused, fun _ _ => large⟩

/-- The buffer simulates the queue along its content. -/
theorem buffer_simulates_queue (initialSize : UInt64) :
    (bufferSystem initialSize).Simulates byteQueue (fun label => [label])
      (fun b queue => b.WellFormed ∧ b.content = queue) where
  step := by
    rintro b ⟨call, outcome⟩ next _ ⟨wellFormed, rfl⟩ ⟨allowed, ran⟩
    obtain ⟨kept, step, _⟩ := perform_refines wellFormed allowed
    rw [ran] at kept step
    exact ⟨next.content, .cons step .nil, kept, rfl⟩

/-! ### The constructor -/

/-- A fresh buffer is laid out and empty, unless its size wrapped around. -/
theorem new_wellFormed (unwrapped : 8 + initialSize.toNat < 2 ^ 64)
    (constructed : Buffer.new initialSize = .ok b) : b.WellFormed ∧ b.content = [] := by
  have total : (kCheapPrepend + initialSize).toNat = 8 + initialSize.toNat := add_toNat unwrapped
  by_cases allowed : 8 + initialSize.toNat ≤ vectorMaxSize
  · rw [Buffer.new, vectorResize_empty (by rw [total]; exact allowed)] at constructed
    cases constructed
    exact ⟨⟨Nat.le_refl _, Nat.le_refl _, by simp [total], by simpa [total] using allowed⟩,
      by simp [content, readableBytes]⟩
  · have threw : vectorResize [] (kCheapPrepend + initialSize) = .error .lengthError :=
      vectorResize_throws (by rw [total]; exact Nat.lt_of_not_le allowed)
    rw [Buffer.new, threw] at constructed
    cases constructed

/-- A size that wraps leaves a vector shorter than the reserve in front. -/
theorem new_wrapped (wrapped : 2 ^ 64 ≤ 8 + initialSize.toNat) :
    ∃ b, Buffer.new initialSize = .ok b ∧ b.buffer.length < 8 := by
  have word := initialSize.toNat_lt
  have total : (kCheapPrepend + initialSize).toNat = 8 + initialSize.toNat - 2 ^ 64 := by
    rw [UInt64.toNat_add, kCheapPrepend_toNat]
    omega
  have small : (kCheapPrepend + initialSize).toNat < 8 := by omega
  have possible : (kCheapPrepend + initialSize).toNat ≤ vectorMaxSize :=
    Nat.le_trans (Nat.le_of_lt small) (by decide)
  refine ⟨⟨List.replicate (kCheapPrepend + initialSize).toNat 0, kCheapPrepend, kCheapPrepend⟩,
    ?_, by simpa only [List.length_replicate] using small⟩
  rw [Buffer.new, vectorResize_empty possible]
  rfl

private theorem short_vector_breaks_layout (b : Buffer) (short : b.buffer.length < 8) :
    ¬ Layout b.retrieveAll := by
  rintro ⟨_, _, inside⟩
  have less := UInt64.le_iff_toNat_le.mp inside
  simp only [retrieveAll, size, kCheapPrepend_toNat] at less
  rw [UInt64.toNat_ofNat_of_lt' (Nat.lt_trans short (by decide))] at less
  omega

/-- A buffer is a queue of bytes exactly when the constructor's sum
`kCheapPrepend + initialSize` does not wrap around. -/
theorem refines_queue_iff (initialSize : UInt64) :
    RefinesQueue initialSize ↔ kCheapPrepend.toNat + initialSize.toNat ≤ 2 ^ 64 - 1 := by
  rw [kCheapPrepend_toNat]
  constructor
  · intro refines
    by_contra wrapped
    obtain ⟨b, constructed, short⟩ :=
      new_wrapped (show 2 ^ 64 ≤ 8 + initialSize.toNat by omega)
    have run : (bufferSystem initialSize).Run b [(.retrieveAll, .done)] b.retrieveAll :=
      .cons ⟨trivial, rfl⟩ .nil
    exact short_vector_breaks_layout b short (refines b _ _ constructed run).1
  · intro unwrapped first trace b start run
    obtain ⟨wellFormed, empty⟩ := new_wellFormed (by omega) start
    obtain ⟨queue, above, kept, rfl⟩ :=
      (buffer_simulates_queue initialSize).run ⟨wellFormed, empty⟩ run
    rw [List.flatMap_singleton'] at above
    exact ⟨wellFormed_layout kept, above,
      fun _ fault allowed => (perform_refines kept allowed).2.2 fault⟩

/-- `Buffer(2 ^ 64 - 1)` allocates seven bytes and places both indices at eight. -/
theorem largest_initialSize_is_no_queue : ¬ RefinesQueue 18446744073709551615 := by
  intro refines
  have run : (bufferSystem 18446744073709551615).Run ⟨List.replicate 7 0, 8, 8⟩
      [(.append [97] 1, .threw .outOfBounds)] ⟨List.replicate 7 0, 8, 8⟩ :=
    .cons ⟨⟨by decide, by simp [NoWrap]⟩, by decide⟩ .nil
  have layout := (refines _ _ _ (by rfl) run).1
  exact absurd layout.2.2 (by decide)

end MiniMuduo.BufferRefinement
