import MiniMuduo.BufferRefinement
import MiniMuduo.Library.Fifo

/-! The stream a caller appends and the strings it takes back. A string taken
within the content is cut off the front of the stream; a request for more than
the content logs an error and answers with one space that was never received. -/
namespace MiniMuduo.BufferStream
open Buffer BufferRefinement

/-- No C++ object, and so no char array, is larger than `PTRDIFF_MAX` bytes. -/
def ptrdiffMax : Nat := 2 ^ 63 - 1

/-- The calls of a stream: any data that exists is appended, any length is asked
for. -/
def Streams : Call → Prop
  | .append data len => len.toNat ≤ data.length ∧ data.length ≤ ptrdiffMax
  | .retrieveAsString _ | .retrieveAllAsString => True
  | .retrieve _ | .retrieveAll | .ensureWritableBytes _ => False

def streamSystem (initialSize : UInt64) : StepSystem Buffer (Call × Outcome) where
  Start b := Buffer.new initialSize = .ok b
  Step b label next := Streams label.1 ∧ perform b label.1 = (label.2, next)

/-- The data a completed `append` put in. -/
def appendedData : Call × Outcome → List Byte
  | (.append data len, .done) => data.take len.toNat
  | _ => []

/-- The string a call returned. -/
def returnedText : Call × Outcome → List Byte
  | (_, .returned text _) => text
  | _ => []

/-- The string a call returned without reporting an error. -/
def takenText : Call × Outcome → List Byte
  | (_, .returned text []) => text
  | _ => []

/-- All returned strings, then the content, are all the appended data; and each
call removes the bytes it returns. -/
def ConservesStream (initialSize : UInt64) : Prop :=
  ∀ first trace b, (streamSystem initialSize).Start first →
    (streamSystem initialSize).Run first trace b →
    trace.flatMap returnedText ++ b.content = trace.flatMap appendedData ∧
      ∀ call text errors next,
        (streamSystem initialSize).Step b (call, .returned text errors) next →
        b.content = text ++ next.content

/-- The queue events of a call: what it put in, or what it took out. -/
def streamEvents (label : Call × Outcome) : List (Fifo.Event Byte) :=
  match label with
  | (.append data len, .done) => [.enqueue (data.take len.toNat)]
  | (_, .returned text []) => [.dequeue text]
  | _ => []

private theorem enqueued_streamEvents (label : Call × Outcome) :
    Fifo.enqueued (streamEvents label) = appendedData label := by
  unfold streamEvents appendedData
  split <;> simp [Fifo.enqueued, Fifo.Event.putIn]

private theorem dequeued_streamEvents (label : Call × Outcome) :
    Fifo.dequeued (streamEvents label) = takenText label := by
  unfold streamEvents takenText
  split <;> simp [Fifo.dequeued, Fifo.Event.takenOut]

variable {b : Buffer} {len : UInt64} {data : List Byte} {call : Call}

/-- Data that exists is never so long that the sums in `append` wrap. -/
theorem streamed_fits (wellFormed : b.WellFormed) (inside : len.toNat ≤ data.length)
    (object : data.length ≤ ptrdiffMax) : b.Fits len := by
  have within := wellFormed.inside
  have bounded := wellFormed.bounded
  simp only [ptrdiffMax, vectorMaxSize] at object bounded
  exact ⟨by omega, by omega⟩

/-- A string is asked for that is longer than the content. -/
def OverLong (b : Buffer) : Call → Prop
  | .retrieveAsString len => b.readableBytes < len
  | _ => False

/-- What one call of a stream does: it appends, or is refused for size, or takes
its string off the front, or answers an over-long request and changes nothing. -/
theorem perform_streams (wellFormed : b.WellFormed) (streams : Streams call) :
    (perform b call).2.WellFormed ∧
      ((∃ data len, call = .append data len ∧ (perform b call).1 = .done ∧
          (perform b call).2.content = b.content ++ data.take len.toNat) ∨
        perform b call = (.threw .lengthError, b) ∨
        (¬ OverLong b call ∧ ∃ text, (perform b call).1 = .returned text [] ∧
          b.content = text ++ (perform b call).2.content) ∨
        (OverLong b call ∧ perform b call = (.returned [32] [retrieveError], b))) := by
  cases call with
  | append data len =>
    rcases append_spec wellFormed (streamed_fits wellFormed streams.1 streams.2) data streams.1 with
      ⟨after, ran, kept, content⟩ | ⟨threw, _⟩
    · have done : perform b (.append data len) = (.done, after) := by
        simp only [perform, ran, afterUpdate]
      rw [done]
      exact ⟨kept, Or.inl ⟨data, len, rfl, rfl, content⟩⟩
    · have refused : perform b (.append data len) = (.threw .lengthError, b) := by
        simp only [perform, threw, afterUpdate]
      rw [refused]
      exact ⟨wellFormed, Or.inr (Or.inl rfl)⟩
  | retrieveAllAsString =>
    simp only [perform, retrieveAllAsString_eq wellFormed, afterRetrieval]
    refine ⟨retrieveAll_wellFormed wellFormed, Or.inr (Or.inr (Or.inl ⟨id, b.content, rfl, ?_⟩))⟩
    rw [retrieveAll_content, List.append_nil]
  | retrieveAsString len =>
    by_cases enough : len ≤ b.readableBytes
    · simp only [perform, retrieveAsString_within wellFormed enough, afterRetrieval]
      refine ⟨retrieve_wellFormed wellFormed, Or.inr (Or.inr (Or.inl
        ⟨UInt64.not_lt.mpr enough, b.content.take len.toNat, rfl, ?_⟩))⟩
      rw [retrieve_content wellFormed, List.take_append_drop]
    · have answered : perform b (.retrieveAsString len) = (.returned [32] [retrieveError], b) := by
        simp only [perform, retrieveAsString_over enough, afterRetrieval]
      rw [answered]
      exact ⟨wellFormed, Or.inr (Or.inr (Or.inr ⟨UInt64.not_le.mp enough, rfl⟩))⟩
  | retrieve len => exact streams.elim
  | retrieveAll => exact streams.elim
  | ensureWritableBytes len => exact streams.elim

/-- A stream is a queue that every completed call feeds or drains. -/
theorem stream_simulates_fifo (initialSize : UInt64) :
    (streamSystem initialSize).Simulates (Fifo.system Byte) streamEvents
      (fun b queue => b.WellFormed ∧ b.content = queue) where
  step := by
    rintro b ⟨call, outcome⟩ next _ ⟨wellFormed, rfl⟩ ⟨streams, ran⟩
    obtain ⟨kept, does⟩ := perform_streams wellFormed streams
    rw [ran] at kept does
    refine ⟨next.content, ?_, kept, rfl⟩
    rcases does with ⟨data, len, rfl, rfl, content⟩ | threw | ⟨_, text, rfl, content⟩ | ⟨_, long⟩
    · simp only [streamEvents, content]
      exact .cons .enqueue .nil
    · cases threw
      simp only [streamEvents]
      exact .nil
    · simp only [streamEvents, content]
      exact .cons .dequeue .nil
    · cases long
      simp only [streamEvents]
      exact .nil

/-- An over-long request is answered with a byte that was never received. -/
theorem overlong_request_fabricates : ¬ ConservesStream 0 := by
  intro conserves
  have run : (streamSystem 0).Run ⟨List.replicate 8 0, 8, 8⟩
      [(.retrieveAsString 1, .returned [32] [retrieveError])] ⟨List.replicate 8 0, 8, 8⟩ :=
    .cons ⟨trivial, by rfl⟩ .nil
  exact absurd (conserves _ _ _ (by rfl) run).1 (by decide)

/-- The strings taken without an error, then the content, are all the appended
data. A request within the content returns exactly what it removes; an over-long
one returns one space, reports the error and removes nothing. -/
theorem taken_strings_conserve_stream {initialSize : UInt64} {first : Buffer}
    {trace : List (Call × Outcome)}
    (unwrapped : kCheapPrepend.toNat + initialSize.toNat ≤ 2 ^ 64 - 1)
    (start : (streamSystem initialSize).Start first)
    (run : (streamSystem initialSize).Run first trace b) :
    trace.flatMap takenText ++ b.content = trace.flatMap appendedData ∧
      ∀ call text errors next,
        (streamSystem initialSize).Step b (call, .returned text errors) next →
        (¬ OverLong b call → errors = [] ∧ b.content = text ++ next.content) ∧
        (OverLong b call → text = [32] ∧ errors = [retrieveError] ∧ next = b) := by
  rw [kCheapPrepend_toNat] at unwrapped
  obtain ⟨queue, above, wellFormed, rfl⟩ := (stream_simulates_fifo initialSize).run
    (new_wellFormed (by omega) start) run
  constructor
  · exact Fifo.observed_run_conserves enqueued_streamEvents dequeued_streamEvents above
  · rintro call text errors next ⟨streams, ran⟩
    have does := (perform_streams wellFormed streams).2
    rw [ran] at does
    rcases does with ⟨_, _, _, done, _⟩ | threw | ⟨within, _, returned, content⟩ | ⟨long, answered⟩
    · cases done
    · cases threw
    · cases returned
      exact ⟨fun _ => ⟨rfl, content⟩, fun long => absurd long within⟩
    · cases answered
      exact ⟨fun within => absurd long within, fun _ => ⟨rfl, rfl, rfl⟩⟩

/-- Two bytes in, one taken, one request too many: the stream is intact. -/
theorem short_stream_conserved :
    let trace := [(Call.append [97, 98] 2, Outcome.done), (.retrieveAsString 1, .returned [97] []),
      (.retrieveAsString 7, .returned [32] [retrieveError])]
    trace.flatMap takenText ++ content ⟨List.replicate 8 0 ++ [97, 98], 9, 10⟩ =
      trace.flatMap appendedData := by
  intro trace
  have run : (streamSystem 2).Run ⟨List.replicate 10 0, 8, 8⟩ trace
      ⟨List.replicate 8 0 ++ [97, 98], 9, 10⟩ :=
    .cons ⟨⟨by decide, by decide⟩, by rfl⟩
      (.cons ⟨trivial, by rfl⟩ (.cons ⟨trivial, by rfl⟩ .nil))
  exact (taken_strings_conserve_stream (by decide) (by rfl) run).1

end MiniMuduo.BufferStream
