import MiniMuduo.BufferStream
import MiniMuduo.TcpConnection

/-! The outgoing stream. Where the socket has got to is kept nowhere but in the
indices of `outputBuffer_`, which partial writes advance and appends may move; no
byte is lost or sent twice, and the end of the output is noticed exactly when it
comes. -/
namespace MiniMuduo.ConnectionOutput
open TcpConnection

/-- The readable content of `outputBuffer_`. -/
def unsent (s : Handling) : List Byte := s.connection.outputBuffer.content

/-- A socket accepts no more than it was given. -/
def WithinReadable (s : Handling) (result : WriteResult) : Prop :=
  ∀ count, result = .accepted count → count ≤ (unsent s).length

/-- The bytes the socket accepts in a call of `handleWrite`. -/
def acceptedBy (s : Handling) (result : WriteResult) : List Byte :=
  if s.connection.channel.isWriting then s.connection.outputBuffer.written result else []

/-- What happens to the output, with the bytes that went in or out. -/
inductive OutputEvent where
  | appended (bytes : List Byte)
  | refused
  | wrote (result : WriteResult) (accepted : List Byte)
  | elsewhere
  deriving DecidableEq, Repr

/-- An append of data that exists, a call of `handleWrite`, or any change of the
connection elsewhere: its interest, its state, its callback, its input. -/
inductive OutputStep (outside : Outside) : Handling → OutputEvent → Handling → Prop where
  | append {s : Handling} {data : List Byte} {len : UInt64} {b : Buffer} :
      len.toNat ≤ data.length → data.length ≤ BufferStream.ptrdiffMax →
      s.connection.outputBuffer.append data len = .ok b →
      OutputStep outside s (.appended (data.take len.toNat))
        { s with connection := { s.connection with outputBuffer := b } }
  | refuse {s : Handling} {data : List Byte} {len : UInt64} {fault : Fault} :
      len.toNat ≤ data.length → data.length ≤ BufferStream.ptrdiffMax →
      s.connection.outputBuffer.append data len = .error fault →
      OutputStep outside s .refused s
  | handleWrite {s t : Handling} {result : WriteResult} :
      WithinReadable s result → handleWrite outside result s = .ok () t →
      OutputStep outside s (.wrote result (acceptedBy s result)) t
  | elsewhere {s : Handling} {c : TcpConnection} :
      c.outputBuffer = s.connection.outputBuffer →
      OutputStep outside s .elsewhere { s with connection := c }

/-- The output of a connection, from the constructor on. -/
def outputSystem (outside : Outside) : StepSystem Handling OutputEvent where
  Start s := Buffer.new Buffer.kInitialSize = .ok s.connection.outputBuffer
  Step := OutputStep outside

def appendedBytes : OutputEvent → List Byte
  | .appended bytes => bytes
  | _ => []

def acceptedBytes : OutputEvent → List Byte
  | .wrote _ accepted => accepted
  | _ => []

/-- The call took `outputBuffer_` from non-empty to empty. -/
def Drains (s t : Handling) : Prop := unsent s ≠ [] ∧ unsent t = []

/-- What a call of `handleWrite` owes. Nothing changes in the buffer unless bytes
were accepted, and what is due at the end of the output happens then and only then. -/
structure WritesWell (s : Handling) (result : WriteResult) (t : Handling) : Prop where
  unchanged : s.connection.channel.isWriting = false ∨
      (∃ errno, result = .error errno) ∨ result = .accepted 0 →
    t.connection.outputBuffer = s.connection.outputBuffer
  effects : ∃ new, t.trace = s.trace ++ new ∧
    (Drains s t → new = s.connection.completion) ∧
    (¬ Drains s t → ∀ effect ∈ new, effect ≠ .queueWriteComplete ∧ effect ≠ .shutdownInLoop)

variable {outside : Outside} {s t first : Handling} {result : WriteResult} {count : Nat}
variable {events : List OutputEvent}

/-- `retrieve` takes exactly what the socket accepted. -/
theorem sent_content (wellFormed : s.connection.outputBuffer.WellFormed)
    (within : count ≤ (unsent s).length) :
    (s.connection.sent count).outputBuffer.WellFormed ∧
      (s.connection.sent count).outputBuffer.content = (unsent s).drop count := by
  have word := s.connection.outputBuffer.readableBytes.toNat_lt
  have small : count < 2 ^ 64 := by
    rw [unsent, Buffer.content_length wellFormed] at within
    omega
  have taken : (UInt64.ofNat count).toNat = count := UInt64.toNat_ofNat_of_lt' small
  refine ⟨Buffer.retrieve_wellFormed wellFormed, ?_⟩
  simp only [sent, Int.toNat_natCast, Buffer.retrieve_content wellFormed, taken, unsent]

theorem readable_zero_iff {b : Buffer} (wellFormed : b.WellFormed) :
    b.readableBytes = 0 ↔ b.content = [] := by
  rw [← List.length_eq_zero_iff, Buffer.content_length wellFormed]
  exact UInt64.toNat_inj.symm

theorem drained_output (keeps : ∀ c, (outside.shutdownInLoop c).outputBuffer = c.outputBuffer)
    (c : TcpConnection) : (c.drained outside).outputBuffer = c.outputBuffer := by
  unfold drained
  split
  · exact keeps _
  · rfl

private theorem not_drains_of_same (same : t.connection.outputBuffer = s.connection.outputBuffer) :
    ¬ Drains s t := by
  rintro ⟨some, none⟩
  exact some (by rw [unsent, ← same]; exact none)

/-- A call that only logs leaves the buffer and owes nothing. -/
private theorem logs_well (same : t.connection.outputBuffer = s.connection.outputBuffer)
    (logged : t.trace = s.trace ++ [.logError text]) : WritesWell s result t where
  unchanged := fun _ => same
  effects := by
    refine ⟨[.logError text], logged, fun drains => absurd drains (not_drains_of_same same), ?_⟩
    intro _ effect member
    obtain rfl := List.mem_singleton.mp member
    exact ⟨nofun, nofun⟩

/-- A positive answer of `writeFd` is a count of accepted bytes. -/
theorem accepted_of_positive {b : Buffer} {n : Int} (answered : (b.writeFd result).1 = n)
    (positive : 0 < n) : ∃ count : Nat, result = .accepted count ∧ n = count ∧ 0 < count := by
  cases result with
  | error errno =>
    simp only [Buffer.writeFd] at answered
    omega
  | accepted count =>
    simp only [Buffer.writeFd] at answered
    exact ⟨count, rfl, answered.symm, by omega⟩

/-- What was accepted and what is left were the output. -/
theorem accepted_then_rest (writing : s.connection.channel.isWriting = true)
    (wellFormed : s.connection.outputBuffer.WellFormed) (within : count ≤ (unsent s).length) :
    unsent s = acceptedBy s (.accepted count) ++
      (s.connection.sent count).outputBuffer.content := by
  rw [(sent_content wellFormed within).2]
  simp only [acceptedBy, writing, if_true, Buffer.written]
  exact (List.take_append_drop count (unsent s)).symm

private theorem accepts_something (writing : s.connection.channel.isWriting = true)
    (some : 0 < count) : ¬ (s.connection.channel.isWriting = false ∨
      (∃ errno, WriteResult.accepted count = .error errno) ∨
      WriteResult.accepted count = .accepted 0) := by
  rintro (silent | ⟨errno, failed⟩ | zero)
  · simp [silent] at writing
  · cases failed
  · cases zero
    omega

/-- One call of `handleWrite` moves what was accepted out of the buffer, and does
what it owes. -/
theorem handleWrite_spec (keeps : ∀ c, (outside.shutdownInLoop c).outputBuffer = c.outputBuffer)
    (wellFormed : s.connection.outputBuffer.WellFormed) (within : WithinReadable s result) :
    ∃ t, handleWrite outside result s = .ok () t ∧ t.connection.outputBuffer.WellFormed ∧
      unsent s = acceptedBy s result ++ unsent t ∧ WritesWell s result t := by
  obtain ⟨t, ran, wrote⟩ := handleWrite_outcome outside result s
  refine ⟨t, ran, ?_⟩
  cases wrote with
  | down silent =>
    exact ⟨wellFormed, by simp [acceptedBy, silent, unsent], logs_well rfl rfl⟩
  | failed writing negative =>
    have nothing : s.connection.outputBuffer.written result = [] := by
      cases result with
      | error errno => rfl
      | accepted count =>
        have zero : count = 0 := by
          simp only [Buffer.writeFd] at negative
          omega
        simp [Buffer.written, zero]
    exact ⟨wellFormed, by simp [acceptedBy, writing, nothing, unsent], logs_well rfl rfl⟩
  | unsent writing answered positive more =>
    obtain ⟨count, rfl, rfl, some⟩ := accepted_of_positive answered positive
    obtain ⟨kept, _⟩ := sent_content wellFormed (within count rfl)
    refine ⟨kept, accepted_then_rest writing wellFormed (within count rfl),
      fun refused => absurd refused (accepts_something writing some), [], by simp, ?_, by simp⟩
    rintro ⟨_, none⟩
    exact absurd ((readable_zero_iff kept).mpr none) more
  | drained writing answered positive empty =>
    obtain ⟨count, rfl, rfl, some⟩ := accepted_of_positive answered positive
    obtain ⟨kept, _⟩ := sent_content wellFormed (within count rfl)
    have output := drained_output keeps (s.connection.sent count)
    have before : unsent s ≠ [] :=
      List.ne_nil_of_length_pos (Nat.lt_of_lt_of_le some (within count rfl))
    have left : unsent ⟨(s.connection.sent count).drained outside,
        s.trace ++ s.connection.completion⟩ = (s.connection.sent count).outputBuffer.content := by
      rw [unsent, output]
    have after := left.trans ((readable_zero_iff kept).mp empty)
    refine ⟨by rwa [output], ?_, fun refused => absurd refused (accepts_something writing some),
      s.connection.completion, rfl, fun _ => rfl, fun drains => absurd ⟨before, after⟩ drains⟩
    rw [left]
    exact accepted_then_rest writing wellFormed (within count rfl)

/-- What an event looks like to a queue of bytes. -/
def queueEvents : OutputEvent → List (Fifo.Event Byte)
  | .appended bytes => [.enqueue bytes]
  | .wrote _ accepted => [.dequeue accepted]
  | .refused | .elsewhere => []

private theorem enqueued_queueEvents (event : OutputEvent) :
    Fifo.enqueued (queueEvents event) = appendedBytes event := by
  cases event <;> simp [queueEvents, appendedBytes, Fifo.enqueued, Fifo.Event.putIn]

private theorem dequeued_queueEvents (event : OutputEvent) :
    Fifo.dequeued (queueEvents event) = acceptedBytes event := by
  cases event <;> simp [queueEvents, acceptedBytes, Fifo.dequeued, Fifo.Event.takenOut]

/-- The output is a queue that appends feed and the socket drains. -/
theorem output_simulates_fifo
    (keeps : ∀ c, (outside.shutdownInLoop c).outputBuffer = c.outputBuffer) :
    (outputSystem outside).Simulates (Fifo.system Byte) queueEvents
      (fun s queue => s.connection.outputBuffer.WellFormed ∧ unsent s = queue) where
  step := by
    rintro s event t _ ⟨wellFormed, rfl⟩ step
    cases step with
    | append inside object ran =>
      have fits := BufferStream.streamed_fits wellFormed inside object
      rcases Buffer.append_spec wellFormed fits _ inside with ⟨after, done, kept, content⟩ | threw
      · obtain rfl := Except.ok.inj (done.symm.trans ran)
        refine ⟨_, .cons ?_ .nil, kept, content⟩
        exact .enqueue
      · simp [threw.1] at ran
    | refuse _ _ _ => exact ⟨_, .nil, wellFormed, rfl⟩
    | handleWrite within ran =>
      obtain ⟨after, done, kept, moved, _⟩ := handleWrite_spec keeps wellFormed within
      rw [done] at ran
      cases ran
      refine ⟨unsent t, .cons ?_ .nil, kept, rfl⟩
      rw [moved]
      exact .dequeue
    | elsewhere same => exact ⟨_, .nil, by rwa [same], by rw [unsent, unsent, same]⟩

/-- At every point of every run the accepted bytes and the unsent ones are all that
was appended, in order; and whatever the next `write` answers, `handleWrite` leaves
the buffer alone unless bytes were accepted, and completes the output on exactly the
call that drains it. -/
theorem output_stream_conserved
    (keeps : ∀ c, (outside.shutdownInLoop c).outputBuffer = c.outputBuffer)
    (start : (outputSystem outside).Start first) (run : (outputSystem outside).Run first events s) :
    events.flatMap acceptedBytes ++ unsent s = events.flatMap appendedBytes ∧
      ∀ result, WithinReadable s result →
        ∃ t, handleWrite outside result s = .ok () t ∧ WritesWell s result t := by
  have fresh : first.connection.outputBuffer.WellFormed ∧ unsent first = [] :=
    BufferRefinement.new_wellFormed (by decide) start
  obtain ⟨queue, above, wellFormed, rfl⟩ := (output_simulates_fifo keeps).run fresh run
  constructor
  · exact Fifo.observed_run_conserves enqueued_queueEvents dequeued_queueEvents above
  · intro result within
    obtain ⟨t, ran, _, _, well⟩ := handleWrite_spec keeps wellFormed within
    exact ⟨t, ran, well⟩

/-- A connection that wants to write, with this output buffer. -/
def writer (outputBuffer : Buffer) : Handling where
  connection :=
    { name := "server-127.0.0.1:8000#1"
      state := .kConnected
      channel := { fd := 9, events := Channel.kWriteEvent }
      writeCompleteCallback := true
      inputBuffer := ⟨List.replicate 1032 0, 8, 8⟩
      outputBuffer := outputBuffer }
  trace := []

/-- The output buffer of `writer` with three bytes behind the reserve. -/
def threeBytes : List Byte := List.replicate 8 0 ++ [97, 98, 99] ++ List.replicate 1021 0

/-- Three bytes appended, two accepted: the third is next. -/
theorem two_of_three_bytes_sent :
    let events := [OutputEvent.appended [97, 98, 99], .wrote (.accepted 2) [97, 98]]
    events.flatMap acceptedBytes ++ unsent (writer ⟨threeBytes, 10, 11⟩) =
        events.flatMap appendedBytes ∧
      ∀ result, WithinReadable (writer ⟨threeBytes, 10, 11⟩) result →
        ∃ t, handleWrite ⟨fun _ c => c, id⟩ result (writer ⟨threeBytes, 10, 11⟩) = .ok () t ∧
          WritesWell (writer ⟨threeBytes, 10, 11⟩) result t := by
  intro events
  have start : (outputSystem ⟨fun _ c => c, id⟩).Start (writer ⟨List.replicate 1032 0, 8, 8⟩) := by
    show Buffer.new Buffer.kInitialSize = .ok ⟨List.replicate 1032 0, 8, 8⟩
    decide +kernel
  have appended : OutputStep ⟨fun _ c => c, id⟩ (writer ⟨List.replicate 1032 0, 8, 8⟩)
      (.appended ([97, 98, 99].take (3 : UInt64).toNat)) (writer ⟨threeBytes, 8, 11⟩) :=
    .append (by decide) (by decide) (by decide +kernel)
  have within : WithinReadable (writer ⟨threeBytes, 8, 11⟩) (.accepted 2) := by
    rintro count ⟨⟩
    decide +kernel
  have accepted : acceptedBy (writer ⟨threeBytes, 8, 11⟩) (.accepted 2) = [97, 98] := by
    decide +kernel
  have wrote : OutputStep ⟨fun _ c => c, id⟩ (writer ⟨threeBytes, 8, 11⟩)
      (.wrote (.accepted 2) [97, 98]) (writer ⟨threeBytes, 10, 11⟩) :=
    accepted ▸ .handleWrite within rfl
  exact output_stream_conserved (fun _ => rfl) start (.cons appended (.cons wrote .nil))

end MiniMuduo.ConnectionOutput
