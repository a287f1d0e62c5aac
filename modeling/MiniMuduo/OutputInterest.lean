import MiniMuduo.ConnectionOutput

/-! The write interest of a connection and its output. Level-triggered polling wants
the interest on exactly while there is output. `handleWrite` means to switch it off
with the last byte, but `disableWriting` keeps the write bit and clears the read
bits: interest and output stay in step only as long as no call sends the last byte. -/
namespace MiniMuduo.OutputInterest
open TcpConnection ConnectionOutput

/-- A connection whose output goes through `outputBuffer_` and whose write interest
is switched on elsewhere only while that holds something. -/
def interestSystem (outside : Outside) : StepSystem Handling OutputEvent where
  Start s := Buffer.new Buffer.kInitialSize = .ok s.connection.outputBuffer ∧
    s.connection.channel.isWriting = false
  Step s event t := OutputStep outside s event t ∧
    (event = .elsewhere → t.connection.channel.isWriting = true →
      s.connection.channel.isWriting = true ∨ unsent s ≠ [])

/-- After a call of `handleWrite` the write interest says whether there is output,
the read interest is as it was, and no empty write was issued. -/
structure InStep (s t : Handling) : Prop where
  writing : t.connection.channel.isWriting = true ↔ unsent t ≠ []
  reading : t.connection.channel.isReading = s.connection.channel.isReading
  something : s.connection.channel.isWriting = true → unsent s ≠ []

/-- What a step owes to the interest: only `handleWrite` owes anything. -/
def Owes (s : Handling) : OutputEvent → Handling → Prop
  | .wrote _ _, t => InStep s t
  | _, _ => True

/-- Write interest follows the output buffer, whatever happens. -/
def InterestFollows (outside : Outside) : Prop :=
  ∀ s event t, (interestSystem outside).Reachable s → (interestSystem outside).Step s event t →
    Owes s event t

/-- A call of `handleWrite` that does not send the last byte, and that does not come
while bytes wait with the write interest off. -/
def Undrained (s : Handling) : OutputEvent → Prop
  | .wrote result _ =>
    (s.connection.channel.isWriting = true → result ≠ .accepted (unsent s).length) ∧
      (s.connection.channel.isWriting = false → unsent s = [])
  | _ => True

/-- The write interest is on only while there is output. -/
structure Wanted (s : Handling) : Prop where
  wellFormed : s.connection.outputBuffer.WellFormed
  something : s.connection.channel.isWriting = true → unsent s ≠ []

/-- What `handleWrite` relies on in `shutdownInLoop`: that leaves the output and the
interest alone. -/
def KeepsOutput (outside : Outside) : Prop :=
  ∀ c, (outside.shutdownInLoop c).outputBuffer = c.outputBuffer ∧
    (outside.shutdownInLoop c).channel = c.channel

variable {outside : Outside} {s t : Handling} {event : OutputEvent} {result : WriteResult}

/-- `events_ & kWriteEvent` has the write bit that `events_` has. -/
theorem disableWriting_isWriting (c : Channel) : c.disableWriting.isWriting = c.isWriting := by
  simp only [Channel.isWriting, Channel.disableWriting, Mask.has, BitVec.and_assoc,
    BitVec.and_self]

theorem drained_channel (keeps : KeepsOutput outside) (c : TcpConnection) :
    (c.drained outside).channel = c.channel.disableWriting := by
  unfold drained
  split
  · exact (keeps _).2
  · rfl

/-- Sending everything leaves the write interest on, with nothing to send. -/
private theorem drained_out_of_step
    (writing : s.connection.channel.isWriting = true)
    (channel : t.connection.channel = s.connection.channel.disableWriting)
    (empty : unsent t = []) : ¬ InStep s t := by
  intro inStep
  refine inStep.writing.mp ?_ empty
  rw [channel, disableWriting_isWriting, writing]

/-- One call of `handleWrite` keeps interest and output in step exactly when it does
not send the last byte and does not meet bytes that nobody asked to send. -/
theorem handleWrite_inStep_iff (keeps : KeepsOutput outside) (wanted : Wanted s)
    (within : WithinReadable s result) (ran : handleWrite outside result s = .ok () t) :
    InStep s t ↔ Undrained s (.wrote result (acceptedBy s result)) := by
  obtain ⟨wellFormed, something⟩ := wanted
  obtain ⟨after, done, wrote⟩ := handleWrite_outcome outside result s
  rw [ran] at done
  cases done
  cases wrote with
  | down silent =>
    constructor
    · intro inStep
      refine ⟨fun writing => by simp [silent] at writing, fun _ => ?_⟩
      by_contra waits
      have writing : s.connection.channel.isWriting = true := inStep.writing.mpr waits
      simp [silent] at writing
    · intro undrained
      refine ⟨⟨fun writing => something writing, fun waits => ?_⟩, rfl, something⟩
      exact absurd (undrained.2 silent) waits
  | failed writing negative =>
    constructor
    · refine fun _ => ⟨?_, fun silent => by simp [silent] at writing⟩
      rintro _ rfl
      simp only [Buffer.writeFd] at negative
      exact something writing (List.length_eq_zero_iff.mp (by omega))
    · exact fun _ => ⟨⟨fun _ => something writing, fun _ => writing⟩, rfl, something⟩
  | unsent writing answered positive more =>
    obtain ⟨count, rfl, rfl, _⟩ := accepted_of_positive answered positive
    obtain ⟨kept, rest⟩ := sent_content wellFormed (within count rfl)
    have left : (s.connection.sent count).outputBuffer.content ≠ [] :=
      fun none => more ((readable_zero_iff kept).mpr none)
    constructor
    · refine fun _ => ⟨?_, fun silent => by simp [silent] at writing⟩
      rintro _ all
      rw [rest, WriteResult.accepted.inj all, List.drop_length] at left
      exact left rfl
    · exact fun _ => ⟨⟨fun _ => left, fun _ => writing⟩, rfl, something⟩
  | drained writing answered positive empty =>
    obtain ⟨count, rfl, rfl, _⟩ := accepted_of_positive answered positive
    obtain ⟨kept, rest⟩ := sent_content wellFormed (within count rfl)
    have none : (s.connection.sent count).outputBuffer.content = [] :=
      (readable_zero_iff kept).mp empty
    constructor
    · refine fun inStep => absurd inStep (drained_out_of_step writing ?_ ?_)
      · exact drained_channel keeps _
      · rw [unsent, drained_output (fun c => (keeps c).1), none]
    · intro undrained
      rw [rest, List.drop_eq_nil_iff] at none
      have all : count = (unsent s).length := Nat.le_antisymm (within count rfl) none
      exact absurd (by rw [← all]) (undrained.1 writing)

/-- Every step that leaves bytes behind keeps the interest within the output. -/
theorem wanted_step (keeps : KeepsOutput outside) (wanted : Wanted s)
    (undrained : Undrained s event) (step : (interestSystem outside).Step s event t) :
    Wanted t := by
  obtain ⟨step, elsewhere⟩ := step
  cases step with
  | append inside object ran =>
    have fits := BufferStream.streamed_fits wanted.wellFormed inside object
    rcases Buffer.append_spec wanted.wellFormed fits _ inside with
      ⟨after, done, kept, content⟩ | threw
    · obtain rfl := Except.ok.inj (done.symm.trans ran)
      refine ⟨kept, fun writing none => wanted.something writing ?_⟩
      rw [unsent, content] at none
      exact (List.append_eq_nil_iff.mp none).1
    · simp [threw.1] at ran
  | refuse _ _ _ => exact wanted
  | handleWrite within ran =>
    have inStep := (handleWrite_inStep_iff keeps wanted within ran).mpr undrained
    obtain ⟨after, done, kept, _⟩ :=
      handleWrite_spec (fun c => (keeps c).1) wanted.wellFormed within
    rw [done] at ran
    cases ran
    exact ⟨kept, inStep.writing.mp⟩
  | elsewhere same =>
    refine ⟨by rw [same]; exact wanted.wellFormed, fun writing => ?_⟩
    rw [unsent, same]
    exact (elsewhere rfl writing).elim wanted.something id

/-- As long as no call has sent the last byte, the next step keeps interest and
output in step exactly when it does not either. -/
theorem interest_follows_output_iff (keeps : KeepsOutput outside)
    (reached : ((interestSystem outside).restrict Undrained).Reachable s)
    (step : (interestSystem outside).Step s event t) : Owes s event t ↔ Undrained s event := by
  have wanted : Wanted s := by
    refine reached.invariant ?_ ?_
    · rintro first ⟨constructed, silent⟩
      refine ⟨(BufferRefinement.new_wellFormed (by decide) constructed).1, fun writing => ?_⟩
      simp [silent] at writing
    · exact fun _ _ _ wanted stepped => wanted_step keeps wanted stepped.1 stepped.2
  cases step.1 with
  | handleWrite within ran => exact handleWrite_inStep_iff keeps wanted within ran
  | _ => exact Iff.rfl

/-- `writer` with the read interest on as well. -/
def readerWriter (outputBuffer : Buffer) (events : Mask) : Handling :=
  { writer outputBuffer with connection := { (writer outputBuffer).connection with
      channel := { fd := 9, events := events } } }

/-- The functions that have no body here, doing nothing. -/
def quiet : Outside := ⟨fun _ c => c, id⟩

/-- `readerWriter` with three bytes to send and the write interest on. -/
def loaded : Handling :=
  readerWriter ⟨threeBytes, 8, 11⟩ (Channel.kReadEvent ||| Channel.kWriteEvent)

theorem loaded_run : ((interestSystem quiet).restrict Undrained).Run
    (readerWriter ⟨List.replicate 1032 0, 8, 8⟩ Channel.kReadEvent)
    [.appended [97, 98, 99], .elsewhere] loaded := by
  have appended : OutputStep quiet
      (readerWriter ⟨List.replicate 1032 0, 8, 8⟩ Channel.kReadEvent)
      (.appended ([97, 98, 99].take (3 : UInt64).toNat))
      (readerWriter ⟨threeBytes, 8, 11⟩ Channel.kReadEvent) :=
    .append (by decide) (by decide) (by decide +kernel)
  have enabled : OutputStep quiet (readerWriter ⟨threeBytes, 8, 11⟩ Channel.kReadEvent)
      .elsewhere loaded := .elsewhere rfl
  exact .cons ⟨trivial, appended, nofun⟩
    (.cons ⟨trivial, enabled, fun _ _ => Or.inr (by decide +kernel)⟩ .nil)

theorem loaded_start : (interestSystem quiet).Start
    (readerWriter ⟨List.replicate 1032 0, 8, 8⟩ Channel.kReadEvent) := by
  refine ⟨?_, by decide⟩
  show Buffer.new Buffer.kInitialSize = .ok ⟨List.replicate 1032 0, 8, 8⟩
  decide +kernel

/-- What a call of `handleWrite` whose `write` takes `count` bytes does to `loaded`. -/
theorem loaded_writes {count : Nat} {t : Handling} (most : count ≤ 3)
    (ran : handleWrite quiet (.accepted count) loaded = .ok () t) :
    (interestSystem quiet).Step loaded
      (.wrote (.accepted count) (acceptedBy loaded (.accepted count))) t := by
  refine ⟨.handleWrite ?_ ran, nofun⟩
  rintro _ ⟨⟩
  have three : (unsent loaded).length = 3 := by decide +kernel
  rwa [three]

/-- Two of three bytes sent: interest and output are in step. -/
theorem two_of_three_in_step : InStep loaded
    (readerWriter ⟨threeBytes, 10, 11⟩ (Channel.kReadEvent ||| Channel.kWriteEvent)) := by
  have step := loaded_writes (show 2 ≤ 3 by decide) rfl
  refine (interest_follows_output_iff (fun _ => ⟨rfl, rfl⟩)
    ⟨_, _, loaded_start, loaded_run⟩ step).mpr ⟨fun _ => ?_, nofun⟩
  decide +kernel

/-- All three bytes sent: the write interest stays on over an empty buffer, and the
read interest is gone. -/
theorem last_byte_keeps_writing : ¬ InterestFollows quiet := by
  intro follows
  have step := loaded_writes (show 3 ≤ 3 by decide) rfl
  have inStep : InStep loaded _ :=
    follows _ _ _ ⟨_, _, loaded_start, loaded_run.unrestricted⟩ step
  have reading : false = true := inStep.reading
  exact absurd reading (by decide)

end MiniMuduo.OutputInterest
