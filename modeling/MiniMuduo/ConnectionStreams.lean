import MiniMuduo.BufferReadFd
import MiniMuduo.ConnectionClose
import MiniMuduo.ConnectionOutput

/-! Both streams of a connection at once. What the socket delivers goes through
`inputBuffer_` to the message callback and what is appended goes through
`outputBuffer_` to the socket, while the handlers that move the bytes are picked by
the event mask and may close the connection in between. -/
namespace MiniMuduo.ConnectionStreams
open TcpConnection ConnectionOutput ConnectionClose BufferRefinement

/-! ### What the message callback takes -/

/-- The calls that take from a buffer and put nothing in. -/
def Takes : Call → Prop
  | .retrieve _ | .retrieveAll | .retrieveAllAsString | .retrieveAsString _ => True
  | .append _ _ | .ensureWritableBytes _ => False

/-- The bytes a call takes off the front of a buffer; an over-long request takes
nothing. -/
def taken (b : Buffer) : Call → List Byte
  | .retrieve len => b.content.take len.toNat
  | .retrieveAll | .retrieveAllAsString => b.content
  | .retrieveAsString len => if len ≤ b.readableBytes then b.content.take len.toNat else []
  | .append _ _ | .ensureWritableBytes _ => []

/-- The buffer after calls made one after the other. -/
def performAll (b : Buffer) (calls : List Call) : Buffer :=
  calls.foldl (fun b call => (perform b call).2) b

/-- The bytes that calls made one after the other take. -/
def takenBy (b : Buffer) : List Call → List Byte
  | [] => []
  | call :: calls => taken b call ++ takenBy (perform b call).2 calls

variable {b : Buffer} {call : Call} {calls : List Call}

theorem perform_takes (wellFormed : b.WellFormed) (takes : Takes call) :
    (perform b call).2.WellFormed ∧ b.content = taken b call ++ (perform b call).2.content := by
  cases call with
  | append data len => exact takes.elim
  | ensureWritableBytes len => exact takes.elim
  | retrieve len =>
    refine ⟨Buffer.retrieve_wellFormed wellFormed, ?_⟩
    simp only [perform, taken, Buffer.retrieve_content wellFormed, List.take_append_drop]
  | retrieveAll =>
    refine ⟨Buffer.retrieveAll_wellFormed wellFormed, ?_⟩
    simp only [perform, taken, Buffer.retrieveAll_content, List.append_nil]
  | retrieveAllAsString =>
    simp only [perform, taken, Buffer.retrieveAllAsString_eq wellFormed, afterRetrieval,
      Buffer.retrieveAll_content, List.append_nil, and_true]
    exact Buffer.retrieveAll_wellFormed wellFormed
  | retrieveAsString len =>
    by_cases enough : len ≤ b.readableBytes
    · simp only [perform, taken, if_pos enough, Buffer.retrieveAsString_within wellFormed enough,
        afterRetrieval, Buffer.retrieve_content wellFormed, List.take_append_drop, and_true]
      exact Buffer.retrieve_wellFormed wellFormed
    · simp only [perform, taken, if_neg enough, Buffer.retrieveAsString_over enough,
        afterRetrieval, List.nil_append, and_true]
      exact wellFormed

/-- What was taken, and what is left, were the content. -/
theorem performAll_takes (wellFormed : b.WellFormed) (takes : ∀ call ∈ calls, Takes call) :
    (performAll b calls).WellFormed ∧
      b.content = takenBy b calls ++ (performAll b calls).content := by
  induction calls generalizing b with
  | nil => exact ⟨wellFormed, rfl⟩
  | cons call calls ih =>
    obtain ⟨kept, first⟩ := perform_takes wellFormed (takes call (by simp))
    obtain ⟨well, rest⟩ := ih kept fun other member => takes other (by simp [member])
    refine ⟨well, ?_⟩
    calc b.content = taken b call ++ (perform b call).2.content := first
      _ = taken b call ++ (takenBy (perform b call).2 calls ++
            (performAll (perform b call).2 calls).content) := by rw [← rest]
      _ = takenBy b (call :: calls) ++ (performAll b (call :: calls)).content := by
        rw [← List.append_assoc]
        rfl

/-- The code of a user of the library: what it calls on the input buffer only takes,
and nothing else of it reaches the buffers or the event mask. -/
structure UserCode where
  outside : Outside
  /-- What the message callback calls on the buffer it is given. -/
  onMessage : Timestamp → TcpConnection → List Call
  takes : ∀ time c, ∀ call ∈ onMessage time c, Takes call
  input : ∀ time c, (outside.messageCallback time c).inputBuffer =
    performAll c.inputBuffer (onMessage time c)
  output : ∀ time c, (outside.messageCallback time c).outputBuffer = c.outputBuffer
  revents : ∀ time c, (outside.messageCallback time c).channel.revents = c.channel.revents
  shutdown : ∀ c, (outside.shutdownInLoop c).inputBuffer = c.inputBuffer ∧
    (outside.shutdownInLoop c).outputBuffer = c.outputBuffer ∧
      (outside.shutdownInLoop c).channel.revents = c.channel.revents

/-! ### The streams -/

/-- The handlers, in the order in which the guard comes to them. -/
inductive Handles where
  | close
  | error
  | read
  | write
  deriving DecidableEq, Repr

/-- Which handler ran, if one did, and what bytes went where. -/
structure Flow where
  handler : Option Handles := none
  received : List Byte := []
  consumed : List Byte := []
  appended : List Byte := []
  accepted : List Byte := []
  deriving DecidableEq, Repr

/-- The content of `inputBuffer_`. -/
def unread (s : Handling) : List Byte := s.connection.inputBuffer.content

/-- What the kernel put where `readv` told it to. -/
def deliveredBy (readv : Readv) : List Byte :=
  match readv.result with
  | .error _ => []
  | .delivered bytes => bytes

/-- What the message callback takes in a call of `handleRead`, which calls it when
there are bytes. -/
def UserCode.consumes (user : UserCode) (readv : Readv) (time : Timestamp) (s : Handling) :
    List Byte :=
  match s.connection.inputBuffer.readFd readv with
  | .ok (n, _, inputBuffer) =>
    if 0 < n then
      takenBy inputBuffer (user.onMessage time { s.connection with inputBuffer := inputBuffer })
    else []
  | .error _ => []

/-- A handler that returns, an append of data that exists, or a change elsewhere that
leaves both buffers alone. -/
inductive StreamStep : Handling → Flow → Handling → Prop where
  | handleClose {s t : Handling} : handleClose s = .ok () t →
      StreamStep s { handler := some .close } t
  | handleError {s t : Handling} {sockopt : Getsockopt} : handleError sockopt s = .ok () t →
      StreamStep s { handler := some .error } t
  | handleRead {s t : Handling} {user : UserCode} {readv : Readv} {sockopt : Getsockopt}
      {time : Timestamp} : s.connection.inputBuffer.Possible readv →
      handleRead user.outside readv sockopt time s = .ok () t →
      StreamStep s { handler := some .read, received := deliveredBy readv
                     consumed := user.consumes readv time s } t
  | handleWrite {s t : Handling} {user : UserCode} {result : WriteResult} :
      WithinReadable s result → handleWrite user.outside result s = .ok () t →
      StreamStep s { handler := some .write, accepted := acceptedBy s result } t
  | append {s : Handling} {data : List Byte} {len : UInt64} {b : Buffer} :
      len.toNat ≤ data.length → data.length ≤ BufferStream.ptrdiffMax →
      s.connection.outputBuffer.append data len = .ok b →
      StreamStep s { appended := data.take len.toNat }
        { s with connection := { s.connection with outputBuffer := b } }
  | elsewhere {s : Handling} {c : TcpConnection} :
      c.inputBuffer = s.connection.inputBuffer → c.outputBuffer = s.connection.outputBuffer →
      StreamStep s {} { s with connection := c }

/-- A connection from its constructor on. -/
def streamSystem : StepSystem Handling Flow where
  Start s := s.trace = [] ∧ ∃ name sockfd, TcpConnection.new name sockfd = .ok s.connection
  Step := StreamStep

/-- Both buffers are laid out. -/
structure Sound (s : Handling) : Prop where
  input : s.connection.inputBuffer.WellFormed
  output : s.connection.outputBuffer.WellFormed

variable {s t : Handling} {user : UserCode} {readv : Readv} {sockopt : Getsockopt}
variable {time : Timestamp} {flow : Flow} {flows : List Flow}

/-- A call of `handleRead` delivers to the message callback what was unread and what the
kernel delivered, and keeps what that leaves; or the vector cannot grow so far. -/
theorem handleRead_spec (user : UserCode) (sockopt : Getsockopt) (time : Timestamp)
    (wellFormed : s.connection.inputBuffer.WellFormed)
    (possible : s.connection.inputBuffer.Possible readv) :
    (∃ t, handleRead user.outside readv sockopt time s = .ok () t ∧
      t.connection.inputBuffer.WellFormed ∧
      t.connection.outputBuffer = s.connection.outputBuffer ∧
      t.connection.channel.revents = s.connection.channel.revents ∧
      unread s ++ deliveredBy readv = user.consumes readv time s ++ unread t) ∨
    ∃ t, handleRead user.outside readv sockopt time s = .error .lengthError t ∧
      vectorMaxSize < s.connection.inputBuffer.buffer.length + (deliveredBy readv).length := by
  cases result : readv.result with
  | error errno =>
    have read := Buffer.readFd_failed (b := s.connection.inputBuffer) result
    obtain ⟨text, ran⟩ :=
      @handleRead_fails user.outside readv sockopt time s _ _ _ read (by decide)
    refine Or.inl ⟨_, ran, wellFormed, rfl, rfl, ?_⟩
    simp [UserCode.consumes, read, deliveredBy, result, unread]
  | delivered bytes =>
    have received : deliveredBy readv = bytes := by simp only [deliveredBy, result]
    rw [received]
    rcases Buffer.readFd_delivered wellFormed possible result with
      ⟨after, read, kept, content⟩ | ⟨threw, large⟩
    · by_cases some : bytes = []
      · subst some
        rw [List.append_nil] at content
        refine Or.inl ⟨_, (handleRead_closes read).trans (handleClose_run _), kept, rfl, rfl, ?_⟩
        simp [UserCode.consumes, read, unread, content]
      · have positive : (0 : Int) < bytes.length := by
          exact_mod_cast List.length_pos_of_ne_nil some
        obtain ⟨well, left⟩ := performAll_takes kept
          (user.takes time { s.connection with inputBuffer := after })
        refine Or.inl ⟨_, handleRead_message read positive, ?_, user.output _ _,
          user.revents _ _, ?_⟩
        · rw [user.input]
          exact well
        · simp only [unread, user.input, UserCode.consumes, read, if_pos positive]
          rw [← content]
          exact left
    · refine Or.inr ⟨_, handleRead_throws threw, ?_⟩
      have shorter : (s.connection.inputBuffer.overflow bytes).length ≤ bytes.length := by
        rw [Buffer.overflow, List.length_drop]
        omega
      omega

private theorem handleWrite_keeps (user : UserCode) {result : WriteResult}
    (ran : handleWrite user.outside result s = .ok () t) :
    t.connection.inputBuffer = s.connection.inputBuffer ∧
      t.connection.channel.revents = s.connection.channel.revents := by
  obtain ⟨after, done, wrote⟩ := handleWrite_outcome user.outside result s
  rw [ran] at done
  cases done
  cases wrote with
  | down _ => exact ⟨rfl, rfl⟩
  | failed _ _ => exact ⟨rfl, rfl⟩
  | unsent _ _ _ _ => exact ⟨rfl, rfl⟩
  | drained _ _ _ _ =>
    simp only [drained]
    split
    · exact ⟨(user.shutdown _).1, (user.shutdown _).2.2⟩
    · exact ⟨rfl, rfl⟩

/-- One step moves bytes into the two streams at one end and out at the other. -/
theorem streamStep_spec (sound : Sound s) (step : StreamStep s flow t) :
    Sound t ∧ unread s ++ flow.received = flow.consumed ++ unread t ∧
      unsent s ++ flow.appended = flow.accepted ++ unsent t := by
  obtain ⟨input, output⟩ := sound
  cases step with
  | handleClose ran =>
    cases ran
    exact ⟨⟨input, output⟩, List.append_nil _, List.append_nil _⟩
  | @handleError _ sockopt ran =>
    obtain ⟨text, done⟩ := handleError_run sockopt s
    cases done.symm.trans ran
    exact ⟨⟨input, output⟩, List.append_nil _, List.append_nil _⟩
  | @handleRead _ user readv sockopt time possible ran =>
    rcases handleRead_spec user sockopt time input possible with
      ⟨after, done, kept, same, _, moved⟩ | ⟨after, threw, _⟩
    · cases done.symm.trans ran
      refine ⟨⟨kept, by rwa [same]⟩, moved, ?_⟩
      simp only [unsent, same, List.append_nil, List.nil_append]
    · cases threw.symm.trans ran
  | @handleWrite _ user result within ran =>
    obtain ⟨after, done, kept, moved, _⟩ :=
      handleWrite_spec (fun c => (user.shutdown c).2.1) output within
    cases done.symm.trans ran
    have same := (handleWrite_keeps user ran).1
    refine ⟨⟨by rwa [same], kept⟩, ?_, by rw [List.append_nil]; exact moved⟩
    simp only [unread, same, List.append_nil, List.nil_append]
  | append inside object ran =>
    have fits := BufferStream.streamed_fits output inside object
    rcases Buffer.append_spec output fits _ inside with ⟨after, done, kept, content⟩ | threw
    · obtain rfl := Except.ok.inj (done.symm.trans ran)
      exact ⟨⟨input, kept⟩, List.append_nil _, content.symm⟩
    · simp [threw.1] at ran
  | elsewhere sameInput sameOutput =>
    refine ⟨⟨by rwa [sameInput], by rwa [sameOutput]⟩, ?_, ?_⟩
    · simp only [unread, sameInput, List.append_nil, List.nil_append]
    · simp only [unsent, sameOutput, List.append_nil, List.nil_append]

/-- A queue that is fed and then drained. -/
def fedThenDrained (put taken : List Byte) : List (Fifo.Event Byte) :=
  [.enqueue put, .dequeue taken]

private theorem fed_run {queue put taken rest : List Byte} (moved : queue ++ put = taken ++ rest) :
    (Fifo.system Byte).Run queue (fedThenDrained put taken) rest := by
  refine .cons .enqueue (.cons ?_ .nil)
  rw [moved]
  exact .dequeue

/-- The input is a queue that the kernel feeds and the message callback drains. -/
theorem input_simulates_fifo : streamSystem.Simulates (Fifo.system Byte)
    (fun flow => fedThenDrained flow.received flow.consumed)
    (fun s queue => Sound s ∧ unread s = queue) where
  step := by
    rintro s flow t _ ⟨sound, rfl⟩ step
    obtain ⟨kept, moved, _⟩ := streamStep_spec sound step
    exact ⟨unread t, fed_run moved, kept, rfl⟩

/-- The output is a queue that appends feed and the socket drains. -/
theorem output_simulates_fifo : streamSystem.Simulates (Fifo.system Byte)
    (fun flow => fedThenDrained flow.appended flow.accepted)
    (fun s queue => Sound s ∧ unsent s = queue) where
  step := by
    rintro s flow t _ ⟨sound, rfl⟩ step
    obtain ⟨kept, _, moved⟩ := streamStep_spec sound step
    exact ⟨unsent t, fed_run moved, kept, rfl⟩

/-- A fresh connection has two empty buffers. -/
theorem start_sound (start : streamSystem.Start s) : Sound s ∧ unread s = [] ∧ unsent s = [] := by
  obtain ⟨_, name, sockfd, constructed⟩ := start
  rw [TcpConnection.new] at constructed
  obtain ⟨inputBuffer, input, constructed⟩ := Except.bind_eq_ok constructed
  obtain ⟨outputBuffer, output, constructed⟩ := Except.bind_eq_ok constructed
  obtain ⟨wellFormed, unread⟩ := new_wellFormed (by decide) input
  obtain ⟨wellFormed', unsent⟩ := new_wellFormed (by decide) output
  obtain ⟨c, trace⟩ := s
  cases constructed
  exact ⟨⟨wellFormed, wellFormed'⟩, unread, unsent⟩

theorem reachable_sound (reached : streamSystem.Reachable s) : Sound s :=
  reached.invariant (fun _ start => (start_sound start).1)
    fun _ _ _ sound step => (streamStep_spec sound step).1

/-- At every point of every run, whatever handlers ran on it and in whatever order, what
the message callbacks have taken and what is unread are all that the kernel delivered, and
what the socket has accepted and what is unsent are all that was appended. -/
theorem streams_conserved (start : streamSystem.Start s) (run : streamSystem.Run s flows t) :
    flows.flatMap Flow.consumed ++ unread t = flows.flatMap Flow.received ∧
      flows.flatMap Flow.accepted ++ unsent t = flows.flatMap Flow.appended := by
  obtain ⟨sound, noInput, noOutput⟩ := start_sound start
  obtain ⟨_, inputs, _, rfl⟩ := input_simulates_fifo.run ⟨sound, noInput⟩ run
  obtain ⟨_, outputs, _, rfl⟩ := output_simulates_fifo.run ⟨sound, noOutput⟩ run
  have puts : ∀ put taken, Fifo.enqueued (fedThenDrained put taken) = put := fun put taken => by
    simp [fedThenDrained, Fifo.enqueued, Fifo.Event.putIn]
  have takes : ∀ put taken, Fifo.dequeued (fedThenDrained put taken) = taken :=
    fun put taken => by simp [fedThenDrained, Fifo.dequeued, Fifo.Event.takenOut]
  exact ⟨Fifo.observed_run_conserves (fun _ => puts _ _) (fun _ => takes _ _) inputs,
    Fifo.observed_run_conserves (fun _ => puts _ _) (fun _ => takes _ _) outputs⟩

/-- A fresh connection. -/
def freshConnection : Handling where
  connection :=
    { name := "server-127.0.0.1:8000#1"
      state := .kConnecting
      channel := { fd := 9 }
      writeCompleteCallback := false
      inputBuffer := ⟨List.replicate 1032 0, 8, 8⟩
      outputBuffer := ⟨List.replicate 1032 0, 8, 8⟩ }
  trace := []

theorem freshConnection_start : streamSystem.Start freshConnection :=
  ⟨rfl, "server-127.0.0.1:8000#1", 9, by decide +kernel⟩

/-- A message callback that takes two bytes at a time. -/
def pairs : UserCode where
  outside :=
    ⟨fun _ c => { c with inputBuffer := performAll c.inputBuffer [.retrieveAsString 2] }, id⟩
  onMessage _ _ := [.retrieveAsString 2]
  takes _ _ _ member := by
    obtain rfl := List.mem_singleton.mp member
    trivial
  input _ _ := rfl
  output _ _ := rfl
  revents _ _ := rfl
  shutdown _ := ⟨rfl, rfl, rfl⟩

/-- Three bytes come in. -/
def threeIn : Readv := ⟨List.replicate 65536 0, .delivered [97, 98, 99]⟩

private theorem threeIn_possible : freshConnection.connection.inputBuffer.Possible threeIn := by
  refine ⟨List.length_replicate, ?_⟩
  rintro bytes ⟨⟩
  decide +kernel

theorem three_bytes_read : ∃ t, StreamStep freshConnection
    { handler := some .read, received := [97, 98, 99], consumed := [97, 98] } t := by
  have consumed : pairs.consumes threeIn 0 freshConnection = [97, 98] := by decide +kernel
  rcases handleRead_spec pairs (.value 0) 0 (start_sound freshConnection_start).1.input
    threeIn_possible with ⟨t, ran, _⟩ | ⟨_, _, large⟩
  · have step : StreamStep freshConnection
        { handler := some .read, received := deliveredBy threeIn
          consumed := pairs.consumes threeIn 0 freshConnection } t :=
      .handleRead threeIn_possible ran
    rw [consumed] at step
    exact ⟨t, step⟩
  · exact absurd large (by decide +kernel)

theorem third_byte_unread : ∃ t, streamSystem.Run freshConnection
      [⟨some .read, [97, 98, 99], [97, 98], [], []⟩] t ∧ [97, 98] ++ unread t = [97, 98, 99] := by
  obtain ⟨t, step⟩ := three_bytes_read
  exact ⟨t, .cons step .nil, (streams_conserved freshConnection_start (.cons step .nil)).1⟩

/-! ### Dispatches -/

/-- The handlers that the guard runs on a mask. -/
def selected (mask : Mask) : List Handles :=
  (if hangsUp mask then [.close] else []) ++ (if mask.has epollErr then [.error] else []) ++
    (if mask.has (epollIn ||| epollPri) then [.read] else []) ++
      if mask.has epollOut then [.write] else []

/-- The handlers that a dispatch runs: none for a tied object that is gone. -/
def handled (s : Handling) (d : Dispatch) : List Handles :=
  if s.connection.channel.tied = true → d.lock = true then selected d.revents else []

/-- The vector cannot grow so far. -/
def TooMuch (s : Handling) (readv : Readv) : Prop :=
  vectorMaxSize < s.connection.inputBuffer.buffer.length + (deliveredBy readv).length

/-- The only way for a dispatch not to return. -/
def Refused (s : Handling) (readv : Readv) (fault : Fault) (_ : Handling) : Prop :=
  fault = .lengthError ∧ TooMuch s readv

/-- Neither buffer has been touched. -/
def Untouched (first s : Handling) : Prop :=
  s.connection.inputBuffer = first.connection.inputBuffer ∧
    s.connection.outputBuffer = first.connection.outputBuffer

/-- On the way through the guard: these handlers have run so far. -/
structure Ran (first : Handling) (mask : Mask) (handled : List Handles)
    (still : Handling → Prop) (s : Handling) : Prop where
  run : ∃ flows, streamSystem.Run first flows s ∧ flows.filterMap Flow.handler = handled
  revents : s.connection.channel.revents = mask
  still : still s

variable {first : Handling} {mask : Mask} {ran : List Handles} {still next : Handling → Prop}
variable {fires : Mask → Bool} {handles : Handles} {handler : Handler Unit}

/-- A branch of the guard runs its handler, as a step of the streams, when the mask says
so, and nothing otherwise. -/
theorem ran_branch (calm : ∀ s, still s → next s)
    (runs : ∀ s, still s → (∃ t flow, handler s = .ok () t ∧ StreamStep s flow t ∧
        flow.handler = some handles ∧
        t.connection.channel.revents = s.connection.channel.revents ∧ next t) ∨
      ∃ t, handler s = .error .lengthError t ∧ TooMuch first readv) :
    ThrowTriple (Ran first mask ran still) (onRevents fires handler)
      (fun _ => Ran first mask (ran ++ if fires mask then [handles] else []) next)
      (Refused first readv) := by
  rintro s ⟨⟨flows, led, order⟩, rfl, holds⟩
  rw [onRevents, connection_bind]
  cases fired : fires s.connection.channel.revents with
  | false => exact ⟨⟨flows, led, by simpa using order⟩, rfl, calm s holds⟩
  | true =>
    rcases runs s holds with ⟨t, flow, done, step, by', same, held⟩ | ⟨t, threw, finished⟩
    · simp only [if_true, done]
      refine ⟨⟨flows ++ [flow], led.snoc step, ?_⟩, same, held⟩
      rw [List.filterMap_append, order, List.filterMap_cons_some by', List.filterMap_nil]
    · simp only [if_true, threw]
      exact ⟨rfl, finished⟩

variable {calls : Syscalls}

/-- The output buffer has not been touched. -/
def OutputUntouched (first s : Handling) : Prop :=
  s.connection.outputBuffer = first.connection.outputBuffer

private theorem read_branch (sound : Sound first) (user : UserCode) (sockopt : Getsockopt)
    (possible : first.connection.inputBuffer.Possible readv) (time : Timestamp)
    (ran : List Handles) : ThrowTriple (Ran first mask ran (Untouched first))
      (onRevents (·.has (epollIn ||| epollPri)) (handleRead user.outside readv sockopt time))
      (fun _ => Ran first mask (ran ++ if mask.has (epollIn ||| epollPri) then [.read] else [])
        (OutputUntouched first)) (Refused first readv) := by
  refine ran_branch (fun _ still => still.2) fun s still => ?_
  obtain ⟨input, output⟩ := still
  rw [← input] at possible
  rcases handleRead_spec user sockopt time (by rw [input]; exact sound.input) possible with
    ⟨t, done, _, same, revents, _⟩ | ⟨t, threw, large⟩
  · exact Or.inl ⟨t, _, done, .handleRead possible done, rfl, revents, same.trans output⟩
  · exact Or.inr ⟨t, threw, by rw [TooMuch, ← input]; exact large⟩

private theorem write_branch {result : WriteResult} (user : UserCode)
    (within : WithinReadable first result) (ran : List Handles) :
    ThrowTriple (Ran first mask ran (OutputUntouched first))
      (onRevents (·.has epollOut) (handleWrite user.outside result))
      (fun _ => Ran first mask (ran ++ if mask.has epollOut then [.write] else [])
        fun _ => True) (Refused first readv) := by
  refine ran_branch (fun _ _ => trivial) fun s output => ?_
  have inside : WithinReadable s result := by
    intro count accepted
    rw [unsent, output]
    exact within count accepted
  obtain ⟨t, done, _⟩ := handleWrite_outcome user.outside result s
  exact Or.inl ⟨t, _, done, .handleWrite inside done, rfl, (handleWrite_keeps user done).2,
    trivial⟩

/-- The guard runs exactly the handlers that the mask selects, one after the other, unless
the read cannot be kept. -/
theorem guard_runs (sound : Sound first) (user : UserCode)
    (possible : first.connection.inputBuffer.Possible calls.readv)
    (within : WithinReadable first calls.write) (mask : Mask) (time : Timestamp) :
    ThrowTriple (Ran first mask [] (Untouched first)) (guardBranches user.outside calls time)
      (fun _ => Ran first mask (selected mask) fun _ => True) (Refused first calls.readv) := by
  have closes : ThrowTriple (Ran first mask [] (Untouched first))
      (onRevents hangsUp handleClose)
      (fun _ => Ran first mask (if hangsUp mask then [.close] else []) (Untouched first))
      (Refused first calls.readv) :=
    ran_branch (fun _ still => still) fun s still =>
      Or.inl ⟨_, _, handleClose_run s, .handleClose rfl, rfl, rfl, still⟩
  have logs : ∀ ran, ThrowTriple (Ran first mask ran (Untouched first))
      (onRevents (·.has epollErr) (handleError calls.errorSockopt))
      (fun _ => Ran first mask (ran ++ if mask.has epollErr then [.error] else [])
        (Untouched first)) (Refused first calls.readv) := by
    refine fun ran => ran_branch (fun _ still => still) fun s still => ?_
    obtain ⟨text, done⟩ := handleError_run calls.errorSockopt s
    exact Or.inl ⟨_, _, done, .handleError done, rfl, rfl, still⟩
  exact closes.seq fun _ => (logs _).seq fun _ =>
    (read_branch sound user _ possible time _).seq fun _ => write_branch user within _

variable {d : Dispatch}

/-- From every state that a connection can reach, a dispatch with any mask is a run of
exactly the handlers that the mask selects, in the guard's order: nothing is read or written
outside the buffers, and all that can keep it from returning is an input that no vector can
hold. -/
theorem dispatch_runs_handlers (reached : streamSystem.Reachable s) (user : UserCode)
    (possible : s.connection.inputBuffer.Possible d.calls.readv)
    (within : WithinReadable s d.calls.write) :
    ((dispatch user.outside s d).thrown = none ∧
      ∃ flows, streamSystem.Run s flows (dispatch user.outside s d).handling ∧
        flows.filterMap Flow.handler = handled s d) ∨
      ((dispatch user.outside s d).thrown = some .lengthError ∧ TooMuch s d.calls.readv) := by
  have told : StreamStep s {} { s with connection := { s.connection with
      channel := { s.connection.channel with revents := d.revents } } } := .elsewhere rfl rfl
  rw [dispatch, handleEvent_eq]
  by_cases locked : s.connection.channel.tied = true → d.lock = true
  · rw [if_pos locked]
    have ran := guard_runs (reachable_sound reached) user possible within d.revents
      d.receiveTime _ ⟨⟨_, .cons told .nil, rfl⟩, rfl, rfl, rfl⟩
    split at ran
    · rename_i done
      rw [done]
      obtain ⟨⟨flows, led, order⟩, _⟩ := ran
      exact Or.inl ⟨rfl, flows, led, by rw [order, handled, if_pos locked]⟩
    · rename_i threw
      rw [threw]
      exact Or.inr ⟨congrArg some ran.1, ran.2⟩
  · rw [if_neg locked]
    exact Or.inl ⟨rfl, _, .cons told .nil, by rw [handled, if_neg locked]; rfl⟩

/-- A hang-up with priority data pending closes, and reads afterwards. -/
theorem hangup_then_read : ∃ flows, streamSystem.Run freshConnection flows
      (dispatch pairs.outside freshConnection ⟨epollHup ||| epollPri, true, 0,
        ⟨threeIn, .value 0, .value 0, .accepted 0⟩⟩).handling ∧
      flows.filterMap Flow.handler = [.close, .read] := by
  have within : WithinReadable freshConnection (.accepted 0) := by
    rintro count ⟨⟩
    exact Nat.zero_le _
  rcases dispatch_runs_handlers (d := ⟨epollHup ||| epollPri, true, 0,
    ⟨threeIn, .value 0, .value 0, .accepted 0⟩⟩) (.start freshConnection_start) pairs
    threeIn_possible within with ⟨_, flows, led, order⟩ | ⟨_, large⟩
  · exact ⟨flows, led, order⟩
  · exact absurd large (by rw [TooMuch]; decide +kernel)

end MiniMuduo.ConnectionStreams
