import MiniMuduo.Buffer
import MiniMuduo.Channel

/-! `TcpConnection.cc`: the four handlers a connection gives to its channel. They
act on the connection and on the outside world; what they do to the outside is kept
as a trace. `send`, `shutdown` and `shutdownInLoop` are declared in the header and
have no body, so `shutdownInLoop` stays a parameter, as does the user's message
callback. -/
namespace MiniMuduo

/-- `TcpConnection::StateE`. -/
inductive StateE where
  | kDisconnected
  | kConnecting
  | kConnected
  | kDisconnecting
  deriving DecidableEq, Repr

structure TcpConnection where
  name : String
  state : StateE
  channel : Channel
  /-- Whether `writeCompleteCallback_` is set. -/
  writeCompleteCallback : Bool
  inputBuffer : Buffer
  outputBuffer : Buffer
  deriving DecidableEq, Repr

/-- What a handler does to the world outside the connection. -/
inductive Effect where
  | messageCallback (receiveTime : Timestamp)
  | connectionCallback
  | closeCallback
  /-- `loop_->queueInLoop(std::bind(writeCompleteCallback_, shared_from_this()))` -/
  | queueWriteComplete
  | shutdownInLoop
  | logError (text : String)
  deriving DecidableEq, Repr

/-- Code that handlers run and that is not in the repository. The callbacks made on
closing get the connection through its public interface only; what has a body there
reads the connection or sets a callback, and that they set none is assumed. The message
callback also gets the input buffer. -/
structure Outside where
  messageCallback : Timestamp → TcpConnection → TcpConnection
  shutdownInLoop : TcpConnection → TcpConnection

/-- What `getsockopt(2)` answers: an errno, or `SO_ERROR`. -/
inductive Getsockopt where
  | error (errno : Int)
  | value (optval : Int)
  deriving DecidableEq, Repr

/-- A connection and everything its handlers have done outside, in order. -/
structure Handling where
  connection : TcpConnection
  trace : List Effect
  deriving DecidableEq, Repr

/-- A handler; what it throws leaves what was done so far. -/
abbrev Handler := EStateM Fault Handling

namespace TcpConnection

/-- `TcpConnection::TcpConnection`, as far as the handlers read it. -/
def new (name : String) (sockfd : Fd) : Except Fault TcpConnection := do
  let inputBuffer ← Buffer.new Buffer.kInitialSize
  let outputBuffer ← Buffer.new Buffer.kInitialSize
  return { name, state := .kConnecting, channel := { fd := sockfd }
           writeCompleteCallback := false, inputBuffer, outputBuffer }

def emit (effect : Effect) : Handler Unit :=
  modify fun s => { s with trace := s.trace ++ [effect] }

def connection : Handler TcpConnection := return (← get).connection

def change (f : TcpConnection → TcpConnection) : Handler Unit :=
  modify fun s => { s with connection := f s.connection }

def changeChannel (f : Channel → Channel) : Handler Unit :=
  change fun c => { c with channel := f c.channel }

def handleClose : Handler Unit := do
  change fun c => { c with state := .kDisconnected }
  changeChannel Channel.disableAll
  emit .connectionCallback
  emit .closeCallback

/-- The text is the whole one, of which the macro keeps 1023 characters. -/
def handleError (sockopt : Getsockopt) : Handler Unit := do
  let err := match sockopt with
    | .error errno => errno
    | .value optval => optval
  let c ← connection
  emit (.logError s!"TcpConnection::handleError name : {c.name}  - SO_ERROR: {err} \n")

def handleRead (outside : Outside) (readv : Readv) (sockopt : Getsockopt)
    (receiveTime : Timestamp) : Handler Unit := do
  match (← connection).inputBuffer.readFd readv with
  | .error fault =>
    change fun c => { c with inputBuffer := c.inputBuffer.readFdThrown readv }
    throw fault
  | .ok (n, _, inputBuffer) =>
    change fun c => { c with inputBuffer := inputBuffer }
    if n > 0 then
      emit (.messageCallback receiveTime)
      change (outside.messageCallback receiveTime)
    else if n = 0 then handleClose
    else
      emit (.logError "TcpConnection::handleRead ")
      handleError sockopt

def handleWrite (outside : Outside) (result : WriteResult) : Handler Unit := do
  let c ← connection
  if c.channel.isWriting then
    let (n, _) := c.outputBuffer.writeFd result
    if n > 0 then
      change fun c => { c with outputBuffer := c.outputBuffer.retrieve (UInt64.ofNat n.toNat) }
      if (← connection).outputBuffer.readableBytes = 0 then
        changeChannel Channel.disableWriting
        if c.writeCompleteCallback then emit .queueWriteComplete
        if c.state = .kDisconnecting then
          emit .shutdownInLoop
          change outside.shutdownInLoop
    else emit (.logError "TcpConnection::handleWrite")
  else emit (.logError s!"TcpConnection fd = {c.channel.fd} is down , no more writing")

/-- The answers of the system calls that one dispatch may make. -/
structure Syscalls where
  readv : Readv
  readSockopt : Getsockopt
  errorSockopt : Getsockopt
  write : WriteResult
  deriving DecidableEq, Repr

/-- The callbacks the constructor binds to the channel. -/
def callbacks (outside : Outside) (calls : Syscalls) : Channel.Callbacks Handler where
  readCallback := some (handleRead outside calls.readv calls.readSockopt)
  writeCallback := some (handleWrite outside calls.write)
  closeCallback := some handleClose
  errorCallback := some (handleError calls.errorSockopt)

/-- `channel->handleEvent(receiveTime)` on the connection's channel. -/
def handleEvent (outside : Outside) (calls : Syscalls) (lock : Bool)
    (receiveTime : Timestamp) : Handler Unit :=
  Channel.handleEvent (return (← connection).channel.tied) lock
    (return (← connection).channel.revents) (callbacks outside calls) receiveTime

/-! What each handler does, once and for all. -/

variable {outside : Outside} {readv : Readv} {sockopt : Getsockopt} {receiveTime : Timestamp}
variable {result : WriteResult} {s : Handling} {n : Int} {saved : Option Int} {b : Buffer}

@[simp] theorem connection_bind (next : TcpConnection → Handler α) (s : Handling) :
    (connection >>= next) s = next s.connection s := rfl

@[simp] theorem change_bind (f : TcpConnection → TcpConnection) (next : Unit → Handler α)
    (s : Handling) : (change f >>= next) s = next () { s with connection := f s.connection } := rfl

@[simp] theorem change_run (f : TcpConnection → TcpConnection) (s : Handling) :
    change f s = .ok () { s with connection := f s.connection } := rfl

@[simp] theorem emit_bind (effect : Effect) (next : Unit → Handler α) (s : Handling) :
    (emit effect >>= next) s = next () { s with trace := s.trace ++ [effect] } := rfl

@[simp] theorem emit_run (effect : Effect) (s : Handling) :
    emit effect s = .ok () { s with trace := s.trace ++ [effect] } := rfl

theorem handleClose_run (s : Handling) : handleClose s = .ok ()
    { connection := { s.connection with
        state := .kDisconnected, channel := s.connection.channel.disableAll }
      trace := s.trace ++ [.connectionCallback] ++ [.closeCallback] } := rfl

theorem handleError_run (sockopt : Getsockopt) (s : Handling) :
    ∃ text, handleError sockopt s = .ok () { s with trace := s.trace ++ [.logError text] } :=
  ⟨_, rfl⟩

theorem handleRead_throws {fault : Fault}
    (read : s.connection.inputBuffer.readFd readv = .error fault) :
    handleRead outside readv sockopt receiveTime s = .error fault
      { s with connection := { s.connection with
          inputBuffer := s.connection.inputBuffer.readFdThrown readv } } := by
  simp only [handleRead, connection_bind, read, change_bind]
  rfl

theorem handleRead_message (read : s.connection.inputBuffer.readFd readv = .ok (n, saved, b))
    (positive : 0 < n) : handleRead outside readv sockopt receiveTime s = .ok ()
      { connection := outside.messageCallback receiveTime { s.connection with inputBuffer := b }
        trace := s.trace ++ [.messageCallback receiveTime] } := by
  simp only [handleRead, connection_bind, read, change_bind, gt_iff_lt, if_pos positive]
  rfl

theorem handleRead_closes (read : s.connection.inputBuffer.readFd readv = .ok (0, saved, b)) :
    handleRead outside readv sockopt receiveTime s =
      handleClose { s with connection := { s.connection with inputBuffer := b } } := by
  simp only [handleRead, connection_bind, read, change_bind]
  rfl

theorem handleRead_fails (read : s.connection.inputBuffer.readFd readv = .ok (n, saved, b))
    (negative : n < 0) : ∃ text, handleRead outside readv sockopt receiveTime s = .ok ()
      { connection := { s.connection with inputBuffer := b }
        trace := s.trace ++ [.logError "TcpConnection::handleRead "] ++ [.logError text] } := by
  have notPositive : ¬ 0 < n := by omega
  have notZero : ¬ n = 0 := by omega
  simp only [handleRead, connection_bind, read, change_bind, gt_iff_lt, if_neg notPositive,
    if_neg notZero, emit_bind]
  exact handleError_run sockopt _

/-- What `handleRead` can come to: the read throws, delivers, finds the end of file,
or fails. -/
inductive ReadOutcome (outside : Outside) (readv : Readv) (receiveTime : Timestamp)
    (s : Handling) : EStateM.Result Fault Handling Unit → Prop where
  | throws {fault : Fault} : s.connection.inputBuffer.readFd readv = .error fault →
      ReadOutcome outside readv receiveTime s (.error fault
        { s with connection := { s.connection with
            inputBuffer := s.connection.inputBuffer.readFdThrown readv } })
  | message {n : Int} {saved : Option Int} {b : Buffer} :
      s.connection.inputBuffer.readFd readv = .ok (n, saved, b) → 0 < n →
      ReadOutcome outside readv receiveTime s (.ok ()
        { connection := outside.messageCallback receiveTime { s.connection with inputBuffer := b }
          trace := s.trace ++ [.messageCallback receiveTime] })
  | closes {saved : Option Int} {b : Buffer} :
      s.connection.inputBuffer.readFd readv = .ok (0, saved, b) →
      ReadOutcome outside readv receiveTime s
        (handleClose { s with connection := { s.connection with inputBuffer := b } })
  | fails {n : Int} {saved : Option Int} {b : Buffer} {text : String} :
      s.connection.inputBuffer.readFd readv = .ok (n, saved, b) → n < 0 →
      ReadOutcome outside readv receiveTime s (.ok ()
        { connection := { s.connection with inputBuffer := b }
          trace := s.trace ++ [.logError "TcpConnection::handleRead "] ++ [.logError text] })

theorem handleRead_outcome (outside : Outside) (readv : Readv) (sockopt : Getsockopt)
    (receiveTime : Timestamp) (s : Handling) :
    ∃ result, handleRead outside readv sockopt receiveTime s = result ∧
      ReadOutcome outside readv receiveTime s result := by
  cases read : s.connection.inputBuffer.readFd readv with
  | error fault => exact ⟨_, handleRead_throws read, .throws read⟩
  | ok results =>
    obtain ⟨n, saved, b⟩ := results
    rcases Int.lt_trichotomy n 0 with negative | rfl | positive
    · obtain ⟨text, ran⟩ := handleRead_fails read negative
      exact ⟨_, ran, .fails read negative⟩
    · exact ⟨_, handleRead_closes read, .closes read⟩
    · exact ⟨_, handleRead_message read positive, .message read positive⟩

/-- The connection after `n` bytes of its output were accepted. -/
def sent (c : TcpConnection) (n : Int) : TcpConnection :=
  { c with outputBuffer := c.outputBuffer.retrieve (UInt64.ofNat n.toNat) }

/-- The connection once its output is all sent. -/
def drained (outside : Outside) (c : TcpConnection) : TcpConnection :=
  let quiet := { c with channel := c.channel.disableWriting }
  if c.state = .kDisconnecting then outside.shutdownInLoop quiet else quiet

/-- What a connection does outside once its output is all sent. -/
def completion (c : TcpConnection) : List Effect :=
  (if c.writeCompleteCallback then [.queueWriteComplete] else []) ++
    if c.state = .kDisconnecting then [.shutdownInLoop] else []

/-- What `handleWrite` can come to: nothing written, something left, or all sent. -/
inductive WriteOutcome (outside : Outside) (result : WriteResult) (s : Handling) :
    Handling → Prop where
  | down : s.connection.channel.isWriting = false →
      WriteOutcome outside result s { s with trace := s.trace ++
        [.logError s!"TcpConnection fd = {s.connection.channel.fd} is down , no more writing"] }
  | failed : s.connection.channel.isWriting = true →
      (s.connection.outputBuffer.writeFd result).1 ≤ 0 →
      WriteOutcome outside result s { s with trace := s.trace ++
        [.logError "TcpConnection::handleWrite"] }
  | unsent {n : Int} : s.connection.channel.isWriting = true →
      (s.connection.outputBuffer.writeFd result).1 = n → 0 < n →
      (s.connection.sent n).outputBuffer.readableBytes ≠ 0 →
      WriteOutcome outside result s { s with connection := s.connection.sent n }
  | drained {n : Int} : s.connection.channel.isWriting = true →
      (s.connection.outputBuffer.writeFd result).1 = n → 0 < n →
      (s.connection.sent n).outputBuffer.readableBytes = 0 →
      WriteOutcome outside result s
        { connection := (s.connection.sent n).drained outside
          trace := s.trace ++ s.connection.completion }

theorem handleWrite_outcome (outside : Outside) (result : WriteResult) (s : Handling) :
    ∃ t, handleWrite outside result s = .ok () t ∧ WriteOutcome outside result s t := by
  by_cases writing : s.connection.channel.isWriting = true
  · by_cases positive : 0 < (s.connection.outputBuffer.writeFd result).1
    · by_cases empty : (s.connection.sent
          (s.connection.outputBuffer.writeFd result).1).outputBuffer.readableBytes = 0
      · refine ⟨_, ?_, .drained writing rfl positive empty⟩
        simp only [sent] at empty
        simp only [handleWrite, connection_bind, if_pos writing, gt_iff_lt, if_pos positive,
          change_bind, if_pos empty, completion, drained, sent]
        by_cases complete : s.connection.writeCompleteCallback = true <;>
          by_cases closing : s.connection.state = .kDisconnecting <;>
          simp [complete, closing, changeChannel, pure, EStateM.pure]
      · refine ⟨_, ?_, .unsent writing rfl positive empty⟩
        simp only [sent] at empty
        simp only [handleWrite, connection_bind, if_pos writing, gt_iff_lt, if_pos positive,
          change_bind, if_neg empty]
        rfl
    · refine ⟨_, ?_, .failed writing (Int.not_lt.mp positive)⟩
      simp only [handleWrite, connection_bind, if_pos writing, gt_iff_lt, if_neg positive]
      rfl
  · refine ⟨_, ?_, .down (Bool.not_eq_true _ ▸ writing)⟩
    simp only [handleWrite, connection_bind, if_neg writing]
    rfl

end TcpConnection
end MiniMuduo
