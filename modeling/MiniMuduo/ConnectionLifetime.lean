import MiniMuduo.ConnectionClose
import MiniMuduo.Library.SharedOwnership

/-! Who keeps a connection alive while its channel calls back. The callbacks get the
connection as a `shared_ptr` and may drop every other; `Channel` holds a plain pointer to
it and goes on to read its own members, which are destroyed with it. `tie` is there to hold
a reference until `handleEvent` returns. -/
namespace MiniMuduo.ConnectionLifetime
open SharedOwnership ConnectionClose

abbrev ConnectionId := Nat

/-- One entry of `activeChannels_`: whose channel it is, whether `tie` has been called on it,
what the poller has told it, and what its system calls will bring about. -/
structure Turn where
  connection : ConnectionId
  tied : Bool
  revents : Mask
  /-- What `readFd` returns. -/
  n : Int
  /-- The write takes the last byte, and there is a `writeCompleteCallback_`. -/
  completes : Bool
  deriving DecidableEq, Repr

variable (left : Behaviour ConnectionId) (c : ConnectionId)

/-- `connectionCallback_` and `closeCallback_` get `connPtr`. -/
def handleClose : SharingM ConnectionId Unit := do
  touch c
  holding c do
    callOutside left
    touch c
    callOutside left

def handleError : SharingM ConnectionId Unit := touch c

/-- `messageCallback_` gets a `shared_ptr` of its own. -/
def handleRead (n : Int) : SharingM ConnectionId Unit := do
  touch c
  if 0 < n then holding c (callOutside left)
  else if n = 0 then handleClose left c
  else handleError c

/-- The functor with `writeCompleteCallback_` holds a `shared_ptr` until it has run. -/
def handleWrite (completes : Bool) : SharingM ConnectionId Unit := do
  touch c
  if completes then copyOut c
  touch c

def callbacks (turn : Turn) : Channel.Callbacks (SharingM ConnectionId) where
  readCallback := some fun _ => handleRead left turn.connection turn.n
  writeCallback := some (handleWrite turn.connection turn.completes)
  closeCallback := some (handleClose left turn.connection)
  errorCallback := some (handleError turn.connection)

/-- `revents_`, which is a member of the channel. -/
def readRevents (turn : Turn) : SharingM ConnectionId Mask := do
  touch turn.connection
  return turn.revents

def guarded (turn : Turn) (receiveTime : Timestamp) : SharingM ConnectionId Unit :=
  Channel.handleEventWithGuard (readRevents turn) (callbacks left turn) receiveTime

/-- `Channel::handleEvent`, with the reference that `tie_.lock()` returns. -/
def handleEvent (turn : Turn) (receiveTime : Timestamp) : SharingM ConnectionId Unit := do
  touch turn.connection
  if turn.tied then
    if ← lock turn.connection then
      guarded left turn receiveTime
      release turn.connection
  else guarded left turn receiveTime

/-- The loop over `activeChannels_` in `EventLoop::loop`. -/
def pass (pollReturnTime : Timestamp) : List Turn → SharingM ConnectionId Unit
  | [] => pure ()
  | turn :: turns => do
    handleEvent left turn pollReturnTime
    pass pollReturnTime turns

/-- How many callbacks of the user the close branch makes. -/
def closeCalls (turn : Turn) : Nat := if hangsUp turn.revents then 2 else 0

/-- And the read branch. -/
def readCalls (turn : Turn) : Nat :=
  if turn.revents.has (epollIn ||| epollPri) then
    if 0 < turn.n then 1 else if turn.n = 0 then 2 else 0
  else 0

def Turn.calls (turn : Turn) : Nat := closeCalls turn + readCalls turn

/-- After the last callback of a branch, so many having been made before it, somebody still
owns the connection. -/
def OwnedAfter (before branch : Nat) : Prop := branch = 0 ∨ left (before + branch - 1) c ≠ 0

/-- Without `tie`: some owner is left after the close branch and after the read branch. -/
def KeepsOwner (before : Nat) (turn : Turn) : Prop :=
  OwnedAfter left turn.connection before (closeCalls turn) ∧
    OwnedAfter left turn.connection (before + closeCalls turn) (readCalls turn)

/-- What makes a pass safe. No callback takes the last owner of a connection whose turn is
still to come, and of those that are not tied none loses its own in its turn. -/
def Safe : Nat → List Turn → Prop
  | _, [] => True
  | before, turn :: turns => (turn.tied = true ∨ KeepsOwner left before turn) ∧
      (∀ later ∈ turns, ∀ k < turn.calls, left (before + k) later.connection ≠ 0) ∧
      Safe (before + turn.calls) turns

variable {left} {c} {s t : Sharing ConnectionId} {turn : Turn} {time : Timestamp}

/-! ### The handlers -/

/-- A branch of the guard, which reads `revents_` before it does anything. -/
def branch (c : ConnectionId) (fires : Bool) (handler : SharingM ConnectionId Unit) :
    SharingM ConnectionId Unit := do
  touch c
  if fires then handler

variable {fires : Bool} {handler : SharingM ConnectionId Unit} {count : Nat}

variable {turns : List Turn}

/-- Whatever is called drops the owners of connection 1, and keeps the others'. -/
def drops : Behaviour ConnectionId := fun _ c => if c = 1 then 0 else 1

/-- Connection 1 hangs up, and connection 2 has a message. -/
def hangup (tied : Bool) : List Turn :=
  [⟨1, tied, epollHup, 0, false⟩, ⟨2, false, epollIn, 3, false⟩]

end MiniMuduo.ConnectionLifetime
