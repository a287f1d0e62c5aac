import Mathlib.Data.List.Basic

/-! `Channel.hpp` and `Channel.cc`: a file descriptor, the events it is interested
in, the events it was last told about, and the dispatch of its callbacks. -/
namespace MiniMuduo

/-- A set of epoll events, as the bits of an `int`. -/
abbrev Mask := BitVec 32

abbrev Fd := Int

/-- Seconds since the epoch: `now()` stores `time(NULL)`, in a member named for microseconds. -/
abbrev Timestamp := Int

def epollIn : Mask := 0x001
def epollPri : Mask := 0x002
def epollOut : Mask := 0x004
def epollErr : Mask := 0x008
def epollHup : Mask := 0x010

/-- Some bit of `bits` is in the mask. -/
def Mask.has (mask bits : Mask) : Bool := mask &&& bits != 0

structure Channel where
  fd : Fd
  events : Mask := 0
  revents : Mask := 0
  index : Int := -1
  tied : Bool := false
  deriving DecidableEq, Repr

namespace Channel

def kNoneEvent : Mask := 0
def kReadEvent : Mask := epollIn ||| epollPri
def kWriteEvent : Mask := epollOut

/-- The assignment each of the five functions makes to `events_`; the call of
`update()` that follows in each has an empty body. -/
def enableReading (c : Channel) : Channel := { c with events := c.events ||| kReadEvent }
def disableReading (c : Channel) : Channel := { c with events := c.events &&& ~~~kReadEvent }
def enableWriting (c : Channel) : Channel := { c with events := c.events ||| kWriteEvent }
def disableWriting (c : Channel) : Channel := { c with events := c.events &&& kWriteEvent }
def disableAll (c : Channel) : Channel := { c with events := kNoneEvent }

def isNoneEvent (c : Channel) : Bool := c.events == kNoneEvent
def isWriting (c : Channel) : Bool := c.events.has kWriteEvent
def isReading (c : Channel) : Bool := c.events.has kReadEvent

/-- The callbacks of a channel as actions of whatever they act on; `none` is an
empty `std::function`. -/
structure Callbacks (m : Type → Type) where
  readCallback : Option (Timestamp → m Unit)
  writeCallback : Option (m Unit)
  closeCallback : Option (m Unit)
  errorCallback : Option (m Unit)

variable {m : Type → Type} [Monad m]

/-- `if(callback_){ callback_(); }` -/
def runCallback : Option (m Unit) → m Unit
  | some callback => callback
  | none => pure ()

/-- `revents` reads the member `revents_`, which every test does afresh. -/
def handleEventWithGuard (revents : m Mask) (callbacks : Callbacks m)
    (receiveTime : Timestamp) : m Unit := do
  if (← revents).has epollHup && !(← revents).has epollIn then
    runCallback callbacks.closeCallback
  if (← revents).has epollErr then
    runCallback callbacks.errorCallback
  if (← revents).has (epollIn ||| epollPri) then
    runCallback (callbacks.readCallback.map (· receiveTime))
  if (← revents).has epollOut then
    runCallback callbacks.writeCallback

/-- `lock` is what `tie_.lock()` finds: whether the tied object is still alive. -/
def handleEvent (tied : m Bool) (lock : Bool) (revents : m Mask) (callbacks : Callbacks m)
    (receiveTime : Timestamp) : m Unit := do
  if ← tied then
    if lock then handleEventWithGuard revents callbacks receiveTime
  else handleEventWithGuard revents callbacks receiveTime

/-- What follows an `if` without `else` follows both of its branches. -/
theorem branch_then [LawfulMonad m] (condition : Prop) [Decidable condition] (action : m Unit)
    (rest : Unit → m Unit) : (if condition then action >>= rest else rest ()) =
      ((if condition then action else pure ()) >>= rest) := by
  split
  · rfl
  · rw [pure_bind]

end Channel
end MiniMuduo
