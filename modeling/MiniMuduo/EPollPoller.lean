import MiniMuduo.Channel
import Mathlib.Logic.Function.Basic

/-! `Poller.cc`, and `EPollPoller.cc` from what `epoll_wait` reported on: the map
`channels_`, the kernel's interest set behind `epollfd_`, and the `index_` each
channel keeps about itself. Channels are objects in memory, known by address. -/
namespace MiniMuduo

/-- The address of a `Channel`. -/
abbrev ChannelPtr := Nat

/-- An `epoll_event`: the events, and `data.ptr`, which overwrites `data.fd`. -/
structure EpollEvent where
  events : Mask
  ptr : ChannelPtr
  deriving DecidableEq, Repr

/-- The kernel's interest set of one epoll instance. -/
abbrev EpollSet := Fd → Option EpollEvent

inductive EpollOp where
  | add
  | mod
  | del
  deriving DecidableEq, Repr

abbrev Errno := Int

def eexist : Errno := 17
def enoent : Errno := 2

/-- What `epoll_ctl(2)` makes of the interest set, or its `errno`. -/
abbrev EpollCtl := EpollSet → EpollOp → Fd → EpollEvent → Except Errno EpollSet

/-- `epoll_ctl(2)` on open fds: it fails on adding what is present and on changing or
removing what is absent. -/
def epollCtl : EpollCtl := fun set op fd event =>
  match op, set fd with
  | .add, none => .ok (Function.update set fd (some event))
  | .add, some _ => .error eexist
  | .mod, some _ => .ok (Function.update set fd (some event))
  | .mod, none => .error enoent
  | .del, some _ => .ok (Function.update set fd none)
  | .del, none => .error enoent

/-- `LOG_FATAL`: the message, then `exit(-1)`. -/
structure Exit where
  code : Int
  message : String
  deriving DecidableEq, Repr

/-- The poller with everything its calls touch: the channel objects, `channels_`,
the kernel's set, and what it logged at ERROR level. -/
structure EPollPoller where
  heap : ChannelPtr → Channel
  channels : Fd → Option ChannelPtr
  epoll : EpollSet
  errors : List String

namespace EPollPoller

def kNew : Int := -1
def kAdded : Int := 1
def kDeleted : Int := 2

/-- An assignment to the channel object at `c`. -/
def modify (p : EPollPoller) (c : ChannelPtr) (change : Channel → Channel) : EPollPoller :=
  { p with heap := Function.update p.heap c (change (p.heap c)) }

/-- `channel->set_index(idx)`. -/
def setIndex (p : EPollPoller) (c : ChannelPtr) (index : Int) : EPollPoller :=
  p.modify c (fun channel => { channel with index := index })

/-- `Poller::hasChannel`. -/
def hasChannel (p : EPollPoller) (c : ChannelPtr) : Bool :=
  match p.channels (p.heap c).fd with
  | none => false
  | some found => found == c

/-- `EPollPoller::update`: a failed removal is logged, any other failure exits. -/
def update (p : EPollPoller) (op : EpollOp) (c : ChannelPtr) (ctl : EpollCtl := epollCtl) :
    Except Exit EPollPoller :=
  let fd := (p.heap c).fd
  match ctl p.epoll op fd ⟨(p.heap c).events, c⟩ with
  | .ok epoll => .ok { p with epoll := epoll }
  | .error errno =>
    if op = .del then
      .ok { p with errors := p.errors ++ [s!"epoll_ctl del error:{errno}\n"] }
    else .error ⟨-1, s!"epoll_ctl add/mod error:{errno}"⟩

def updateChannel (p : EPollPoller) (c : ChannelPtr) (ctl : EpollCtl := epollCtl) :
    Except Exit EPollPoller :=
  let index := (p.heap c).index
  let fd := (p.heap c).fd
  if index = kNew ∨ index = kDeleted then
    if index = kNew then
      let p := { p with channels := Function.update p.channels fd (some c) }
      (p.setIndex c kAdded).update .add c ctl
    else if p.channels fd = some c then
      (p.setIndex c kAdded).update .add c ctl
    else return p
  else if (p.heap c).isNoneEvent then do
    let p ← p.update .del c ctl
    return p.setIndex c kDeleted
  else p.update .mod c ctl

def removeChannel (p : EPollPoller) (c : ChannelPtr) (ctl : EpollCtl := epollCtl) :
    Except Exit EPollPoller :=
  let fd := (p.heap c).fd
  match p.channels fd with
  | none => return p
  | some found =>
    if found ≠ c then return p
    else if (p.heap c).isNoneEvent then
      let index := (p.heap c).index
      if index = kAdded ∨ index = kDeleted then do
        let p := { p with channels := Function.update p.channels fd none }
        let p ← if index = kAdded then p.update .del c ctl else pure p
        return p.setIndex c kNew
      else return p
    else return p

/-- `channel->set_revents(revt)`. -/
def setRevents (p : EPollPoller) (c : ChannelPtr) (revents : Mask) : EPollPoller :=
  p.modify c (fun channel => { channel with revents := revents })

/-- `fillActiveChannels`, on the events that `epoll_wait` stored at the front of
`events_`. Unless `NDEBUG` is defined, the first channel that is not the one in
`channels_` under its fd ends it. -/
def fillActiveChannels (ndebug : Bool) (p : EPollPoller) :
    List EpollEvent → List ChannelPtr → EPollPoller × List ChannelPtr
  | [], activeChannels => (p, activeChannels)
  | event :: events, activeChannels =>
    if ndebug || p.hasChannel event.ptr then
      fillActiveChannels ndebug (p.setRevents event.ptr event.events) events
        (activeChannels ++ [event.ptr])
    else (p, activeChannels)

end EPollPoller
end MiniMuduo
