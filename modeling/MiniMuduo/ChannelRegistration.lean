import MiniMuduo.EPollPoller
import MiniMuduo.ChannelInterest

/-! From a channel's interest to the epoll instance of its loop. The way leads
through `Channel::update()` and `Channel::remove()`, and both have lost their one
line: interest is declared, and the kernel never hears of it. -/
namespace MiniMuduo.ChannelRegistration
open ChannelInterest

/-- The members of an `EventLoop` that its channels reach: `poller_`, with the
channel objects it holds pointers to, and `WakeupChannel_`. -/
structure LoopChannels where
  poller : EPollPoller
  wakeupChannel : ChannelPtr

namespace LoopChannels

/-- `Channel::update()`: `loop_->updateChannel(this)` is commented out. -/
def update (loop : LoopChannels) (_c : ChannelPtr) : LoopChannels := loop

/-- `Channel::remove()`: `loop_->removeChannel(this)` is commented out. -/
def remove (loop : LoopChannels) (_c : ChannelPtr) : LoopChannels := loop

/-- One of the five calls on the channel at `c`: its assignment, then `update()`. -/
def declare (loop : LoopChannels) (c : ChannelPtr) (call : InterestCall) : LoopChannels :=
  update { loop with poller := loop.poller.modify c (fun channel => call.apply channel) } c

def disableAll (loop : LoopChannels) (c : ChannelPtr) : LoopChannels :=
  loop.declare c .disableAll

/-- `EventLoop::EventLoop()`, among channels with these fds: a new poller, then
`WakeupChannel_->enableReading()`. -/
def construct (fds : ChannelPtr → Fd) (wakeup : ChannelPtr) : LoopChannels :=
  let poller : EPollPoller := ⟨fun c => { fd := fds c }, fun _ => none, fun _ => none, []⟩
  declare ⟨poller, wakeup⟩ wakeup .enableReading

/-- The mask registered for the channel's fd; an absent fd counts as 0. -/
def registered (loop : LoopChannels) (c : ChannelPtr) : Mask :=
  match loop.poller.epoll (loop.poller.heap c).fd with
  | none => 0
  | some event => event.events

end LoopChannels

open LoopChannels

/-- A loop after these calls on its channels. -/
def declared (loop : LoopChannels) (calls : List (ChannelPtr × InterestCall)) : LoopChannels :=
  calls.foldl (fun loop call => loop.declare call.1 call.2) loop

/-- What is registered is what the channel declared. -/
def Reaches (loop : LoopChannels) (c : ChannelPtr) : Prop :=
  loop.registered c = (loop.poller.heap c).events

instance (loop : LoopChannels) (c : ChannelPtr) : Decidable (Reaches loop c) :=
  inferInstanceAs (Decidable (loop.registered c = (loop.poller.heap c).events))

/-- Neither the kernel nor the poller's map knows the channel's fd. -/
def Unregistered (loop : LoopChannels) (c : ChannelPtr) : Prop :=
  loop.poller.epoll (loop.poller.heap c).fd = none ∧
    loop.poller.channels (loop.poller.heap c).fd = none

/-- Declared interest reaches epoll: after the constructor's own call, after each
later one, and when a channel is disabled and removed; and the wake-up fd is
registered all along. -/
structure InterestReaches (fds : ChannelPtr → Fd) (wakeup : ChannelPtr)
    (calls : List (ChannelPtr × InterestCall)) : Prop where
  constructed : Reaches (construct fds wakeup) wakeup
  each : ∀ before c call rest, calls = before ++ (c, call) :: rest →
    Reaches (declared (construct fds wakeup) (before ++ [(c, call)])) c
  removed : ∀ c, Unregistered
    (((declared (construct fds wakeup) calls).disableAll c).remove c) c
  wakeable : (registered (declared (construct fds wakeup) calls) wakeup).has epollIn = true

variable {loop : LoopChannels} {c : ChannelPtr}

/-- What the poller and the kernel have on record. -/
def records (loop : LoopChannels) : (Fd → Option ChannelPtr) × EpollSet :=
  (loop.poller.channels, loop.poller.epoll)

theorem declare_records (loop : LoopChannels) (c : ChannelPtr) (call : InterestCall) :
    records (loop.declare c call) = records loop := rfl

/-- No sequence of calls changes a record of the poller or of the kernel. -/
theorem declared_records (loop : LoopChannels) (calls : List (ChannelPtr × InterestCall)) :
    records (declared loop calls) = records loop := by
  induction calls generalizing loop with
  | nil => rfl
  | cons call rest ih => exact (ih _).trans (declare_records loop call.1 call.2)

private theorem constructed_records (fds : ChannelPtr → Fd) (wakeup : ChannelPtr) :
    records (construct fds wakeup) = (fun _ => none, fun _ => none) := rfl

theorem unregistered_of_records (empty : records loop = (fun _ => none, fun _ => none)) :
    Unregistered loop c := by
  obtain ⟨channels, epoll⟩ := Prod.mk.inj empty
  exact ⟨by rw [epoll], by rw [channels]⟩

theorem registered_of_unregistered (unregistered : Unregistered loop c) :
    loop.registered c = 0 := by
  rw [registered, unregistered.1]

/-- With nothing registered, interest has arrived only where there is none. -/
theorem reaches_iff_none (unregistered : Unregistered loop c) :
    Reaches loop c ↔ (loop.poller.heap c).isNoneEvent = true := by
  rw [Reaches, registered_of_unregistered unregistered, Channel.isNoneEvent, beq_iff_eq]
  exact eq_comm

/-- Whatever the channels and the calls, no fd is ever registered, the wake-up fd
included; what a channel declared has reached epoll only if that is nothing. The
constructor's own `enableReading` is never carried out. -/
theorem interest_never_reaches_epoll (fds : ChannelPtr → Fd) (wakeup : ChannelPtr)
    (calls : List (ChannelPtr × InterestCall)) :
    ¬ InterestReaches fds wakeup calls ∧
      ∀ c, Unregistered (declared (construct fds wakeup) calls) c ∧
        (Reaches (declared (construct fds wakeup) calls) c ↔
          ((declared (construct fds wakeup) calls).poller.heap c).isNoneEvent = true) := by
  have unregistered (calls) (c) : Unregistered (declared (construct fds wakeup) calls) c :=
    unregistered_of_records ((declared_records _ calls).trans (constructed_records fds wakeup))
  refine ⟨?_, fun c => ⟨unregistered calls c, reaches_iff_none (unregistered calls c)⟩⟩
  intro reaches
  have silent := registered_of_unregistered (unregistered calls wakeup)
  exact absurd reaches.wakeable (by rw [silent]; decide)

/-- A loop just constructed, with wake-up fd 7, is deaf to its wake-up fd. -/
theorem new_loop_is_not_wakeable : ¬ ∀ fds wakeup calls, Function.Injective fds →
    InterestReaches fds wakeup calls := by
  intro reaches
  have constructed := (reaches (fun c => c) 7 [] (fun _ _ => Int.ofNat.inj)).constructed
  exact absurd constructed (by decide)

end MiniMuduo.ChannelRegistration
