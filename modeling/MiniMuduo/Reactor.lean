import MiniMuduo.PollDelivery
import MiniMuduo.LoopWakeup

/-! `EventLoop::loop` with its poller. `epoll_wait` now answers for the channels that are
registered, the wake-up channel among them, whose descriptor is ready as the counter of the
eventfd says; the channels that it tells of have their turns; and what runs in a turn calls
back into the loop and into the poller. Forgetting the one half or the other gives the two
systems that this one is made of. -/
namespace MiniMuduo
open EPollPoller PollerCoherence ActiveChannels ActiveDispatch PollDelivery

/-- What an eventfd is ready for. -/
def eventfdReady (counter : Nat) : Mask :=
  (if 0 < counter then epollIn else 0) ||| (if counter < eventfdMax then epollOut else 0)

/-- The loop, its poller, what the descriptors but the eventfd are ready for, those of
`activeChannels_` whose turn is still to come, and the channel whose turn it is. -/
structure Reactor (Functor : Type) where
  loop : EventLoop Functor
  events : EventPoller
  ready : Fd → Mask
  due : List ChannelPtr
  turn : Option ChannelPtr

/-- A step of the loop's own or of another thread, a return from `epoll_wait`, a call for a
channel, a descriptor that becomes ready for other things, the turn of a channel, its end,
and the whole turn of the wake-up channel, with whether it reads. -/
inductive ReactorAction (Functor : Type) where
  | inner (action : LoopAction Functor)
  | polled (result : WaitResult)
  | call (call : LoopCall)
  | becomes (fd : Fd) (ready : Mask)
  | begin (channel : ChannelPtr)
  | finish
  | wake (reads : Bool)
  deriving DecidableEq, Repr

/-- `handleEvent` comes to the read callback, if nothing is tied. -/
def Channel.reads (channel : Channel) : Bool :=
  !channel.tied && channel.revents.has (epollIn ||| epollPri)

theorem Channel.reads_iff {channel : Channel} : channel.reads = true ↔
    channel.tied = false ∧ channel.revents.has (epollIn ||| epollPri) = true := by
  simp [reads]

namespace Reactor

variable {Functor : Type}

/-- What the constructor of the loop sets for the wake-up channel. -/
def wakeupCallbacks : Channel.Callbacks (StateM (EventLoop Functor)) where
  readCallback := some fun _ => modify EventLoop.handleRead
  writeCallback := none
  closeCallback := none
  errorCallback := none

/-- The turn of the wake-up channel. Nobody has tied it, and so `tie_` is never asked. -/
def handleWakeup (channel : Channel) (pollReturnTime : Timestamp) (loop : EventLoop Functor) :
    EventLoop Functor :=
  (Channel.handleEvent (pure channel.tied) false (pure channel.revents) wakeupCallbacks
    pollReturnTime loop).2

theorem handleWakeup_eq (channel : Channel) (time : Timestamp) (loop : EventLoop Functor) :
    handleWakeup channel time loop = if channel.reads then loop.handleRead else loop := by
  have guard : (Channel.handleEventWithGuard (pure channel.revents) wakeupCallbacks time loop).2 =
      if channel.revents.has (epollIn ||| epollPri) then loop.handleRead else loop := by
    simp only [Channel.handleEventWithGuard, pure_bind, wakeupCallbacks, Channel.runCallback,
      ite_self, Option.map_some]
    split <;> rfl
  unfold handleWakeup Channel.handleEvent Channel.reads
  cases channel.tied with
  | true => rfl
  | false => simpa using guard

theorem handleWakeup_pc (channel : Channel) (time : Timestamp) (loop : EventLoop Functor) :
    (handleWakeup channel time loop).pc = loop.pc := by
  rw [handleWakeup_eq]
  split
  · obtain ⟨errors, drained⟩ := EventLoop.handleRead_eq loop
    rw [drained]
  · rfl

/-- The poller as the kernel sees it, with the counter of the eventfd behind the descriptor of
the wake-up channel. -/
def watch (wakeup : ChannelPtr) (s : Reactor Functor) : Watch where
  events := s.events
  ready := Function.update s.ready (s.events.poller.heap wakeup).fd (eventfdReady s.loop.counter)

/-- The loop thread runs code that is not the loop's, between two calls: in dispatch that is
so in turns. -/
structure RunsUserCode (owner : Tid) (s : Reactor Functor) : Prop where
  idle : s.loop.calls owner = .idle
  user : s.loop.pc.runsUserCode = true
  turn : s.loop.pc = .dispatch → s.turn ≠ none

/-- Of the steps of the loop, what `epoll_wait` and the turns leave: the return of the first
and the reading of the counter are steps of their own here, and dispatch is over when nothing
is due. -/
def Leaves (owner : Tid) (s : Reactor Functor) : LoopAction Functor → Prop
  | .call t _ | .advance t => t = owner → s.loop.pc = .dispatch → s.turn ≠ none
  | .enterLoop => True
  | .loop => s.loop.pc ≠ .epollWait ∧ (s.loop.pc = .dispatch → s.due = [] ∧ s.turn = none)
  | .handleRead => False

section
variable (ndebug : Bool) (owner : Tid) (wakeup : ChannelPtr) (channels : Finset ChannelPtr)

inductive Step : Reactor Functor → ReactorAction Functor → Reactor Functor → Prop where
  | inner {s : Reactor Functor} {action : LoopAction Functor} {loop : EventLoop Functor} :
      s.Leaves owner action → s.loop.step owner action = some loop →
      Step s (.inner action) { s with loop := loop }
  | poll {s : Reactor Functor} {result : WaitResult} {loop : EventLoop Functor} :
      s.loop.pc = .epollWait → s.loop.step owner .loop = some loop →
      Answers (s.watch wakeup) result →
      Step s (.polled result) { s with
        loop := loop
        events := (poll ndebug s.events result []).1
        due := (poll ndebug s.events result []).2 }
  | call {s : Reactor Functor} {call : LoopCall} {p : EPollPoller} :
      s.RunsUserCode owner → call.channel ∈ channels → call.perform s.events.poller = .ok p →
      Step s (.call call) { s with events := ⟨p, s.events.eventsSize⟩ }
  | becomes {s : Reactor Functor} {fd : Fd} {ready : Mask} :
      fd ≠ (s.events.poller.heap wakeup).fd →
      Step s (.becomes fd ready) { s with ready := Function.update s.ready fd ready }
  | begin {s : Reactor Functor} {c : ChannelPtr} {due : List ChannelPtr} :
      s.loop.pc = .dispatch → s.turn = none → s.due = c :: due → c ≠ wakeup →
      Step s (.begin c) { s with turn := some c, due := due }
  | finish {s : Reactor Functor} {c : ChannelPtr} :
      s.turn = some c → s.loop.calls owner = .idle → Step s .finish { s with turn := none }
  | wake {s : Reactor Functor} {due : List ChannelPtr} {time : Timestamp} :
      s.loop.pc = .dispatch → s.turn = none → s.loop.calls owner = .idle →
      s.due = wakeup :: due →
      Step s (.wake (s.events.poller.heap wakeup).reads) { s with
        loop := handleWakeup (s.events.poller.heap wakeup) time s.loop
        due := due }

/-- A loop for these channels, from its constructor on, which has made the wake-up channel
want to read. -/
structure Constructed (s : Reactor Functor) : Prop where
  loop : s.loop = {}
  poller : (pollerSystem (channels : Set ChannelPtr)).Start s.events.poller
  size : s.events.eventsSize = kInitEventListSize
  member : wakeup ∈ channels
  wants : s.events.poller.heap wakeup =
    { fd := (s.events.poller.heap wakeup).fd, events := Channel.kReadEvent }
  due : s.due = []
  turn : s.turn = none

end

end Reactor

def reactorSystem (Functor : Type) (ndebug : Bool) (owner : Tid) (wakeup : ChannelPtr)
    (channels : Finset ChannelPtr) : StepSystem (Reactor Functor) (ReactorAction Functor) where
  Start := Reactor.Constructed wakeup channels
  Step := Reactor.Step ndebug owner wakeup channels

/-- The loop, once it has been entered. -/
def onceEntered (Functor : Type) (ndebug : Bool) (owner : Tid) (wakeup : ChannelPtr)
    (channels : Finset ChannelPtr) : StepSystem (Reactor Functor) (ReactorAction Functor) :=
  (reactorSystem Functor ndebug owner wakeup channels).restrict
    fun _ action => action ≠ .inner .enterLoop

namespace Reactor

variable {Functor : Type} {ndebug : Bool} {owner : Tid} {wakeup : ChannelPtr}
variable {channels : Finset ChannelPtr} {s t : Reactor Functor} {action : ReactorAction Functor}
variable {actions : List (ReactorAction Functor)} {result : WaitResult} {p : EPollPoller}

/-! ### The loop alone -/

/-- What an action is for the loop. -/
def observe : ReactorAction Functor → List (LoopAction Functor)
  | .inner action => [action]
  | .polled _ => [.loop]
  | .wake true => [.handleRead]
  | .call _ | .becomes _ _ | .begin _ | .finish | .wake false => []

/-- An action is one step of the loop or none. -/
theorem step_loop (step : Step ndebug owner wakeup channels s action t) :
    observe action = [] ∧ t.loop = s.loop ∨ ∃ inner, observe action = [inner] ∧
      s.loop.step owner inner = some t.loop ∧
      (inner = .enterLoop → action = .inner .enterLoop) := by
  cases step with
  | inner _ stepped => exact Or.inr ⟨_, rfl, stepped, fun enters => by rw [enters]⟩
  | poll _ stepped _ => exact Or.inr ⟨.loop, rfl, stepped, nofun⟩
  | call | becomes | begin | finish => exact Or.inl ⟨rfl, rfl⟩
  | wake pc _ idle _ =>
    rw [handleWakeup_eq]
    cases reads : (s.events.poller.heap wakeup).reads with
    | false => exact Or.inl ⟨rfl, rfl⟩
    | true =>
      refine Or.inr ⟨.handleRead, rfl, ?_, nofun⟩
      simp [EventLoop.step, pc, idle, CallPc.isIdle]

theorem simulates_loop : (reactorSystem Functor ndebug owner wakeup channels).Simulates
    (loopSystem Functor owner) observe (fun s loop => loop = s.loop) where
  step := by
    rintro s action t _ rfl step
    rcases step_loop step with ⟨silent, same⟩ | ⟨inner, seen, stepped, _⟩
    · exact ⟨t.loop, by rw [silent, same]; exact .nil, rfl⟩
    · exact ⟨t.loop, by rw [seen]; exact .cons stepped .nil, rfl⟩

theorem reachable_loop
    (reached : (reactorSystem Functor ndebug owner wakeup channels).Reachable s) :
    (loopSystem Functor owner).Reachable s.loop := by
  obtain ⟨first, actions, start, run⟩ := reached
  obtain ⟨_, projected, rfl⟩ := simulates_loop.run rfl run
  exact ⟨first.loop, _, start.loop, projected⟩

/-! ### The poller alone -/

def SameFd (c : ChannelPtr) (fd : Fd) (p : EPollPoller) : Prop := (p.heap c).fd = fd

theorem setRevents_sameFd {c : ChannelPtr} {fd : Fd} (same : SameFd c fd p) (d : ChannelPtr)
    (revents : Mask) : SameFd c fd (p.setRevents d revents) := by
  by_cases here : c = d
  · subst here
    simpa [SameFd, setRevents, EPollPoller.modify] using same
  · simpa [SameFd, setRevents, EPollPoller.modify, here] using same

theorem poll_sameFd (c : ChannelPtr) (w : Watch) :
    SameFd c (w.events.poller.heap c).fd (poll ndebug w.events result []).1.poller :=
  poll_invariant (fun _ d revents same => setRevents_sameFd same d revents) (fun _ _ same => same)
    rfl

/-- Whatever the threads do to the counter, the kernel sees it behind one descriptor. -/
theorem watch_loop (s : Reactor Functor) (loop : EventLoop Functor) : ∃ labels,
    (watchSystem ndebug channels).Run (s.watch wakeup) labels
      (({ s with loop := loop }).watch wakeup) := by
  refine ⟨[.becomes (s.events.poller.heap wakeup).fd (eventfdReady loop.counter)],
    .cons .becomes ?_⟩
  simp only [watch, Function.update_idem]
  exact .nil

/-- An action is a few steps of the poller and the descriptors. -/
theorem step_watch (placed : Placed (channels : Set ChannelPtr) s.events.poller)
    (step : Step ndebug owner wakeup channels s action t) :
    ∃ labels, (watchSystem ndebug channels).Run (s.watch wakeup) labels (t.watch wakeup) := by
  cases step with
  | inner => exact watch_loop s _
  | @poll result loop _ _ answers =>
    refine ⟨[_, .becomes (s.events.poller.heap wakeup).fd (eventfdReady loop.counter)],
      .cons (.poll answers) (.cons .becomes ?_)⟩
    have fd : ((poll ndebug s.events result []).1.poller.heap wakeup).fd =
        (s.events.poller.heap wakeup).fd := poll_sameFd wakeup (s.watch wakeup)
    simp only [watch, fd, Function.update_idem]
    exact .nil
  | @call call p user member ran =>
    have fd := (performed_call placed member ran).touches.fd wakeup
    refine ⟨[.call call], .cons (.call member ran) ?_⟩
    simp only [watch, fd]
    exact .nil
  | @becomes fd ready other =>
    refine ⟨[.becomes fd ready], .cons .becomes ?_⟩
    simp only [watch, Function.update_comm other]
    exact .nil
  | begin | finish => exact ⟨[], .nil⟩
  | wake => exact watch_loop s _

theorem watch_start (start : Constructed wakeup channels s) :
    (watchSystem ndebug channels).Start (s.watch wakeup) :=
  ⟨start.poller, start.size⟩

/-- The poller has got where it is by calls, polls and what the descriptors did. -/
def Watched (ndebug : Bool) (wakeup : ChannelPtr) (channels : Finset ChannelPtr)
    (s : Reactor Functor) : Prop :=
  (watchSystem ndebug channels).Reachable (s.watch wakeup)

theorem watched_step (watched : Watched ndebug wakeup channels s)
    (step : Step ndebug owner wakeup channels s action t) : Watched ndebug wakeup channels t := by
  obtain ⟨labels, run⟩ := step_watch (reachable_fitting watched).placed step
  exact StepSystem.Reachable.run watched run

theorem reachable_watch
    (reached : (reactorSystem Functor ndebug owner wakeup channels).Reachable s) :
    Watched ndebug wakeup channels s :=
  reached.invariant (fun _ start => .start (watch_start start)) fun _ _ _ => watched_step

theorem reachable_placed
    (reached : (reactorSystem Functor ndebug owner wakeup channels).Reachable s) :
    Placed (channels : Set ChannelPtr) s.events.poller :=
  (reachable_fitting (reachable_watch reached)).placed

/-- Every run of the loop with its poller is a run of the loop whose `epoll_wait` returns
whenever it likes and whose counter is read in any dispatch, and one of the poller that is
called and polled at any time; so what holds of either of them in all its runs holds here. -/
theorem runs_of_both (start : (reactorSystem Functor ndebug owner wakeup channels).Start s)
    (run : (reactorSystem Functor ndebug owner wakeup channels).Run s actions t) :
    ((loopSystem Functor owner).Start s.loop ∧
        (loopSystem Functor owner).Run s.loop (actions.flatMap observe) t.loop) ∧
      ∃ labels, (watchSystem ndebug channels).Start (s.watch wakeup) ∧
        (watchSystem ndebug channels).Run (s.watch wakeup) labels (t.watch wakeup) := by
  constructor
  · obtain ⟨loop, projected, rfl⟩ := simulates_loop.run rfl run
    exact ⟨start.loop, projected⟩
  · have answered (s : Reactor Functor) (action : ReactorAction Functor) (t : Reactor Functor)
        (above : Watch) (reached : (reactorSystem Functor ndebug owner wakeup channels).Reachable s)
        (related : above = s.watch wakeup)
        (step : (reactorSystem Functor ndebug owner wakeup channels).Step s action t) :
        ∃ labels next, (watchSystem ndebug channels).Run above labels next ∧
          next = t.watch wakeup := by
      obtain ⟨labels, projected⟩ := step_watch (reachable_placed reached) step
      exact ⟨labels, _, related ▸ projected, rfl⟩
    obtain ⟨labels, _, projected, rfl⟩ := run.simulated answered (.start start) rfl
    exact ⟨labels, watch_start start, projected⟩

/-- Channel 3, and channel 7 for wake-ups. -/
def constructed : Reactor Nat where
  loop := {}
  events := ⟨⟨fun c => { fd := c, events := if c = 7 then Channel.kReadEvent else 0 },
    fun _ => none, fun _ => none, []⟩, 16⟩
  ready := fun _ => 0
  due := []
  turn := none

theorem constructed_start : (reactorSystem Nat false 1 7 {3, 7}).Start constructed where
  loop := rfl
  poller := ⟨fun _ _ _ _ equal => Int.ofNat.inj equal, fun _ _ => rfl, fun _ => rfl, fun _ => rfl⟩
  size := rfl
  member := by decide
  wants := rfl
  due := rfl
  turn := rfl

theorem leaves_of_pc {s : Reactor Nat} (pc : s.loop.pc ≠ .epollWait)
    (other : s.loop.pc ≠ .dispatch) : s.Leaves 1 .loop :=
  ⟨pc, fun dispatch => absurd dispatch other⟩

/-- The wake-up channel has been registered, and the loop entered. -/
def entered : Reactor Nat := { constructed with
  events :=
    ⟨(constructed.events.poller.updateChannel 7).toOption.getD constructed.events.poller, 16⟩
  loop := { looping := true, pc := .whileTest } }

theorem entered_run : (reactorSystem Nat false 1 7 {3, 7}).Run constructed
    [.call (.update 7), .inner .enterLoop, .inner .loop, .inner .loop] entered :=
  .cons (.call ⟨rfl, rfl, nofun⟩ (by decide) rfl) (.cons (.inner trivial rfl)
    (.cons (.inner (leaves_of_pc nofun nofun) rfl)
      (.cons (.inner (leaves_of_pc nofun nofun) rfl) .nil)))

/-- It goes to sleep, and thread 2 queues 9. -/
def untilWritten : List (ReactorAction Nat) :=
  [.inner .loop, .inner (.call 2 (.queueInLoop 9)), .inner (.advance 2), .inner (.advance 2),
    .inner (.advance 2)]

def asleep : Reactor Nat := { entered with
  loop :=
    { looping := true, pendingFunctors := [9], counter := 1, pc := .epollWait, pushed := [9] } }

theorem written_run : (onceEntered Nat false 1 7 {3, 7}).Run entered untilWritten asleep := by
  refine .cons ⟨nofun, .inner (leaves_of_pc nofun nofun) rfl⟩
    (.cons ⟨nofun, .inner nofun rfl⟩ (.cons ⟨nofun, .inner nofun rfl⟩
      (.cons ⟨nofun, .inner nofun rfl⟩ (.cons ⟨nofun, .inner nofun ?_⟩ .nil))))
  simp [EventLoop.step, EventLoop.advance, EventLoop.beginCall, EventLoop.setCall,
    EventLoop.wakeup, entered, eventfdMax]

theorem asleep_answer : Answers (asleep.watch 7) (.ready [⟨epollIn, 7⟩] 0) := by
  have found : pending (asleep.watch 7) 7 = some ⟨epollIn, 7⟩ := by decide
  have entry : (asleep.watch 7).events.poller.epoll =
      Function.update (fun _ => none) 7 (some ⟨Channel.kReadEvent, 7⟩) := rfl
  refine @Answers.ready _ [7] _ _ (by decide) (by simp [found]) (by decide) ?_
  intro _ fd event pends
  by_contra other
  have apart : fd ≠ 7 := fun equal => other (by simp [equal])
  simp [pending, entry, apart] at pends

/-- The queued functor has announced itself before the first `epoll_wait` returns. -/
theorem first_poll_projects : (loopSystem Nat 1).Run {}
    [.enterLoop, .loop, .loop, .loop, .call 2 (.queueInLoop 9), .advance 2, .advance 2,
      .advance 2] asleep.loop :=
  (runs_of_both constructed_start (entered_run.append written_run.unrestricted)).1.2

end Reactor
end MiniMuduo
