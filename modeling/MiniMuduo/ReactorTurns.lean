import MiniMuduo.Reactor

/-! From one `epoll_wait` to the next. The channels that a poll tells of have their turns in
the order of `activeChannels_`, with what the poll has told them, whatever the callbacks do
to the poller meanwhile; and the wake-up channel never finds its eventfd empty. -/
namespace MiniMuduo.ReactorTurns
open EPollPoller PollerCoherence ActiveChannels ActiveDispatch PollDelivery Reactor

variable {Functor : Type} {ndebug : Bool} {owner : Tid} {wakeup : ChannelPtr}
variable {channels : Finset ChannelPtr} {s t u : Reactor Functor} {action : ReactorAction Functor}
variable {actions : List (ReactorAction Functor)} {result : WaitResult}

/-! ### The steps of the loop -/

section
variable {loop next : EventLoop Functor} {inner : LoopAction Functor}
open EventLoop

def readError : String := "EventLoop::handleRead() reads -1 bytes instead of 8"

/-- But for its read callback, nothing takes from the counter or complains of it. -/
theorem inner_counts (transition : Transition owner loop inner next)
    (other : inner ≠ .handleRead) : loop.counter ≤ next.counter ∧
      (readError ∉ loop.errors → readError ∉ next.errors) := by
  cases transition with
  | @call t request idle user =>
    obtain ⟨calls, begun⟩ := beginCall_eq owner loop t request
    rw [begun]
    exact ⟨Nat.le_refl _, id⟩
  | wakeup =>
    unfold wakeup
    split
    · exact ⟨Nat.le_succ _, id⟩
    · refine ⟨Nat.le_refl _, fun silent => ?_⟩
      simp only [setCall, List.mem_append, List.mem_singleton, not_or]
      exact ⟨silent, by decide⟩
  | handleRead => exact absurd rfl other
  | _ => exact ⟨Nat.le_refl _, id⟩

theorem pc_kept (transition : Transition owner loop inner next) (apart : inner ≠ .loop)
    (outside : inner ≠ .enterLoop) : next.pc = loop.pc := by
  cases transition with
  | @call t request idle user =>
    obtain ⟨calls, begun⟩ := beginCall_eq owner loop t request
    rw [begun]
  | wakeup =>
    obtain ⟨counter, errors, _, written⟩ := wakeup_eq loop
    rw [written]
    rfl
  | handleRead =>
    obtain ⟨errors, drained⟩ := handleRead_eq loop
    rw [drained]
  | enterLoop => exact absurd rfl outside
  | push | queueTestWakes | queueTestSkips | storeQuit | quitTestWakes | quitTestSkips => rfl
  | _ => exact absurd rfl apart

/-- Dispatch is left when nothing is due. -/
theorem inner_rests (leaves : s.Leaves owner inner)
    (transition : Transition owner s.loop inner next) (elsewhere : next.pc ≠ .dispatch) :
    s.loop.pc ≠ .dispatch ∨ s.due = [] ∧ s.turn = none := by
  by_cases dispatching : s.loop.pc = .dispatch
  · cases inner with
    | loop => exact Or.inr (leaves.2 dispatching)
    | enterLoop =>
      cases transition with
      | enterLoop idle pc => exact Or.inl (by simp [pc])
    | handleRead => exact absurd leaves not_false
    | call | advance => exact absurd ((pc_kept transition nofun nofun).trans dispatching) elsewhere
  · exact Or.inl dispatching

end

/-! ### What holds in every state -/

/-- Channels are due only in dispatch, and once; and if the wake-up channel is to read, there
is something to be read. -/
structure Turning (wakeup : ChannelPtr) (channels : Finset ChannelPtr) (s : Reactor Functor) :
    Prop where
  member : wakeup ∈ channels
  placed : Placed (channels : Set ChannelPtr) s.events.poller
  resting : s.loop.pc ≠ .dispatch → s.due = [] ∧ s.turn = none
  once : s.due.Nodup
  counted : wakeup ∈ s.due → (s.events.poller.heap wakeup).reads = true → 0 < s.loop.counter
  silent : readError ∉ s.loop.errors

/-- The eventfd is readable if it has been written to. -/
theorem counter_of_wanted
    (has : (wanted (s.watch wakeup) wakeup).has (epollIn ||| epollPri) = true) :
    0 < s.loop.counter := by
  unfold wanted at has
  split at has
  · cases has
  · have readable := reported_has has
    simp only [watch, Function.update_self] at readable
    by_contra empty
    rw [Nat.eq_zero_of_not_pos empty] at readable
    exact absurd readable (by decide)

theorem polled_loop {loop : EventLoop Functor} (waiting : s.loop.pc = .epollWait)
    (stepped : s.loop.step owner .loop = some loop) : loop = { s.loop with pc := .dispatch } := by
  have idle : (s.loop.calls owner).isIdle = true := by
    by_contra busy
    simp [EventLoop.step, busy] at stepped
  simpa [EventLoop.step, EventLoop.loopStep, waiting, idle] using stepped.symm

/-- If the wake-up channel is told to read, there is something. -/
theorem counter_of_told (placed : Placed (channels : Set ChannelPtr) s.events.poller)
    (answers : Answers (s.watch wakeup) result)
    (told : wakeup ∈ (poll ndebug s.events result []).2)
    (reads : ((poll ndebug s.events result []).1.poller.heap wakeup).reads = true) :
    0 < s.loop.counter := by
  have delivers : Delivers channels (s.watch wakeup) result (poll ndebug s.events result []) :=
    poll_delivers placed answers
  have has := (Channel.reads_iff.mp reads).2
  rw [(delivers.told wakeup told).1] at has
  exact counter_of_wanted has

theorem turning_step (turning : Turning wakeup channels s)
    (step : Step ndebug owner wakeup channels s action t) : Turning wakeup channels t := by
  obtain ⟨inside, placed, resting, once, counted, silent⟩ := turning
  cases step with
  | @inner inner loop leaves stepped =>
    have transition := EventLoop.step_transition stepped
    obtain ⟨more, still⟩ := inner_counts transition (by rintro rfl; exact leaves)
    refine ⟨inside, placed, fun elsewhere => ?_, once, fun due reads => ?_, still silent⟩
    · exact (inner_rests leaves transition elsewhere).elim resting id
    · exact Nat.lt_of_lt_of_le (counted due reads) more
  | @poll result loop waiting stepped answers =>
    have delivers : Delivers channels (s.watch wakeup) result (poll ndebug s.events result []) :=
      poll_delivers placed answers
    have placed' : Placed (channels : Set ChannelPtr) (s.watch wakeup).events.poller := placed
    obtain rfl := polled_loop waiting stepped
    exact ⟨inside, poll_placed placed', fun elsewhere => absurd rfl elsewhere, delivers.once,
      counter_of_told placed answers, silent⟩
  | call _ member ran =>
    have performed := performed_call placed member ran
    refine ⟨inside, performed.placed, resting, once, fun due reads => counted due ?_, silent⟩
    obtain ⟨revents, tied⟩ := touches_saved performed.touches wakeup
    rwa [Channel.reads, revents, tied] at reads
  | becomes => exact ⟨inside, placed, resting, once, counted, silent⟩
  | begin dispatching _ due _ =>
    rw [due] at once counted
    exact ⟨inside, placed, fun elsewhere => absurd dispatching elsewhere,
      (List.nodup_cons.mp once).2, fun later => counted (List.mem_cons_of_mem _ later), silent⟩
  | finish =>
    exact ⟨inside, placed, fun elsewhere => ⟨(resting elsewhere).1, rfl⟩, once, counted, silent⟩
  | wake dispatching turn _ due =>
    rw [due] at once counted
    obtain ⟨first, rest⟩ := List.nodup_cons.mp once
    refine ⟨inside, placed, fun elsewhere => ?_, rest, fun later => absurd later first, ?_⟩
    · exact absurd ((handleWakeup_pc ..).trans dispatching) elsewhere
    · rw [handleWakeup_eq]
      split
      · rename_i reads
        have some := counted List.mem_cons_self reads
        rw [EventLoop.handleRead, if_neg (Nat.ne_of_gt some)]
        exact silent
      · exact silent

theorem turning_of_start (start : Constructed wakeup channels s) : Turning wakeup channels s where
  member := start.member
  placed := start_placed start.poller
  resting := fun _ => ⟨start.due, start.turn⟩
  once := by rw [start.due]; exact .nil
  counted := by simp [start.due]
  silent := by rw [start.loop]; exact nofun

theorem reachable_turning
    (reached : (reactorSystem Functor ndebug owner wakeup channels).Reachable s) :
    Turning wakeup channels s :=
  reached.invariant (fun _ => turning_of_start) fun _ _ _ => turning_step

/-- The eventfd is never read in vain: no read ever fails, and every one that is made finds
what has been written since the last. -/
theorem reads_find_something
    (reached : (reactorSystem Functor ndebug owner wakeup channels).Reachable s) :
    readError ∉ s.loop.errors ∧ ∀ t, Step ndebug owner wakeup channels s (.wake true) t →
      0 < s.loop.counter ∧ t.loop.counter = 0 := by
  have turning := reachable_turning reached
  refine ⟨turning.silent, fun t step => ?_⟩
  generalize action : ReactorAction.wake true = taken at step
  cases step with
  | wake _ _ _ due =>
    have reads := (ReactorAction.wake.inj action).symm
    have some := turning.counted (by simp [due]) reads
    refine ⟨some, ?_⟩
    rw [handleWakeup_eq, if_pos reads, EventLoop.handleRead, if_neg (Nat.ne_of_gt some)]
  | _ => cases action

/-- The wake-up channel has been told that it can read. -/
def told : Reactor Nat := { asleep with
  loop := { asleep.loop with pc := .dispatch }
  events := (poll false asleep.events (.ready [⟨epollIn, 7⟩] 0) []).1
  due := [7] }

theorem told_step :
    Step false 1 7 {3, 7} asleep (.polled (.ready [⟨epollIn, 7⟩] 0)) told :=
  .poll rfl rfl asleep_answer

theorem asleep_reached : (reactorSystem Nat false 1 7 {3, 7}).Reachable asleep :=
  ⟨_, _, constructed_start, entered_run.append written_run.unrestricted⟩

/-- It has read. -/
def woken : Reactor Nat := { told with loop := { told.loop with counter := 0 }, due := [] }

theorem woken_step : Step false 1 7 {3, 7} told (.wake true) woken :=
  @Step.wake Nat false 1 7 {3, 7} told [] 0 rfl rfl rfl rfl

theorem one_write_one_read : 0 < told.loop.counter ∧ woken.loop.counter = 0 :=
  (reads_find_something (asleep_reached.step told_step)).2 woken woken_step

/-! ### The turns of a pass -/

/-- The channel whose turn begins. -/
def turns (wakeup : ChannelPtr) : ReactorAction Functor → List ChannelPtr
  | .begin c => [c]
  | .wake _ => [wakeup]
  | .inner _ | .polled _ | .call _ | .becomes _ _ | .finish => []

def polls : ReactorAction Functor → Bool
  | .polled _ => true
  | _ => false

/-- The loop until it has polled again. -/
def untilPoll (Functor : Type) (ndebug : Bool) (owner : Tid) (wakeup : ChannelPtr)
    (channels : Finset ChannelPtr) : StepSystem (Reactor Functor) (ReactorAction Functor) :=
  (reactorSystem Functor ndebug owner wakeup channels).restrict fun _ action => polls action = false

theorem turns_step (placed : Placed (channels : Set ChannelPtr) s.events.poller)
    (step : (untilPoll Functor ndebug owner wakeup channels).Step s action t) :
    turns wakeup action ++ t.due = s.due ∧
      ∀ c, (t.events.poller.heap c).revents = (s.events.poller.heap c).revents := by
  obtain ⟨quiet, step⟩ := step
  cases step with
  | poll => cases quiet
  | call _ member ran =>
    exact ⟨rfl, fun c => (touches_saved (performed_call placed member ran).touches c).1⟩
  | begin _ _ due _ => exact ⟨due.symm, fun _ => rfl⟩
  | wake _ _ _ due => exact ⟨due.symm, fun _ => rfl⟩
  | inner | becomes | finish => exact ⟨rfl, fun _ => rfl⟩

theorem turns_run (turning : Turning wakeup channels s)
    (run : (untilPoll Functor ndebug owner wakeup channels).Run s actions t) :
    actions.flatMap (turns wakeup) ++ t.due = s.due ∧
      ∀ c, (t.events.poller.heap c).revents = (s.events.poller.heap c).revents := by
  induction run with
  | nil => exact ⟨rfl, fun _ => rfl⟩
  | cons step _ ih =>
    obtain ⟨first, saved⟩ := turns_step turning.placed step
    obtain ⟨rest, kept⟩ := ih (turning_step turning step.2)
    refine ⟨?_, fun c => (kept c).trans (saved c)⟩
    rw [List.flatMap_cons, List.append_assoc, rest, first]

/-- Between a poll and the next, whatever the callbacks, the functors and the other threads
do, the channels that are told have their turns in the order of the list, each once and with
what it was told; when the functors are called, all have had theirs. Nobody with something to
tell is left out, unless `epoll_wait` fails or fills `events_`. -/
theorem turns_follow_poll
    (reached : (reactorSystem Functor ndebug owner wakeup channels).Reachable s)
    (polled : Step ndebug owner wakeup channels s (.polled result) t)
    (run : (untilPoll Functor ndebug owner wakeup channels).Run t actions u) :
    Delivers channels (s.watch wakeup) result (t.events, t.due) ∧
      actions.flatMap (turns wakeup) ++ u.due = t.due ∧
      (u.loop.pc ≠ .dispatch → actions.flatMap (turns wakeup) = t.due) ∧
      ∀ c, (u.events.poller.heap c).revents = (t.events.poller.heap c).revents := by
  have after := reached.step polled
  obtain ⟨inOrder, saved⟩ := turns_run (reachable_turning after) run
  refine ⟨?_, inOrder, fun elsewhere => ?_, saved⟩
  · cases polled with
    | poll _ _ answers => exact poll_delivers (reachable_placed reached) answers
  · have none := ((reachable_turning (after.run run.unrestricted)).resting elsewhere).1
    rw [← inOrder, none, List.append_nil]

/-- Channel 7 is told, and has had its turn when the loop goes on to the functors. -/
theorem told_channel_has_its_turn :
    [ReactorAction.wake true, .inner (.loop : LoopAction Nat)].flatMap (turns 7) = told.due := by
  have run : (untilPoll Nat false 1 7 {3, 7}).Run told [.wake true, .inner .loop] _ :=
    .cons ⟨rfl, woken_step⟩ (.cons ⟨rfl, .inner ⟨nofun, fun _ => ⟨rfl, rfl⟩⟩ rfl⟩ .nil)
  exact (turns_follow_poll asleep_reached told_step run).2.2.1 nofun

end MiniMuduo.ReactorTurns
