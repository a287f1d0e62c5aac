import MiniMuduo.ReactorTurns
import MiniMuduo.ChannelRegistration
import MiniMuduo.LoopRounds

/-! Whether a wake-up gets through. Who queues work for a sleeping loop writes to the eventfd,
and the loop comes back from `epoll_wait` for it if the wake-up channel is registered for
reading. `Channel::update()` was to see to that; as it stands, nothing does, and no call of
another thread changes what `epoll_wait` answers. -/
namespace MiniMuduo.ReactorWakeup
open EPollPoller PollerCoherence ActiveChannels ActiveDispatch PollDelivery Reactor ReactorTurns
open LoopWakeup LoopRounds ChannelRegistration

variable {Functor : Type} {ndebug : Bool} {owner : Tid} {wakeup : ChannelPtr}
variable {channels : Finset ChannelPtr} {r s t : Reactor Functor} {action : ReactorAction Functor}
variable {actions : List (ReactorAction Functor)} {result : WaitResult}

/-! ### A loop that is registered for its wake-ups -/

/-- What the kernel is to report of the eventfd. -/
def registeredFor (wakeup : ChannelPtr) (s : Reactor Functor) : Mask :=
  (LoopChannels.mk s.events.poller wakeup).registered wakeup

theorem eventfd_readable {counter : Nat} (written : 0 < counter) :
    eventfdReady counter &&& epollIn = epollIn := by
  rw [eventfdReady, if_pos written]
  split <;> decide

theorem reported_readable (interest : Mask) {counter : Nat} (written : 0 < counter) :
    (reported interest (eventfdReady counter)).has epollIn = interest.has epollIn := by
  have same : reported interest (eventfdReady counter) &&& epollIn = interest &&& epollIn := by
    have apart : epollIn &&& epollErr = 0 ∧ epollIn &&& epollHup = 0 := by decide
    rw [reported, BitVec.and_assoc, BitVec.and_comm _ epollIn, ← BitVec.and_assoc,
      eventfd_readable written, BitVec.and_or_distrib_left, BitVec.and_or_distrib_left, apart.1,
      apart.2, BitVec.and_comm]
    simp
  rw [Mask.has, Mask.has, same]

/-- Written to, the eventfd is an event for the kernel if and only if it is registered. -/
theorem kernel_wakes_iff (written : 0 < s.loop.counter) :
    (∃ event, pending (s.watch wakeup) (s.events.poller.heap wakeup).fd = some event ∧
        event.events.has epollIn = true) ↔ (registeredFor wakeup s).has epollIn = true := by
  have readable (interest : Mask) := reported_readable interest written
  simp only [pending, registeredFor, LoopChannels.registered, watch, Function.update_self]
  cases s.events.poller.epoll (s.events.poller.heap wakeup).fd with
  | none => simp [Mask.has]
  | some entry =>
    dsimp only
    rw [← readable]
    constructor
    · rintro ⟨event, pends, has⟩
      split at pends
      · cases pends
      · cases pends
        exact has
    · intro has
      have some : reported entry.events (eventfdReady s.loop.counter) ≠ 0 := by
        intro nothing
        simp [nothing, Mask.has] at has
      exact ⟨_, if_neg some, has⟩

theorem alert_kept (alert : Alert owner s.loop)
    (step : (onceEntered Functor ndebug owner wakeup channels).Step s action t) :
    Alert owner t.loop := by
  obtain ⟨once, step⟩ := step
  rcases step_loop step with ⟨_, same⟩ | ⟨inner, _, stepped, enters⟩
  · rw [same]
    exact alert
  · exact alert_step alert (fun entered => once (enters entered))
      (EventLoop.step_transition stepped)

theorem alert_run (alert : Alert owner s.loop)
    (run : (onceEntered Functor ndebug owner wakeup channels).Run s actions t) :
    Alert owner t.loop := by
  induction run with
  | nil => exact alert
  | cons step _ ih => exact ih (alert_kept alert step)

/-- When all calls of the other threads have been finished, work that is queued has been
announced in the eventfd. -/
theorem counter_of_work (alert : Alert owner s.loop) (waiting : s.loop.pc = .epollWait)
    (work : s.loop.pendingFunctors ≠ [] ∨ s.loop.quit = true)
    (settled : ∀ t, t ≠ owner → owesWakeup (s.loop.calls t) = false) : 0 < s.loop.counter := by
  have woken : Woken owner s.loop := by
    rcases work with queued | quits
    · rcases alert.queue (by rw [waiting]; rfl) queued with woken | own
      · exact woken
      · simp [alert.idle (by rw [waiting]; rfl)] at own
    · exact alert.quit waiting quits
  rcases woken with written | ⟨t, other, owes⟩
  · exact written
  · simp [settled t other] at owes

/-- Registered, the wake-up channel is told of what has been written. -/
theorem told_of_registered (turning : Turning wakeup channels s) (written : 0 < s.loop.counter)
    (registered : (registeredFor wakeup s).has epollIn = true)
    (answers : Answers (s.watch wakeup) result) (returned : ∀ errno, result ≠ .failed errno)
    (room : result.numEvents ≠ s.events.eventsSize) :
    wakeup ∈ (poll ndebug s.events result []).2 ∧
      ((poll ndebug s.events result []).1.poller.heap wakeup).revents.has epollIn = true := by
  have delivers : Delivers channels (s.watch wakeup) result (poll ndebug s.events result []) :=
    poll_delivers turning.placed answers
  obtain ⟨event, pends, has⟩ := (kernel_wakes_iff written).mpr registered
  obtain ⟨known, same, _, mask, some⟩ := pending_spec turning.placed pends
  obtain rfl : event.ptr = wakeup := turning.placed.distinct known turning.member same
  have told := delivers.all returned room _ known (mask ▸ some)
  exact ⟨told, by rw [(delivers.told _ told).1, ← mask]; exact has⟩

section
variable (reached : (reactorSystem Functor ndebug owner wakeup channels).Reachable r)
variable (run : (onceEntered Functor ndebug owner wakeup channels).Run r actions s)
variable (waiting : s.loop.pc = .epollWait)
variable (work : s.loop.pendingFunctors ≠ [] ∨ s.loop.quit = true)
variable (settled : ∀ t, t ≠ owner → owesWakeup (s.loop.calls t) = false)
include reached run waiting work settled

/-- In a loop that was entered with an empty queue: with work in the queue the kernel has an
event for the loop at `epoll_wait` if and only if the wake-up channel is registered for
reading; and then every answer, unless it is a failure or fills `events_`, gives the wake-up
channel its turn. -/
theorem work_wakes_iff (running : (runningLoop Functor owner).Start r.loop) :
    ((∃ event, pending (s.watch wakeup) (s.events.poller.heap wakeup).fd = some event ∧
        event.events.has epollIn = true) ↔ (registeredFor wakeup s).has epollIn = true) ∧
      ((registeredFor wakeup s).has epollIn = true → ∀ result, Answers (s.watch wakeup) result →
        (∀ errno, result ≠ .failed errno) → result.numEvents ≠ s.events.eventsSize →
        wakeup ∈ (poll ndebug s.events result []).2 ∧
          ((poll ndebug s.events result []).1.poller.heap wakeup).revents.has epollIn = true) := by
  have written := counter_of_work (alert_run (alert_of_start running) run) waiting work settled
  exact ⟨kernel_wakes_iff written, fun registered _ =>
    told_of_registered (reachable_turning (reached.run run.unrestricted)) written registered⟩

/-- And when that loop is at `epoll_wait` again, the wake-up channel has had its turn and all
that had been pushed has been called. -/
theorem queued_work_gets_through {later : List (ReactorAction Functor)} {u : Reactor Functor}
    (running : (runningLoop Functor owner).Start r.loop)
    (registered : (registeredFor wakeup s).has epollIn = true)
    (polled : Step ndebug owner wakeup channels s (.polled result) t)
    (returned : ∀ errno, result ≠ .failed errno)
    (room : result.numEvents ≠ s.events.eventsSize)
    (pass : (untilPoll Functor ndebug owner wakeup channels).Run t later u)
    (again : u.loop.pc = .epollWait) :
    wakeup ∈ later.flatMap (turns wakeup) ∧ s.loop.pushed <+: u.loop.executed := by
  have written := counter_of_work (alert_run (alert_of_start running) run) waiting work settled
  have before := reached.run run.unrestricted
  have after := before.step polled
  have rests := (reachable_turning (after.run pass.unrestricted)).resting (by simp [again])
  obtain ⟨inOrder, _⟩ := turns_run (reachable_turning after) pass
  rw [rests.1, List.append_nil] at inOrder
  obtain ⟨_, projected, rfl⟩ := simulates_loop.run rfl pass.unrestricted
  cases polled with
  | poll _ stepped answers =>
    have told : wakeup ∈ (poll ndebug s.events result []).2 :=
      (told_of_registered (reachable_turning before) written registered answers returned room).1
    have attended := attended_run (reachable_loop after) (attended_of_return stepped waiting)
      projected
    exact ⟨inOrder ▸ told, executed_of_attended attended (Or.inl again)⟩

end

/-- Thread 2 has queued 9, and the loop is told. -/
theorem queued_functor_heard :
    7 ∈ (poll false asleep.events (.ready [⟨epollIn, 7⟩] 0) []).2 := by
  have iff := work_wakes_iff ⟨_, _, constructed_start, entered_run⟩ written_run rfl
    (Or.inl nofun) (fun _ _ => rfl) ⟨rfl, rfl, rfl, rfl⟩
  exact (iff.2 (by decide) _ asleep_answer nofun (by decide)).1

/-- From the poll to the next: the wake-up channel reads, and 9 is called. -/
def wholePass : List (ReactorAction Nat) := .wake true :: List.replicate 7 (.inner .loop)

theorem whole_pass_run : ∃ u, (untilPoll Nat false 1 7 {3, 7}).Run told wholePass u ∧
    u.loop.pc = .epollWait := by
  refine ⟨_, .cons ⟨rfl, woken_step⟩ <| .cons ⟨rfl, .inner ⟨nofun, fun _ => ⟨rfl, rfl⟩⟩ rfl⟩ <|
    .cons ⟨rfl, .inner (leaves_of_pc nofun nofun) rfl⟩ <|
    .cons ⟨rfl, .inner (leaves_of_pc nofun nofun) rfl⟩ <|
    .cons ⟨rfl, .inner (leaves_of_pc nofun nofun) rfl⟩ <|
    .cons ⟨rfl, .inner (leaves_of_pc nofun nofun) rfl⟩ <|
    .cons ⟨rfl, .inner (leaves_of_pc nofun nofun) rfl⟩ <|
    .cons ⟨rfl, .inner (leaves_of_pc nofun nofun) rfl⟩ .nil, rfl⟩

theorem nine_gets_through : ∃ u : Reactor Nat, u.loop.pc = .epollWait ∧
    7 ∈ wholePass.flatMap (turns 7) ∧ [9] <+: u.loop.executed := by
  obtain ⟨u, pass, again⟩ := whole_pass_run
  exact ⟨u, again, queued_work_gets_through ⟨_, _, constructed_start, entered_run⟩ written_run
    rfl (Or.inl nofun) (fun _ _ => rfl) ⟨rfl, rfl, rfl, rfl⟩ (by decide) told_step nofun
    (by decide) pass again⟩

/-! ### The loop as it stands -/

/-- Nobody but the loop has its wake-up channel, and of the loop's calls for it only the
assignments to its interest are left; so no call of the poller is ever about it. -/
def asItStands (Functor : Type) (ndebug : Bool) (owner : Tid) (wakeup : ChannelPtr)
    (channels : Finset ChannelPtr) : StepSystem (Reactor Functor) (ReactorAction Functor) :=
  (reactorSystem Functor ndebug owner wakeup channels).restrict
    fun _ action => ∀ call, action = .call call → call.channel ≠ wakeup

/-- The poller does not know the channel. -/
def Unknown (wakeup : ChannelPtr) (p : EPollPoller) : Prop := Stands p wakeup .absent

theorem setRevents_unknown {p : EPollPoller} (unknown : Unknown wakeup p) (c : ChannelPtr)
    (revents : Mask) : Unknown wakeup (p.setRevents c revents) := by
  by_cases here : wakeup = c
  · subst here
    simpa [Unknown, Stands, setRevents, EPollPoller.modify] using unknown
  · simpa [Unknown, Stands, setRevents, EPollPoller.modify, here] using unknown

theorem poll_unknown {w : Watch} (unknown : Unknown wakeup w.events.poller) :
    Unknown wakeup (poll ndebug w.events result []).1.poller :=
  poll_invariant (fun _ c revents held => setRevents_unknown held c revents)
    (fun _ _ held => held) unknown

/-- The wake-up channel is not known, and its turn never comes. -/
structure Deaf (wakeup : ChannelPtr) (channels : Finset ChannelPtr) (s : Reactor Functor) :
    Prop where
  turning : Turning wakeup channels s
  unknown : Unknown wakeup s.events.poller
  apart : wakeup ∉ s.due

theorem deaf_step (deaf : Deaf wakeup channels s)
    (step : (asItStands Functor ndebug owner wakeup channels).Step s action t) :
    Deaf wakeup channels t ∧ s.loop.counter ≤ t.loop.counter := by
  obtain ⟨spared, step⟩ := step
  obtain ⟨turning, unknown, apart⟩ := deaf
  have next := turning_step turning step
  cases step with
  | @inner inner loop leaves stepped =>
    have counts := inner_counts (EventLoop.step_transition stepped) (by rintro rfl; exact leaves)
    exact ⟨⟨next, unknown, apart⟩, counts.1⟩
  | @poll result loop waiting stepped answers =>
    have delivers : Delivers channels (s.watch wakeup) result (poll ndebug s.events result []) :=
      poll_delivers turning.placed answers
    have unheard : Unknown wakeup (s.watch wakeup).events.poller := unknown
    refine ⟨⟨next, poll_unknown unheard, fun told => ?_⟩, ?_⟩
    · have index := (delivers.registered wakeup told).2
      exact absurd (index.symm.trans unknown.1) (by decide)
    · rw [polled_loop waiting stepped]
  | @call call p user member ran =>
    have other : wakeup ≠ call.channel := fun same => spared call rfl same.symm
    have performed := performed_call turning.placed member ran
    have elsewhere : (s.events.poller.heap wakeup).fd ≠ (s.events.poller.heap call.channel).fd :=
      fun same => other (turning.placed.distinct turning.member member same)
    exact ⟨⟨next, stands_of_touches performed.touches other elsewhere unknown, apart⟩,
      Nat.le_refl _⟩
  | becomes | finish => exact ⟨⟨next, unknown, apart⟩, Nat.le_refl _⟩
  | begin _ _ due _ =>
    rw [due] at apart
    exact ⟨⟨next, unknown, fun later => apart (List.mem_cons_of_mem _ later)⟩, Nat.le_refl _⟩
  | wake _ _ _ due => exact absurd (due ▸ List.mem_cons_self) apart

theorem deaf_of_start (start : Constructed wakeup channels s) : Deaf wakeup channels s where
  turning := turning_of_start start
  unknown := ⟨start.poller.2.1 wakeup start.member, start.poller.2.2.1 _, start.poller.2.2.2 _⟩
  apart := by rw [start.due]; exact List.not_mem_nil

theorem deaf_run (deaf : Deaf wakeup channels s)
    (run : (asItStands Functor ndebug owner wakeup channels).Run s actions t) :
    Deaf wakeup channels t ∧ s.loop.counter ≤ t.loop.counter := by
  induction run with
  | nil => exact ⟨deaf, Nat.le_refl _⟩
  | cons step _ ih =>
    obtain ⟨middle, first⟩ := deaf_step deaf step
    obtain ⟨final, rest⟩ := ih middle
    exact ⟨final, Nat.le_trans first rest⟩

theorem answers_congr {w w' : Watch} (size : w.events.eventsSize = w'.events.eventsSize)
    (same : pending w = pending w') (answers : Answers w result) : Answers w' result := by
  cases answers with
  | failed => exact .failed
  | ready distinct entries fits complete =>
    rw [same] at entries complete
    rw [size] at fits complete
    exact .ready distinct entries fits complete

/-- What the kernel has does not depend on the loop. -/
theorem pending_of_deaf (deaf : Deaf wakeup channels s) (loop : EventLoop Functor) :
    pending (s.watch wakeup) = pending (({ s with loop := loop }).watch wakeup) := by
  funext fd
  by_cases here : fd = (s.events.poller.heap wakeup).fd
  · have absent : s.events.poller.epoll fd = none := by rw [here]; exact deaf.unknown.2.2
    simp [pending, watch, absent]
  · simp [pending, watch, here]

/-- As it stands, the loop cannot be woken: `epoll_wait` has the same answers whatever is
queued, requested and written by any thread, and what is written to the eventfd stays there. -/
theorem no_call_wakes (reached : (asItStands Functor ndebug owner wakeup channels).Reachable s) :
    (∀ result (loop : EventLoop Functor), Answers (s.watch wakeup) result ↔
        Answers (({ s with loop := loop }).watch wakeup) result) ∧
      ∀ actions t, (asItStands Functor ndebug owner wakeup channels).Run s actions t →
        s.loop.counter ≤ t.loop.counter := by
  obtain ⟨first, before, start, run⟩ := reached
  have deaf := (deaf_run (deaf_of_start start) run).1
  refine ⟨fun result loop => ?_, fun actions t run => (deaf_run deaf run).2⟩
  have same := pending_of_deaf deaf loop
  exact ⟨answers_congr rfl same, answers_congr rfl same.symm⟩

/-- The loop, at `epoll_wait` for the first time. -/
def sleeping : Reactor Nat := { constructed with loop := { looping := true, pc := .epollWait } }

theorem sleeping_run : (asItStands Nat false 1 7 {3, 7}).Run constructed
    [.inner .enterLoop, .inner .loop, .inner .loop, .inner .loop] sleeping :=
  .cons ⟨nofun, .inner trivial rfl⟩ (.cons ⟨nofun, .inner (leaves_of_pc nofun nofun) rfl⟩
    (.cons ⟨nofun, .inner (leaves_of_pc nofun nofun) rfl⟩
      (.cons ⟨nofun, .inner (leaves_of_pc nofun nofun) rfl⟩ .nil)))

/-- With 9 queued and the eventfd written, `epoll_wait` may still time out. -/
theorem queued_functor_unheard :
    Answers (({ sleeping with loop := asleep.loop }).watch 7) (.ready [] 0) := by
  have quiet : Answers (sleeping.watch 7) (.ready [] 0) :=
    @Answers.ready _ [] _ _ .nil rfl (by decide) fun _ fd event pends => by cases pends
  have reached : (asItStands Nat false 1 7 {3, 7}).Reachable sleeping :=
    ⟨_, _, constructed_start, sleeping_run⟩
  exact ((no_call_wakes reached).1 _ asleep.loop).mp quiet

end MiniMuduo.ReactorWakeup
