import MiniMuduo.EventLoop

/-! Functors that the loop thread queues before it enters `loop()`. `queueInLoop` writes to
the eventfd only for another thread or out of a functor: else a `doPendingFunctors()` is
taken to follow. In front of `loop()` the first `epoll_wait` follows. -/
namespace MiniMuduo.EarlyFunctors
open EventLoop

variable {Functor : Type}

/-- A loop up to its first `epoll_wait`. All but the loop records history. -/
structure Startup (Functor : Type) where
  loop : EventLoop Functor := {}
  /-- An `epoll_wait` has returned. -/
  polled : Bool := false
  /-- The threads between their push and the write of `wakeup()`. -/
  announcing : Tid → Bool := fun _ => false
  /-- Another thread has pushed a functor or has written to the eventfd. -/
  helped : Bool := false
  /-- What the loop thread has pushed before the first `epoll_wait` returned. -/
  early : List Functor := []

/-- What the history gains from a step. -/
def Startup.record (owner : Tid) (s : Startup Functor) : LoopAction Functor → Startup Functor
  | .advance t =>
    match s.loop.calls t with
    | .push functor => { s with
        announcing := Function.update s.announcing t true
        helped := s.helped || t != owner
        early := if t = owner ∧ s.polled = false then s.early ++ [functor] else s.early }
    | .wakeup => { s with
        announcing := Function.update s.announcing t false
        helped := s.helped || t != owner }
    | _ => s
  | .loop =>
    match s.loop.pc with
    | .epollWait => { s with polled := true }
    | _ => s
  | _ => s

def Startup.step (owner : Tid) (s : Startup Functor) (action : LoopAction Functor) :
    Option (Startup Functor) :=
  (s.loop.step owner action).map fun loop => { s.record owner action with loop := loop }

/-- A loop owned by one thread and used by all, with its early history. -/
def startupSystem (Functor : Type) (owner : Tid) :
    StepSystem (Startup Functor) (LoopAction Functor) where
  Start s := s = {}
  Step s action next := s.step owner action = some next

/-- The loop thread is in its first `epoll_wait`. -/
def FirstPoll (s : Startup Functor) : Prop :=
  s.loop.pc = .epollWait ∧ s.polled = false

/-- It blocks there on a queue that is not empty, and no thread that has pushed is about to
wake it. -/
def Stalled (owner : Tid) (s : Startup Functor) : Prop :=
  FirstPoll s ∧ s.loop.pendingFunctors ≠ [] ∧ s.loop.counter = 0 ∧
    ∀ t, t ≠ owner → s.announcing t = false

/-- Work that the loop thread queues before the loop starts is not left waiting. -/
def NoEarlyWorkWaits (Functor : Type) : Prop :=
  ∀ (owner : Tid) (s : Startup Functor), (startupSystem Functor owner).Reachable s →
    s.early ≠ [] → ¬ Stalled owner s

/-- Where `loop()` stands before its first `epoll_wait` returns. -/
def beforePoll : LoopPc Functor → Bool
  | .outside | .setLooping | .resetQuit | .whileTest | .epollWait | .clearLooping => true
  | .dispatch | .setCalling | .swap | .functors _ | .inFunctor _ => false

/-- What holds until the first `epoll_wait` returns. The loop thread never writes to the
eventfd, and nothing drains it or the queue. -/
structure Quiet (owner : Tid) (s : Startup Functor) : Prop where
  before : beforePoll s.loop.pc = true
  calm : s.loop.callingPendingFunctors = false
  silent : s.loop.calls owner ≠ .wakeup
  queue : s.early ≠ [] → s.loop.pendingFunctors ≠ []
  helped : s.helped = true ↔ 0 < s.loop.counter ∨ ∃ t, t ≠ owner ∧ s.announcing t = true

variable {owner t : Tid} {s next : Startup Functor} {loop : EventLoop Functor}
variable {action : LoopAction Functor}

private theorem startup_step (stepped : s.loop.step owner action = some loop) :
    (startupSystem Functor owner).Step s action { s.record owner action with loop := loop } := by
  simp only [startupSystem, Startup.step, stepped, Option.map_some]

/-- A recorded step is a step of the loop. -/
theorem startup_simulates_loop (Functor : Type) (owner : Tid) :
    (startupSystem Functor owner).Simulates (loopSystem Functor owner) (fun action => [action])
      (fun s loop => s.loop = loop) where
  step := by
    rintro s action next _ rfl step
    obtain ⟨loop, stepped, rfl⟩ := Option.map_eq_some_iff.mp step
    exact ⟨loop, .cons stepped .nil, rfl⟩

/-- No step of the loop is refused for what has been recorded. -/
theorem loop_simulates_startup (Functor : Type) (owner : Tid) :
    (loopSystem Functor owner).Simulates (startupSystem Functor owner) (fun action => [action])
      (fun loop s => s.loop = loop) where
  step := by
    rintro _ action loop s rfl stepped
    exact ⟨_, .cons (startup_step stepped) .nil, rfl⟩

/-- The history takes no run from the loop and gives it none. -/
theorem recorded_run_iff {actions : List (LoopAction Functor)} :
    (∃ next, (startupSystem Functor owner).Run s actions next ∧ next.loop = loop) ↔
      (loopSystem Functor owner).Run s.loop actions loop := by
  constructor
  · rintro ⟨next, run, rfl⟩
    obtain ⟨_, above, rfl⟩ := (startup_simulates_loop Functor owner).run rfl run
    rwa [List.flatMap_singleton'] at above
  · intro run
    obtain ⟨next, above, same⟩ := (loop_simulates_startup Functor owner).run rfl run
    rw [List.flatMap_singleton'] at above
    exact ⟨next, above, same⟩

/-- A step that leaves the queue and the eventfd alone. -/
theorem Quiet.moved (quiet : Quiet owner s) (before : beforePoll loop.pc = true)
    (calling : loop.callingPendingFunctors = s.loop.callingPendingFunctors)
    (silent : loop.calls owner ≠ .wakeup)
    (queue : loop.pendingFunctors = s.loop.pendingFunctors)
    (counter : loop.counter = s.loop.counter) : Quiet owner { s with loop := loop } where
  before := before
  calm := calling.trans quiet.calm
  silent := silent
  queue := by
    rw [queue]
    exact quiet.queue
  helped := by
    rw [counter]
    exact quiet.helped

private theorem silent_setCall {pc : CallPc Functor} (silent : loop.calls owner ≠ .wakeup)
    (own : t = owner → pc ≠ .wakeup) : (loop.setCall t pc).calls owner ≠ .wakeup := by
  by_cases here : t = owner
  · subst here
    rw [setCall_same]
    exact own rfl
  · rw [setCall_other here]
    exact silent

private theorem silent_beginCall (t : Tid) (request : Request Functor)
    (silent : loop.calls owner ≠ .wakeup) :
    (loop.beginCall owner t request).calls owner ≠ .wakeup := by
  cases request with
  | queueInLoop functor => exact silent_setCall silent fun _ => by simp
  | runInLoop functor =>
    simp only [beginCall]
    split
    · exact silent
    · exact silent_setCall silent fun _ => by simp
  | quit => exact silent_setCall silent fun _ => by simp

/-- A push, after which the pusher is between it and its `wakeup()`. -/
theorem quiet_push (quiet : Quiet owner s) {functor : Functor} (silent : loop.calls owner ≠ .wakeup)
    (push : s.loop.calls t = .push functor) (pc : loop.pc = s.loop.pc)
    (calling : loop.callingPendingFunctors = s.loop.callingPendingFunctors)
    (queue : loop.pendingFunctors = s.loop.pendingFunctors ++ [functor])
    (counter : loop.counter = s.loop.counter) :
    Quiet owner { s.record owner (.advance t) with loop := loop } where
  before := by
    rw [pc]
    exact quiet.before
  calm := calling.trans quiet.calm
  silent := silent
  queue := by simp [queue]
  helped := by
    simp only [Startup.record, push, counter]
    by_cases here : t = owner
    · subst here
      rw [bne_self_eq_false, Bool.or_false, quiet.helped]
      refine or_congr_right (exists_congr fun u => and_congr_right fun other => ?_)
      rw [Function.update_of_ne other]
    · have pushed : ∃ u, u ≠ owner ∧ Function.update s.announcing t true u = true :=
        ⟨t, here, Function.update_self ..⟩
      simp [here, pushed]

/-- The write to the eventfd, which the loop thread does not make. -/
theorem quiet_wakeup (quiet : Quiet owner s) (wakeup : s.loop.calls t = .wakeup) :
    Quiet owner { s.record owner (.advance t) with loop := s.loop.wakeup.setCall t .idle } := by
  obtain ⟨counter, errors, positive, written⟩ := wakeup_eq s.loop
  have other : t ≠ owner := by
    rintro rfl
    exact quiet.silent wakeup
  simp only [written, Startup.record, wakeup]
  refine ⟨quiet.before, quiet.calm, silent_setCall quiet.silent fun _ => nofun, quiet.queue, ?_⟩
  simp [setCall, other, positive]

/-- Until the first `epoll_wait` returns, every step keeps this. -/
theorem quiet_step (quiet : Quiet owner s) (transition : Transition owner s.loop action loop)
    (unpolled : (s.record owner action).polled = false) :
    Quiet owner { s.record owner action with loop := loop } := by
  have early := quiet.before
  cases transition with
  | @call t request idle user =>
    obtain ⟨calls, called⟩ := beginCall_eq owner s.loop t request
    have silent := silent_beginCall t request quiet.silent
    rw [called] at silent ⊢
    exact quiet.moved quiet.before rfl silent rfl rfl
  | push pc =>
    exact quiet_push quiet (silent_setCall quiet.silent fun _ => nofun) pc rfl rfl rfl rfl
  | queueTestWakes pc wakes =>
    have other := wakes.resolve_right (by simp [quiet.calm])
    simp only [Startup.record, pc]
    exact quiet.moved quiet.before rfl (silent_setCall quiet.silent fun here => absurd here other)
      rfl rfl
  | queueTestSkips pc | storeQuit pc | quitTestSkips pc =>
    simp only [Startup.record, pc]
    exact quiet.moved quiet.before rfl (silent_setCall quiet.silent fun _ => nofun) rfl rfl
  | quitTestWakes pc other =>
    simp only [Startup.record, pc]
    exact quiet.moved quiet.before rfl (silent_setCall quiet.silent fun here => absurd here other)
      rfl rfl
  | wakeup pc => exact quiet_wakeup quiet pc
  | enterLoop idle pc => exact quiet.moved rfl rfl quiet.silent rfl rfl
  | setLooping idle pc | resetQuit idle pc | stop idle pc | poll idle pc | clearLooping idle pc =>
    simp only [Startup.record, pc]
    exact quiet.moved rfl rfl quiet.silent rfl rfl
  | pollReturns idle pc => simp [Startup.record, pc] at unpolled
  | dispatched idle pc | setCalling idle pc | swap idle pc | callFunctor idle pc
  | functorReturns idle pc | clearCalling idle pc | handleRead idle pc =>
    simp [pc, beforePoll] at early

/-- An `epoll_wait` that has returned stays returned. -/
theorem polled_kept (unpolled : (s.record owner action).polled = false) : s.polled = false := by
  cases action with
  | advance t =>
    simp only [Startup.record] at unpolled
    split at unpolled <;> exact unpolled
  | loop =>
    simp only [Startup.record] at unpolled
    split at unpolled
    · cases unpolled
    · exact unpolled
  | call | enterLoop | handleRead => exact unpolled

theorem reachable_quiet (reached : (startupSystem Functor owner).Reachable s) :
    s.polled = false → Quiet owner s := by
  have starts (s : Startup Functor) (start : (startupSystem Functor owner).Start s) :
      s.polled = false → Quiet owner s := by
    obtain rfl : s = {} := start
    intro _
    exact ⟨rfl, rfl, nofun, fun queued => absurd rfl queued, by simp⟩
  refine reached.invariant starts fun s action next quiet step unpolled => ?_
  obtain ⟨loop, stepped, rfl⟩ := Option.map_eq_some_iff.mp step
  exact quiet_step (quiet (polled_kept unpolled)) (step_transition stepped) unpolled

theorem quiet_served_iff (quiet : Quiet owner s) (first : FirstPoll s) (queued : s.early ≠ []) :
    ¬ Stalled owner s ↔ s.helped = true := by
  rw [quiet.helped]
  constructor
  · intro served
    by_contra unhelped
    obtain ⟨unwritten, alone⟩ := not_or.mp unhelped
    refine served ⟨first, quiet.queue queued, Nat.eq_zero_of_not_pos unwritten, fun t other => ?_⟩
    exact eq_false_of_ne_true fun announces => alone ⟨t, other, announces⟩
  · rintro (written | ⟨t, other, announces⟩) ⟨_, _, empty, alone⟩
    · exact absurd empty (Nat.ne_of_gt written)
    · exact Bool.false_ne_true ((alone t other).symm.trans announces)

/-- In the first `epoll_wait`, behind early work, the loop thread is not stalled exactly if
another thread has pushed a functor or written to the eventfd. -/
theorem early_work_served_iff (reached : (startupSystem Functor owner).Reachable s)
    (first : FirstPoll s) (queued : s.early ≠ []) : ¬ Stalled owner s ↔ s.helped = true :=
  quiet_served_iff (reachable_quiet reached first.2) first queued

/-- Thread 2 pushes before the loop of thread 1 goes to sleep. -/
def helpedStart : List (LoopAction Nat) :=
  [.call 1 (.queueInLoop 7), .advance 1, .advance 1, .call 2 (.queueInLoop 8), .advance 2,
    .enterLoop, .loop, .loop, .loop]

theorem helped_in_time : ∃ s, (startupSystem Nat 1).Run {} helpedStart s ∧ FirstPoll s ∧
    s.early = [7] ∧ ¬ Stalled 1 s := by
  have run : (startupSystem Nat 1).Run {} helpedStart
      ((StepSystem.play (Startup.step 1) {} helpedStart).getD {}) :=
    .of_play (fun _ _ _ stepped => stepped) rfl
  exact ⟨_, run, ⟨rfl, rfl⟩, rfl,
    (early_work_served_iff ⟨_, _, rfl, run⟩ ⟨rfl, rfl⟩ (List.cons_ne_nil _ _)).mpr rfl⟩

/-- In front of `loop()`: the loop thread has queued these functors and stands there in a
call, and no other thread has helped. -/
structure Queued (owner : Tid) (functors : List Functor) (pc : CallPc Functor)
    (s : Startup Functor) : Prop where
  outside : s.loop.pc = .outside
  own : s.loop.calls owner = pc
  calm : s.loop.callingPendingFunctors = false
  unpolled : s.polled = false
  unhelped : s.helped = false
  early : s.early = functors

variable {functors more : List Functor} {functor : Functor} {pc : CallPc Functor}

theorem queued_call (queued : Queued owner functors .idle s) (functor : Functor) :
    ∃ next, (startupSystem Functor owner).Step s (.call owner (.queueInLoop functor)) next ∧
      Queued owner functors (.push functor) next := by
  obtain ⟨outside, own, calm, unpolled, unhelped, early⟩ := queued
  have stepped : s.loop.step owner (.call owner (.queueInLoop functor)) =
      some (s.loop.setCall owner (.push functor)) := by
    simp [EventLoop.step, own, outside, CallPc.isIdle, LoopPc.runsUserCode, beginCall]
  exact ⟨_, startup_step stepped, outside, setCall_same .., calm, unpolled, unhelped, early⟩

theorem queued_push (queued : Queued owner functors (.push functor) s) :
    ∃ next, (startupSystem Functor owner).Step s (.advance owner) next ∧
      Queued owner (functors ++ [functor]) .queueTest next := by
  obtain ⟨outside, own, calm, unpolled, unhelped, early⟩ := queued
  have stepped : s.loop.step owner (.advance owner) = some ({ s.loop with
      pendingFunctors := s.loop.pendingFunctors ++ [functor]
      pushed := s.loop.pushed ++ [functor] }.setCall owner .queueTest) := by
    simp [EventLoop.step, advance, own]
  refine ⟨_, startup_step stepped, outside, setCall_same .., calm, ?_, ?_, ?_⟩
  · simp [Startup.record, own, unpolled]
  · simp [Startup.record, own, unhelped]
  · simp [Startup.record, own, unpolled, early]

/-- The test after the push finds no reason for a `wakeup()`. -/
theorem queued_test (queued : Queued owner functors .queueTest s) :
    ∃ next, (startupSystem Functor owner).Step s (.advance owner) next ∧
      Queued owner functors .idle next := by
  obtain ⟨outside, own, calm, unpolled, unhelped, early⟩ := queued
  have stepped : s.loop.step owner (.advance owner) = some (s.loop.setCall owner .idle) := by
    simp [EventLoop.step, advance, own, calm]
  have same : s.record owner (.advance owner) = s := by simp [Startup.record, own]
  refine ⟨_, startup_step stepped, ?_⟩
  rw [same]
  exact ⟨outside, setCall_same .., calm, unpolled, unhelped, early⟩

theorem queued_all (queued : Queued owner functors .idle s) (more : List Functor) :
    ∃ actions next, (startupSystem Functor owner).Run s actions next ∧
      Queued owner (functors ++ more) .idle next := by
  induction more generalizing functors s with
  | nil => exact ⟨[], s, .nil, by simpa using queued⟩
  | cons functor more ih =>
    obtain ⟨_, calls, called⟩ := queued_call queued functor
    obtain ⟨_, pushes, pushed⟩ := queued_push called
    obtain ⟨_, skips, skipped⟩ := queued_test pushed
    obtain ⟨actions, next, run, last⟩ := ih skipped
    exact ⟨_, next, .cons calls (.cons pushes (.cons skips run)), by simpa using last⟩

/-- Nothing keeps the loop thread from its first `epoll_wait`. -/
theorem queued_polls (queued : Queued owner functors .idle s) :
    ∃ actions next, (startupSystem Functor owner).Run s actions next ∧ FirstPoll next ∧
      next.helped = false ∧ next.early = functors := by
  obtain ⟨outside, own, calm, unpolled, unhelped, early⟩ := queued
  have enters : s.loop.step owner .enterLoop = some { s.loop with pc := .setLooping } := by
    simp [EventLoop.step, own, outside, CallPc.isIdle]
  have starts {loop : EventLoop Functor} (same : loop.calls owner = .idle) :
      loop.step owner .loop = loop.loopStep := by
    simp [EventLoop.step, same, CallPc.isIdle]
  exact ⟨_, _, .cons (startup_step enters) <|
    .cons (startup_step (starts own)) <| .cons (startup_step (starts own)) <|
    .cons (startup_step (starts own)) .nil, ⟨rfl, unpolled⟩, unhelped, early⟩

/-- Whatever the loop thread queues before `loop()` can be left waiting. -/
theorem early_work_can_wait (owner : Tid) (some : functors ≠ []) :
    ∃ s, (startupSystem Functor owner).Reachable s ∧ s.early = functors ∧ Stalled owner s := by
  have fresh : Queued owner [] .idle ({} : Startup Functor) := ⟨rfl, rfl, rfl, rfl, rfl, rfl⟩
  obtain ⟨_, _, queues, queued⟩ := queued_all fresh functors
  obtain ⟨_, s, polls, first, unhelped, early⟩ := queued_polls queued
  have reached : (startupSystem Functor owner).Reachable s := ⟨_, _, rfl, queues.append polls⟩
  have early : s.early = functors := early
  refine ⟨s, reached, early, ?_⟩
  have quiet := reachable_quiet reached first.2
  have waits := mt (quiet_served_iff quiet first (early ▸ some)).mp
  exact not_not.mp (waits (by simp [unhelped]))

/-- One functor of the loop thread, and no other thread. -/
theorem early_functor_waits : ¬ NoEarlyWorkWaits Nat := by
  intro served
  obtain ⟨s, reached, early, stalled⟩ := early_work_can_wait 1 (List.cons_ne_nil 7 [])
  exact served 1 s reached (early ▸ List.cons_ne_nil 7 []) stalled

end MiniMuduo.EarlyFunctors
