import MiniMuduo.EventLoop

/-! No wake-up is lost. The loop thread may skip the write to the eventfd when it
queues a functor itself, and it drains the counter whenever it likes before the
swap; still it never sleeps on work that nobody will wake it for. -/
namespace MiniMuduo.LoopWakeup
open EventLoop

variable {Functor : Type}

/-- Between its push or its store to `quit_` and the write of `wakeup()`. -/
def owesWakeup : CallPc Functor → Bool
  | .queueTest | .quitTest | .wakeup => true
  | .idle | .push _ | .storeQuit => false

/-- `epoll_wait` has something to return for, or another thread is about to see
to that. -/
def Woken (owner : Tid) (s : EventLoop Functor) : Prop :=
  0 < s.counter ∨ ∃ t, t ≠ owner ∧ owesWakeup (s.calls t) = true

/-- `loop()` from the moment it has executed `quit_ = false` with an empty queue.
Other threads may be anywhere in their calls; the loop is not entered again. -/
def runningLoop (Functor : Type) (owner : Tid) :
    StepSystem (EventLoop Functor) (LoopAction Functor) where
  Start s := s.pc = .whileTest ∧ s.quit = false ∧ s.pendingFunctors = [] ∧
    s.calls owner = .idle
  Step s action next := action ≠ .enterLoop ∧ s.step owner action = some next

/-- From the flag's being raised to its being cleared. -/
def callsPending : LoopPc Functor → Bool
  | .swap | .functors _ | .inFunctor _ => true
  | _ => false

/-- Behind the last swap and not past the next `epoll_wait`: what is in the queue
here will be slept on. -/
def mustBeWoken : LoopPc Functor → Bool
  | .functors _ | .inFunctor _ | .whileTest | .epollWait => true
  | _ => false

/-- Whoever pushed last before this wakes the loop, or the loop thread itself is
about to, from inside a functor. -/
def Announced (owner : Tid) (s : EventLoop Functor) : Prop :=
  Woken owner s ∨ s.calls owner = .queueTest ∨ s.calls owner = .wakeup

/-- What holds at every step of the loop. -/
structure Alert (owner : Tid) (s : EventLoop Functor) : Prop where
  entered : s.pc ≠ .setLooping ∧ s.pc ≠ .resetQuit
  idle : s.pc.runsUserCode = false → s.calls owner = .idle
  raised : callsPending s.pc = true → s.callingPendingFunctors = true
  queue : mustBeWoken s.pc = true → s.pendingFunctors ≠ [] → Announced owner s
  quit : s.pc = .epollWait → s.quit = true → Woken owner s

variable {owner t : Tid} {s next : EventLoop Functor} {action : LoopAction Functor}
variable {pc : CallPc Functor}

theorem woken_setCall (woken : Woken owner s)
    (owes : t ≠ owner → owesWakeup (s.calls t) = true → owesWakeup pc = true) :
    Woken owner (s.setCall t pc) := by
  rcases woken with counted | ⟨u, other, owing⟩
  · exact Or.inl counted
  · refine Or.inr ⟨u, other, ?_⟩
    by_cases same : u = t
    · subst same
      simpa [setCall] using owes other owing
    · simpa [setCall, same] using owing

theorem woken_by (other : t ≠ owner) (owes : owesWakeup pc = true) :
    Woken owner (s.setCall t pc) :=
  Or.inr ⟨t, other, by simpa [setCall] using owes⟩

/-- A call that owes nothing may go on without spoiling an announcement. -/
theorem announced_setCall (announced : Announced owner s)
    (quiet : owesWakeup (s.calls t) = false) : Announced owner (s.setCall t pc) := by
  rcases announced with woken | own
  · exact Or.inl (woken_setCall woken fun _ owing => absurd owing (by simp [quiet]))
  · have other : t ≠ owner := by
      rintro rfl
      rcases own with own | own <;> simp [own, owesWakeup] at quiet
    exact Or.inr (by rwa [setCall_other other])

/-- Behind a push, and in front of the write that answers it. -/
theorem announced_by (owes : pc = .queueTest ∨ pc = .wakeup) :
    Announced owner (s.setCall t pc) := by
  by_cases here : t = owner
  · subst here
    exact Or.inr (by simpa [setCall] using owes)
  · exact Or.inl (woken_by here (by rcases owes with rfl | rfl <;> rfl))

theorem user_code_of_busy (alert : Alert owner s) (now : s.calls t = pc) (busy : pc ≠ .idle) :
    t = owner → s.pc.runsUserCode = true := by
  rintro rfl
  by_contra quiet
  exact busy (now.symm.trans (alert.idle (Bool.not_eq_true _ ▸ quiet)))

theorem other_of_waiting (user : t = owner → s.pc.runsUserCode = true)
    (waiting : s.pc = .epollWait) : t ≠ owner := by
  intro here
  have running := user here
  simp [waiting, LoopPc.runsUserCode] at running

/-- The step of a call keeps the loop alert if it leaves the queue announced and,
at `epoll_wait`, a quit too. -/
theorem alert_of_call (alert : Alert owner s) (user : t = owner → s.pc.runsUserCode = true)
    (samePc : next.pc = s.pc)
    (sameFlag : next.callingPendingFunctors = s.callingPendingFunctors)
    (sameCall : t ≠ owner → next.calls owner = s.calls owner)
    (queue : mustBeWoken s.pc = true → next.pendingFunctors ≠ [] → Announced owner next)
    (quit : t ≠ owner → s.pc = .epollWait → next.quit = true → Woken owner next) :
    Alert owner next where
  entered := by rw [samePc]; exact alert.entered
  idle := by
    intro quiet
    rw [samePc] at quiet
    have other : t ≠ owner := fun here => by simp [user here] at quiet
    exact (sameCall other).trans (alert.idle quiet)
  raised := by rw [samePc, sameFlag]; exact alert.raised
  queue := by rw [samePc]; exact queue
  quit := by
    intro waiting
    rw [samePc] at waiting
    exact quit (other_of_waiting user waiting) waiting

theorem alert_setCall_quiet (alert : Alert owner s) (quiet : owesWakeup (s.calls t) = false)
    (user : t = owner → s.pc.runsUserCode = true) : Alert owner (s.setCall t pc) :=
  alert_of_call alert user rfl rfl setCall_other
    (fun must pending => announced_setCall (alert.queue must pending) quiet)
    (fun _ waiting quit => woken_setCall (alert.quit waiting quit)
      fun _ owing => absurd owing (by simp [quiet]))

theorem alert_beginCall (alert : Alert owner s) (idle : s.calls t = .idle)
    (user : t = owner → s.pc.runsUserCode = true) (request : Request Functor) :
    Alert owner (s.beginCall owner t request) := by
  have quiet : owesWakeup (s.calls t) = false := congrArg owesWakeup idle
  cases request with
  | queueInLoop functor => exact alert_setCall_quiet alert quiet user
  | runInLoop functor =>
    simp only [beginCall]
    split
    · exact alert
    · exact alert_setCall_quiet alert quiet user
  | quit => exact alert_setCall_quiet alert quiet user

private theorem callsPending_of_user {pc : LoopPc Functor} (user : pc.runsUserCode = true)
    (must : mustBeWoken pc = true) : callsPending pc = true := by
  cases pc with
  | inFunctor rest => rfl
  | functors rest => rfl
  | outside | dispatch => cases must
  | _ => cases user

/-- Every step but another `loop()` keeps the loop alert. -/
theorem alert_step (alert : Alert owner s) (once : action ≠ .enterLoop)
    (transition : Transition owner s action next) : Alert owner next := by
  cases transition with
  | call request idle user => exact alert_beginCall alert idle user request
  | push pc =>
    have user := user_code_of_busy alert pc nofun
    exact alert_of_call alert user rfl rfl setCall_other
      (fun _ _ => announced_by (Or.inl rfl)) (fun other _ _ => woken_by other rfl)
  | queueTestWakes pc wakes =>
    have user := user_code_of_busy alert pc nofun
    exact alert_of_call alert user rfl rfl setCall_other
      (fun _ _ => announced_by (Or.inr rfl)) (fun other _ _ => woken_by other rfl)
  | queueTestSkips pc calm =>
    have user := user_code_of_busy alert pc nofun
    refine alert_of_call alert user rfl rfl setCall_other ?_ (fun other => absurd rfl other)
    -- From inside a functor the flag is up, so the test would not have skipped.
    intro must
    have raised := alert.raised (callsPending_of_user (user rfl) must)
    simp [calm] at raised
  | storeQuit pc =>
    have user := user_code_of_busy alert pc nofun
    exact alert_of_call alert user rfl rfl setCall_other
      (fun must pending => announced_setCall (alert.queue must pending) (congrArg owesWakeup pc))
      (fun other _ _ => woken_by other rfl)
  | quitTestWakes pc other =>
    have user := user_code_of_busy alert pc nofun
    exact alert_of_call alert user rfl rfl setCall_other
      (fun _ _ => Or.inl (woken_by other rfl)) (fun _ _ _ => woken_by other rfl)
  | quitTestSkips pc =>
    have user := user_code_of_busy alert pc nofun
    refine alert_of_call alert user rfl rfl setCall_other ?_ (fun other => absurd rfl other)
    intro must pending
    rcases alert.queue must pending with woken | own
    · exact Or.inl (woken_setCall woken fun other => absurd rfl other)
    · simp [pc] at own
  | wakeup pc =>
    have user := user_code_of_busy alert pc nofun
    obtain ⟨counter, errors, positive, written⟩ := wakeup_eq s
    rw [written]
    exact alert_of_call alert user rfl rfl setCall_other
      (fun _ _ => Or.inl (Or.inl positive)) (fun _ _ _ => Or.inl positive)
  | enterLoop idle pc => exact absurd rfl once
  | setLooping idle pc => exact absurd pc alert.entered.1
  | resetQuit idle pc => exact absurd pc alert.entered.2
  | stop idle pc quit => exact ⟨by simp, fun _ => idle, nofun, nofun, nofun⟩
  | poll idle pc quit =>
    exact ⟨by simp, fun _ => idle, nofun, fun _ => alert.queue (by rw [pc]; rfl),
      fun _ quits => absurd quits (by simp [quit])⟩
  | pollReturns idle pc => exact ⟨by simp, fun _ => idle, nofun, nofun, nofun⟩
  | dispatched idle pc => exact ⟨by simp, fun _ => idle, nofun, nofun, nofun⟩
  | setCalling idle pc => exact ⟨by simp, fun _ => idle, fun _ => rfl, nofun, nofun⟩
  | swap idle pc =>
    exact ⟨by simp, fun _ => idle, fun _ => alert.raised (by rw [pc]; rfl),
      fun _ pending => absurd rfl pending, nofun⟩
  | callFunctor idle pc =>
    exact ⟨by simp, fun _ => idle, fun _ => alert.raised (by rw [pc]; rfl),
      fun _ => alert.queue (by rw [pc]; rfl), nofun⟩
  | functorReturns idle pc =>
    exact ⟨by simp, fun _ => idle, fun _ => alert.raised (by rw [pc]; rfl),
      fun _ => alert.queue (by rw [pc]; rfl), nofun⟩
  | clearCalling idle pc =>
    exact ⟨by simp, fun _ => idle, nofun, fun _ => alert.queue (by rw [pc]; rfl), nofun⟩
  | clearLooping idle pc => exact ⟨by simp, fun _ => idle, nofun, nofun, nofun⟩
  | handleRead idle pc =>
    obtain ⟨errors, drained⟩ := handleRead_eq s
    rw [drained]
    exact ⟨by simp [pc], fun _ => idle, by simp [pc, callsPending], by simp [pc, mustBeWoken],
      by simp [pc]⟩

theorem alert_of_start (start : (runningLoop Functor owner).Start s) : Alert owner s := by
  obtain ⟨pc, quit, empty, idle⟩ := start
  exact ⟨by simp [pc], fun _ => idle, by simp [pc, callsPending], by simp [empty], by simp [pc]⟩

/-- At `epoll_wait` with work queued or a quit requested, the eventfd is readable
or another thread is about to make it so. -/
theorem no_lost_wakeup (reached : (runningLoop Functor owner).Reachable s)
    (waiting : s.pc = .epollWait) (work : s.pendingFunctors ≠ [] ∨ s.quit = true) :
    0 < s.counter ∨ ∃ t, t ≠ owner ∧ owesWakeup (s.calls t) = true := by
  have alert : Alert owner s := reached.invariant (fun _ => alert_of_start)
    (fun _ _ _ alert step => alert_step alert step.1 (step_transition step.2))
  rcases work with queued | quit
  · rcases alert.queue (by rw [waiting]; rfl) queued with woken | own
    · exact woken
    · simp [alert.idle (by rw [waiting]; rfl)] at own
  · exact alert.quit waiting quit

/-- The loop of thread 1 goes to sleep, then thread 2 pushes a functor. -/
theorem push_to_sleeping_loop : ∃ s : EventLoop Nat,
    (runningLoop Nat 1).Run { pc := .whileTest } [.loop, .call 2 (.queueInLoop 7), .advance 2] s ∧
      (0 < s.counter ∨ ∃ t, t ≠ 1 ∧ owesWakeup (s.calls t) = true) := by
  have run : (runningLoop Nat 1).Run { pc := .whileTest }
      [.loop, .call 2 (.queueInLoop 7), .advance 2] _ :=
    .cons ⟨nofun, rfl⟩ (.cons ⟨nofun, rfl⟩ (.cons ⟨nofun, rfl⟩ .nil))
  refine ⟨_, run, no_lost_wakeup ⟨_, _, ⟨rfl, rfl, rfl, rfl⟩, run⟩ rfl (Or.inl ?_)⟩
  simp [setCall]

end MiniMuduo.LoopWakeup
