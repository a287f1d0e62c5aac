import MiniMuduo.LoopFunctors

/-! What becomes of queued functors when the loop returns. `quit_` is tested between
passes and nothing empties the queue on the way out: a functor is executed exactly if
a `doPendingFunctors` swapped the queue after its push. Otherwise it is still there. -/
namespace MiniMuduo.LoopExit
open EventLoop LoopFunctors

variable {Functor : Type} {owner : Tid} {s pushed next : EventLoop Functor}
variable {functor : Functor} {before : List Functor} {t : Tid}
variable {action : LoopAction Functor} {actions : List (LoopAction Functor)}

/-- The run has a swap. -/
def Swapped (owner : Tid) (s : EventLoop Functor) (actions : List (LoopAction Functor))
    (next : EventLoop Functor) : Prop :=
  (loopSystem Functor owner).Breaks (fun s action => ¬ Swaps s action) s actions next

/-- Nothing is taken from the record of pushes. -/
theorem step_keeps_pushed (transition : Transition owner s action next) :
    s.pushed <+: next.pushed := by
  cases transition with
  | call request _ _ =>
    obtain ⟨calls, begun⟩ := beginCall_eq owner s _ request
    exact ⟨[], by rw [begun, List.append_nil]⟩
  | push => exact List.prefix_append _ _
  | wakeup _ =>
    obtain ⟨counter, errors, _, written⟩ := wakeup_eq s
    rw [written]
    exact List.prefix_refl _
  | handleRead _ _ =>
    obtain ⟨errors, drained⟩ := handleRead_eq s
    exact ⟨[], by rw [drained, List.append_nil]⟩
  | _ => exact List.prefix_refl _

theorem run_keeps_pushed (run : (loopSystem Functor owner).Run s actions next) :
    s.pushed <+: next.pushed := by
  induction run with
  | nil => exact List.prefix_refl _
  | cons step _ ih => exact (step_keeps_pushed (step_transition step)).trans ih

/-- What was swapped out stays swapped out. -/
theorem step_keeps_swapped (step : (loopSystem Functor owner).Step s action next) :
    s.executed ++ s.batch <+: next.executed ++ next.batch := by
  by_cases swaps : Swaps s action
  · rw [swap_takes_queue swaps step, batch, swaps.1, List.append_nil]
    exact List.prefix_append _ _
  · exact ⟨[], by rw [step_keeps_batch (step_transition step) swaps, List.append_nil]⟩

theorem run_keeps_swapped (run : (loopSystem Functor owner).Run s actions next) :
    s.executed ++ s.batch <+: next.executed ++ next.batch := by
  induction run with
  | nil => exact List.prefix_refl _
  | cons step _ ih => exact (step_keeps_swapped step).trans ih

theorem reachable_inOrder (reached : (loopSystem Functor owner).Reachable s) : InOrder s :=
  reached.invariant (fun _ start => by rw [start]; rfl)
    fun _ _ _ order step => step_keeps_order order (step_transition step)

/-- Once a swap has come, all that was pushed before it is out of the queue. -/
theorem swapped_out (reached : (loopSystem Functor owner).Reachable s)
    (swapped : Swapped owner s actions next) : s.pushed <+: next.executed ++ next.batch := by
  obtain ⟨before, action, after, middle, emptied, _, first, swaps, step, last⟩ := swapped
  replace swaps : Swaps middle action := not_not.mp swaps
  have order := reachable_inOrder (reached.run first)
  rw [InOrder, batch, swaps.1, List.append_nil] at order
  have taken : emptied.executed ++ emptied.batch = middle.pushed :=
    (swap_takes_queue swaps step).trans order
  have kept := run_keeps_swapped last
  rw [taken] at kept
  exact (run_keeps_pushed first).trans kept

/-- The loop is in a pass that has not come to its swap yet. -/
def BeforeSwap (s : EventLoop Functor) : Prop :=
  s.pc = .epollWait ∨ s.pc = .dispatch ∨ s.pc = .setCalling ∨ s.pc = .swap

/-- There is no way out of a pass but through its swap. -/
theorem step_keeps_beforeSwap (inside : BeforeSwap s)
    (step : (betweenSwaps Functor owner).Step s action next) : BeforeSwap next := by
  obtain ⟨noSwap, step⟩ := step
  cases step_transition step with
  | call request _ _ =>
    obtain ⟨calls, begun⟩ := beginCall_eq owner s _ request
    rw [begun]
    exact inside
  | wakeup _ =>
    obtain ⟨counter, errors, _, written⟩ := wakeup_eq s
    rw [written]
    exact inside
  | handleRead _ _ =>
    obtain ⟨errors, drained⟩ := handleRead_eq s
    rw [drained]
    exact inside
  | push | queueTestWakes | queueTestSkips | storeQuit | quitTestWakes | quitTestSkips =>
    exact inside
  | pollReturns => exact Or.inr (Or.inl rfl)
  | dispatched => exact Or.inr (Or.inr (Or.inl rfl))
  | setCalling => exact Or.inr (Or.inr (Or.inr rfl))
  | swap _ pc => exact absurd ⟨pc, rfl⟩ noSwap
  | enterLoop _ pc | setLooping _ pc | resetQuit _ pc | stop _ pc _ | poll _ pc _
  | callFunctor _ pc | functorReturns _ pc | clearCalling _ pc | clearLooping _ pc =>
    simp [BeforeSwap, pc] at inside

theorem run_keeps_beforeSwap (inside : BeforeSwap s)
    (run : (betweenSwaps Functor owner).Run s actions next) : BeforeSwap next :=
  run.invariant (fun _ _ _ => step_keeps_beforeSwap) inside

theorem returned_batch (returned : s.pc = .outside) : s.batch = [] := by
  simp [batch, returned]

/-- What the push itself does. -/
theorem push_eq (pushes : s.calls t = .push functor)
    (push : (loopSystem Functor owner).Step s (.advance t) pushed) :
    pushed = ({ s with
      pendingFunctors := s.pendingFunctors ++ [functor]
      pushed := s.pushed ++ [functor] }.setCall t .queueTest) := by
  simp only [loopSystem, EventLoop.step, advance, pushes, Option.some.injEq] at push
  exact push.symm

/-- With a swap after the push, the functor was executed. -/
theorem executed_of_swapped (reached : (loopSystem Functor owner).Reachable pushed)
    (position : pushed.pushed = before ++ [functor]) (returned : next.pc = .outside)
    (swapped : Swapped owner pushed actions next) :
    next.executed[before.length]? = some functor := by
  have out := swapped_out reached swapped
  rw [returned_batch returned, List.append_nil, position] at out
  obtain ⟨later, executed⟩ := out
  simp [← executed]

/-- Without one, it waits at its place in the queue. -/
theorem waiting_of_unswapped (reached : (loopSystem Functor owner).Reachable pushed)
    (position : pushed.pushed = before ++ [functor]) (returned : next.pc = .outside)
    (unqueued : (pushed.executed ++ pushed.batch).length ≤ before.length)
    (run : (betweenSwaps Functor owner).Run pushed actions next) :
    next.executed.length ≤ before.length ∧
      next.pendingFunctors[before.length - next.executed.length]? = some functor := by
  have fixed := run_keeps_batch run
  rw [returned_batch returned, List.append_nil] at fixed
  have short : next.executed.length ≤ before.length := by rw [fixed]; exact unqueued
  have order := reachable_inOrder (reached.run run.unrestricted)
  rw [InOrder, returned_batch returned, List.append_nil] at order
  obtain ⟨later, all⟩ := run_keeps_pushed run.unrestricted
  refine ⟨short, ?_⟩
  rw [← List.getElem?_append_right short, order, ← all, position]
  simp

/-- Accepted work is executed before the loop returns. -/
def KeepsAcceptedWork (Functor : Type) (owner : Tid) : Prop :=
  ∀ (s next : EventLoop Functor) (t : Tid) (functor : Functor)
    (first rest : List (LoopAction Functor)),
    (loopSystem Functor owner).Reachable s → s.looping = true →
    (loopSystem Functor owner).Run s
      (.call t (.queueInLoop functor) :: first ++ .call t .quit :: rest) next →
    next.pc = .outside → functor ∈ next.executed

/-- When the loop has returned, a functor was executed exactly if a swap came after
its push, as it does when the push falls into a pass that has not come to its swap.
Otherwise the functor is still in the queue. -/
theorem executed_iff_swapped (reached : (loopSystem Functor owner).Reachable s)
    (pushes : s.calls t = .push functor)
    (push : (loopSystem Functor owner).Step s (.advance t) pushed)
    (run : (loopSystem Functor owner).Run pushed actions next) (returned : next.pc = .outside) :
    (next.executed[s.pushed.length]? = some functor ↔ Swapped owner pushed actions next) ∧
      (BeforeSwap s → Swapped owner pushed actions next) ∧
      (¬ Swapped owner pushed actions next →
        next.executed.length ≤ s.pushed.length ∧
          next.pendingFunctors[s.pushed.length - next.executed.length]? = some functor) := by
  have pushedReached := reached.step push
  have order := reachable_inOrder reached
  obtain rfl := push_eq pushes push
  have unqueued : (s.executed ++ s.batch).length ≤ s.pushed.length := by
    rw [← order]
    exact (List.prefix_append _ _).length_le
  have unswapped : ¬ Swapped owner _ actions next →
      (betweenSwaps Functor owner).Run _ actions next :=
    (run.restricted_or_breaks _).resolve_right
  have waits := fun noSwap =>
    waiting_of_unswapped pushedReached rfl returned unqueued (unswapped noSwap)
  refine ⟨⟨fun executed => ?_, executed_of_swapped pushedReached rfl returned⟩, fun inside => ?_,
    waits⟩
  · by_contra noSwap
    have short := (waits noSwap).1
    rw [List.getElem?_eq_none short] at executed
    cases executed
  · by_contra noSwap
    have stuck : BeforeSwap next := by
      refine run_keeps_beforeSwap ?_ (unswapped noSwap)
      exact inside
    simp [BeforeSwap, returned] at stuck

/-- Thread 1's loop polls, and thread 2 is about to push functor 7. -/
def aboutToPush : EventLoop Nat :=
  (StepSystem.play (EventLoop.step 1) {}
    [.enterLoop, .loop, .loop, .loop, .call 2 (.queueInLoop 7)]).getD {}

def afterPush : EventLoop Nat := (aboutToPush.step 1 (.advance 2)).getD {}

/-- Thread 2 then quits the loop, while that goes through its pass. -/
def lastPass : List (LoopAction Nat) :=
  [.advance 2, .advance 2, .call 2 .quit, .advance 2, .loop, .loop, .loop, .loop, .loop, .loop,
    .loop, .loop, .loop]

/-- Functor 7 comes in time for the last swap. -/
theorem pushed_while_polling : ∃ next : EventLoop Nat,
    (loopSystem Nat 1).Run afterPush lastPass next ∧ next.pc = .outside ∧
      next.executed[aboutToPush.pushed.length]? = some 7 := by
  have towards : (loopSystem Nat 1).Run {}
      [.enterLoop, .loop, .loop, .loop, .call 2 (.queueInLoop 7)] aboutToPush :=
    .of_play (fun _ _ _ stepped => stepped) rfl
  have pushes : aboutToPush.calls 2 = .push 7 := rfl
  have push : (loopSystem Nat 1).Step aboutToPush (.advance 2) afterPush := rfl
  have run : (loopSystem Nat 1).Run afterPush lastPass
      ((StepSystem.play (EventLoop.step 1) afterPush lastPass).getD {}) :=
    .of_play (fun _ _ _ stepped => stepped) rfl
  obtain ⟨executed, inTime, _⟩ :=
    executed_iff_swapped ⟨_, _, rfl, towards⟩ pushes push run rfl
  exact ⟨_, run, rfl, executed.mpr (inTime (Or.inl rfl))⟩

/-- Thread 1's loop has swapped an empty queue out. -/
def emptySwap : List (LoopAction Nat) :=
  [.enterLoop, .loop, .loop, .loop, .loop, .loop, .loop, .loop]

def afterEmptySwap : EventLoop Nat :=
  (StepSystem.play (EventLoop.step 1) {} emptySwap).getD {}

/-- Thread 2 queues functor 7 between the swap and the loop test, and then quits. -/
theorem late_functor_dropped : ¬ KeepsAcceptedWork Nat 1 := by
  intro keeps
  have before : (loopSystem Nat 1).Run {} emptySwap afterEmptySwap :=
    .of_play (fun _ _ _ stepped => stepped) rfl
  have after : (loopSystem Nat 1).Run afterEmptySwap
      (.call 2 (.queueInLoop 7) :: [.advance 2, .advance 2, .advance 2] ++
        .call 2 .quit :: [.advance 2, .loop, .loop, .loop])
      ((StepSystem.play (EventLoop.step 1) afterEmptySwap
        (.call 2 (.queueInLoop 7) :: [.advance 2, .advance 2, .advance 2] ++
          .call 2 .quit :: [.advance 2, .loop, .loop, .loop])).getD {}) :=
    .of_play (fun _ _ _ stepped => stepped) rfl
  have executed := keeps _ _ _ _ _ _ ⟨_, _, rfl, before⟩ rfl after rfl
  exact absurd executed List.not_mem_nil

end MiniMuduo.LoopExit
