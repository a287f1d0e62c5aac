import MiniMuduo.EventLoop

/-! Functors go from the queue to the batch of one `doPendingFunctors`, and from
there, one at a time, to their execution. None is lost, run twice or overtaken, and
a batch is complete when it is swapped out. -/
namespace MiniMuduo.LoopFunctors
open EventLoop

variable {Functor : Type} {owner : Tid} {s next : EventLoop Functor}
variable {action : LoopAction Functor} {actions : List (LoopAction Functor)}

/-- Executed functors, the rest of the current batch and the queue are together
all functors ever pushed, in the order of the pushes. -/
def InOrder (s : EventLoop Functor) : Prop :=
  s.executed ++ s.batch ++ s.pendingFunctors = s.pushed

/-- The step is the swap of a `doPendingFunctors` call. -/
def Swaps (s : EventLoop Functor) (action : LoopAction Functor) : Prop :=
  s.pc = .swap ∧ action = .loop

/-- The loop from one swap to the next. -/
def betweenSwaps (Functor : Type) (owner : Tid) :
    StepSystem (EventLoop Functor) (LoopAction Functor) :=
  (loopSystem Functor owner).restrict fun s action => ¬ Swaps s action

/-- Every step keeps the functors in order. -/
theorem step_keeps_order (order : InOrder s) (transition : Transition owner s action next) :
    InOrder next := by
  cases transition with
  | call request _ _ =>
    obtain ⟨calls, begun⟩ := beginCall_eq owner s _ request
    rw [begun]
    exact order
  | @push t functor _ =>
    show s.executed ++ s.batch ++ (s.pendingFunctors ++ [functor]) = s.pushed ++ [functor]
    rw [← List.append_assoc, order]
  | queueTestWakes | queueTestSkips | storeQuit | quitTestWakes | quitTestSkips => exact order
  | wakeup _ =>
    obtain ⟨counter, errors, _, written⟩ := wakeup_eq s
    rw [written]
    exact order
  | handleRead _ _ =>
    obtain ⟨errors, drained⟩ := handleRead_eq s
    rw [drained]
    exact order
  | enterLoop _ pc | setLooping _ pc | resetQuit _ pc | stop _ pc _ | poll _ pc _
  | pollReturns _ pc | dispatched _ pc | setCalling _ pc | swap _ pc | callFunctor _ pc
  | functorReturns _ pc | clearCalling _ pc | clearLooping _ pc =>
    simpa [InOrder, batch, pc] using order

/-- Only a swap brings functors into the batch, and only a call takes one out. -/
theorem step_keeps_batch (transition : Transition owner s action next)
    (inside : ¬ Swaps s action) : next.executed ++ next.batch = s.executed ++ s.batch := by
  cases transition with
  | call request _ _ =>
    obtain ⟨calls, begun⟩ := beginCall_eq owner s _ request
    rw [begun]
    rfl
  | push | queueTestWakes | queueTestSkips | storeQuit | quitTestWakes | quitTestSkips => rfl
  | wakeup _ =>
    obtain ⟨counter, errors, _, written⟩ := wakeup_eq s
    rw [written]
    rfl
  | handleRead _ _ =>
    obtain ⟨errors, drained⟩ := handleRead_eq s
    rw [drained]
    rfl
  | swap _ pc => exact absurd ⟨pc, rfl⟩ inside
  | enterLoop _ pc | setLooping _ pc | resetQuit _ pc | stop _ pc _ | poll _ pc _
  | pollReturns _ pc | dispatched _ pc | setCalling _ pc | callFunctor _ pc
  | functorReturns _ pc | clearCalling _ pc | clearLooping _ pc =>
    simp [batch, pc]

/-- From one swap to the next, what is executed comes off the batch. -/
theorem run_keeps_batch (run : (betweenSwaps Functor owner).Run s actions next) :
    next.executed ++ next.batch = s.executed ++ s.batch := by
  induction run with
  | nil => rfl
  | cons step _ ih => exact ih.trans (step_keeps_batch (step_transition step.2) step.1)

theorem swap_takes_queue (swaps : Swaps s action)
    (step : (loopSystem Functor owner).Step s action next) :
    next.executed ++ next.batch = s.executed ++ s.pendingFunctors := by
  obtain ⟨pc, rfl⟩ := swaps
  simp only [loopSystem, EventLoop.step, loopStep, pc] at step
  split at step
  · obtain rfl := Option.some.inj step
    rfl
  · cases step

/-- In every reachable state each pushed functor was executed, is in the current
batch or is in the queue, once and in the order of the pushes. What a
`doPendingFunctors` call executes is a prefix of the queue as it was at its swap:
nothing pushed later is executed before the next swap. -/
theorem functors_run_once_in_order (reached : (loopSystem Functor owner).Reachable s) :
    InOrder s ∧ ∀ action swapped actions next, Swaps s action →
      (loopSystem Functor owner).Step s action swapped →
      (betweenSwaps Functor owner).Run swapped actions next →
      next.executed ++ next.batch = s.executed ++ s.pendingFunctors := by
  constructor
  · exact reached.invariant (fun _ start => by rw [start]; rfl)
      (fun _ _ _ order step => step_keeps_order order (step_transition step))
  · intro action swapped actions next swaps step run
    exact (run_keeps_batch run).trans (swap_takes_queue swaps step)

def towardsSwap : List (LoopAction Nat) :=
  [.call 2 (.queueInLoop 7), .advance 2, .enterLoop, .loop, .loop, .loop, .loop, .loop, .loop]

/-- Thread 2 has queued functor 7, and thread 1 is about to swap. -/
def aboutToSwap : EventLoop Nat :=
  (StepSystem.play (EventLoop.step 1) {} towardsSwap).getD {}

def justSwapped : EventLoop Nat := (aboutToSwap.step 1 .loop).getD {}

/-- Functor 7 queues itself again while thread 1 runs it. -/
theorem requeued_functor_waits : ∃ next : EventLoop Nat,
    (betweenSwaps Nat 1).Run justSwapped [.loop, .call 1 (.queueInLoop 7), .advance 1] next ∧
      next.pendingFunctors = [7] ∧ InOrder aboutToSwap ∧
      next.executed ++ next.batch = aboutToSwap.executed ++ aboutToSwap.pendingFunctors := by
  have before : (loopSystem Nat 1).Run {} towardsSwap aboutToSwap :=
    .of_play (fun _ _ _ stepped => stepped) rfl
  have after : (betweenSwaps Nat 1).Run justSwapped
      [.loop, .call 1 (.queueInLoop 7), .advance 1] _ :=
    .cons ⟨nofun, rfl⟩ (.cons ⟨nofun, rfl⟩ (.cons ⟨nofun, rfl⟩ .nil))
  obtain ⟨order, fixed⟩ := functors_run_once_in_order ⟨_, _, rfl, before⟩
  exact ⟨_, after, rfl, order, fixed .loop justSwapped _ _ ⟨rfl, rfl⟩ rfl after⟩

end MiniMuduo.LoopFunctors
