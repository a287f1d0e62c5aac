import MiniMuduo.LoopExit

/-! How long a functor can wait, counted in returns from `epoll_wait`. The queue is swapped
out once between two of them, and the loop does not go back to sleep before it has called
what it swapped out; so one return is enough for all that was queued before it. -/
namespace MiniMuduo.LoopRounds
open EventLoop LoopFunctors LoopExit

variable {Functor : Type} {owner : Tid} {s next : EventLoop Functor} {asked : List Functor}
variable {action : LoopAction Functor} {actions : List (LoopAction Functor)}

/-- `epoll_wait` returns. -/
def PollReturns (s : EventLoop Functor) (action : LoopAction Functor) : Prop :=
  s.pc = .epollWait ∧ action = .loop

/-- The run has a return from `epoll_wait`. -/
def Polled (owner : Tid) (s : EventLoop Functor) (actions : List (LoopAction Functor))
    (next : EventLoop Functor) : Prop :=
  (loopSystem Functor owner).Breaks (fun s action => ¬ PollReturns s action) s actions next

/-- Between a return from `epoll_wait` and the swap. -/
structure TowardsSwap (s : EventLoop Functor) : Prop where
  inside : BeforeSwap s
  awake : s.pc ≠ .epollWait

/-- Before the swap what is asked for is in the queue at least, behind it in the batch. -/
def Attended (asked : List Functor) (s : EventLoop Functor) : Prop :=
  TowardsSwap s ∧ asked <+: s.pushed ∨ asked <+: s.executed ++ s.batch

/-- `epoll_wait` is entered from the loop test only. -/
theorem asleep_only (transition : Transition owner s action next) (asleep : next.pc = .epollWait) :
    s.pc = .epollWait ∨ s.pc = .whileTest := by
  cases transition with
  | @call t request _ _ =>
    obtain ⟨calls, begun⟩ := beginCall_eq owner s t request
    rw [begun] at asleep
    exact Or.inl asleep
  | wakeup =>
    obtain ⟨counter, errors, _, written⟩ := wakeup_eq s
    rw [written] at asleep
    exact Or.inl asleep
  | handleRead =>
    obtain ⟨errors, drained⟩ := handleRead_eq s
    rw [drained] at asleep
    exact Or.inl asleep
  | push | queueTestWakes | queueTestSkips | storeQuit | quitTestWakes | quitTestSkips =>
    exact Or.inl asleep
  | poll _ pc _ => exact Or.inr pc
  | _ => cases asleep

theorem towardsSwap_step (towards : TowardsSwap s)
    (step : (betweenSwaps Functor owner).Step s action next) : TowardsSwap next := by
  refine ⟨step_keeps_beforeSwap towards.inside step, fun asleep => ?_⟩
  rcases asleep_only (step_transition step.2) asleep with pc | pc
  · exact towards.awake pc
  · have inside := towards.inside
    simp [BeforeSwap, pc] at inside

/-- A swap turns the one into the other, and no step loses either. -/
theorem attended_step (order : InOrder s) (attended : Attended asked s)
    (step : (loopSystem Functor owner).Step s action next) : Attended asked next := by
  rcases attended with ⟨towards, queued⟩ | out
  · by_cases swaps : Swaps s action
    · rw [InOrder, batch, swaps.1, List.append_nil] at order
      exact Or.inr (by rw [swap_takes_queue swaps step, order]; exact queued)
    · exact Or.inl ⟨towardsSwap_step towards ⟨swaps, step⟩,
        queued.trans (step_keeps_pushed (step_transition step))⟩
  · exact Or.inr (out.trans (step_keeps_swapped step))

theorem attended_run (reached : (loopSystem Functor owner).Reachable s)
    (attended : Attended asked s) (run : (loopSystem Functor owner).Run s actions next) :
    Attended asked next := by
  induction run with
  | nil => exact attended
  | cons step _ ih =>
    exact ih (reached.step step) (attended_step (reachable_inOrder reached) attended step)

/-- Where a loop that has attended to the queue rests, everything has been called. -/
theorem executed_of_attended (attended : Attended asked s)
    (rests : s.pc = .epollWait ∨ s.pc = .outside) : asked <+: s.executed := by
  rcases attended with ⟨⟨inside, awake⟩, _⟩ | out
  · rcases rests with pc | pc
    · exact absurd pc awake
    · simp [BeforeSwap, pc] at inside
  · have empty : s.batch = [] := by rcases rests with pc | pc <;> simp [batch, pc]
    rwa [empty, List.append_nil] at out

theorem attended_of_return (step : (loopSystem Functor owner).Step s .loop next)
    (waiting : s.pc = .epollWait) : Attended s.pushed next := by
  cases step_transition step with
  | pollReturns => exact Or.inl ⟨⟨Or.inr (Or.inl rfl), nofun⟩, List.prefix_refl _⟩
  | setLooping _ pc | resetQuit _ pc | stop _ pc _ | poll _ pc _ | dispatched _ pc
  | setCalling _ pc | swap _ pc | callFunctor _ pc | functorReturns _ pc | clearCalling _ pc
  | clearLooping _ pc => cases pc.symm.trans waiting

/-- Whoever queues a functor, wherever the loop is, and whatever the threads do: when
`epoll_wait` has returned once and the loop is back in it, or has returned itself, all that
had been queued has been called, in the order of the pushes. -/
theorem one_poll_is_enough (reached : (loopSystem Functor owner).Reachable s)
    (polled : Polled owner s actions next) (rests : next.pc = .epollWait ∨ next.pc = .outside) :
    s.pushed <+: next.executed := by
  obtain ⟨before, action, after, asleep, awake, _, first, returns, step, last⟩ := polled
  obtain ⟨waiting, rfl⟩ : PollReturns asleep action := not_not.mp returns
  have attended := attended_run ((reached.run first).step step)
    (attended_of_return step waiting) last
  exact (run_keeps_pushed first).trans (executed_of_attended attended rests)

/-- Thread 2 has written its wake-up for functor 7, and the `epoll_wait` of thread 1 returns. -/
def returned : EventLoop Nat :=
  (StepSystem.play (EventLoop.step 1) afterPush [.advance 2, .advance 2, .loop]).getD {}

def backAsleep : EventLoop Nat :=
  (StepSystem.play (EventLoop.step 1) returned (List.replicate 7 .loop)).getD {}

theorem called_before_next_poll : [7] <+: backAsleep.executed := by
  have queued : (loopSystem Nat 1).Run {}
      [.enterLoop, .loop, .loop, .loop, .call 2 (.queueInLoop 7), .advance 2] afterPush :=
    .of_play (fun _ _ _ stepped => stepped) rfl
  have woken : (loopSystem Nat 1).Run afterPush [.advance 2, .advance 2] _ :=
    .cons rfl (.cons rfl .nil)
  have pass : (loopSystem Nat 1).Run returned (List.replicate 7 .loop) backAsleep :=
    .of_play (fun _ _ _ stepped => stepped) rfl
  have polled : Polled 1 afterPush ([.advance 2, .advance 2] ++ .loop :: List.replicate 7 .loop)
      backAsleep := ⟨_, _, _, _, returned, rfl, woken, not_not.mpr ⟨rfl, rfl⟩, rfl, pass⟩
  exact one_poll_is_enough ⟨_, _, rfl, queued⟩ polled (Or.inl rfl)

end MiniMuduo.LoopRounds
