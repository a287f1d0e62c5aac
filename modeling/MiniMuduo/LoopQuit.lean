import MiniMuduo.LoopExit
import MiniMuduo.LoopStartup

/-! How far a loop that has been told to quit is from its return, counted in steps of the
loop thread. The other threads may push what they like: what the loop thread still has to do
depends on the functors of the one pass that it finishes. -/
namespace MiniMuduo.LoopQuit
open EventLoop LoopFunctors LoopExit LoopStartup

variable {Functor : Type}

/-- The steps of the loop thread from here to the return, without those for the functors that
it has not called yet. -/
def stages : LoopPc Functor → Nat
  | .outside | .setLooping | .resetQuit => 0
  | .clearLooping => 1
  | .whileTest => 2
  | .functors _ => 3
  | .inFunctor _ => 4
  | .swap => 4
  | .setCalling => 5
  | .dispatch => 6
  | .epollWait => 7

/-- The steps that the loop thread takes in `loop()`. -/
def loopSteps (actions : List (LoopAction Functor)) : Nat :=
  actions.countP fun
    | .loop => true
    | _ => false

/-- The loop until `loop()` returns. -/
def untilReturn (Functor : Type) (owner : Tid) :
    StepSystem (EventLoop Functor) (LoopAction Functor) :=
  (loopSystem Functor owner).restrict fun s _ => s.pc ≠ .outside

/-- Told to quit, and past the store that would forget it. -/
structure Quitting (s : EventLoop Functor) : Prop where
  quit : s.quit = true
  begun : Begun s

variable {owner : Tid} {s next : EventLoop Functor} {action : LoopAction Functor}
variable {actions : List (LoopAction Functor)}

@[simp] theorem loopSteps_cons (action : LoopAction Functor)
    (actions : List (LoopAction Functor)) :
    loopSteps (action :: actions) = loopSteps actions + loopSteps [action] := by
  simp [loopSteps, List.countP_cons]

theorem quitting_step (quitting : Quitting s) (inside : s.pc ≠ .outside)
    (transition : Transition owner s action next) : Quitting next := by
  refine ⟨quit_kept transition quitting.quit quitting.begun,
    begun_kept transition quitting.begun ?_⟩
  rintro rfl
  cases transition with
  | enterLoop _ pc => exact inside pc

/-- A step of the loop thread brings it nearer by one; a functor that it calls costs it two. -/
theorem stages_step (quitting : Quitting s) (inside : s.pc ≠ .outside)
    (transition : Transition owner s action next) :
    loopSteps [action] + stages next.pc + 2 * s.executed.length =
      stages s.pc + 2 * next.executed.length := by
  cases transition with
  | call request _ _ =>
    obtain ⟨calls, begun⟩ := beginCall_eq owner s _ request
    rw [begun]
    simp [loopSteps]
  | push | queueTestWakes | queueTestSkips | storeQuit | quitTestWakes | quitTestSkips =>
    simp [loopSteps, setCall]
  | wakeup _ =>
    obtain ⟨counter, errors, _, written⟩ := wakeup_eq s
    rw [written]
    simp [loopSteps, setCall]
  | handleRead _ _ =>
    obtain ⟨errors, drained⟩ := handleRead_eq s
    rw [drained]
    simp [loopSteps]
  | enterLoop _ pc => exact absurd pc inside
  | setLooping _ pc => exact absurd pc quitting.begun.1
  | resetQuit _ pc => exact absurd pc quitting.begun.2
  | poll _ _ quit => simp [quitting.quit] at quit
  | callFunctor _ pc =>
    simp [loopSteps, stages, pc]
    omega
  | stop _ pc _ | pollReturns _ pc | dispatched _ pc | setCalling _ pc | swap _ pc
  | functorReturns _ pc | clearCalling _ pc | clearLooping _ pc =>
    simp [loopSteps, stages, pc]

/-- Once it is out of `epoll_wait`, it does not poll again. -/
theorem no_poll_step (quitting : Quitting s) (awake : s.pc ≠ .epollWait)
    (transition : Transition owner s action next) : next.pc ≠ .epollWait := by
  cases transition with
  | call request _ _ =>
    obtain ⟨calls, begun⟩ := beginCall_eq owner s _ request
    rw [begun]
    exact awake
  | push | queueTestWakes | queueTestSkips | storeQuit | quitTestWakes
  | quitTestSkips => exact awake
  | wakeup _ =>
    obtain ⟨counter, errors, _, written⟩ := wakeup_eq s
    rw [written]
    exact awake
  | handleRead _ _ =>
    obtain ⟨errors, drained⟩ := handleRead_eq s
    rw [drained]
    exact awake
  | poll _ _ quit => simp [quitting.quit] at quit
  | _ => exact nofun

/-- Behind the swap of the last pass there is no other. -/
theorem no_swap_step (quitting : Quitting s) (swapped : ¬ BeforeSwap s)
    (transition : Transition owner s action next) : ¬ BeforeSwap next := by
  cases transition with
  | call request _ _ =>
    obtain ⟨calls, begun⟩ := beginCall_eq owner s _ request
    rw [begun]
    exact swapped
  | push | queueTestWakes | queueTestSkips | storeQuit | quitTestWakes | quitTestSkips =>
    exact swapped
  | wakeup _ =>
    obtain ⟨counter, errors, _, written⟩ := wakeup_eq s
    rw [written]
    exact swapped
  | handleRead _ _ =>
    obtain ⟨errors, drained⟩ := handleRead_eq s
    rw [drained]
    exact swapped
  | poll _ _ quit => simp [quitting.quit] at quit
  | pollReturns _ pc | dispatched _ pc | setCalling _ pc => simp [BeforeSwap, pc] at swapped
  | _ => simp [BeforeSwap]

/-- What a run does to the distance, to `epoll_wait` and to the batch. -/
structure Leaves (s : EventLoop Functor) (actions : List (LoopAction Functor))
    (next : EventLoop Functor) : Prop where
  steps : loopSteps actions + stages next.pc + 2 * s.executed.length =
    stages s.pc + 2 * next.executed.length
  polls : next.pc = .epollWait → s.pc = .epollWait
  batch : ¬ BeforeSwap s → next.executed ++ next.batch = s.executed ++ s.batch

theorem quitting_run (quitting : Quitting s)
    (run : (untilReturn Functor owner).Run s actions next) :
    Quitting next ∧ Leaves s actions next := by
  induction run with
  | nil => exact ⟨quitting, by simp [loopSteps], id, fun _ => rfl⟩
  | @cons s t r action actions step rest ih =>
    obtain ⟨inside, stepped⟩ := step
    have transition := step_transition stepped
    obtain ⟨last, leaves⟩ := ih (quitting_step quitting inside transition)
    refine ⟨last, ?_, fun polls => ?_, fun swapped => ?_⟩
    · have first := stages_step quitting inside transition
      have others := leaves.steps
      rw [loopSteps_cons]
      omega
    · by_contra awake
      exact no_poll_step quitting awake transition (leaves.polls polls)
    · have noSwap : ¬ Swaps s action :=
        fun swaps => swapped (Or.inr (Or.inr (Or.inr swaps.1)))
      rw [leaves.batch (no_swap_step quitting swapped transition),
        step_keeps_batch transition noSwap]

/-! ### The loop thread left alone -/

/-- The functors that the loop thread calls if nobody pushes any more. -/
def toCall (s : EventLoop Functor) : List Functor :=
  match s.pc with
  | .epollWait | .dispatch | .setCalling | .swap => s.pendingFunctors
  | _ => s.batch

/-- Outside of calls, the loop thread can always take its next step. -/
theorem can_step (inside : s.pc ≠ .outside) (idle : s.calls owner = .idle) :
    ∃ next, (loopSystem Functor owner).Step s .loop next := by
  have steps : s.step owner .loop = s.loopStep := by simp [EventLoop.step, idle, CallPc.isIdle]
  simp only [loopSystem, steps, loopStep]
  split
  · rename_i pc
    exact absurd pc inside
  all_goals exact ⟨_, rfl⟩

/-- Its step is one of those that `stages` counts, or one of the two for a functor. -/
theorem alone_step (quitting : Quitting s) (idle : s.calls owner = .idle)
    (transition : Transition owner s .loop next) : next.calls owner = .idle ∧
      stages next.pc + 2 * (toCall next).length + 1 = stages s.pc + 2 * (toCall s).length := by
  cases transition with
  | setLooping _ pc => exact absurd pc quitting.begun.1
  | resetQuit _ pc => exact absurd pc quitting.begun.2
  | poll _ _ quit => simp [quitting.quit] at quit
  | stop _ pc _ | clearCalling _ pc | clearLooping _ pc =>
    exact ⟨idle, by simp [stages, toCall, EventLoop.batch, pc]⟩
  | pollReturns _ pc | dispatched _ pc | setCalling _ pc | swap _ pc | callFunctor _ pc
  | functorReturns _ pc =>
    refine ⟨idle, ?_⟩
    simp only [stages, toCall, EventLoop.batch, pc, List.length_cons]
    omega

theorem stages_zero_iff (begun : Begun s) : stages s.pc = 0 ↔ s.pc = .outside := by
  obtain ⟨entered, stored⟩ := begun
  cases pc : s.pc <;> simp_all [stages]

/-- Left alone, it returns after exactly as many steps. -/
theorem alone_run (distance : Nat) (quitting : Quitting s) (idle : s.calls owner = .idle)
    (left : stages s.pc + 2 * (toCall s).length = distance) :
    ∃ next, (untilReturn Functor owner).Run s (List.replicate distance .loop) next ∧
      next.pc = .outside := by
  induction distance generalizing s with
  | zero =>
    have returned := (stages_zero_iff quitting.begun).mp (Nat.eq_zero_of_add_eq_zero_right left)
    exact ⟨s, .nil, returned⟩
  | succ distance ih =>
    have inside : s.pc ≠ .outside := by
      intro returned
      simp [stages, toCall, EventLoop.batch, returned] at left
    obtain ⟨middle, stepped⟩ := can_step inside idle
    have transition := step_transition stepped
    obtain ⟨still, nearer⟩ := alone_step quitting idle transition
    obtain ⟨next, rest, returned⟩ :=
      ih (quitting_step quitting inside transition) still (by omega)
    exact ⟨next, .cons ⟨inside, stepped⟩ rest, returned⟩

/-- A loop that has been told to quit and is past its own `quit_ = false` does not go back to
`epoll_wait`, calls nothing that is pushed after its last swap, and takes exactly as many steps
to its return as its stages and the functors that it calls are; left alone, it comes there. -/
theorem quit_ends_loop (reached : (loopSystem Functor owner).Reachable s)
    (quitting : Quitting s) (run : (untilReturn Functor owner).Run s actions next) :
    Leaves s actions next ∧ next.executed <+: next.pushed ∧
      (next.calls owner = .idle → ∃ last, (untilReturn Functor owner).Run next
        (List.replicate (stages next.pc + 2 * (toCall next).length) .loop) last ∧
          last.pc = .outside) := by
  obtain ⟨still, leaves⟩ := quitting_run quitting run
  have order : InOrder next := reachable_inOrder (reached.run run.unrestricted)
  refine ⟨leaves, ?_, fun idle => alone_run _ still idle rfl⟩
  rw [← order, List.append_assoc]
  exact List.prefix_append _ _

def towardsQuit : List (LoopAction Nat) :=
  [.enterLoop, .loop, .loop, .loop, .loop, .call 2 (.queueInLoop 7), .advance 2, .advance 2,
    .advance 2, .call 2 .quit, .advance 2, .loop, .loop]

/-- Functor 7 waits for the swap of thread 1, and thread 2 has stored to `quit_`. -/
def toldToQuit : EventLoop Nat :=
  (StepSystem.play (EventLoop.step 1) {} towardsQuit).getD {}

/-- Functor 8 comes too late. -/
theorem late_push_costs_nothing : ∃ next : EventLoop Nat,
    (untilReturn Nat 1).Run toldToQuit
      [.loop, .call 3 (.queueInLoop 8), .advance 3, .loop, .loop, .loop, .loop, .loop] next ∧
      next.pc = .outside ∧ next.pendingFunctors = [8] ∧ next.executed <+: next.pushed := by
  have before : (loopSystem Nat 1).Run {} towardsQuit toldToQuit :=
    .of_play (fun _ _ _ stepped => stepped) rfl
  have run : (untilReturn Nat 1).Run toldToQuit
      [.loop, .call 3 (.queueInLoop 8), .advance 3, .loop, .loop, .loop, .loop, .loop] _ :=
    .cons ⟨nofun, rfl⟩ <| .cons ⟨nofun, rfl⟩ <| .cons ⟨nofun, rfl⟩ <| .cons ⟨nofun, rfl⟩ <|
      .cons ⟨nofun, rfl⟩ <| .cons ⟨nofun, rfl⟩ <| .cons ⟨nofun, rfl⟩ <| .cons ⟨nofun, rfl⟩ .nil
  have quitting : Quitting toldToQuit := ⟨rfl, nofun, nofun⟩
  exact ⟨_, run, rfl, rfl, (quit_ends_loop ⟨_, _, rfl, before⟩ quitting run).2.1⟩

end MiniMuduo.LoopQuit
