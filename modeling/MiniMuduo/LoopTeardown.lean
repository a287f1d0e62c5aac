import MiniMuduo.StartLoop

/-! What `~EventLoopThread` waits for. It reads `loop_` without the mutex, once to decide
whether there is a thread to join and once to call `quit()`, and `threadFunc` clears
`loop_` before it is done with its loop. Destruction is orderly as long as neither read
falls behind that. -/
namespace MiniMuduo.LoopTeardown
open Handshake StartLoop

variable {Functor : Type} {owner user : Tid} {s next : Handshake Functor}
variable {action : HandshakeAction Functor}

/-- Once destruction has completed, `threadFunc` has returned; and the destructor is in
front of its `loop_->quit()` only with a loop that is published and alive. -/
def WaitsForThread (s : Handshake Functor) : Prop :=
  (s.user = .destroyed → s.func = .returned) ∧
    (s.user = .callQuit → s.published = true ∧ s.func.loopAlive = true)

/-- Destroying an `EventLoopThread` waits for its thread. -/
def DestructionWaits (Functor : Type) (owner user : Tid) : Prop :=
  ∀ s, (handshakeSystem Functor owner user).Reachable s → WaitsForThread s

/-- The step is neither the destructor's test of a `loop_` that is null while `threadFunc`
still runs, nor a `loop_ = nullptr` between that test and the call of `quit()`. -/
structure InTime (s : Handshake Functor) (action : HandshakeAction Functor) : Prop where
  test : action = .user → s.user = .destroying → s.published = true ∨ s.func = .returned
  clear : action = .func → s.func = .clearing → s.user ≠ .callQuit

/-- The body of the destructor is done. -/
def isTornDown : UserPc → Bool
  | .members | .destroyed => true
  | _ => false

/-- What the destructor has decided stays right. -/
structure Orderly (s : Handshake Functor) : Prop where
  tornDown : isTornDown s.user = true → s.func = .returned
  quits : s.user = .callQuit → s.published = true

theorem orderly_move (orderly : Orderly s) (inTime : InTime s action)
    (move : Move owner user s action next) : Orderly next := by
  obtain ⟨tornDown, quits⟩ := orderly
  cases move with
  | start | lock | sees | sleeps | assign | unlock | destroy | callQuit | quitReturns | wake
  | notify => exact ⟨nofun, nofun⟩
  | quits _ published => exact ⟨nofun, fun _ => published⟩
  | skipsJoin pc unpublished =>
    refine ⟨fun _ => (inTime.test rfl pc).resolve_left fun published => ?_, nofun⟩
    cases unpublished.symm.trans published
  | joins _ returned => exact ⟨fun _ => returned, nofun⟩
  | destroyMembers pc => exact ⟨fun _ => tornDown (by rw [pc]; rfl), nofun⟩
  | construct pc | calledBack pc _ | lockPublish pc _ | notifyNobody pc _ | unlockPublish pc
  | loopReturns pc _ _ | lockClear pc _ | unlockClear pc | destroyLoop pc | enterLoop pc _ =>
    exact ⟨fun done => absurd ((tornDown done).symm.trans pc) nofun, quits⟩
  | publish pc => exact ⟨fun done => absurd ((tornDown done).symm.trans pc) nofun, fun _ => rfl⟩
  | clear pc =>
    exact ⟨fun done => absurd ((tornDown done).symm.trans pc) nofun,
      fun user => absurd user (inTime.clear rfl pc)⟩
  | inLoop => exact ⟨tornDown, quits⟩

theorem published_loopAlive {pc : FuncPc} (published : isPublished pc = true) :
    pc.loopAlive = true := by
  cases pc with
  | notStarted | constructing | returned => cases published
  | _ => rfl

theorem orderly_waits (agreed : Agreed s) (orderly : Orderly s) : WaitsForThread s := by
  refine ⟨fun destroyed => orderly.tornDown (by rw [destroyed]; rfl), fun pc => ?_⟩
  have published := orderly.quits pc
  refine ⟨published, published_loopAlive ?_⟩
  rw [← agreed.announced.published, published]

/-- A test that finds `loop_` null skips the join, and the thread is left behind. -/
private theorem late_test (pc : s.user = .destroying)
    (lost : ¬ (s.published = true ∨ s.func = .returned)) (move : Move owner user s .user next) :
    ∃ actions later, (handshakeSystem Functor owner user).Run next actions later ∧
      ¬ WaitsForThread later := by
  cases move with
  | quits _ published => exact absurd (Or.inl published) lost
  | skipsJoin =>
    refine ⟨[.user], _, .cons rfl .nil, fun waits => lost (Or.inr ?_)⟩
    exact waits.1 rfl
  | lock other _ => rcases other with other | other <;> cases pc.symm.trans other
  | start other | sees other _ | sleeps other _ | assign other | unlock other | callQuit other _
  | quitReturns other _ | joins other _ | destroyMembers other => cases pc.symm.trans other

/-- A loop that is given up between the test and the call of `quit()` is quit all the same. -/
private theorem late_clear (pc : s.func = .clearing) (calls : s.user = .callQuit)
    (move : Move owner user s .func next) : ¬ WaitsForThread next := by
  rw [move.of_clearing pc]
  exact fun waits => absurd (waits.2 calls).1 nofun

theorem late_breaks (late : ¬ InTime s action)
    (step : (handshakeSystem Functor owner user).Step s action next) :
    ∃ actions later, (handshakeSystem Functor owner user).Run next actions later ∧
      ¬ WaitsForThread later := by
  have move := step_move step
  by_cases tests : action = .user ∧ s.user = .destroying
  · obtain ⟨rfl, pc⟩ := tests
    exact late_test pc (fun kept => late ⟨fun _ _ => kept, nofun⟩) move
  · have clears : action = .func ∧ s.func = .clearing ∧ s.user = .callQuit := by
      by_contra other
      exact late ⟨fun byUser pc => absurd ⟨byUser, pc⟩ tests,
        fun byFunc pc calls => other ⟨byFunc, pc, calls⟩⟩
    obtain ⟨rfl, pc, calls⟩ := clears
    exact ⟨[], next, .nil, late_clear pc calls move⟩

/-- In any run in which the destructor's test of `loop_` and its call of `quit()` come in
time, destruction waits for the thread; and a step that does not come in time can be
followed by one that breaks this. -/
theorem destructor_waits
    (reached : ((handshakeSystem Functor owner user).restrict InTime).Reachable s) :
    WaitsForThread s ∧ ∀ action next, ¬ InTime s action →
      (handshakeSystem Functor owner user).Step s action next →
      ∃ actions later, (handshakeSystem Functor owner user).Run next actions later ∧
        ¬ WaitsForThread later := by
  have orderly : Orderly s := by
    refine reached.invariant ?_ ?_
    · rintro _ rfl
      exact ⟨nofun, nofun⟩
    · exact fun _ _ _ orderly step => orderly_move orderly step.1 (step_move step.2)
  obtain ⟨first, actions, start, run⟩ := reached
  have agreed := reachable_agreed ⟨first, actions, start, run.unrestricted⟩
  exact ⟨orderly_waits agreed orderly, fun _ _ late step => late_breaks late step⟩

instance (s : Handshake Nat) (action : HandshakeAction Nat) : Decidable (InTime s action) :=
  decidable_of_iff
    ((action = .user → s.user = .destroying → s.published = true ∨ s.func = .returned) ∧
      (action = .func → s.func = .clearing → s.user ≠ .callQuit))
    ⟨fun both => ⟨both.1, both.2⟩, fun inTime => ⟨inTime.test, inTime.clear⟩⟩

/-- `startLoop()` returns the loop of thread 2, which has passed `quit_ = false`. -/
def untilLooping : List (HandshakeAction Nat) :=
  .user :: List.replicate 6 .func ++ [.user, .user, .user, .user] ++
    [.inLoop .enterLoop, .inLoop .loop, .inLoop .loop]

/-- The destructor quits it, joins thread 2 and is done. -/
def untilJoined : List (HandshakeAction Nat) :=
  untilLooping ++ [.destroy, .user, .user, .inLoop (.advance 1), .inLoop (.advance 1),
    .inLoop (.advance 1), .user, .inLoop .loop, .inLoop .loop] ++
    List.replicate 5 .func ++ [.user, .user]

def afterJoin : Handshake Nat :=
  (StepSystem.play (Handshake.step 2 1) {} untilJoined).getD {}

theorem quit_and_joined : afterJoin.user = .destroyed ∧ WaitsForThread afterJoin := by
  have played : StepSystem.play (fun s action =>
      if InTime s action then s.step 2 1 action else none) {} untilJoined = some afterJoin := rfl
  have run : ((handshakeSystem Nat 2 1).restrict InTime).Run {} untilJoined afterJoin :=
    .of_play_checked (fun _ _ _ stepped => stepped) played
  exact ⟨rfl, (destructor_waits ⟨_, _, rfl, run⟩).1⟩

/-- Thread 3 quits the loop instead, and the destructor runs when `loop_` is null and thread 2
still holds the mutex. -/
def untilAbandoned : List (HandshakeAction Nat) :=
  untilLooping ++ [.inLoop (.call 3 .quit), .inLoop (.advance 3), .inLoop (.advance 3),
    .inLoop (.advance 3), .inLoop .loop, .inLoop .loop, .func, .func, .func, .destroy, .user, .user]

theorem thread_left_behind : ¬ DestructionWaits Nat 2 1 := by
  intro waits
  have run : (handshakeSystem Nat 2 1).Run {} untilAbandoned
      ((StepSystem.play (Handshake.step 2 1) {} untilAbandoned).getD {}) :=
    .of_play (fun _ _ _ stepped => stepped) rfl
  exact absurd ((waits _ ⟨_, _, rfl, run⟩).1 rfl) nofun

end MiniMuduo.LoopTeardown
