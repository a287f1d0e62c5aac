import MiniMuduo.Handshake

/-! The handshake of `startLoop()` and `threadFunc`. What `startLoop()` waits for is not
stable: the pointer that announces the loop is null again when the loop has ended, and
nobody notifies a second time. The handshake completes as long as the loop does not end
before `startLoop()` has seen it. -/
namespace MiniMuduo.StartLoop
open Handshake

variable {Functor : Type} {owner user : Tid} {s next : Handshake Functor}
variable {action : HandshakeAction Functor} {actions : List (HandshakeAction Functor)}

/-- Where `threadFunc` is while `loop_` points to its loop. -/
def isPublished : FuncPc → Bool
  | .notifying | .unlockingPublish | .entering | .looping | .lockingClear | .clearing => true
  | _ => false

/-- The init callback has completed. -/
def calledBack : FuncPc → Bool
  | .notStarted | .constructing | .callback => false
  | _ => true

/-- `threadFunc` has set `loop_` to null again. -/
def hasCleared : FuncPc → Bool
  | .unlockingClear | .destroyingLoop | .returned => true
  | _ => false

/-- `startLoop()` has found `loop_` not null. -/
def hasSeen : UserPc → Bool
  | .fresh | .locking | .testing | .asleep | .relocking => false
  | _ => true

/-- `startLoop()` has returned. -/
def hasReturned : UserPc → Bool
  | .fresh | .locking | .testing | .asleep | .relocking | .assigning | .unlocking => false
  | _ => true

/-- `startLoop()` waits for a notification that nobody is left to send. -/
def Stuck (s : Handshake Functor) : Prop := s.user = .asleep ∧ s.func = .returned

/-- What `startLoop()` owes when it returns: a pointer, and a callback that is done. -/
def Delivers (s : Handshake Functor) : Prop :=
  hasReturned s.user = true → s.result = true ∧ calledBack s.func = true

/-- The handshake cannot get stuck. -/
def HandshakeCompletes (Functor : Type) (owner user : Tid) : Prop :=
  ∀ s, (handshakeSystem Functor owner user).Reachable s → ¬ Stuck s ∧ Delivers s

/-- The step is not a `loop_ = nullptr` that comes before `startLoop()` has found `loop_`
not null. -/
def ClearsAfterSeen (s : Handshake Functor) (action : HandshakeAction Functor) : Prop :=
  action = .func → s.func = .clearing → hasSeen s.user = true

/-- Who is inside a section of `mutex_` holds it. -/
structure Locked (s : Handshake Functor) : Prop where
  user : s.user.holds = true → s.holder = some .user
  func : s.func.holds = true → s.holder = some .func

theorem Locked.exclusive (locked : Locked s) (user : s.user.holds = true) :
    ¬ s.func.holds = true := by
  intro func
  cases (locked.user user).symm.trans (locked.func func)

theorem locked_move (locked : Locked s) (move : Move owner user s action next) : Locked next := by
  have apart := locked.exclusive
  obtain ⟨user, func⟩ := locked
  cases move with
  | start pc => exact ⟨nofun, nofun⟩
  | lock pc free => exact ⟨fun _ => rfl, fun holds => by simp [func holds] at free⟩
  | sees pc _ | assign pc => exact ⟨fun _ => user (by rw [pc]; rfl), func⟩
  | sleeps pc _ | unlock pc =>
    exact ⟨nofun, fun holds => absurd holds (apart (by rw [pc]; rfl))⟩
  | destroy | quits | skipsJoin | callQuit | quitReturns | joins | destroyMembers | wake =>
    exact ⟨nofun, func⟩
  | construct | calledBack | loopReturns | destroyLoop | enterLoop => exact ⟨user, nofun⟩
  | lockPublish pc free | lockClear pc free =>
    exact ⟨fun holds => by simp [user holds] at free, fun _ => rfl⟩
  | publish pc | clear pc | notifyNobody pc _ => exact ⟨user, fun _ => func (by rw [pc]; rfl)⟩
  | notify pc _ => exact ⟨nofun, fun _ => func (by rw [pc]; rfl)⟩
  | unlockPublish pc | unlockClear pc =>
    exact ⟨fun holds => absurd (by rw [pc]; rfl) (apart holds), nofun⟩
  | inLoop => exact ⟨user, func⟩

/-- `loop_` says where `threadFunc` is. -/
structure Announced (s : Handshake Functor) : Prop where
  published : s.published = isPublished s.func
  fresh : s.user = .fresh → s.func = .notStarted

theorem announced_move (announced : Announced s) (move : Move owner user s action next) :
    Announced next := by
  obtain ⟨published, fresh⟩ := announced
  cases move with
  | start pc => exact ⟨by rw [published, fresh pc]; rfl, nofun⟩
  | lock | sees | sleeps | assign | unlock | destroy | quits | skipsJoin | callQuit
  | quitReturns | joins | destroyMembers | wake => exact ⟨published, nofun⟩
  | construct pc | calledBack pc _ | lockPublish pc _ | notifyNobody pc _ | unlockPublish pc
  | loopReturns pc _ _ | lockClear pc _ | unlockClear pc | destroyLoop pc | enterLoop pc _ =>
    exact ⟨by rw [published, pc]; rfl, fun user => absurd ((fresh user).symm.trans pc) nofun⟩
  | publish pc | clear pc =>
    exact ⟨rfl, fun user => absurd ((fresh user).symm.trans pc) nofun⟩
  | notify pc _ => exact ⟨by rw [published, pc]; rfl, nofun⟩
  | inLoop => exact ⟨published, fresh⟩

theorem published_calledBack {pc : FuncPc} (published : isPublished pc = true) :
    calledBack pc = true := by
  cases pc with
  | notStarted | constructing | callback => cases published
  | _ => rfl

/-- `startLoop()` has copied the pointer. -/
def hasAssigned : UserPc → Bool
  | .unlocking => true
  | pc => hasReturned pc

/-- What `startLoop()` has seen under the mutex, it can rely on until it has copied it. -/
structure Copied (s : Handshake Functor) : Prop where
  assigning : s.user = .assigning → s.published = true
  assigned : hasAssigned s.user = true → s.result = true ∧ calledBack s.func = true

theorem copied_move (locked : Locked s) (announced : Announced s) (copied : Copied s)
    (move : Move owner user s action next) : Copied next := by
  have apart := locked.exclusive
  obtain ⟨assigning, assigned⟩ := copied
  cases move with
  | start | lock | sleeps | wake => exact ⟨nofun, nofun⟩
  | sees _ published => exact ⟨fun _ => published, nofun⟩
  | assign pc =>
    have published := assigning pc
    refine ⟨nofun, fun _ => ⟨published, published_calledBack ?_⟩⟩
    rw [← announced.published, published]
  | unlock pc | destroy pc _ | quits pc _ | skipsJoin pc _ | callQuit pc _ | quitReturns pc _
  | joins pc _ | destroyMembers pc => exact ⟨nofun, fun _ => assigned (by rw [pc]; rfl)⟩
  | construct pc =>
    exact ⟨assigning, fun got => absurd (pc ▸ (assigned got).2) nofun⟩
  | calledBack | lockPublish | notifyNobody | unlockPublish | loopReturns | lockClear
  | unlockClear | destroyLoop | enterLoop =>
    exact ⟨assigning, fun got => ⟨(assigned got).1, rfl⟩⟩
  | publish => exact ⟨fun _ => rfl, fun got => ⟨(assigned got).1, rfl⟩⟩
  | clear pc =>
    -- `startLoop()` holds the mutex from its test to its copy
    refine ⟨fun user => absurd (by rw [pc]; rfl) (apart (by rw [user]; rfl)), fun got => ?_⟩
    exact ⟨(assigned got).1, rfl⟩
  | notify => exact ⟨nofun, nofun⟩
  | inLoop => exact ⟨assigning, assigned⟩

/-- What holds in every run. -/
structure Agreed (s : Handshake Functor) : Prop where
  locked : Locked s
  announced : Announced s
  copied : Copied s

theorem agreed_move (agreed : Agreed s) (move : Move owner user s action next) : Agreed next where
  locked := locked_move agreed.locked move
  announced := announced_move agreed.announced move
  copied := copied_move agreed.locked agreed.announced agreed.copied move

theorem agreed_start : Agreed ({} : Handshake Functor) :=
  ⟨⟨nofun, nofun⟩, ⟨rfl, fun _ => rfl⟩, ⟨nofun, nofun⟩⟩

theorem reachable_agreed (reached : (handshakeSystem Functor owner user).Reachable s) :
    Agreed s := by
  refine reached.invariant ?_ ?_
  · rintro _ rfl
    exact agreed_start
  · exact fun _ _ _ agreed step => agreed_move agreed (step_move step)

theorem agreed_delivers (agreed : Agreed s) : Delivers s := by
  intro returned
  refine agreed.copied.assigned ?_
  cases pc : s.user with
  | unlocking => rfl
  | _ => rw [pc] at returned; exact returned

/-! ### The end of the loop -/

theorem seen_move (move : Move owner user s action next) (seen : hasSeen s.user = true) :
    hasSeen next.user = true := by
  cases move with
  | start pc | sleeps pc _ | wake pc | notify _ pc => simp [pc, hasSeen] at seen
  | lock pc _ => rcases pc with pc | pc <;> simp [pc, hasSeen] at seen
  | sees | assign | unlock | destroy | quits | skipsJoin | callQuit | quitReturns | joins
  | destroyMembers => rfl
  | _ => exact seen

/-- `loop_` is null again only once `startLoop()` has found it not null. -/
def SeenFirst (s : Handshake Functor) : Prop :=
  hasCleared s.func = true → hasSeen s.user = true

theorem seenFirst_move (seenFirst : SeenFirst s) (after : ClearsAfterSeen s action)
    (move : Move owner user s action next) : SeenFirst next := by
  intro cleared
  refine seen_move move ?_
  cases move with
  | clear pc => exact after rfl pc
  | start | construct | calledBack | lockPublish | publish | notify | notifyNobody
  | unlockPublish | loopReturns | lockClear | enterLoop => cases cleared
  | unlockClear pc | destroyLoop pc => exact seenFirst (by rw [pc]; rfl)
  | _ => exact seenFirst cleared

/-- The loop has ended before `startLoop()` saw it. -/
def Missed (s : Handshake Functor) : Prop :=
  hasCleared s.func = true ∧ hasSeen s.user = false ∧ s.published = false

/-- Nothing brings it back. -/
theorem missed_move (announced : Announced s) (missed : Missed s)
    (move : Move owner user s action next) : Missed next := by
  obtain ⟨cleared, unseen, unpublished⟩ := missed
  cases move with
  | start pc =>
    rw [announced.fresh pc] at cleared
    cases cleared
  | lock | sleeps | wake => exact ⟨cleared, rfl, unpublished⟩
  | sees _ published =>
    rw [unpublished] at published
    cases published
  | assign pc | unlock pc | destroy pc _ | quits pc _ | skipsJoin pc _ | callQuit pc _
  | quitReturns pc _ | joins pc _ | destroyMembers pc =>
    rw [pc] at unseen
    cases unseen
  | construct pc | calledBack pc _ | lockPublish pc _ | publish pc | notify pc _
  | notifyNobody pc _ | unlockPublish pc | loopReturns pc _ _ | lockClear pc _ | clear pc
  | enterLoop pc _ =>
    rw [pc] at cleared
    cases cleared
  | unlockClear | destroyLoop => exact ⟨rfl, unseen, unpublished⟩
  | inLoop => exact ⟨cleared, unseen, unpublished⟩

theorem missed_run (agreed : Agreed s) (missed : Missed s)
    (run : (handshakeSystem Functor owner user).Run s actions next) : Missed next := by
  induction run with
  | nil => exact missed
  | cons step _ ih =>
    have move := step_move step
    exact ih (agreed_move agreed move) (missed_move agreed.announced missed move)

/-- A `loop_ = nullptr` that comes too early is missed. -/
theorem missed_of_early (early : ¬ ClearsAfterSeen s action)
    (move : Move owner user s action next) : Missed next := by
  obtain ⟨byFunc, early⟩ := Classical.not_imp.mp early
  obtain ⟨pc, unseen⟩ := Classical.not_imp.mp early
  subst byFunc
  rw [move.of_clearing pc]
  exact ⟨rfl, Bool.not_eq_true _ ▸ unseen, rfl⟩

/-- When `startLoop()` returns, its pointer is not null and the callback is done, in
every run. It never waits for a thread that has returned, in any run in which `loop_` is
set to null only after `startLoop()` has found it not null; and once a run breaks this,
`startLoop()` never finds it not null again. -/
theorem handshake_completes (reached : (handshakeSystem Functor owner user).Reachable s) :
    Delivers s ∧
      (((handshakeSystem Functor owner user).restrict ClearsAfterSeen).Reachable s → ¬ Stuck s) ∧
      ∀ action next actions later, ¬ ClearsAfterSeen s action →
        (handshakeSystem Functor owner user).Step s action next →
        (handshakeSystem Functor owner user).Run next actions later →
        hasSeen later.user = false := by
  have agreed := reachable_agreed reached
  refine ⟨agreed_delivers agreed, fun met stuck => ?_, ?_⟩
  · have seenFirst : SeenFirst s := by
      refine met.invariant ?_ ?_
      · rintro _ rfl
        exact nofun
      · exact fun _ _ _ seenFirst step => seenFirst_move seenFirst step.1 (step_move step.2)
    have seen := seenFirst (by rw [stuck.2]; rfl)
    rw [stuck.1] at seen
    cases seen
  · intro action next actions later early step run
    have move := step_move step
    exact (missed_run (agreed_move agreed move) (missed_of_early early move) run).2.1

instance (s : Handshake Nat) (action : HandshakeAction Nat) :
    Decidable (ClearsAfterSeen s action) :=
  inferInstanceAs (Decidable (action = .func → s.func = .clearing → hasSeen s.user = true))

/-- `startLoop()` sleeps while thread 2 runs the callback, which queues functor 7, and
publishes its loop. -/
def untilPublished : List (HandshakeAction Nat) :=
  [.user, .user, .user, .func, .inLoop (.call 2 (.queueInLoop 7)), .inLoop (.advance 2),
    .inLoop (.advance 2), .func, .func, .func, .func, .func]

/-- It takes the mutex again, finds the loop and returns it. -/
def untilReturned : List (HandshakeAction Nat) :=
  untilPublished ++ [.user, .user, .user, .user]

def afterReturn : Handshake Nat :=
  (StepSystem.play (Handshake.step 2 1) {} untilReturned).getD {}

theorem startLoop_returns : afterReturn.result = true ∧ ¬ Stuck afterReturn := by
  have played : StepSystem.play (fun s action =>
      if ClearsAfterSeen s action then s.step 2 1 action else none) {} untilReturned =
      some afterReturn := rfl
  have run : ((handshakeSystem Nat 2 1).restrict ClearsAfterSeen).Run {} untilReturned
      afterReturn :=
    .of_play_checked (fun _ _ _ stepped => stepped) played
  obtain ⟨delivers, completes, _⟩ := handshake_completes ⟨_, _, rfl, run.unrestricted⟩
  exact ⟨(delivers rfl).1, completes ⟨_, _, rfl, run⟩⟩

/-- Before it takes the mutex again, functor 7 quits the loop and `threadFunc` returns. -/
def untilEnded : List (HandshakeAction Nat) :=
  untilPublished ++ .inLoop .enterLoop :: List.replicate 8 (.inLoop .loop) ++
    [.inLoop (.call 2 .quit), .inLoop (.advance 2), .inLoop (.advance 2)] ++
    List.replicate 4 (.inLoop .loop) ++ List.replicate 5 .func

/-- It then finds no loop, and nobody is left to wake it. -/
theorem loop_ends_unseen : ¬ HandshakeCompletes Nat 2 1 := by
  intro completes
  have run : (handshakeSystem Nat 2 1).Run {} (untilEnded ++ [.user, .user])
      ((StepSystem.play (Handshake.step 2 1) {} (untilEnded ++ [.user, .user])).getD {}) :=
    .of_play (fun _ _ _ stepped => stepped) rfl
  exact (completes _ ⟨_, _, rfl, run⟩).1 ⟨rfl, rfl⟩

end MiniMuduo.StartLoop
