import MiniMuduo.EventLoopThread

/-! `startLoop()` returns as soon as the loop is published, and only then does
`loop()` store false in `quit_`. A `quit()` that comes in between is forgotten; one
that comes later never is. -/
namespace MiniMuduo.LoopStartup

variable {Functor : Type}

/-- Inside `loop()`'s while loop, or about to test its condition. -/
def insideWhile : LoopPc Functor → Bool
  | .whileTest | .epollWait | .dispatch | .setCalling | .swap | .functors _ | .inFunctor _ => true
  | .outside | .setLooping | .resetQuit | .clearLooping => false

/-- A `quit()` of the starter has returned, and the loop goes on regardless. -/
def QuitLost (s : LoopThread Functor) : Prop :=
  s.quitDone = true ∧ s.thread = .looping ∧ insideWhile s.loop.pc = true ∧ s.loop.quit = false

/-- Not at the two stores with which `loop()` begins. -/
def Begun (loop : EventLoop Functor) : Prop :=
  loop.pc ≠ .setLooping ∧ loop.pc ≠ .resetQuit

/-- `loop()` has executed `quit_ = false`. -/
def Initialised (s : LoopThread Functor) : Prop :=
  s.thread = .finished ∨ s.thread = .looping ∧ Begun s.loop

/-- The step is the store `quit_ = true` of the starter. -/
def StoresQuit (starter : Tid) (s : LoopThread Functor) (action : ThreadAction Functor) : Prop :=
  action = .inLoop (.advance starter) ∧ s.loop.calls starter = .storeQuit

/-- The runs in which the starter stores to `quit_` only after `loop()` has executed
`quit_ = false`. -/
def lateQuits (Functor : Type) (owner starter : Tid) :
    StepSystem (LoopThread Functor) (ThreadAction Functor) :=
  (threadSystem Functor owner starter).restrict fun s action =>
    StoresQuit starter s action → Initialised s

variable {owner starter t : Tid} {loop loop' : EventLoop Functor} {s next : LoopThread Functor}
variable {request : LoopAction Functor} {action : ThreadAction Functor}

open EventLoop in
/-- Once set, `quit_` is reset only where `loop()` begins. -/
theorem quit_kept (transition : Transition owner loop request loop') (set : loop.quit = true)
    (begun : Begun loop) : loop'.quit = true := by
  cases transition with
  | call request _ _ =>
    obtain ⟨calls, called⟩ := beginCall_eq owner loop _ request
    rw [called]
    exact set
  | wakeup _ =>
    obtain ⟨counter, errors, _, written⟩ := wakeup_eq loop
    rw [written]
    exact set
  | handleRead _ _ =>
    obtain ⟨errors, drained⟩ := handleRead_eq loop
    rw [drained]
    exact set
  | storeQuit _ => rfl
  | resetQuit _ pc => exact absurd pc begun.2
  | _ => exact set

open EventLoop in
/-- `loop()` begins once for each time it is entered. -/
theorem begun_kept (transition : Transition owner loop request loop')
    (begun : Begun loop) (inside : request ≠ .enterLoop) : Begun loop' := by
  cases transition with
  | call request _ _ =>
    obtain ⟨calls, called⟩ := beginCall_eq owner loop _ request
    rw [called]
    exact begun
  | wakeup _ =>
    obtain ⟨counter, errors, _, written⟩ := wakeup_eq loop
    rw [written]
    exact begun
  | handleRead _ _ =>
    obtain ⟨errors, drained⟩ := handleRead_eq loop
    rw [drained]
    exact begun
  | push | queueTestWakes | queueTestSkips | storeQuit | quitTestWakes | quitTestSkips =>
    exact begun
  | enterLoop => exact absurd rfl inside
  | setLooping _ pc => exact absurd pc begun.1
  | _ => exact ⟨nofun, nofun⟩

open EventLoop in
/-- A call is moved only by steps of its own thread. -/
theorem call_kept (transition : Transition owner loop request loop') (busy : loop.calls t ≠ .idle)
    (other : request ≠ .advance t) : loop'.calls t = loop.calls t := by
  refine calls_kept transition ?_ other
  rintro call rfl
  cases transition with
  | call _ idle _ => exact busy idle

open EventLoop in
/-- The starter's step at its store is the store. -/
theorem store_quit (transition : Transition owner loop (.advance t) loop')
    (storing : loop.calls t = .storeQuit) : loop'.quit = true := by
  cases transition with
  | storeQuit _ => rfl
  | push pc => simp [storing] at pc
  | queueTestWakes pc _ => simp [storing] at pc
  | queueTestSkips pc _ => simp [storing] at pc
  | quitTestWakes pc _ => simp [storing] at pc
  | quitTestSkips pc => simp [storing] at pc
  | wakeup pc => simp [storing] at pc

/-! ### The two threads -/

/-- Where it matters, `quit_` is true and stays so. -/
def Kept (s : LoopThread Functor) : Prop :=
  s.thread = .finished ∨ s.thread = .looping ∧ Begun s.loop ∧ s.loop.quit = true

/-- Every `quit()` of the starter that has stored is kept. -/
structure Safe (starter : Tid) (s : LoopThread Functor) : Prop where
  done : s.quitDone = true → Kept s
  quitting : s.starter = .quitting ∨ s.starter = .lastQuit →
    s.loop.calls starter = .storeQuit ∨ Kept s

theorem kept_step (kept : Kept s) (stepped : s.loop.step owner request = some loop)
    (inside : request ≠ .enterLoop) : Kept { s with loop := loop } := by
  have transition := EventLoop.step_transition stepped
  rcases kept with finished | ⟨looping, begun, set⟩
  · exact Or.inl finished
  · exact Or.inr ⟨looping, begun_kept transition begun inside, quit_kept transition set begun⟩

/-- A stored `quit_` is kept from the start, if `loop()` has begun. -/
theorem kept_of_store (initialised : Initialised s) (storing : s.loop.calls starter = .storeQuit)
    (stepped : s.loop.step owner (.advance starter) = some loop) :
    Kept { s with loop := loop } := by
  have transition := EventLoop.step_transition stepped
  rcases initialised with finished | ⟨looping, begun⟩
  · exact Or.inl finished
  · exact Or.inr ⟨looping, begun_kept transition begun nofun, store_quit transition storing⟩

/-- A step of the loop that is neither its entry nor the starter's. -/
theorem safe_elsewhere (safe : Safe starter s) (stepped : s.loop.step owner request = some loop)
    (inside : request ≠ .enterLoop) (other : request ≠ .advance starter) :
    Safe starter { s with loop := loop } where
  done := fun done => kept_step (safe.done done) stepped inside
  quitting := by
    intro quitting
    rcases safe.quitting quitting with storing | kept
    · have busy : s.loop.calls starter ≠ .idle := by simp [storing]
      have same := call_kept (EventLoop.step_transition stepped) busy other
      exact Or.inl (same.trans storing)
    · exact Or.inr (kept_step kept stepped inside)

private theorem not_kept_of_thread (thread : s.thread ≠ .finished) (other : s.thread ≠ .looping) :
    ¬ Kept s := by
  rintro (finished | ⟨looping, _⟩)
  · exact thread finished
  · exact other looping

theorem safe_enterLoop (safe : Safe starter s) (entering : s.thread = .entering)
    (stepped : s.loop.step owner .enterLoop = some loop) :
    Safe starter { s with loop := loop, thread := .looping } := by
  have early : ¬ Kept s := not_kept_of_thread (by simp [entering]) (by simp [entering])
  refine ⟨fun done => absurd (safe.done done) early, fun quitting => ?_⟩
  have storing := (safe.quitting quitting).resolve_right early
  have busy : s.loop.calls starter ≠ .idle := by simp [storing]
  have same := call_kept (EventLoop.step_transition stepped) busy nofun
  exact Or.inl (same.trans storing)

theorem quitReturns_kept (kept : Kept s) : Kept (s.quitReturns starter) := by
  unfold LoopThread.quitReturns
  split
  · split <;> exact kept
  · exact kept

/-- What a returning `quit()` was, and that nothing else becomes one. -/
theorem quitReturns_starter (starter : Tid) (s : LoopThread Functor) :
    ((s.quitReturns starter).quitDone = true → s.quitDone = true ∨
      (s.starter = .quitting ∨ s.starter = .lastQuit)) ∧
    ((s.quitReturns starter).starter = .quitting ∨ (s.quitReturns starter).starter = .lastQuit →
      s.starter = .quitting ∨ s.starter = .lastQuit) := by
  unfold LoopThread.quitReturns
  split
  · split
    · rename_i quitting
      simp [quitting]
    · rename_i quitting
      simp [quitting]
    · exact ⟨Or.inl, id⟩
  · exact ⟨Or.inl, id⟩

theorem safe_own_step (safe : Safe starter s)
    (late : s.loop.calls starter = .storeQuit → Initialised s)
    (stepped : s.loop.step owner (.advance starter) = some loop) :
    Safe starter (LoopThread.quitReturns starter { s with loop := loop }) := by
  have stored : s.starter = .quitting ∨ s.starter = .lastQuit → Kept { s with loop := loop } := by
    intro quitting
    rcases safe.quitting quitting with storing | kept
    · exact kept_of_store (late storing) storing stepped
    · exact kept_step kept stepped nofun
  obtain ⟨returns, stays⟩ := quitReturns_starter starter { s with loop := loop }
  refine ⟨fun done => quitReturns_kept ?_, fun quitting => Or.inr (quitReturns_kept ?_)⟩
  · rcases returns done with before | quitting
    · exact kept_step (safe.done before) stepped nofun
    · exact stored quitting
  · exact stored (stays quitting)

/-- A `quit()` that begins has not stored yet. -/
theorem safe_quit_begins (safe : Safe starter s) (pc : StarterPc)
    (stepped : s.loop.step owner (.call starter .quit) = some loop) :
    Safe starter { s with starter := pc, loop := loop } where
  done := fun done => kept_step (safe.done done) stepped nofun
  quitting := by
    intro _
    left
    simp only [EventLoop.step] at stepped
    split at stepped
    · obtain rfl := Option.some.inj stepped
      exact EventLoop.setCall_same _ _ _
    · cases stepped

theorem safe_inLoop (safe : Safe starter s)
    (late : StoresQuit starter s (.inLoop request) → Initialised s)
    (may : s.mayStep owner starter request = true)
    (step : s.inLoop owner starter request = some next) : Safe starter next := by
  obtain ⟨loop, stepped, after⟩ := Option.bind_eq_some_iff.mp step
  cases request with
  | advance t =>
    by_cases own : t = starter
    · subst own
      simp only [if_true, Option.some.injEq] at after
      subst after
      exact safe_own_step safe (fun storing => late ⟨rfl, storing⟩) stepped
    · simp only [if_neg own, Option.some.injEq] at after
      subst after
      exact safe_elsewhere safe stepped nofun (fun same => own (LoopAction.advance.inj same))
  | enterLoop =>
    obtain rfl := Option.some.inj after
    exact safe_enterLoop safe (beq_iff_eq.mp may) stepped
  | call t request =>
    obtain rfl := Option.some.inj after
    exact safe_elsewhere safe stepped nofun nofun
  | loop =>
    obtain rfl := Option.some.inj after
    exact safe_elsewhere safe stepped nofun nofun
  | handleRead =>
    obtain rfl := Option.some.inj after
    exact safe_elsewhere safe stepped nofun nofun

/-- Every step of the two threads keeps what has been stored, if the starter does not
store too early. -/
theorem safe_step (safe : Safe starter s) (late : StoresQuit starter s action → Initialised s)
    (step : s.step owner starter action = some next) : Safe starter next := by
  cases action with
  | start =>
    obtain ⟨⟨_, thread⟩, ⟨⟩⟩ := Option.ite_none_right_eq_some.mp step
    have early : ¬ Kept s := not_kept_of_thread (by simp [thread]) (by simp [thread])
    exact ⟨fun done => absurd (safe.done done) early, nofun⟩
  | startLoopReturns =>
    obtain ⟨_, ⟨⟩⟩ := Option.ite_none_right_eq_some.mp step
    exact ⟨safe.done, nofun⟩
  | quit =>
    obtain ⟨_, begins⟩ := Option.ite_none_right_eq_some.mp step
    obtain ⟨loop, stepped, built⟩ := Option.bind_eq_some_iff.mp begins
    obtain rfl := Option.some.inj built
    exact safe_quit_begins safe .quitting stepped
  | destroy =>
    obtain ⟨_, ⟨⟩⟩ := Option.ite_none_right_eq_some.mp step
    exact ⟨safe.done, nofun⟩
  | testLoop =>
    obtain ⟨_, begins⟩ := Option.ite_none_right_eq_some.mp step
    split at begins
    · obtain ⟨loop, stepped, built⟩ := Option.bind_eq_some_iff.mp begins
      obtain rfl := Option.some.inj built
      exact safe_quit_begins safe .lastQuit stepped
    · obtain rfl := Option.some.inj begins
      exact ⟨safe.done, nofun⟩
  | join =>
    obtain ⟨_, ⟨⟩⟩ := Option.ite_none_right_eq_some.mp step
    exact ⟨safe.done, nofun⟩
  | construct =>
    obtain ⟨thread, ⟨⟩⟩ := Option.ite_none_right_eq_some.mp step
    have early : ¬ Kept s := not_kept_of_thread (by simp [thread]) (by simp [thread])
    exact ⟨fun done => absurd (safe.done done) early,
      fun quitting => Or.inl ((safe.quitting quitting).resolve_right early)⟩
  | publish =>
    obtain ⟨⟨thread, _⟩, ⟨⟩⟩ := Option.ite_none_right_eq_some.mp step
    have early : ¬ Kept s := not_kept_of_thread (by simp [thread]) (by simp [thread])
    exact ⟨fun done => absurd (safe.done done) early,
      fun quitting => Or.inl ((safe.quitting quitting).resolve_right early)⟩
  | clear =>
    obtain ⟨_, ⟨⟩⟩ := Option.ite_none_right_eq_some.mp step
    exact ⟨fun _ => Or.inl rfl, fun _ => Or.inr (Or.inl rfl)⟩
  | inLoop request =>
    obtain ⟨may, stepped⟩ := Option.ite_none_right_eq_some.mp step
    exact safe_inLoop safe late may stepped

/-- No quit is lost that is stored after `loop()` has executed `quit_ = false`. -/
theorem late_quit_not_lost (reached : (lateQuits Functor owner starter).Reachable s) :
    ¬ QuitLost s := by
  have safe : Safe starter s := reached.invariant
    (fun s start => by rw [show s = {} from start]; exact ⟨nofun, nofun⟩)
    (fun s action next safe (step : (lateQuits Functor owner starter).Step s action next) =>
      safe_step safe step.1 step.2)
  rintro ⟨done, looping, inside, unset⟩
  rcases safe.done done with finished | ⟨_, _, set⟩
  · simp [finished] at looping
  · simp [set] at unset

/-! ### Two schedules -/

/-- The loop is published and the starter, thread 1, has it. -/
def untilReturned : List (ThreadAction Nat) := [.start, .construct, .publish, .startLoopReturns]

/-- A whole `quit()` by the starter. -/
def quitCall : List (ThreadAction Nat) :=
  [.quit, .inLoop (.advance 1), .inLoop (.advance 1), .inLoop (.advance 1)]

/-- The loop thread enters `loop()` and executes its two stores. -/
def intoLoop : List (ThreadAction Nat) := [.inLoop .enterLoop, .inLoop .loop, .inLoop .loop]

/-- The loop thread tests `quit_`. -/
def testQuit : List (ThreadAction Nat) := [.inLoop .loop]

/-- A `quit()` after the loop's two stores ends the loop. -/
theorem late_quit_ends_loop : ∃ s,
    (lateQuits Nat 2 1).Run {} (untilReturned ++ intoLoop ++ quitCall ++ testQuit) s ∧
      s.loop.pc = .clearLooping ∧ ¬ QuitLost s := by
  have other {s : LoopThread Nat} {action : ThreadAction Nat}
      (different : action ≠ .inLoop (.advance 1)) : StoresQuit 1 s action → Initialised s :=
    fun stores => absurd stores.1 different
  have late {s : LoopThread Nat} {action : ThreadAction Nat} (looping : s.thread = .looping)
      (begun : Begun s.loop) : StoresQuit 1 s action → Initialised s :=
    fun _ => Or.inr ⟨looping, begun⟩
  have run : (lateQuits Nat 2 1).Run {} (untilReturned ++ intoLoop ++ quitCall ++ testQuit) _ :=
    .cons ⟨other nofun, rfl⟩ <| .cons ⟨other nofun, rfl⟩ <| .cons ⟨other nofun, rfl⟩ <|
    .cons ⟨other nofun, rfl⟩ <| .cons ⟨other nofun, rfl⟩ <| .cons ⟨other nofun, rfl⟩ <|
    .cons ⟨other nofun, rfl⟩ <| .cons ⟨other nofun, rfl⟩ <|
    .cons ⟨late rfl ⟨nofun, nofun⟩, rfl⟩ <| .cons ⟨late rfl ⟨nofun, nofun⟩, rfl⟩ <|
    .cons ⟨late rfl ⟨nofun, nofun⟩, rfl⟩ <| .cons ⟨other nofun, rfl⟩ .nil
  exact ⟨_, run, rfl, late_quit_not_lost ⟨_, _, rfl, run⟩⟩

/-- A `quit()` before them is forgotten, and the loop thread goes to sleep. -/
theorem early_quit_lost : ¬ ∀ owner starter (s : LoopThread Nat), owner ≠ starter →
    (threadSystem Nat owner starter).Reachable s → ¬ QuitLost s := by
  intro kept
  have early : (threadSystem Nat 2 1).Run {} (untilReturned ++ quitCall ++ intoLoop ++ testQuit)
      ((StepSystem.play (LoopThread.step 2 1) {}
        (untilReturned ++ quitCall ++ intoLoop ++ testQuit)).getD {}) :=
    .of_play (fun _ _ _ stepped => stepped) rfl
  exact kept 2 1 _ (by decide) ⟨_, _, rfl, early⟩ ⟨rfl, rfl, rfl, rfl⟩

end MiniMuduo.LoopStartup
