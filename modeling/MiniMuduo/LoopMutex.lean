import MiniMuduo.Library.Mutex
import MiniMuduo.LoopExit

/-! `pendingFunctors_` behind `mutex_`, one access at a time. `queueInLoop` locks, reads the
vector, writes it back with one functor more and unlocks; `doPendingFunctors` does the same
with an empty one. Any other step of any thread may come in between. The loop with its two
sections as single steps has the same runs. -/
namespace MiniMuduo.LoopMutex
open EventLoop LoopFunctors LoopExit Mutex

variable {Functor : Type}

/-- The loop, with `mutex_` and where every thread stands in a section under it. -/
structure GuardedLoop (Functor : Type) where
  loop : EventLoop Functor := {}
  mutex : Guard Tid (List Functor) := {}

/-- A step of a section, or one from outside of them. -/
inductive GuardedAction (Functor : Type) where
  | lock (thread : Tid)
  | load (thread : Tid)
  /-- The write of `pendingFunctors_.emplace_back(cb)`. -/
  | emplaceBack (thread : Tid)
  /-- The write of `functors.swap(pendingFunctors_)`. -/
  | swap
  | unlock (thread : Tid)
  | elsewhere (action : LoopAction Functor)
  deriving DecidableEq, Repr

/-- The thread is in front of one of the sections, or in it before the write. -/
def atSection (owner : Tid) (s : EventLoop Functor) (t : Tid) : Bool :=
  match s.calls t, s.pc with
  | .push _, _ => true
  | .idle, .swap => t == owner
  | _, _ => false

/-- The step is a whole section. -/
def isSection (s : EventLoop Functor) : LoopAction Functor → Bool
  | .advance t =>
    match s.calls t with
    | .push _ => true
    | _ => false
  | .loop =>
    match s.pc with
    | .swap => true
    | _ => false
  | _ => false

/-- Who takes the step. -/
def actor (owner : Tid) : LoopAction Functor → Tid
  | .call t _ | .advance t => t
  | .enterLoop | .loop | .handleRead => owner

/-- Who takes a step of the loop with single accesses. -/
def mover (owner : Tid) : GuardedAction Functor → Tid
  | .lock t | .load t | .emplaceBack t | .unlock t => t
  | .swap => owner
  | .elsewhere action => actor owner action

@[simp] theorem mover_load (owner t : Tid) : mover owner (.load t : GuardedAction Functor) = t :=
  rfl

@[simp] theorem mover_unlock (owner t : Tid) :
    mover owner (.unlock t : GuardedAction Functor) = t := rfl

namespace GuardedLoop

/-- What the two writes leave is made of what the thread has read. -/
def step (owner : Tid) (s : GuardedLoop Functor) :
    GuardedAction Functor → Option (GuardedLoop Functor)
  | .lock t =>
    if atSection owner s.loop t then
      (s.mutex.lock t).map fun mutex => { s with mutex := mutex }
    else none
  | .load t =>
    (s.mutex.load t s.loop.pendingFunctors).map fun mutex => { s with mutex := mutex }
  | .emplaceBack t =>
    match s.loop.calls t with
    | .push functor => (s.mutex.store t).map fun (seen, mutex) =>
      ⟨{ s.loop with
          pendingFunctors := seen ++ [functor]
          pushed := s.loop.pushed ++ [functor] }.setCall t .queueTest, mutex⟩
    | _ => none
  | .swap =>
    match s.loop.calls owner, s.loop.pc with
    | .idle, .swap => (s.mutex.store owner).map fun (seen, mutex) =>
      ⟨{ s.loop with pendingFunctors := [], pc := .functors seen }, mutex⟩
    | _, _ => none
  | .unlock t => (s.mutex.unlock t).map fun mutex => { s with mutex := mutex }
  | .elsewhere action =>
    match s.mutex.stage (actor owner action) with
    | .outside =>
      if isSection s.loop action then none
      else (s.loop.step owner action).map fun loop => { s with loop := loop }
    | _ => none

end GuardedLoop

/-- A loop owned by one thread and used by all, with the accesses to its queue apart. -/
def guardedSystem (Functor : Type) (owner : Tid) :
    StepSystem (GuardedLoop Functor) (GuardedAction Functor) where
  Start s := s = {}
  Step s action next := s.step owner action = some next

/-- What a step looks like where a section is one step: its write is the section. -/
def observe : GuardedAction Functor → List (LoopAction Functor)
  | .emplaceBack t => [.advance t]
  | .swap => [.loop]
  | .elsewhere action => [action]
  | .lock _ | .load _ | .unlock _ => []

/-- Everything a step can be: what it needs and what it leaves. -/
inductive Move (owner : Tid) :
    GuardedLoop Functor → GuardedAction Functor → GuardedLoop Functor → Prop where
  | lock {s : GuardedLoop Functor} {t : Tid} {mutex : Guard Tid (List Functor)} :
      atSection owner s.loop t = true → s.mutex.lock t = some mutex →
      Move owner s (.lock t) { s with mutex := mutex }
  | load {s : GuardedLoop Functor} {t : Tid} {mutex : Guard Tid (List Functor)} :
      s.mutex.load t s.loop.pendingFunctors = some mutex →
      Move owner s (.load t) { s with mutex := mutex }
  | emplaceBack {s : GuardedLoop Functor} {t : Tid} {functor : Functor} {seen : List Functor}
      {mutex : Guard Tid (List Functor)} :
      s.loop.calls t = .push functor → s.mutex.store t = some (seen, mutex) →
      Move owner s (.emplaceBack t) ⟨{ s.loop with
        pendingFunctors := seen ++ [functor]
        pushed := s.loop.pushed ++ [functor] }.setCall t .queueTest, mutex⟩
  | swap {s : GuardedLoop Functor} {seen : List Functor} {mutex : Guard Tid (List Functor)} :
      s.loop.calls owner = .idle → s.loop.pc = .swap → s.mutex.store owner = some (seen, mutex) →
      Move owner s .swap ⟨{ s.loop with pendingFunctors := [], pc := .functors seen }, mutex⟩
  | unlock {s : GuardedLoop Functor} {t : Tid} {mutex : Guard Tid (List Functor)} :
      s.mutex.unlock t = some mutex → Move owner s (.unlock t) { s with mutex := mutex }
  | elsewhere {s : GuardedLoop Functor} {action : LoopAction Functor}
      {loop : EventLoop Functor} :
      s.mutex.stage (actor owner action) = .outside → isSection s.loop action = false →
      s.loop.step owner action = some loop →
      Move owner s (.elsewhere action) { s with loop := loop }

variable {owner t u : Tid} {s next : GuardedLoop Functor} {loop after : EventLoop Functor}
variable {action : LoopAction Functor} {move : GuardedAction Functor}

theorem step_move (stepped : s.step owner move = some next) : Move owner s move next := by
  cases move with
  | lock t =>
    simp only [GuardedLoop.step] at stepped
    split at stepped
    · rename_i here
      obtain ⟨mutex, locked, rfl⟩ := Option.map_eq_some_iff.mp stepped
      exact .lock here locked
    · cases stepped
  | load t =>
    obtain ⟨mutex, loaded, rfl⟩ := Option.map_eq_some_iff.mp stepped
    exact .load loaded
  | emplaceBack t =>
    simp only [GuardedLoop.step] at stepped
    split at stepped
    · rename_i functor pc
      obtain ⟨⟨seen, mutex⟩, stored, rfl⟩ := Option.map_eq_some_iff.mp stepped
      exact .emplaceBack pc stored
    · cases stepped
  | swap =>
    simp only [GuardedLoop.step] at stepped
    split at stepped
    · rename_i idle pc
      obtain ⟨⟨seen, mutex⟩, stored, rfl⟩ := Option.map_eq_some_iff.mp stepped
      exact .swap idle pc stored
    · cases stepped
  | unlock t =>
    obtain ⟨mutex, unlocked, rfl⟩ := Option.map_eq_some_iff.mp stepped
    exact .unlock unlocked
  | elsewhere action =>
    simp only [GuardedLoop.step] at stepped
    split at stepped
    · rename_i outside
      split at stepped
      · cases stepped
      · rename_i single
        obtain ⟨loop, ran, rfl⟩ := Option.map_eq_some_iff.mp stepped
        exact .elsewhere outside (Bool.not_eq_true _ ▸ single) ran
    · cases stepped

theorem move_step (step : Move owner s move next) : s.step owner move = some next := by
  cases step with
  | lock here locked => simp [GuardedLoop.step, here, locked]
  | load loaded => simp [GuardedLoop.step, loaded]
  | emplaceBack pc stored => simp only [GuardedLoop.step, pc, stored, Option.map_some]
  | swap idle pc stored => simp only [GuardedLoop.step, idle, pc, stored, Option.map_some]
  | unlock unlocked => simp [GuardedLoop.step, unlocked]
  | elsewhere outside single ran =>
    simp only [GuardedLoop.step, outside, single, ran, Option.map_some]
    rfl

/-! ### The accesses make up the sections -/

/-- Only the sections touch the queue. -/
theorem pending_kept (transition : Transition owner loop action after)
    (elsewhere : isSection loop action = false) :
    after.pendingFunctors = loop.pendingFunctors := by
  cases transition with
  | call request _ _ =>
    obtain ⟨calls, begun⟩ := beginCall_eq owner loop _ request
    rw [begun]
  | push pc => simp [isSection, pc] at elsewhere
  | swap _ pc => simp [isSection, pc] at elsewhere
  | wakeup _ =>
    obtain ⟨counter, errors, _, written⟩ := wakeup_eq loop
    rw [written]
    rfl
  | handleRead _ _ =>
    obtain ⟨errors, drained⟩ := handleRead_eq loop
    rw [drained]
  | _ => rfl

/-- Another thread does not move the loop thread in `loop()`. -/
theorem pc_kept (transition : Transition owner loop action after)
    (other : actor owner action ≠ owner) : after.pc = loop.pc := by
  cases transition with
  | call request _ _ =>
    obtain ⟨calls, begun⟩ := beginCall_eq owner loop _ request
    rw [begun]
  | push | queueTestWakes | queueTestSkips | storeQuit | quitTestWakes | quitTestSkips => rfl
  | wakeup _ =>
    obtain ⟨counter, errors, _, written⟩ := wakeup_eq loop
    rw [written]
    rfl
  | _ => exact absurd rfl other

theorem atSection_iff : atSection owner loop t = true ↔
    (∃ functor, loop.calls t = .push functor) ∨
      loop.calls t = .idle ∧ loop.pc = .swap ∧ t = owner := by
  unfold atSection
  split
  · rename_i pc
    simp [pc]
  · rename_i idle pc
    simp [idle, pc]
  · rename_i noPush noSwap
    constructor
    · nofun
    · rintro (⟨functor, pc⟩ | ⟨idle, pc, _⟩)
      · exact absurd pc (noPush functor)
      · exact absurd pc (noSwap idle)

/-- A thread in front of a section stays there while the others move. -/
theorem atSection_kept (transition : Transition owner loop action after)
    (other : actor owner action ≠ t) (here : atSection owner loop t = true) :
    atSection owner after t = true := by
  have calls : after.calls t = loop.calls t := by
    refine calls_kept transition ?_ ?_
    · rintro request rfl
      exact other rfl
    · rintro rfl
      exact other rfl
  rw [atSection_iff] at here ⊢
  rw [calls]
  rcases here with push | ⟨idle, pc, rfl⟩
  · exact Or.inl push
  · exact Or.inr ⟨idle, (pc_kept transition other).trans pc, rfl⟩

/-- The mutex keeps its promise, and whoever is about to write stands where the write is. -/
structure Guarded (owner : Tid) (s : GuardedLoop Functor) : Prop where
  exclusive : Exclusive s.mutex s.loop.pendingFunctors
  placed : ∀ t, s.mutex.stage t ≠ .outside → s.mutex.stage t ≠ .stored →
    atSection owner s.loop t = true

/-- There is only the holder to look at. -/
private theorem guarded_of_holder {mutex : Guard Tid (List Functor)}
    (exclusive : Exclusive mutex after.pendingFunctors) (inside : mutex.stage t ≠ .outside)
    (here : mutex.stage t = .stored ∨ atSection owner after t = true) :
    Guarded owner ⟨after, mutex⟩ where
  exclusive := exclusive
  placed := by
    intro u there unwritten
    obtain rfl := exclusive.alone inside there
    exact here.resolve_left unwritten

theorem guarded_step (guarded : Guarded owner s) (step : Move owner s move next) :
    Guarded owner next := by
  have exclusive := guarded.exclusive
  cases step with
  | @lock t mutex here locked =>
    refine guarded_of_holder (exclusive.lock locked) ?_ (Or.inr here)
    obtain ⟨_, _, rfl⟩ := Guard.lock_eq locked
    simp
  | @load t mutex loaded =>
    have kept := exclusive.load loaded
    obtain ⟨locked, rfl⟩ := Guard.load_eq loaded
    have here := guarded.placed t (by simp [locked]) (by simp [locked])
    exact guarded_of_holder kept (by simp) (Or.inr here)
  | @emplaceBack t functor seen mutex pc stored =>
    have kept := (exclusive.store stored (seen ++ [functor])).2
    obtain ⟨_, rfl⟩ := Guard.store_eq stored
    exact guarded_of_holder (t := t) kept (by simp) (Or.inl (by simp))
  | swap idle pc stored =>
    have kept := (exclusive.store stored []).2
    obtain ⟨_, rfl⟩ := Guard.store_eq stored
    exact guarded_of_holder (t := owner) kept (by simp) (Or.inl (by simp))
  | @unlock t mutex unlocked =>
    have kept := exclusive.unlock unlocked
    obtain ⟨_, rfl⟩ := Guard.unlock_eq unlocked
    refine ⟨kept, fun u inside _ => ?_⟩
    cases (kept.holder u).mp inside
  | elsewhere outside single ran =>
    have transition := step_transition ran
    refine ⟨by rwa [pending_kept transition single], fun u inside unwritten => ?_⟩
    refine atSection_kept transition ?_ (guarded.placed u inside unwritten)
    rintro rfl
    exact inside outside

theorem guarded_start : Guarded owner ({} : GuardedLoop Functor) :=
  ⟨.fresh _, fun _ inside => absurd rfl inside⟩

theorem reachable_guarded (reached : (guardedSystem Functor owner).Reachable s) :
    Guarded owner s := by
  refine reached.invariant ?_ fun _ _ _ guarded step => guarded_step guarded (step_move step)
  rintro _ rfl
  exact guarded_start

/-! ### The same loop -/

/-- The write of a section is the section. -/
theorem observed_step (guarded : Guarded owner s) (step : Move owner s move next) :
    (loopSystem Functor owner).Run s.loop (observe move) next.loop := by
  cases step with
  | lock | load | unlock => exact .nil
  | emplaceBack pc stored =>
    obtain ⟨rfl, _⟩ := guarded.exclusive.store stored []
    refine .cons ?_ .nil
    simp [loopSystem, EventLoop.step, advance, pc]
  | swap idle pc stored =>
    obtain ⟨rfl, _⟩ := guarded.exclusive.store stored []
    refine .cons ?_ .nil
    simp [loopSystem, EventLoop.step, loopStep, idle, pc, CallPc.isIdle]
  | elsewhere _ _ ran => exact .cons ran .nil

theorem guarded_simulates_loop (Functor : Type) (owner : Tid) :
    (guardedSystem Functor owner).Simulates (loopSystem Functor owner) observe
      (fun s loop => Guarded owner s ∧ s.loop = loop) where
  step := by
    rintro s move next _ ⟨guarded, rfl⟩ step
    have step := step_move step
    exact ⟨next.loop, observed_step guarded step, guarded_step guarded step, rfl⟩

theorem reached_above (reached : (guardedSystem Functor owner).Reachable s) :
    (loopSystem Functor owner).Reachable s.loop := by
  obtain ⟨_, moves, rfl, run⟩ := reached
  obtain ⟨_, above, _, rfl⟩ :=
    (guarded_simulates_loop Functor owner).run ⟨guarded_start, rfl⟩ run
  exact ⟨{}, _, rfl, above⟩

/-- A section runs through its accesses if nobody is in one. -/
theorem section_runs {mutex : Guard Tid (List Functor)} (free : Free mutex)
    (transition : Transition owner loop action after) (whole : isSection loop action = true) :
    ∃ moves unlocked, (guardedSystem Functor owner).Run ⟨loop, mutex⟩ moves ⟨after, unlocked⟩ ∧
      Free unlocked := by
  cases transition with
  | @push t functor pc =>
    obtain ⟨_, _, stored, unlocked, locks, loads, stores, unlocks, freed⟩ :=
      free.section_runs t loop.pendingFunctors
    have here : atSection owner loop t = true := atSection_iff.mpr (Or.inl ⟨functor, pc⟩)
    exact ⟨_, unlocked, .cons (move_step (.lock here locks)) <| .cons (move_step (.load loads)) <|
      .cons (move_step (.emplaceBack pc stores)) <| .cons (move_step (.unlock unlocks)) .nil, freed⟩
  | swap idle pc =>
    obtain ⟨_, _, stored, unlocked, locks, loads, stores, unlocks, freed⟩ :=
      free.section_runs owner loop.pendingFunctors
    have here : atSection owner loop owner = true := atSection_iff.mpr (Or.inr ⟨idle, pc, rfl⟩)
    exact ⟨_, unlocked, .cons (move_step (.lock here locks)) <| .cons (move_step (.load loads)) <|
      .cons (move_step (.swap idle pc stores)) <| .cons (move_step (.unlock unlocks)) .nil, freed⟩
  | queueTestWakes pc _ | queueTestSkips pc | storeQuit pc | quitTestWakes pc _
  | quitTestSkips pc | wakeup pc => simp [isSection, pc] at whole
  | setLooping _ pc | resetQuit _ pc | stop _ pc _ | poll _ pc _ | pollReturns _ pc
  | dispatched _ pc | setCalling _ pc | callFunctor _ pc | functorReturns _ pc
  | clearCalling _ pc | clearLooping _ pc => simp [isSection, pc] at whole
  | call | enterLoop | handleRead => cases whole

/-- The loop is as it is, and nobody is in a section. -/
def Rests (loop : EventLoop Functor) (s : GuardedLoop Functor) : Prop :=
  s.loop = loop ∧ Free s.mutex

/-- Every state of the loop with whole sections is one of the loop with single accesses. -/
theorem loop_runs_guarded (reached : (loopSystem Functor owner).Reachable loop) :
    ∃ s, (guardedSystem Functor owner).Reachable s ∧ Rests loop s := by
  refine reached.simulated ?_ ?_
  · rintro _ rfl
    exact ⟨{}, rfl, rfl, rfl, fun _ => rfl⟩
  · rintro _ action after ⟨loop, mutex⟩ _ ⟨rfl, free⟩ ran
    by_cases whole : isSection loop action = true
    · obtain ⟨moves, unlocked, run, freed⟩ := section_runs free (step_transition ran) whole
      exact ⟨moves, _, run, rfl, freed⟩
    · have step : Move owner ⟨loop, mutex⟩ (.elsewhere action) ⟨after, mutex⟩ :=
        .elsewhere (free.outside _) (Bool.not_eq_true _ ▸ whole) ran
      exact ⟨_, _, .cons (move_step step) .nil, rfl, free⟩

/-! ### Nobody waits for ever -/

theorem stored_releases (owner : Tid) (stored : s.mutex.stage t = .stored) : ∃ next,
    (guardedSystem Functor owner).Step s (.unlock t) next ∧ next.mutex.holder = none := by
  have unlocks : s.mutex.unlock t = some ({ s.mutex with holder := none }.put t .outside) := by
    simp [Guard.unlock, stored]
  exact ⟨_, move_step (.unlock unlocks), rfl⟩

theorem loaded_stores {seen : List Functor} (guarded : Guarded owner s)
    (loaded : s.mutex.stage t = .loaded seen) : ∃ move next,
    (guardedSystem Functor owner).Step s move next ∧ mover owner move = t ∧
      next.mutex.stage t = .stored := by
  have stores : s.mutex.store t = some (seen, s.mutex.put t .stored) := by
    simp [Guard.store, loaded]
  rcases atSection_iff.mp (guarded.placed t (by simp [loaded]) (by simp [loaded])) with
    ⟨functor, pc⟩ | ⟨idle, pc, rfl⟩
  · exact ⟨_, _, move_step (.emplaceBack pc stores), rfl, Guard.put_same ..⟩
  · exact ⟨_, _, move_step (.swap idle pc stores), rfl, Guard.put_same ..⟩

theorem locked_loads (owner : Tid) (locked : s.mutex.stage t = .locked) : ∃ next,
    (guardedSystem Functor owner).Step s (.load t) next ∧
      next.mutex.stage t = .loaded s.loop.pendingFunctors := by
  have loads : s.mutex.load t s.loop.pendingFunctors =
      some (s.mutex.put t (.loaded s.loop.pendingFunctors)) := by
    simp [Guard.load, locked]
  exact ⟨_, move_step (.load loads), Guard.put_same ..⟩

/-- A thread gives the mutex back, in at most three steps and by nobody's steps but its own. -/
def Releases (owner t : Tid) (s : GuardedLoop Functor) : Prop :=
  ∃ moves next, (guardedSystem Functor owner).Run s moves next ∧ moves.length ≤ 3 ∧
    (∀ move ∈ moves, mover owner move = t) ∧ next.mutex.holder = none

/-- Whoever has the mutex needs nobody else to give it back. -/
theorem holder_releases (guarded : Guarded owner s) (holds : s.mutex.holder = some t) :
    Releases owner t s := by
  cases stage : s.mutex.stage t with
  | outside => exact absurd stage ((guarded.exclusive.holder t).mpr holds)
  | stored =>
    obtain ⟨next, unlocks, free⟩ := stored_releases owner stage
    exact ⟨_, next, .cons unlocks .nil, by simp, by simp, free⟩
  | loaded seen =>
    obtain ⟨move, middle, writes, own, stored⟩ := loaded_stores guarded stage
    obtain ⟨next, unlocks, free⟩ := stored_releases owner stored
    exact ⟨_, next, .cons writes (.cons unlocks .nil), by simp, by simp [own], free⟩
  | locked =>
    obtain ⟨first, loads, loaded⟩ := locked_loads owner stage
    obtain ⟨move, middle, writes, own, stored⟩ :=
      loaded_stores (guarded_step guarded (step_move loads)) loaded
    obtain ⟨next, unlocks, free⟩ := stored_releases owner stored
    exact ⟨_, next, .cons loads (.cons writes (.cons unlocks .nil)), by simp,
      by simp [own], free⟩

/-- With the accesses apart the loop gets exactly where it gets with whole sections. -/
theorem sections_are_atomic (owner : Tid) (loop : EventLoop Functor) :
    (loopSystem Functor owner).Reachable loop ↔
      ∃ s, (guardedSystem Functor owner).Reachable s ∧ s.loop = loop := by
  constructor
  · intro reached
    obtain ⟨s, led, same, _⟩ := loop_runs_guarded reached
    exact ⟨s, led, same⟩
  · rintro ⟨s, reached, rfl⟩
    exact reached_above reached

/-- At every point of every interleaving of the accesses, at most one thread is in a section,
it writes over what it has read, and it can leave without the others; so no functor is lost,
doubled or overtaken on its way. -/
theorem mutex_keeps_functors (reached : (guardedSystem Functor owner).Reachable s) :
    (∀ t u, s.mutex.stage t ≠ .outside → s.mutex.stage u ≠ .outside → t = u) ∧
      (∀ t seen, s.mutex.stage t = .loaded seen → seen = s.loop.pendingFunctors) ∧
      (∀ t, s.mutex.holder = some t → Releases owner t s) ∧ InOrder s.loop := by
  have guarded := reachable_guarded reached
  refine ⟨fun t u => guarded.exclusive.alone, guarded.exclusive.current,
    fun t => holder_releases guarded, ?_⟩
  exact reachable_inOrder (reached_above reached)

/-- Two threads queue a functor each; the second wants the mutex while the first has it. -/
def twoPushes : List (GuardedAction Nat) :=
  [.elsewhere (.call 2 (.queueInLoop 7)), .elsewhere (.call 3 (.queueInLoop 8)), .lock 2,
    .load 2, .emplaceBack 2, .unlock 2, .lock 3, .load 3]

theorem second_push_sees_first : ∃ s, (guardedSystem Nat 1).Run {} twoPushes s ∧
    s.mutex.stage 3 = .loaded [7] ∧ [7] = s.loop.pendingFunctors := by
  have run : (guardedSystem Nat 1).Run {} twoPushes
      ((StepSystem.play (GuardedLoop.step 1) {} twoPushes).getD {}) :=
    .of_play (fun _ _ _ stepped => stepped) rfl
  have kept := mutex_keeps_functors ⟨_, _, rfl, run⟩
  exact ⟨_, run, rfl, kept.2.1 3 [7] rfl⟩

end MiniMuduo.LoopMutex
