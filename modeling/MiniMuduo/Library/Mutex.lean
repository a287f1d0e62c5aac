import Mathlib.Logic.Function.Basic

/-! A value behind a mutex. A thread that changes it locks, loads what is there, stores what
it makes of that, and unlocks. What the value is and what a thread makes of it is left open;
what the mutex gives is that a thread stores over the very value that it has loaded. -/

universe u v

namespace Mutex

/-- Where a thread stands in a section that the mutex guards. -/
inductive Stage (Value : Type v) where
  | outside
  | locked
  | loaded (seen : Value)
  | stored
  deriving DecidableEq, Repr

/-- The mutex, with where every thread stands. -/
structure Guard (Thread : Type u) (Value : Type v) where
  holder : Option Thread := none
  stage : Thread → Stage Value := fun _ => .outside

variable {Thread : Type u} {Value : Type v}

/-- The threads in a section are the holder of the mutex, and what it has loaded is what is
still there. -/
structure Exclusive (g : Guard Thread Value) (value : Value) : Prop where
  holder : ∀ t, g.stage t ≠ .outside ↔ g.holder = some t
  current : ∀ t seen, g.stage t = .loaded seen → seen = value

theorem Exclusive.fresh (value : Value) : Exclusive ({} : Guard Thread Value) value :=
  ⟨fun _ => ⟨fun inside => absurd rfl inside, nofun⟩, nofun⟩

variable {g next : Guard Thread Value} {t u : Thread} {value later seen : Value}

/-- There is never more than one thread in a section. -/
theorem Exclusive.alone (exclusive : Exclusive g value) (here : g.stage t ≠ .outside)
    (there : g.stage u ≠ .outside) : t = u :=
  Option.some.inj
    (((exclusive.holder t).mp here).symm.trans ((exclusive.holder u).mp there))

theorem Exclusive.others_outside (exclusive : Exclusive g value) (here : g.stage t ≠ .outside)
    (other : u ≠ t) : g.stage u = .outside := by
  by_contra there
  exact other (exclusive.alone there here)

variable [DecidableEq Thread]

namespace Guard

/-- The thread comes to a stage. -/
def put (g : Guard Thread Value) (t : Thread) (stage : Stage Value) : Guard Thread Value :=
  { g with stage := Function.update g.stage t stage }

@[simp] theorem put_holder (g : Guard Thread Value) (t : Thread) (stage : Stage Value) :
    (g.put t stage).holder = g.holder := rfl

@[simp] theorem put_same (g : Guard Thread Value) (t : Thread) (stage : Stage Value) :
    (g.put t stage).stage t = stage :=
  Function.update_self ..

theorem put_other (other : u ≠ t) (stage : Stage Value) :
    (g.put t stage).stage u = g.stage u :=
  Function.update_of_ne other ..

/-- A thread without the mutex can take it when nobody has it. -/
def lock (g : Guard Thread Value) (t : Thread) : Option (Guard Thread Value) :=
  match g.holder, g.stage t with
  | none, .outside => some ({ g with holder := some t }.put t .locked)
  | _, _ => none

def load (g : Guard Thread Value) (t : Thread) (value : Value) : Option (Guard Thread Value) :=
  match g.stage t with
  | .locked => some (g.put t (.loaded value))
  | _ => none

/-- What the thread stores is made of the value that it has seen. -/
def store (g : Guard Thread Value) (t : Thread) : Option (Value × Guard Thread Value) :=
  match g.stage t with
  | .loaded seen => some (seen, g.put t .stored)
  | _ => none

def unlock (g : Guard Thread Value) (t : Thread) : Option (Guard Thread Value) :=
  match g.stage t with
  | .stored => some ({ g with holder := none }.put t .outside)
  | _ => none

theorem lock_eq (locked : g.lock t = some next) : g.holder = none ∧ g.stage t = .outside ∧
    next = { g with holder := some t }.put t .locked := by
  unfold lock at locked
  split at locked
  · rename_i free outside
    exact ⟨free, outside, (Option.some.inj locked).symm⟩
  · cases locked

theorem load_eq (loaded : g.load t value = some next) : g.stage t = .locked ∧
    next = g.put t (.loaded value) := by
  unfold load at loaded
  split at loaded
  · rename_i locked
    exact ⟨locked, (Option.some.inj loaded).symm⟩
  · cases loaded

theorem store_eq (stored : g.store t = some (seen, next)) : g.stage t = .loaded seen ∧
    next = g.put t .stored := by
  unfold store at stored
  split at stored
  · rename_i loaded
    cases stored
    exact ⟨loaded, rfl⟩
  · cases stored

theorem unlock_eq (unlocked : g.unlock t = some next) : g.stage t = .stored ∧
    next = { g with holder := none }.put t .outside := by
  unfold unlock at unlocked
  split at unlocked
  · rename_i stored
    exact ⟨stored, (Option.some.inj unlocked).symm⟩
  · cases unlocked

end Guard

namespace Exclusive

theorem lock (exclusive : Exclusive g value) (locked : g.lock t = some next) :
    Exclusive next value := by
  obtain ⟨free, _, rfl⟩ := Guard.lock_eq locked
  have nobody (u : Thread) : g.stage u = .outside := by
    by_contra inside
    cases free.symm.trans ((exclusive.holder u).mp inside)
  constructor
  · intro u
    by_cases here : u = t
    · simp [here]
    · simp [Guard.put_other here, nobody u, Ne.symm here]
  · intro u seen loaded
    by_cases here : u = t
    · simp [here] at loaded
    · simp [Guard.put_other here, nobody u] at loaded

/-- A thread in a section goes on inside it, with nothing loaded but the value. -/
theorem move (exclusive : Exclusive g value) (inside : g.stage t ≠ .outside)
    {stage : Stage Value} (stays : stage ≠ .outside)
    (fresh : ∀ seen, stage = .loaded seen → seen = later) :
    Exclusive (g.put t stage) later := by
  constructor
  · intro u
    by_cases here : u = t
    · subst here
      rw [Guard.put_same]
      exact iff_of_true stays ((exclusive.holder u).mp inside)
    · rw [Guard.put_other here]
      exact exclusive.holder u
  · intro u seen loaded
    by_cases here : u = t
    · subst here
      rw [Guard.put_same] at loaded
      exact fresh seen loaded
    · rw [Guard.put_other here, exclusive.others_outside inside here] at loaded
      cases loaded

theorem load (exclusive : Exclusive g value) (loaded : g.load t value = some next) :
    Exclusive next value := by
  obtain ⟨locked, rfl⟩ := Guard.load_eq loaded
  exact exclusive.move (by simp [locked]) nofun fun _ same => (Stage.loaded.inj same).symm

/-- The store is made from the value as it is, and may put any other in its place. -/
theorem store (exclusive : Exclusive g value) (stored : g.store t = some (seen, next))
    (later : Value) : seen = value ∧ Exclusive next later := by
  obtain ⟨loaded, rfl⟩ := Guard.store_eq stored
  exact ⟨exclusive.current t seen loaded, exclusive.move (by simp [loaded]) nofun nofun⟩

theorem unlock (exclusive : Exclusive g value) (unlocked : g.unlock t = some next) :
    Exclusive next value := by
  obtain ⟨stored, rfl⟩ := Guard.unlock_eq unlocked
  have inside : g.stage t ≠ .outside := by simp [stored]
  have nobody (u : Thread) : ({ g with holder := none }.put t .outside).stage u = .outside := by
    by_cases here : u = t
    · rw [here, Guard.put_same]
    · rw [Guard.put_other here, exclusive.others_outside inside here]
  constructor
  · exact fun u => iff_of_false (not_not.mpr (nobody u)) nofun
  · intro u seen loaded
    cases (nobody u).symm.trans loaded

end Exclusive

/-- Nobody has the mutex, and nobody is in a section. -/
structure Free (g : Guard Thread Value) : Prop where
  holder : g.holder = none
  outside : ∀ t, g.stage t = .outside

/-- A thread that finds the mutex free goes through its section, and leaves it free. -/
theorem Free.section_runs (free : Free g) (t : Thread) (value : Value) :
    ∃ locked loaded stored unlocked, g.lock t = some locked ∧
      locked.load t value = some loaded ∧ loaded.store t = some (value, stored) ∧
      stored.unlock t = some unlocked ∧ Free unlocked := by
  have locks : g.lock t = some ({ g with holder := some t }.put t .locked) := by
    simp [Guard.lock, free.holder, free.outside t]
  refine ⟨_, _, _, _, locks, by simp [Guard.load]; rfl, by simp [Guard.store]; rfl,
    by simp [Guard.unlock]; rfl, rfl, fun u => ?_⟩
  by_cases here : u = t
  · rw [here, Guard.put_same]
  · simp [Guard.put_other here, free.outside u]

end Mutex
