import Mathlib.Logic.Basic

/-! Pre- and postconditions of actions that change a state and may throw. What an
action throws leaves the state as it was when it threw, so the second postcondition
is about that state. An action without a state, in `Except`, is taken apart instead. -/

universe u v

/-- An action that returned made each of its steps. -/
theorem Except.bind_eq_ok {ε : Type u} {α β : Type v} {first : Except ε α}
    {next : α → Except ε β} {r : β} (ran : first >>= next = .ok r) :
    ∃ a, first = .ok a ∧ next a = .ok r := by
  cases first with
  | error e => cases ran
  | ok a => exact ⟨a, rfl, ran⟩

variable {ε σ α β : Type u}

/-- From a state in `pre` the action ends in `post`, or throws in `threw`. -/
def Triple (pre : σ → Prop) (action : EStateM ε σ α) (post : α → σ → Prop)
    (threw : σ → Prop) : Prop :=
  ∀ s, pre s → match action s with
    | .ok a t => post a t
    | .error _ t => threw t

namespace Triple

variable {pre narrow : σ → Prop} {action : EStateM ε σ α} {next : α → EStateM ε σ β}
variable {post wide : α → σ → Prop} {final : β → σ → Prop} {threw wideThrew : σ → Prop}

/-- One action after the other. -/
theorem seq (first : Triple pre action post threw)
    (rest : ∀ a, Triple (post a) (next a) final threw) :
    Triple pre (action >>= next) final threw := by
  intro s holds
  have reached := first s holds
  simp only [bind, EStateM.bind]
  cases ran : action s with
  | ok a t =>
    rw [ran] at reached
    exact rest a t reached
  | error e t =>
    rw [ran] at reached
    exact reached

/-- A weaker claim follows: from fewer states, into more. -/
theorem conseq (triple : Triple pre action post threw) (before : ∀ s, narrow s → pre s)
    (after : ∀ a s, post a s → wide a s) (thrown : ∀ s, threw s → wideThrew s) :
    Triple narrow action wide wideThrew := by
  intro s holds
  have reached := triple s (before s holds)
  split at reached
  · exact after _ _ reached
  · exact thrown _ reached

theorem strengthen (triple : Triple pre action post threw) (before : ∀ s, narrow s → pre s) :
    Triple narrow action post threw :=
  triple.conseq before (fun _ _ holds => holds) fun _ thrown => thrown

theorem either (left : Triple pre action post threw) (right : Triple narrow action post threw) :
    Triple (fun s => pre s ∨ narrow s) action post threw := by
  rintro s (holds | holds)
  · exact left s holds
  · exact right s holds

end Triple

/-- The same, where the second postcondition is also about what was thrown. -/
def ThrowTriple (pre : σ → Prop) (action : EStateM ε σ α) (post : α → σ → Prop)
    (threw : ε → σ → Prop) : Prop :=
  ∀ s, pre s → match action s with
    | .ok a t => post a t
    | .error e t => threw e t

namespace ThrowTriple

variable {pre : σ → Prop} {action : EStateM ε σ α} {next : α → EStateM ε σ β}
variable {post : α → σ → Prop} {final : β → σ → Prop} {threw : ε → σ → Prop}

theorem seq (first : ThrowTriple pre action post threw)
    (rest : ∀ a, ThrowTriple (post a) (next a) final threw) :
    ThrowTriple pre (action >>= next) final threw := by
  intro s holds
  have reached := first s holds
  simp only [bind, EStateM.bind]
  cases ran : action s with
  | ok a t =>
    rw [ran] at reached
    exact rest a t reached
  | error e t =>
    rw [ran] at reached
    exact reached

end ThrowTriple
