import Mathlib.Data.List.Basic

/-! Labelled step systems: runs, reachable states, invariants, runs whose steps
all meet a condition, and forward simulation. Nothing here knows what a state
or a label stands for. -/

universe u v w x

/-- How a system may start, and what one labelled step may do. -/
structure StepSystem (State : Type u) (Label : Type v) where
  Start : State → Prop
  Step : State → Label → State → Prop

namespace StepSystem

variable {State : Type u} {Label : Type v} {system : StepSystem State Label}
variable {s t r : State} {label : Label} {labels more : List Label}

/-- Finitely many steps in a row, with their labels in order. -/
inductive Run (system : StepSystem State Label) : State → List Label → State → Prop where
  | nil {s : State} : Run system s [] s
  | cons {s t r : State} {label : Label} {labels : List Label} :
      system.Step s label t → Run system t labels r → Run system s (label :: labels) r

/-- Reached by some run from some start state. -/
def Reachable (system : StepSystem State Label) (t : State) : Prop :=
  ∃ s labels, system.Start s ∧ system.Run s labels t

theorem Run.append (first : system.Run s labels t) (second : system.Run t more r) :
    system.Run s (labels ++ more) r := by
  induction first with
  | nil => exact second
  | cons step _ ih => exact .cons step (ih second)

theorem Run.snoc (run : system.Run s labels t) (step : system.Step t label r) :
    system.Run s (labels ++ [label]) r :=
  run.append (.cons step .nil)

/-- What every step preserves, every run preserves. -/
theorem Run.invariant {Holds : State → Prop}
    (preserved : ∀ s label t, Holds s → system.Step s label t → Holds t)
    (run : system.Run s labels t) (holds : Holds s) : Holds t := by
  induction run with
  | nil => exact holds
  | cons step _ ih => exact ih (preserved _ _ _ holds step)

theorem Reachable.start (start : system.Start s) : system.Reachable s :=
  ⟨s, [], start, .nil⟩

theorem Reachable.step (reached : system.Reachable s) (step : system.Step s label t) :
    system.Reachable t := by
  obtain ⟨first, labels, start, run⟩ := reached
  exact ⟨first, labels ++ [label], start, run.snoc step⟩

theorem Reachable.run (reached : system.Reachable s) (run : system.Run s labels t) :
    system.Reachable t := by
  obtain ⟨first, before, start, led⟩ := reached
  exact ⟨first, before ++ labels, start, led.append run⟩

/-- What holds initially and is preserved by every step holds of every
reachable state. -/
theorem Reachable.invariant {Holds : State → Prop}
    (starts : ∀ s, system.Start s → Holds s)
    (preserved : ∀ s label t, Holds s → system.Step s label t → Holds t)
    (reached : system.Reachable t) : Holds t := by
  obtain ⟨s, labels, start, run⟩ := reached
  exact run.invariant preserved (starts s start)

/-- Follow labels through a step function. -/
def play (step : State → Label → Option State) : State → List Label → Option State
  | s, [] => some s
  | s, label :: labels => (step s label).bind fun t => play step t labels

/-- What a step function plays is a run of any system that allows its steps. -/
theorem Run.of_play {step : State → Label → Option State}
    (allowed : ∀ s label t, step s label = some t → system.Step s label t)
    (played : play step s labels = some t) : system.Run s labels t := by
  induction labels generalizing s with
  | nil =>
    obtain rfl := Option.some.inj played
    exact .nil
  | cons label labels ih =>
    obtain ⟨r, stepped, rest⟩ := Option.bind_eq_some_iff.mp played
    exact .cons (allowed s label r stepped) (ih rest)

/-- The same for steps that may fail. -/
theorem Run.of_play_ok {Failure : Type w} {step : State → Label → Except Failure State}
    (allowed : ∀ s label t, step s label = .ok t → system.Step s label t)
    (played : play (fun s label => (step s label).toOption) s labels = some t) :
    system.Run s labels t := by
  refine .of_play ?_ played
  intro s label t stepped
  cases ran : step s label with
  | ok after =>
    rw [ran] at stepped
    obtain rfl := Option.some.inj stepped
    exact allowed s label after ran
  | error failure =>
    rw [ran] at stepped
    cases stepped

/-- The runs of a system whose every step meets a condition on the state before
it and on its label. -/
def restrict (system : StepSystem State Label) (Meets : State → Label → Prop) :
    StepSystem State Label where
  Start := system.Start
  Step s label t := Meets s label ∧ system.Step s label t

theorem Run.unrestricted {Meets : State → Label → Prop}
    (run : (system.restrict Meets).Run s labels t) : system.Run s labels t := by
  induction run with
  | nil => exact .nil
  | cons step _ ih => exact .cons step.2 ih

/-- What a step function plays that tests a condition before each step. -/
theorem Run.of_play_checked {step : State → Label → Option State} {Meets : State → Label → Prop}
    [∀ s label, Decidable (Meets s label)]
    (allowed : ∀ s label t, step s label = some t → system.Step s label t)
    (played : play (fun s label => if Meets s label then step s label else none) s labels =
      some t) : (system.restrict Meets).Run s labels t := by
  refine .of_play ?_ played
  intro s label t stepped
  obtain ⟨meets, stepped⟩ := Option.ite_none_right_eq_some.mp stepped
  exact ⟨meets, allowed s label t stepped⟩

/-- The run has a step that does not meet the condition. -/
def Breaks (system : StepSystem State Label) (Meets : State → Label → Prop)
    (s : State) (labels : List Label) (t : State) : Prop :=
  ∃ before label after r u, labels = before ++ label :: after ∧ system.Run s before r ∧
    ¬ Meets r label ∧ system.Step r label u ∧ system.Run u after t

/-- Either every step of a run meets a condition or some step does not. -/
theorem Run.restricted_or_breaks (Meets : State → Label → Prop)
    (run : system.Run s labels t) :
    (system.restrict Meets).Run s labels t ∨ system.Breaks Meets s labels t := by
  induction run with
  | nil => exact Or.inl .nil
  | @cons s u t label labels step rest ih =>
    by_cases meets : Meets s label
    · rcases ih with met | ⟨before, other, after, r, v, rfl, first, breaks, stepped, last⟩
      · exact Or.inl (.cons ⟨meets, step⟩ met)
      · exact Or.inr ⟨label :: before, other, after, r, v, rfl, .cons step first, breaks,
          stepped, last⟩
    · exact Or.inr ⟨[], label, labels, s, u, rfl, .nil, meets, step, rest⟩

variable {Other : Type w} {Event : Type x} {abstract : StepSystem Other Event}

/-- Every step of the system is some run of the abstract one, along a relation
on states. `observe` says what the step looks like from above; a step that
looks like nothing leaves the abstract state where it is. -/
structure Simulates (system : StepSystem State Label) (abstract : StepSystem Other Event)
    (observe : Label → List Event) (Related : State → Other → Prop) : Prop where
  step : ∀ {s label t above}, Related s above → system.Step s label t →
    ∃ next, abstract.Run above (observe label) next ∧ Related t next

/-- A simulation of single steps is a simulation of whole runs. -/
theorem Simulates.run {observe : Label → List Event} {Related : State → Other → Prop}
    {above : Other} (simulates : system.Simulates abstract observe Related)
    (related : Related s above) (run : system.Run s labels t) :
    ∃ next, abstract.Run above (labels.flatMap observe) next ∧ Related t next := by
  induction run generalizing above with
  | nil => exact ⟨above, .nil, related⟩
  | cons step _ ih =>
    obtain ⟨middle, first, held⟩ := simulates.step related step
    obtain ⟨next, second, final⟩ := ih held
    exact ⟨next, by simpa only [List.flatMap_cons] using first.append second, final⟩

/-- The same where the abstract system answers a step by as many steps of its own as it
takes, and the states that it answers can be assumed reachable. -/
theorem Run.simulated {Related : State → Other → Prop} {above : Other}
    (answered : ∀ s label t above, system.Reachable s → Related s above →
      system.Step s label t → ∃ events next, abstract.Run above events next ∧ Related t next)
    (run : system.Run s labels t) (reached : system.Reachable s) (related : Related s above) :
    ∃ events next, abstract.Run above events next ∧ Related t next := by
  induction run generalizing above with
  | nil => exact ⟨[], above, .nil, related⟩
  | cons step _ ih =>
    obtain ⟨first, middle, begun, held⟩ := answered _ _ _ above reached related step
    obtain ⟨second, next, rest, final⟩ := ih (reached.step step) held
    exact ⟨first ++ second, next, begun.append rest, final⟩

theorem Reachable.simulated {Related : State → Other → Prop}
    (started : ∀ s, system.Start s → ∃ above, abstract.Start above ∧ Related s above)
    (answered : ∀ s label t above, system.Reachable s → Related s above →
      system.Step s label t → ∃ events next, abstract.Run above events next ∧ Related t next)
    (reached : system.Reachable t) : ∃ above, abstract.Reachable above ∧ Related t above := by
  obtain ⟨first, labels, start, run⟩ := reached
  obtain ⟨above, begins, related⟩ := started first start
  obtain ⟨events, next, answer, held⟩ := run.simulated answered (.start start) related
  exact ⟨next, ⟨above, events, begins, answer⟩, held⟩

end StepSystem
