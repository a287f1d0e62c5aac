import MiniMuduo.Library.StepSystem

/-! First-in first-out queues in a row. Items go in at the first, are handed from
one to the next, and come out of the last. -/

universe u v

namespace Pipeline

variable {α : Type u}

inductive Event (α : Type u) where
  | put (items : List α)
  | pass (items : List α)
  | take (items : List α)
  deriving DecidableEq, Repr

/-- Items leave a queue at its front and join the next one at its back. -/
inductive Step : List (List α) → Event α → List (List α) → Prop where
  | put {queue items : List α} {rest : List (List α)} :
      Step (queue :: rest) (.put items) ((queue ++ items) :: rest)
  | pass {queue next items : List α} {before after : List (List α)} :
      Step (before ++ (items ++ queue) :: next :: after) (.pass items)
        (before ++ queue :: (next ++ items) :: after)
  | take {queue items : List α} {before : List (List α)} :
      Step (before ++ [items ++ queue]) (.take items) (before ++ [queue])

/-- So many queues, all of them empty at first. -/
def system (α : Type u) (stages : Nat) : StepSystem (List (List α)) (Event α) where
  Start queues := queues = List.replicate stages []
  Step := Step

def Event.putIn : Event α → List α
  | .put items => items
  | .pass _ | .take _ => []

def Event.takenOut : Event α → List α
  | .take items => items
  | .put _ | .pass _ => []

/-- What is inside, in the order in which it will come out. -/
def contents (queues : List (List α)) : List α := queues.reverse.flatten

/-- Handing items on does not move them past any other. -/
theorem step_conserves {queues next : List (List α)} {event : Event α}
    (step : Step queues event next) :
    event.takenOut ++ contents next = contents queues ++ event.putIn := by
  cases step <;> simp [contents, Event.takenOut, Event.putIn]

/-- What came out, followed by what is inside, is what was inside followed by what
went in, however the items were handed on. -/
theorem run_conserves {stages : Nat} {queues final : List (List α)} {events : List (Event α)}
    (run : (system α stages).Run queues events final) :
    events.flatMap Event.takenOut ++ contents final =
      contents queues ++ events.flatMap Event.putIn := by
  induction run with
  | nil => simp
  | @cons queues middle final event events step _ ih =>
    calc (event :: events).flatMap Event.takenOut ++ contents final
        = event.takenOut ++ (events.flatMap Event.takenOut ++ contents final) := by simp
      _ = (event.takenOut ++ contents middle) ++ events.flatMap Event.putIn := by
        rw [ih, List.append_assoc]
      _ = contents queues ++ (event :: events).flatMap Event.putIn := by
        rw [step_conserves step, List.append_assoc, List.flatMap_cons]

/-- The same of a system observed as queues in a row, where `put` and `taken` say what
a label of that system puts in and takes out. -/
theorem observed_run_conserves {Label : Type v} {observe : Label → List (Event α)}
    {put taken : Label → List α} {stages : Nat} {queues final : List (List α)}
    {labels : List Label} (puts : ∀ label, (observe label).flatMap Event.putIn = put label)
    (takes : ∀ label, (observe label).flatMap Event.takenOut = taken label)
    (run : (system α stages).Run queues (labels.flatMap observe) final) :
    labels.flatMap taken ++ contents final = contents queues ++ labels.flatMap put := by
  obtain rfl : (fun label => (observe label).flatMap Event.putIn) = put := funext puts
  obtain rfl : (fun label => (observe label).flatMap Event.takenOut) = taken := funext takes
  simpa only [List.flatMap_assoc] using run_conserves run

end Pipeline
