import MiniMuduo.Library.StepSystem

/-! A first-in first-out queue of any kind of item, seen only through what is
put in at the back and what is taken from the front. -/

universe u v

namespace Fifo

variable {α : Type u}

inductive Event (α : Type u) where
  | enqueue (items : List α)
  | dequeue (items : List α)
  deriving DecidableEq, Repr

/-- Items go in at the back; only a prefix of the queue can be taken out. -/
inductive Step : List α → Event α → List α → Prop where
  | enqueue {queue items : List α} : Step queue (.enqueue items) (queue ++ items)
  | dequeue {items rest : List α} : Step (items ++ rest) (.dequeue items) rest

/-- The queue, starting out empty. -/
def system (α : Type u) : StepSystem (List α) (Event α) where
  Start queue := queue = []
  Step := Step

/-- Everything an event puts in. -/
def Event.putIn : Event α → List α
  | .enqueue items => items
  | .dequeue _ => []

/-- Everything an event takes out. -/
def Event.takenOut : Event α → List α
  | .enqueue _ => []
  | .dequeue items => items

def enqueued (events : List (Event α)) : List α := events.flatMap Event.putIn

def dequeued (events : List (Event α)) : List α := events.flatMap Event.takenOut

/-- No item is lost, invented, duplicated or reordered: what came out, followed
by what is still inside, is what was inside before followed by what went in. -/
theorem run_conserves {queue final : List α} {events : List (Event α)}
    (run : (system α).Run queue events final) :
    dequeued events ++ final = queue ++ enqueued events := by
  induction run with
  | nil => simp [dequeued, enqueued]
  | cons step _ ih =>
    cases step with
    | enqueue => simpa [dequeued, enqueued, Event.putIn, Event.takenOut] using ih
    | dequeue => simpa [dequeued, enqueued, Event.putIn, Event.takenOut] using ih

/-- The same of a system observed as a queue, where `put` and `taken` say what a
label of that system puts in and takes out. -/
theorem observed_run_conserves {Label : Type v} {observe : Label → List (Event α)}
    {put taken : Label → List α} {queue final : List α} {labels : List Label}
    (puts : ∀ label, enqueued (observe label) = put label)
    (takes : ∀ label, dequeued (observe label) = taken label)
    (run : (system α).Run queue (labels.flatMap observe) final) :
    labels.flatMap taken ++ final = queue ++ labels.flatMap put := by
  obtain rfl : (fun label => enqueued (observe label)) = put := funext puts
  obtain rfl : (fun label => dequeued (observe label)) = taken := funext takes
  simpa only [enqueued, dequeued, List.flatMap_assoc] using run_conserves run

end Fifo
