import MiniMuduo.Channel
import Mathlib.Data.List.Induction
import Mathlib.Tactic.Tauto

/-! The five calls that change a channel's interest, over whole histories. Reading
and writing are meant to be two switches; `disableWriting` keeps the write bit and
drops the read bit instead, and this module says exactly which histories show it. -/
namespace MiniMuduo.ChannelInterest
open Channel

inductive InterestCall where
  | enableReading
  | disableReading
  | enableWriting
  | disableWriting
  | disableAll
  deriving DecidableEq, Repr

def InterestCall.apply (c : Channel) : InterestCall → Channel
  | .enableReading => c.enableReading
  | .disableReading => c.disableReading
  | .enableWriting => c.enableWriting
  | .disableWriting => c.disableWriting
  | .disableAll => c.disableAll

/-- A fresh channel after these calls. -/
def after (fd : Fd) (calls : List InterestCall) : Channel :=
  calls.foldl InterestCall.apply { fd := fd }

/-- The calls that are meant to decide about reading. -/
def decidesReading : InterestCall → Bool
  | .enableReading | .disableReading | .disableAll => true
  | .enableWriting | .disableWriting => false

/-- The calls that are meant to decide about writing. -/
def decidesWriting : InterestCall → Bool
  | .enableWriting | .disableWriting | .disableAll => true
  | .enableReading | .disableReading => false

/-- The calls that do decide about writing. -/
def settlesWriting : InterestCall → Bool
  | .enableWriting | .disableAll => true
  | .enableReading | .disableReading | .disableWriting => false

/-- The last of the calls that decide is the one that enables. -/
def LastEnables (decides : InterestCall → Bool) (enable : InterestCall)
    (calls : List InterestCall) : Prop :=
  (calls.filter decides).getLast? = some enable

def ReadingWanted : List InterestCall → Prop := LastEnables decidesReading .enableReading

def WritingWanted : List InterestCall → Prop := LastEnables decidesWriting .enableWriting

/-- The three predicates of the channel say what its history asked for. -/
def Independent (fd : Fd) (calls : List InterestCall) : Prop :=
  ((after fd calls).isReading = true ↔ ReadingWanted calls) ∧
  ((after fd calls).isWriting = true ↔ WritingWanted calls) ∧
  ((after fd calls).isNoneEvent = true ↔
    (after fd calls).isReading = false ∧ (after fd calls).isWriting = false)

/-- Whether two calls, after these, may be exchanged. -/
def Commute (fd : Fd) (calls : List InterestCall) (first second : InterestCall) : Prop :=
  after fd (calls ++ [first, second]) = after fd (calls ++ [second, first])

def IsReadCall (call : InterestCall) : Prop :=
  call = .enableReading ∨ call = .disableReading

def IsWriteCall (call : InterestCall) : Prop :=
  call = .enableWriting ∨ call = .disableWriting

/-- Reading and writing are independent switches, whatever is called. -/
def IndependentSwitches : Prop :=
  ∀ fd calls, Independent fd calls ∧
    ∀ read write, IsReadCall read → IsWriteCall write → Commute fd calls read write

/-- The last of the calls that decide enables, and a `disableWriting` comes
after it. -/
def Spills (decides : InterestCall → Bool) (enable : InterestCall)
    (calls : List InterestCall) : Prop :=
  ∃ before rest, calls = before ++ .disableWriting :: rest ∧ LastEnables decides enable before ∧
    ∀ call ∈ rest, decides call = false

/-- A `disableWriting` after the `enableReading` that is to stand. -/
def SpillsReading : List InterestCall → Prop := Spills decidesReading .enableReading

/-- A `disableWriting` after an `enableWriting`, with no `enableWriting` and no
`disableAll` later on. -/
def SpillsWriting : List InterestCall → Prop := Spills settlesWriting .enableWriting

variable {fd : Fd} {calls : List InterestCall} {call : InterestCall}

@[simp] theorem after_snoc (fd : Fd) (calls : List InterestCall) (call : InterestCall) :
    after fd (calls ++ [call]) = call.apply (after fd calls) := by
  simp [after]

/-- The mask with reading on or off and writing on or off. -/
def switches (reading writing : Bool) : Mask :=
  (if reading then kReadEvent else 0) ||| (if writing then kWriteEvent else 0)

/-- What a call does to the read bits, and what it does to the write bit. -/
def readingNext (reading : Bool) : InterestCall → Bool
  | .enableReading => true
  | .disableReading | .disableWriting | .disableAll => false
  | .enableWriting => reading

def writingNext (writing : Bool) : InterestCall → Bool
  | .enableWriting => true
  | .disableAll => false
  | .enableReading | .disableReading | .disableWriting => writing

private theorem apply_switches {c : Channel} {reading writing : Bool}
    (now : c.events = switches reading writing) (call : InterestCall) :
    (call.apply c).events = switches (readingNext reading call) (writingNext writing call) := by
  cases call <;>
    simp only [InterestCall.apply, enableReading, disableReading, enableWriting, disableWriting,
      disableAll, now, readingNext, writingNext] <;>
    cases reading <;> cases writing <;> decide

private theorem isReading_switches {c : Channel} {reading writing : Bool}
    (now : c.events = switches reading writing) : c.isReading = reading := by
  rw [isReading, now]
  cases reading <;> cases writing <;> decide

private theorem isWriting_switches {c : Channel} {reading writing : Bool}
    (now : c.events = switches reading writing) : c.isWriting = writing := by
  rw [isWriting, now]
  cases reading <;> cases writing <;> decide

private theorem fresh_events (fd : Fd) : (after fd []).events = switches false false := by
  change (0 : Mask) = switches false false
  decide

/-- No history leaves anything in the mask but the two switches. -/
theorem after_events (fd : Fd) (calls : List InterestCall) :
    (after fd calls).events = switches (after fd calls).isReading (after fd calls).isWriting := by
  induction calls using List.reverseRecOn with
  | nil =>
    rw [isReading_switches (fresh_events fd), isWriting_switches (fresh_events fd), fresh_events]
  | append_singleton calls call ih =>
    have next := apply_switches ih call
    rw [after_snoc, isReading_switches next, isWriting_switches next, next]

theorem isReading_snoc : (after fd (calls ++ [call])).isReading =
    readingNext (after fd calls).isReading call := by
  rw [after_snoc]
  exact isReading_switches (apply_switches (after_events fd calls) call)

theorem isWriting_snoc : (after fd (calls ++ [call])).isWriting =
    writingNext (after fd calls).isWriting call := by
  rw [after_snoc]
  exact isWriting_switches (apply_switches (after_events fd calls) call)

theorem isNoneEvent_iff (fd : Fd) (calls : List InterestCall) :
    (after fd calls).isNoneEvent = true ↔
      (after fd calls).isReading = false ∧ (after fd calls).isWriting = false := by
  rw [isNoneEvent, after_events fd calls]
  cases (after fd calls).isReading <;> cases (after fd calls).isWriting <;> decide

/-! ### Histories in which a switch was spilled -/

variable {decides : InterestCall → Bool} {enable : InterestCall}

theorem lastEnables_snoc : LastEnables decides enable (calls ++ [call]) ↔
    if decides call then call = enable else LastEnables decides enable calls := by
  unfold LastEnables
  by_cases decided : decides call = true <;> simp [List.filter_append, decided]

/-- A spill is either made by the last call or left standing by it. -/
theorem spills_snoc : Spills decides enable (calls ++ [call]) ↔
    (call = .disableWriting ∧ LastEnables decides enable calls) ∨
      (decides call = false ∧ Spills decides enable calls) := by
  constructor
  · rintro ⟨before, rest, split, held, undecided⟩
    rcases List.eq_nil_or_concat rest with rfl | ⟨rest, last, rfl⟩
    · obtain ⟨rfl, same⟩ := List.append_inj' split rfl
      exact Or.inl ⟨List.singleton_inj.mp same, held⟩
    · rw [List.concat_eq_append, ← List.cons_append, ← List.append_assoc] at split
      obtain ⟨rfl, same⟩ := List.append_inj' split rfl
      obtain rfl := List.singleton_inj.mp same
      exact Or.inr ⟨undecided call (by simp),
        before, rest, rfl, held, fun other member => undecided other (by simp [member])⟩
  · rintro (⟨rfl, held⟩ | ⟨last, before, rest, rfl, held, undecided⟩)
    · exact ⟨calls, [], rfl, held, by simp⟩
    · refine ⟨before, rest ++ [call], by simp, held, ?_⟩
      intro other member
      rcases List.mem_append.mp member with member | member
      · exact undecided other member
      · exact List.mem_singleton.mp member ▸ last

/-- Only what is enabled can be spilled. -/
theorem spills_enabled (undecided : decides .disableWriting = false)
    (spills : Spills decides enable calls) : LastEnables decides enable calls := by
  obtain ⟨before, rest, rfl, held, others⟩ := spills
  have none : rest.filter decides = [] :=
    List.filter_eq_nil_iff.mpr fun call member => by simp [others call member]
  simpa [LastEnables, List.filter_append, undecided, none] using held

/-- Read interest is on when it was asked for and has not been spilled. -/
theorem isReading_iff (fd : Fd) (calls : List InterestCall) :
    (after fd calls).isReading = true ↔ ReadingWanted calls ∧ ¬ SpillsReading calls := by
  induction calls using List.reverseRecOn with
  | nil => simp [isReading_switches (fresh_events fd), ReadingWanted, LastEnables]
  | append_singleton calls call ih =>
    rw [isReading_snoc]
    unfold ReadingWanted SpillsReading at ih ⊢
    rw [lastEnables_snoc, spills_snoc]
    cases call with
    | enableReading => simp [readingNext, decidesReading]
    | disableReading => simp [readingNext, decidesReading]
    | enableWriting => simpa [readingNext, decidesReading] using ih
    | disableWriting =>
      -- The read bits go off here, and whatever was to stand is spilled.
      simp +contextual [readingNext, decidesReading]
    | disableAll => simp [readingNext, decidesReading]

/-- Write interest is on after the last `enableWriting` that no `disableAll`
follows. -/
theorem isWriting_iff (fd : Fd) (calls : List InterestCall) :
    (after fd calls).isWriting = true ↔ LastEnables settlesWriting .enableWriting calls := by
  induction calls using List.reverseRecOn with
  | nil => simp [isWriting_switches (fresh_events fd), LastEnables]
  | append_singleton calls call ih =>
    rw [isWriting_snoc, lastEnables_snoc]
    cases call <;> simp [writingNext, settlesWriting, ih]

/-- Write interest was asked for when it is on and has not been spilled. -/
theorem writingWanted_iff (calls : List InterestCall) : WritingWanted calls ↔
    LastEnables settlesWriting .enableWriting calls ∧ ¬ SpillsWriting calls := by
  induction calls using List.reverseRecOn with
  | nil => simp [WritingWanted, LastEnables]
  | append_singleton calls call ih =>
    unfold WritingWanted SpillsWriting at ih ⊢
    rw [lastEnables_snoc, lastEnables_snoc, spills_snoc]
    cases call with
    | enableReading => simpa [decidesWriting, settlesWriting] using ih
    | disableReading => simpa [decidesWriting, settlesWriting] using ih
    | enableWriting => simp [decidesWriting, settlesWriting]
    | disableWriting =>
      -- The write bit stays on here, and whatever was on is spilled.
      simp +contextual [decidesWriting, settlesWriting]
    | disableAll => simp [decidesWriting, settlesWriting]

theorem reading_agrees_iff (fd : Fd) (calls : List InterestCall) :
    ((after fd calls).isReading = true ↔ ReadingWanted calls) ↔ ¬ SpillsReading calls := by
  have enabled : SpillsReading calls → ReadingWanted calls := spills_enabled rfl
  rw [isReading_iff]
  tauto

theorem writing_agrees_iff (fd : Fd) (calls : List InterestCall) :
    ((after fd calls).isWriting = true ↔ WritingWanted calls) ↔ ¬ SpillsWriting calls := by
  have enabled : SpillsWriting calls → LastEnables settlesWriting .enableWriting calls :=
    spills_enabled rfl
  rw [isWriting_iff, writingWanted_iff]
  tauto

/-- Only `enableReading` and `disableWriting` cannot be exchanged: after the pair
reading is on in one order and off in the other. -/
theorem commute_iff {first second : InterestCall} (read : IsReadCall first)
    (write : IsWriteCall second) :
    Commute fd calls first second ↔ ¬ (first = .enableReading ∧ second = .disableWriting) := by
  have both (first second : InterestCall) :
      after fd (calls ++ [first, second]) = second.apply (first.apply (after fd calls)) := by
    simp [after]
  obtain ⟨reading, writing, now⟩ : ∃ reading writing,
      (after fd calls).events = switches reading writing := ⟨_, _, after_events fd calls⟩
  rw [Commute, both, both]
  generalize after fd calls = c at now
  rcases read with rfl | rfl <;> rcases write with rfl | rfl <;>
    simp only [InterestCall.apply, enableReading, disableReading, enableWriting, disableWriting,
      Channel.mk.injEq, now] <;>
    cases reading <;> cases writing <;> simp <;> decide

/-- A history leaves the two switches as asked for exactly when no
`disableWriting` in it comes after an enabling call that is to stand; two calls
commute exactly when they are not `enableReading` with `disableWriting`. -/
theorem independent_switches_iff (fd : Fd) (calls : List InterestCall) :
    (Independent fd calls ↔ ¬ SpillsReading calls ∧ ¬ SpillsWriting calls) ∧
      ∀ read write, IsReadCall read → IsWriteCall write →
        (Commute fd calls read write ↔ ¬ (read = .enableReading ∧ write = .disableWriting)) := by
  refine ⟨?_, fun _ _ => commute_iff⟩
  rw [Independent, reading_agrees_iff, writing_agrees_iff]
  exact and_congr_right' (and_iff_left (isNoneEvent_iff fd calls))

/-- `enableReading`, `enableWriting`, `disableWriting` leaves a channel that writes
and does not read. -/
theorem disableWriting_turns_reading_off : ¬ IndependentSwitches := by
  intro independent
  have reading := (independent 5 [.enableReading, .enableWriting, .disableWriting]).1.1
  exact absurd (reading.mpr rfl) (by decide)

end MiniMuduo.ChannelInterest
