import MiniMuduo.Logger
import Mathlib.Data.List.Basic

/-! What `Logger::log` gives to `std::cout`, piece by piece: one `<<` is one write. Nothing
keeps the pieces of two threads apart, so that lines can be torn; but what each thread prints
is its own lines, whole and in order. -/
namespace MiniMuduo

/-- One `<<` of `Logger::log`; of the time it does not matter here which it is. -/
inductive LogPiece where
  | tag (text : String)
  | time
  | separator
  | msg (text : List UInt8)
  | endl
  deriving DecidableEq, Repr

/-- A level that the `switch` does not know has no tag. -/
def LogLine.pieces (line : LogLine) : List LogPiece :=
  (if line.tag = "" then [] else [.tag line.tag]) ++ [.time, .separator, .msg line.msg, .endl]

/-- The logger, where `printed` records for each line when `logLevel_` was read for it; whose
lines these are; what has been printed by whom; and what every thread still has to print of
the line that it is in. -/
structure PieceState where
  logger : LogState
  lines : List (Tid × LogLine)
  output : List (Tid × LogPiece)
  rest : Tid → List LogPiece

/-- What a thread does outside of `log`, the reading of `logLevel_` included, or the printing
of its next piece. -/
inductive PieceAction where
  | logger (action : LogAction)
  | print (thread : Tid)
  deriving DecidableEq, Repr

def LogAction.thread : LogAction → Tid
  | .use t _ _ | .advance t => t

namespace LogPieces
open Logger

/-- The line that a thread begins to print when it takes its next step. -/
def line (s : LogState) : LogAction → Option LogLine
  | .use _ _ _ => none
  | .advance t =>
    match s.threads t with
    | .log origin buf => some ⟨origin, tag s.logLevel, message buf⟩
    | .idle | .setLogLevel _ _ | .format _ _ => none

def step (mudebug : Bool) (s : PieceState) : PieceAction → Option PieceState
  | .logger action =>
    if s.rest action.thread = [] then
      (Logger.step mudebug s.logger action).map fun logger =>
        match line s.logger action with
        | none => { s with logger := logger }
        | some line => { s with
            logger := logger
            lines := s.lines ++ [(action.thread, line)]
            rest := Function.update s.rest action.thread line.pieces }
    else none
  | .print t =>
    match s.rest t with
    | [] => none
    | piece :: more => some { s with
        output := s.output ++ [(t, piece)]
        rest := Function.update s.rest t more }

/-- Any threads, from a moment when none is inside a macro and nothing is printed. -/
def pieceSystem (mudebug : Bool) : StepSystem PieceState PieceAction where
  Start s := (logSystem mudebug).Start s.logger ∧ s.lines = [] ∧ s.output = [] ∧
    s.rest = fun _ => []
  Step s action next := step mudebug s action = some next

variable {mudebug : Bool} {s next : PieceState} {action : PieceAction} {t : Tid}
variable {α : Type}

/-- What is a thread's own, in order. -/
def own (t : Tid) (items : List (Tid × α)) : List α :=
  items.filterMap fun item => if item.1 = t then some item.2 else none

@[simp] theorem own_append (t : Tid) (items more : List (Tid × α)) :
    own t (items ++ more) = own t items ++ own t more :=
  List.filterMap_append

@[simp] theorem own_same (t : Tid) (item : α) : own t [(t, item)] = [item] := by
  simp [own]

theorem own_other {u : Tid} (other : u ≠ t) (item : α) : own t [(u, item)] = [] := by
  simp [own, other]

/-- Without a line nothing is recorded, and with one this line. -/
theorem printed_of_line {after : LogState} {inner : LogAction}
    (stepped : Logger.step mudebug s.logger inner = some after) :
    after.printed = s.logger.printed ++ (line s.logger inner).toList := by
  cases step_move stepped with
  | skip | begin => simp [line, setThread]
  | setLogLevel pc | format pc | log pc => simp [line, pc, setThread]

/-- The lines are those of the logger, and each thread has printed its own, but for what it
still has to print of the last. -/
structure Printed (s : PieceState) : Prop where
  lines : s.lines.map Prod.snd = s.logger.printed
  own : ∀ t, own t s.output ++ s.rest t = (own t s.lines).flatMap LogLine.pieces

theorem printed_step (printed : Printed s)
    (step : (pieceSystem mudebug).Step s action next) : Printed next := by
  cases action with
  | logger inner =>
    simp only [pieceSystem, LogPieces.step] at step
    split at step
    · rename_i outside
      obtain ⟨logger, stepped, rfl⟩ := Option.map_eq_some_iff.mp step
      have recorded := printed_of_line stepped
      cases begun : line s.logger inner with
      | none =>
        rw [begun] at recorded
        exact ⟨by simpa [recorded] using printed.lines, printed.own⟩
      | some line =>
        rw [begun] at recorded
        refine ⟨by simp [recorded, printed.lines], fun t => ?_⟩
        have whole := printed.own t
        by_cases here : inner.thread = t
        · subst here
          rw [outside, List.append_nil] at whole
          simp [whole]
        · simp [own_other here, Function.update_of_ne (Ne.symm here), whole]
    · cases step
  | print u =>
    simp only [pieceSystem, LogPieces.step] at step
    split at step
    · cases step
    · rename_i piece more owed
      obtain rfl := Option.some.inj step
      refine ⟨printed.lines, fun t => ?_⟩
      have whole := printed.own t
      by_cases here : u = t
      · subst here
        simp [← whole, owed]
      · simp [own_other here, Function.update_of_ne (Ne.symm here), whole]

theorem printed_of_start (start : (pieceSystem mudebug).Start s) : Printed s := by
  obtain ⟨⟨_, unprinted⟩, lines, output, rest⟩ := start
  exact ⟨by simp [lines, unprinted], fun t => by simp [own, output, lines, rest]⟩

/-- The logger neither waits for the printing nor sees it. -/
theorem logger_step (step : (pieceSystem mudebug).Step s action next) :
    (∃ inner, (logSystem mudebug).Step s.logger inner next.logger) ∨
      next.logger = s.logger := by
  cases action with
  | logger inner =>
    simp only [pieceSystem, LogPieces.step] at step
    split at step
    · obtain ⟨logger, stepped, rfl⟩ := Option.map_eq_some_iff.mp step
      refine Or.inl ⟨inner, ?_⟩
      cases line s.logger inner <;> exact stepped
    · cases step
  | print u =>
    simp only [pieceSystem, LogPieces.step] at step
    split at step
    · cases step
    · obtain rfl := Option.some.inj step
      exact Or.inr rfl

/-- What a state of the pieces is for the logger, and for each thread that prints. -/
structure Prints (mudebug : Bool) (s : PieceState) : Prop extends Printed s where
  logger : (logSystem mudebug).Reachable s.logger

theorem reachable_prints (reached : (pieceSystem mudebug).Reachable s) : Prints mudebug s := by
  refine reached.invariant ?_ ?_
  · exact fun s start => ⟨printed_of_start start, .start start.1⟩
  · intro s action next prints step
    refine ⟨printed_step prints.toPrinted step, ?_⟩
    rcases logger_step step with ⟨inner, stepped⟩ | same
    · exact prints.logger.step stepped
    · exact same ▸ prints.logger

/-- However the threads take turns at the `<<`s of their lines: the lines are those of the
logger, and what a thread has printed is its own lines, piece after piece, up to where it
stands in the last. Between the pieces of one line there may be anything of the others. -/
theorem threads_print_whole_lines (reached : (pieceSystem mudebug).Reachable s) :
    (logSystem mudebug).Reachable s.logger ∧ s.lines.map Prod.snd = s.logger.printed ∧
      ∀ t, own t s.output ++ s.rest t = (own t s.lines).flatMap LogLine.pieces := by
  have prints := reachable_prints reached
  exact ⟨prints.logger, prints.lines, prints.own⟩

/-- Nothing is being printed. -/
def quietPieces : PieceState where
  logger := { logLevel := 0, printed := [], threads := fun _ => .idle }
  lines := []
  output := []
  rest _ := []

/-- Thread 1 logs an error and thread 2 an information; both read the level, and then they
print turn by turn. -/
def tornLines : List PieceAction :=
  [.logger (.use 1 .error [104]), .logger (.use 2 .info [111])] ++
    (List.replicate 3 [.logger (.advance 1), .logger (.advance 2)]).flatten ++
    (List.replicate 5 [.print 1, .print 2]).flatten

def torn : PieceState := (StepSystem.play (step false) quietPieces tornLines).getD quietPieces

theorem two_lines_torn :
    torn.output.map Prod.snd = [.tag "[INFO]", .tag "[INFO]", .time, .time, .separator, .separator,
      .msg [104], .msg [111], .endl, .endl] ∧
    own 2 torn.output ++ torn.rest 2 = (own 2 torn.lines).flatMap LogLine.pieces := by
  have run : (pieceSystem false).Run quietPieces tornLines torn :=
    .of_play (fun _ _ _ stepped => stepped) rfl
  have reached : (pieceSystem false).Reachable torn :=
    ⟨_, _, ⟨⟨fun _ => rfl, rfl⟩, rfl, rfl, rfl⟩, run⟩
  exact ⟨rfl, (threads_print_whole_lines reached).2.2 2⟩

end LogPieces
end MiniMuduo
