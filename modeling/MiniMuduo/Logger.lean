import MiniMuduo.EventLoop

/-! `logger.hpp` and `logger.cc`. A use of a macro is three steps of its thread: the level goes
into the one logger, the message is formatted, and `log` prints it with the level that the
logger has by then. The time in a line is left out, and so is `LOG_FATAL`, which ends the
process. -/
namespace MiniMuduo

inductive LogLevel where
  | INFO
  | ERROR
  | FATAL
  | DEBUG
  deriving DecidableEq, Repr

/-- The value of the enumerator. -/
def LogLevel.toInt : LogLevel → Int
  | .INFO => 0
  | .ERROR => 1
  | .FATAL => 2
  | .DEBUG => 3

/-- The macros that return. -/
inductive LogMacro where
  | info
  | error
  | debug
  deriving DecidableEq, Repr

/-- The level that the macro sets. -/
def LogMacro.level : LogMacro → LogLevel
  | .info => .INFO
  | .error => .ERROR
  | .debug => .DEBUG

/-- Where a thread stands in a use of a macro. The text is what the format and its arguments
make; `buf` is the local array. -/
inductive LogPc where
  | idle
  /-- In front of `logger.setLogLevel(...)`. -/
  | setLogLevel (origin : LogMacro) (text : List UInt8)
  /-- In front of the `snprintf`. -/
  | format (origin : LogMacro) (text : List UInt8)
  /-- In front of `logger.log(buf)`. -/
  | log (origin : LogMacro) (buf : List UInt8)
  deriving DecidableEq, Repr

/-- A printed line: the tag and the message, and, as history, the macro that issued it. -/
structure LogLine where
  origin : LogMacro
  tag : String
  msg : List UInt8
  deriving DecidableEq, Repr

/-- The logger, what it has printed, and where every thread stands. -/
structure LogState where
  logLevel : Int
  printed : List LogLine
  threads : Tid → LogPc

/-- A thread begins to use a macro, or takes its next step in one. -/
inductive LogAction where
  | use (thread : Tid) (origin : LogMacro) (text : List UInt8)
  | advance (thread : Tid)
  deriving DecidableEq, Repr

namespace Logger

/-- The `switch` in `Logger::log`. -/
def tag (logLevel : Int) : String :=
  if logLevel = LogLevel.INFO.toInt then "[INFO]"
  else if logLevel = LogLevel.ERROR.toInt then "[ERROR]"
  else if logLevel = LogLevel.FATAL.toInt then "[FATAL]"
  else if logLevel = LogLevel.DEBUG.toInt then "[DEBUG]"
  else ""

/-- `snprintf(buf, 1024, ...)`, up to the terminating zero. -/
def snprintf (text : List UInt8) : List UInt8 := text.take 1023

/-- The `std::string` made of `buf`, which ends at the first zero. -/
def message (buf : List UInt8) : List UInt8 := buf.takeWhile (· != 0)

def setThread (s : LogState) (t : Tid) (pc : LogPc) : LogState :=
  { s with threads := Function.update s.threads t pc }

@[simp] theorem setThread_same (s : LogState) (t : Tid) (pc : LogPc) :
    (setThread s t pc).threads t = pc := by
  simp [setThread]

theorem setThread_other {s : LogState} {t u : Tid} {pc : LogPc} (different : u ≠ t) :
    (setThread s t pc).threads u = s.threads u := by
  simp [setThread, different]

/-- The next step of a thread's use of a macro. -/
def advance (s : LogState) (t : Tid) : Option LogState :=
  match s.threads t with
  | .idle => none
  | .setLogLevel origin text =>
    some (setThread { s with logLevel := origin.level.toInt } t (.format origin text))
  | .format origin text => some (setThread s t (.log origin (snprintf text)))
  | .log origin buf =>
    let line : LogLine := ⟨origin, tag s.logLevel, message buf⟩
    some (setThread { s with printed := s.printed ++ [line] } t .idle)

/-- One atomic step. Without `MUDEBUG` a `LOG_DEBUG` is no code at all. -/
def step (mudebug : Bool) (s : LogState) : LogAction → Option LogState
  | .use t origin text =>
    match s.threads t with
    | .idle =>
      if origin = .debug ∧ mudebug = false then some s
      else some (setThread s t (.setLogLevel origin text))
    | _ => none
  | .advance t => advance s t

/-- Everything a step can be. -/
inductive Move : LogState → LogAction → LogState → Prop where
  | skip {s : LogState} {t : Tid} {origin : LogMacro} {text : List UInt8} :
      Move s (.use t origin text) s
  | begin {s : LogState} {t : Tid} {origin : LogMacro} {text : List UInt8} :
      s.threads t = .idle →
      Move s (.use t origin text) (setThread s t (.setLogLevel origin text))
  | setLogLevel {s : LogState} {t : Tid} {origin : LogMacro} {text : List UInt8} :
      s.threads t = .setLogLevel origin text → Move s (.advance t)
        (setThread { s with logLevel := origin.level.toInt } t (.format origin text))
  | format {s : LogState} {t : Tid} {origin : LogMacro} {text : List UInt8} :
      s.threads t = .format origin text →
      Move s (.advance t) (setThread s t (.log origin (snprintf text)))
  | log {s : LogState} {t : Tid} {origin : LogMacro} {buf : List UInt8} :
      s.threads t = .log origin buf → Move s (.advance t) (setThread { s with
        printed := s.printed ++ [⟨origin, tag s.logLevel, message buf⟩] } t .idle)

theorem step_move {mudebug : Bool} {s next : LogState} {action : LogAction}
    (stepped : step mudebug s action = some next) : Move s action next := by
  cases action with
  | use t origin text =>
    simp only [step] at stepped
    split at stepped
    · rename_i idle
      split at stepped
      · obtain rfl := Option.some.inj stepped
        exact .skip
      · obtain rfl := Option.some.inj stepped
        exact .begin idle
    · cases stepped
  | advance t =>
    simp only [step, advance] at stepped
    split at stepped
    · cases stepped
    · rename_i pc
      obtain rfl := Option.some.inj stepped
      exact .setLogLevel pc
    · rename_i pc
      obtain rfl := Option.some.inj stepped
      exact .format pc
    · rename_i pc
      obtain rfl := Option.some.inj stepped
      exact .log pc

end Logger

/-- Any threads, from a moment when none is inside a macro and nothing is printed. -/
def logSystem (mudebug : Bool) : StepSystem LogState LogAction where
  Start s := (∀ t, s.threads t = .idle) ∧ s.printed = []
  Step s action next := Logger.step mudebug s action = some next

end MiniMuduo
