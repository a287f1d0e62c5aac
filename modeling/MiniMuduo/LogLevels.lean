import MiniMuduo.Logger

/-! Whose level a line is printed with. The level does not travel with the message: it waits in
the logger, where any other thread's macro replaces it before `log` has read it. -/
namespace MiniMuduo.LogLevels
open Logger

variable {mudebug : Bool} {s next : LogState} {action : LogAction} {t u : Tid}
variable {origin other : LogMacro} {text buf : List UInt8} {pc : LogPc}

/-- Every printed line has the tag of the macro that issued it. -/
def OwnTags (s : LogState) : Prop :=
  ∀ line ∈ s.printed, line.tag = tag line.origin.level.toInt

/-- Log lines keep their own level. -/
def LinesKeepLevel : Prop :=
  ∀ (mudebug : Bool) (s : LogState), (logSystem mudebug).Reachable s → OwnTags s

/-- The macro of a thread that has set its level and has not logged yet. -/
def waiting : LogPc → Option LogMacro
  | .format origin _ | .log origin _ => some origin
  | .idle | .setLogLevel _ _ => none

/-- A level is set only while all other threads between `setLogLevel` and `log` are in uses
of the same macro. -/
def Undisturbing (s : LogState) (action : LogAction) : Prop :=
  ∀ t origin text, action = .advance t → s.threads t = .setLogLevel origin text →
    ∀ u other, u ≠ t → waiting (s.threads u) = some other → other = origin

/-- The logger holds the level of every thread that waits to log. -/
structure Held (s : LogState) : Prop where
  level : ∀ t origin, waiting (s.threads t) = some origin → s.logLevel = origin.level.toInt
  own : OwnTags s

theorem tag_injective (same : tag origin.level.toInt = tag other.level.toInt) :
    origin = other := by
  cases origin <;> cases other <;> first | rfl | exact absurd same (by decide)

/-- A thread that does not begin to wait leaves the logger as it is. -/
theorem held_setThread (held : Held s)
    (kept : ∀ origin, waiting pc = some origin → waiting (s.threads t) = some origin) :
    Held (setThread s t pc) where
  level := by
    intro u origin waits
    by_cases here : u = t
    · subst here
      rw [setThread_same] at waits
      exact held.level u origin (kept origin waits)
    · rw [setThread_other here] at waits
      exact held.level u origin waits
  own := held.own

theorem held_setLogLevel (held : Held s)
    (alone : ∀ u other, u ≠ t → waiting (s.threads u) = some other → other = origin) :
    Held (setThread { s with logLevel := origin.level.toInt } t (.format origin text)) where
  level := by
    intro u other waits
    by_cases here : u = t
    · subst here
      rw [setThread_same] at waits
      cases waits
      rfl
    · rw [setThread_other here] at waits
      rw [alone u other here waits]
      rfl
  own := held.own

/-- What is printed for a thread that waits has its own tag. -/
theorem held_printed (held : Held s) (logs : s.threads t = .log origin buf) :
    Held { s with printed := s.printed ++ [⟨origin, tag s.logLevel, message buf⟩] } where
  level := held.level
  own := by
    intro line printed
    rcases List.mem_append.mp printed with before | now
    · exact held.own line before
    · obtain rfl := List.mem_singleton.mp now
      exact congrArg tag (held.level t origin (by rw [logs]; rfl))

theorem held_step (held : Held s) (undisturbing : Undisturbing s action)
    (move : Move s action next) : Held next := by
  cases move with
  | skip => exact held
  | begin idle =>
    apply held_setThread held
    exact nofun
  | setLogLevel sets =>
    apply held_setLogLevel held
    exact undisturbing _ _ _ rfl sets
  | format formats =>
    apply held_setThread held
    intro other waits
    rw [formats]
    exact waits
  | log logs =>
    apply held_setThread (held_printed held logs)
    exact nofun

/-- `log` under another's level prints the other's tag. -/
theorem wrong_tag_logged (mudebug : Bool) (logs : s.threads u = .log other buf)
    (wrong : s.logLevel = origin.level.toInt) (different : other ≠ origin) :
    ∃ later, (logSystem mudebug).Step s (.advance u) later ∧ ¬ OwnTags later := by
  refine ⟨setThread { s with
    printed := s.printed ++ [⟨other, tag s.logLevel, message buf⟩] } u .idle, ?_, fun own => ?_⟩
  · simp only [logSystem, step, advance, logs]
  · have printed := own ⟨other, tag s.logLevel, message buf⟩
      (List.mem_append_right _ (List.mem_singleton_self _))
    simp only [wrong] at printed
    exact different (tag_injective printed).symm

/-- A thread that waits under another's level goes on to that. -/
theorem wrong_tag_printed (waits : waiting (s.threads u) = some other)
    (wrong : s.logLevel = origin.level.toInt) (different : other ≠ origin) :
    ∃ actions later, (logSystem mudebug).Run s actions later ∧ ¬ OwnTags later := by
  cases stands : s.threads u with
  | idle | setLogLevel =>
    rw [stands] at waits
    cases waits
  | format issued text =>
    rw [stands] at waits
    cases waits
    have formats : (logSystem mudebug).Step s (.advance u)
        (setThread s u (.log other (snprintf text))) := by
      simp only [logSystem, step, advance, stands]
    obtain ⟨later, logged, mislabelled⟩ := wrong_tag_logged mudebug
      (setThread_same s u (.log other (snprintf text))) wrong different
    exact ⟨_, later, .cons formats (.cons logged .nil), mislabelled⟩
  | log issued buf =>
    rw [stands] at waits
    cases waits
    obtain ⟨later, logged, mislabelled⟩ := wrong_tag_logged mudebug stands wrong different
    exact ⟨_, later, .cons logged .nil, mislabelled⟩

theorem disturbed_breaks (disturbing : ¬ Undisturbing s action) (move : Move s action next) :
    ∃ actions later, (logSystem mudebug).Run next actions later ∧ ¬ OwnTags later := by
  simp only [Undisturbing, not_forall] at disturbing
  obtain ⟨t, origin, text, rfl, sets, u, other, apart, waits, different⟩ := disturbing
  cases move with
  | setLogLevel sets' =>
    obtain ⟨rfl, rfl⟩ := LogPc.setLogLevel.inj (sets.symm.trans sets')
    have still : waiting ((setThread { s with logLevel := origin.level.toInt } t
        (.format origin text)).threads u) = some other := by
      rw [setThread_other apart]
      exact waits
    exact wrong_tag_printed still rfl different
  | format formats => cases sets.symm.trans formats
  | log logs => cases sets.symm.trans logs

/-- In any run in which no thread sets a level while another waits to log under a different
one, every line has its own tag; and any step that does so can be followed by a line that has
not. -/
theorem levels_kept (reached : ((logSystem mudebug).restrict Undisturbing).Reachable s) :
    OwnTags s ∧ ∀ action next, ¬ Undisturbing s action →
      (logSystem mudebug).Step s action next →
      ∃ actions later, (logSystem mudebug).Run next actions later ∧ ¬ OwnTags later := by
  have held : Held s := by
    refine reached.invariant ?_ ?_
    · rintro s ⟨idle, nothing⟩
      refine ⟨fun t origin waits => ?_, fun line printed => ?_⟩
      · rw [idle t] at waits
        cases waits
      · rw [nothing] at printed
        cases printed
    · exact fun _ _ _ held step => held_step held step.1 (step_move step.2)
  exact ⟨held.own, fun _ _ disturbing stepped => disturbed_breaks disturbing (step_move stepped)⟩

/-- Nothing has been logged. -/
def quietLogger : LogState where
  logLevel := 0
  printed := []
  threads _ := .idle

/-- The macro that a thread is in. -/
def usedIn : LogPc → Option LogMacro
  | .idle => none
  | .setLogLevel origin _ | .format origin _ | .log origin _ => some origin

/-- Whoever is in a macro is in this one. -/
def OnlyUses (origin : LogMacro) (s : LogState) : Prop :=
  ∀ t other, usedIn (s.threads t) = some other → other = origin

theorem onlyUses_setThread (only : OnlyUses origin s)
    (kept : ∀ other, usedIn pc = some other → other = origin) :
    OnlyUses origin (setThread s t pc) := by
  intro u other used
  by_cases here : u = t
  · subst here
    rw [setThread_same] at used
    exact kept other used
  · rw [setThread_other here] at used
    exact only u other used

theorem onlyUses_step (only : OnlyUses origin s)
    (uses : ∀ t other text, action = .use t other text → other = origin)
    (move : Move s action next) : OnlyUses origin next := by
  cases move with
  | skip => exact only
  | @begin t other text idle =>
    exact onlyUses_setThread only fun _ used => Option.some.inj used ▸ uses t other text rfl
  | @setLogLevel t other text pc =>
    exact onlyUses_setThread only fun _ used => only t _ ((congrArg usedIn pc).trans used)
  | @format t other text pc =>
    exact onlyUses_setThread only fun _ used => only t _ ((congrArg usedIn pc).trans used)
  | log => exact onlyUses_setThread only nofun

theorem onlyUses_undisturbing (only : OnlyUses origin s) : Undisturbing s action := by
  rintro t other text rfl sets u third apart waits
  have mine := only t other (congrArg usedIn sets)
  have theirs : usedIn (s.threads u) = some third := by
    cases stands : s.threads u <;> simp_all [waiting, usedIn]
  rw [mine, only u third theirs]

/-- Threads that all use one macro never disturb each other. -/
theorem one_macro_run {actions : List LogAction} (only : OnlyUses origin s)
    (uses : ∀ t other text, .use t other text ∈ actions → other = origin)
    (run : (logSystem mudebug).Run s actions next) :
    ((logSystem mudebug).restrict Undisturbing).Run s actions next := by
  induction run with
  | nil => exact .nil
  | cons step _ ih =>
    have after := onlyUses_step only
      (fun t other text same => uses t other text (by simp [same])) (step_move step)
    exact .cons ⟨onlyUses_undisturbing only, step⟩
      (ih after fun t other text member => uses t other text (List.mem_cons_of_mem _ member))

/-- Two threads log an error each: the second sets its level before the first has formatted
its message, and overtakes it. -/
def twoErrors : List LogAction :=
  [.use 1 .error [104, 105], .advance 1, .use 2 .error [111, 107], .advance 2, .advance 2,
    .advance 1, .advance 2, .advance 1]

theorem two_errors_kept : ∃ s,
    ((logSystem false).restrict Undisturbing).Run quietLogger twoErrors s ∧
      s.printed = [⟨.error, "[ERROR]", [111, 107]⟩, ⟨.error, "[ERROR]", [104, 105]⟩] ∧
      OwnTags s := by
  have ran : (logSystem false).Run quietLogger twoErrors
      ((StepSystem.play (step false) quietLogger twoErrors).getD quietLogger) :=
    .of_play (fun _ _ _ stepped => stepped) rfl
  have only : OnlyUses .error quietLogger := fun _ _ used => by cases used
  have uses : ∀ t other text, LogAction.use t other text ∈ twoErrors → other = .error := by
    intro t other text member
    simp only [twoErrors, List.mem_cons, List.not_mem_nil, LogAction.use.injEq, reduceCtorEq,
      false_or, or_false] at member
    rcases member with ⟨-, error, -⟩ | ⟨-, error, -⟩
    · exact error
    · exact error
  have run := one_macro_run only uses ran
  exact ⟨_, run, rfl, (levels_kept ⟨_, _, ⟨fun _ => rfl, rfl⟩, run⟩).1⟩

/-- Thread 2 sets its level between the two steps of thread 1's error. -/
def interleaved : List LogAction :=
  [.use 1 .error [104, 105], .advance 1, .use 2 .info [111, 107], .advance 2, .advance 1,
    .advance 1]

theorem error_printed_as_info : ¬ LinesKeepLevel := by
  intro kept
  have run : (logSystem false).Run quietLogger interleaved
      ((StepSystem.play (step false) quietLogger interleaved).getD quietLogger) :=
    .of_play (fun _ _ _ stepped => stepped) rfl
  have own := kept false _ ⟨_, _, ⟨fun _ => rfl, rfl⟩, run⟩
  have line := own ⟨.error, "[INFO]", [104, 105]⟩ List.mem_cons_self
  exact absurd line (by decide)

end MiniMuduo.LogLevels
