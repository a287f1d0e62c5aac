import MiniMuduo.LoopPerThread

/-! `CurrentThread::tid()` and `EventLoop::isInLoopThread()`. A thread keeps its id from its
first question on, and a loop keeps that of the thread that constructs it; the kernel gives
the id of a thread that has ended to another. So a loop knows its thread as long as that
runs. -/
namespace MiniMuduo
open LoopPerThread (LoopPtr LoopThreads loopLives printPointer)

/-- Threads are numbered as they are started. -/
abbrev ThreadNo := Nat

/-- A live loop, by its `threadId_`; its constructor's thread is history. -/
structure OwnedLoop where
  creator : ThreadNo
  threadId : Tid
  deriving DecidableEq, Repr

/-- The ids of the running threads, what is local to each thread, and the live loops. The
last two fields only record history: how many threads were started, and how often each has
asked the kernel for its id. -/
structure ThreadIds where
  running : ThreadNo → Option Tid
  cachedTid : ThreadNo → Tid
  loopInThisThread : ThreadNo → Option LoopPtr
  loops : LoopPtr → Option OwnedLoop
  started : Nat
  syscalls : ThreadNo → Nat

inductive TidCall where
  /-- A thread is started, and the kernel gives it an id. -/
  | start (id : Tid)
  | exit (thread : ThreadNo)
  | construct (thread : ThreadNo) (loop : LoopPtr)
  | destroy (thread : ThreadNo) (loop : LoopPtr)
  | isInLoopThread (thread : ThreadNo) (loop : LoopPtr)
  deriving DecidableEq, Repr

namespace CurrentThread

/-- `gettid(2)`; only a running thread asks. -/
def gettid (s : ThreadIds) (t : ThreadNo) : Tid := (s.running t).getD 0

def cacheTid (s : ThreadIds) (t : ThreadNo) : ThreadIds :=
  if s.cachedTid t = 0 then { s with
    cachedTid := Function.update s.cachedTid t (gettid s t)
    syscalls := Function.update s.syscalls t (s.syscalls t + 1) }
  else s

def tid (s : ThreadIds) (t : ThreadNo) : Tid × ThreadIds :=
  let s := if s.cachedTid t = 0 then cacheTid s t else s
  (s.cachedTid t, s)

/-- `EventLoop::isInLoopThread()`. -/
def isInLoopThread (s : ThreadIds) (t : ThreadNo) (loop : OwnedLoop) : Bool × ThreadIds :=
  let (id, s) := tid s t
  (loop.threadId == id, s)

/-- The constructor takes `threadId_` before it looks at `t_loopInThisThread`. -/
def perform (s : ThreadIds) : TidCall → Except Exit ThreadIds
  | .start id => .ok { s with
      running := Function.update s.running s.started (some id)
      started := s.started + 1 }
  | .exit t => .ok { s with running := Function.update s.running t none }
  | .construct t loop =>
    let (id, s) := tid s t
    match s.loopInThisThread t with
    | some other =>
      .error ⟨-1, s!"Another EventLoop {printPointer other} exists in this thread {id} \n"⟩
    | none => .ok { s with
        loops := Function.update s.loops loop (some ⟨t, id⟩)
        loopInThisThread := Function.update s.loopInThisThread t (some loop) }
  | .destroy t loop => .ok { s with
      loops := Function.update s.loops loop none
      loopInThisThread := Function.update s.loopInThisThread t none }
  | .isInLoopThread t loop =>
    match s.loops loop with
    | none => .ok s
    | some owned => .ok (isInLoopThread s t owned).2

/-- Only running threads do anything, and only with live loops; and the kernel gives no id
that it has given and not got back. -/
def Possible (s : ThreadIds) : TidCall → Prop
  | .start id => 0 < id ∧ ∀ t, s.running t ≠ some id
  | .exit t => s.running t ≠ none
  | .construct t loop => s.running t ≠ none ∧ s.loops loop = none
  | .destroy t loop | .isInLoopThread t loop => s.running t ≠ none ∧ s.loops loop ≠ none

/-- From the start of the process on. -/
def threadIds : StepSystem ThreadIds TidCall where
  Start s := (∀ t, s.running t = none ∧ s.cachedTid t = 0 ∧ s.loopInThisThread t = none ∧
    s.syscalls t = 0) ∧ (∀ loop, s.loops loop = none) ∧ s.started = 0
  Step s call next := Possible s call ∧ perform s call = .ok next

/-- No thread ends while a loop that it has constructed lives. -/
def InTime (s : ThreadIds) : TidCall → Prop
  | .exit t => ∀ loop owned, s.loops loop = some owned → owned.creator ≠ t
  | .start _ | .construct _ _ | .destroy _ _ | .isInLoopThread _ _ => True

variable {s next : ThreadIds} {call : TidCall} {t u : ThreadNo} {id : Tid}
variable {loop : LoopPtr} {owned : OwnedLoop}

/-- What a thread's question leaves, the first as every other. -/
def asked (s : ThreadIds) (t : ThreadNo) (id : Tid) : ThreadIds := { s with
  cachedTid := Function.update s.cachedTid t id
  syscalls := Function.update s.syscalls t 1 }

/-- Ids of running threads are no two threads', and what a thread or a loop has noted is the
id of a thread that runs, if it still does. -/
structure Known (s : ThreadIds) : Prop where
  positive : ∀ t id, s.running t = some id → 0 < id
  distinct : ∀ t u id, s.running t = some id → s.running u = some id → t = u
  cached : ∀ t id, s.running t = some id → s.cachedTid t = 0 ∨ s.cachedTid t = id
  counted : ∀ t, s.syscalls t = if s.cachedTid t = 0 then 0 else 1
  fresh : ∀ t, s.started ≤ t → s.running t = none ∧ s.cachedTid t = 0
  creators : ∀ loop owned, s.loops loop = some owned → owned.creator < s.started
  noted : ∀ loop owned id, s.loops loop = some owned → s.running owned.creator = some id →
    owned.threadId = id

theorem tid_eq (known : Known s) (runs : s.running t = some id) :
    tid s t = (id, asked s t id) := by
  have counted := known.counted t
  by_cases first : s.cachedTid t = 0
  · rw [if_pos first] at counted
    simp [tid, cacheTid, gettid, asked, first, runs, counted]
  · have own := (known.cached t id runs).resolve_left first
    rw [if_neg first] at counted
    have same : asked s t id = s := by
      rw [asked, ← own, ← counted, Function.update_eq_self, Function.update_eq_self]
    rw [tid, if_neg first, same, own]

/-- The answer is a comparison of the kernel's ids. -/
theorem isInLoopThread_iff (known : Known s) (runs : s.running t = some id) :
    (isInLoopThread s t owned).1 = true ↔ owned.threadId = id := by
  rw [isInLoopThread, tid_eq known runs]
  exact beq_iff_eq

/-- Everything a step can be. -/
inductive Move : ThreadIds → TidCall → ThreadIds → Prop where
  | start {s : ThreadIds} {id : Tid} : 0 < id → (∀ t, s.running t ≠ some id) →
      Move s (.start id) { s with
        running := Function.update s.running s.started (some id)
        started := s.started + 1 }
  | exit {s : ThreadIds} {t : ThreadNo} {id : Tid} : s.running t = some id →
      Move s (.exit t) { s with running := Function.update s.running t none }
  | construct {s : ThreadIds} {t : ThreadNo} {id : Tid} {loop : LoopPtr} :
      s.running t = some id → s.loops loop = none → s.loopInThisThread t = none →
      Move s (.construct t loop) { asked s t id with
        loops := Function.update s.loops loop (some ⟨t, id⟩)
        loopInThisThread := Function.update s.loopInThisThread t (some loop) }
  | destroy {s : ThreadIds} {t : ThreadNo} {id : Tid} {loop : LoopPtr} :
      s.running t = some id → s.loops loop ≠ none →
      Move s (.destroy t loop) { s with
        loops := Function.update s.loops loop none
        loopInThisThread := Function.update s.loopInThisThread t none }
  | asks {s : ThreadIds} {t : ThreadNo} {id : Tid} {loop : LoopPtr} : s.running t = some id →
      Move s (.isInLoopThread t loop) (asked s t id)

theorem step_move (known : Known s) (step : threadIds.Step s call next) : Move s call next := by
  obtain ⟨possible, ran⟩ := step
  cases call with
  | start id =>
    obtain rfl := Except.ok.inj ran
    exact .start possible.1 possible.2
  | exit t =>
    obtain ⟨id, runs⟩ := Option.ne_none_iff_exists'.mp possible
    obtain rfl := Except.ok.inj ran
    exact .exit runs
  | construct t loop =>
    obtain ⟨id, runs⟩ := Option.ne_none_iff_exists'.mp possible.1
    simp only [perform, tid_eq known runs] at ran
    split at ran
    · cases ran
    · rename_i free
      obtain rfl := Except.ok.inj ran
      exact .construct runs possible.2 free
  | destroy t loop =>
    obtain ⟨id, runs⟩ := Option.ne_none_iff_exists'.mp possible.1
    obtain rfl := Except.ok.inj ran
    exact .destroy runs possible.2
  | isInLoopThread t loop =>
    obtain ⟨id, runs⟩ := Option.ne_none_iff_exists'.mp possible.1
    simp only [perform] at ran
    split at ran
    · rename_i gone
      exact absurd gone possible.2
    · obtain rfl := Except.ok.inj ran
      rw [isInLoopThread, tid_eq known runs]
      exact .asks runs

theorem started_of_running (known : Known s) (runs : s.running t = some id) : t < s.started := by
  by_contra later
  cases (known.fresh t (Nat.le_of_not_lt later)).1.symm.trans runs

theorem known_asked (known : Known s) (runs : s.running t = some id) :
    Known (asked s t id) where
  positive := known.positive
  distinct := known.distinct
  cached u other runs' := by
    by_cases here : u = t
    · subst here
      obtain rfl := Option.some.inj (runs.symm.trans runs')
      simp [asked]
    · simpa [asked, here] using known.cached u other runs'
  counted u := by
    by_cases here : u = t
    · subst here
      simp [asked, Nat.ne_of_gt (known.positive u id runs)]
    · simpa [asked, here] using known.counted u
  fresh u later := by
    have apart : u ≠ t := by
      rintro rfl
      exact absurd (started_of_running known runs) (Nat.not_lt_of_le later)
    simpa [asked, apart] using known.fresh u later
  creators := known.creators
  noted := known.noted

theorem live_of_constructed {entered : OwnedLoop} {other : LoopPtr}
    (live : Function.update s.loops loop (some entered) other = some owned) :
    owned = entered ∨ s.loops other = some owned := by
  by_cases here : other = loop
  · subst here
    rw [Function.update_self] at live
    exact Or.inl (Option.some.inj live).symm
  · exact Or.inr (by simpa [here] using live)

/-- A loop is entered under the id of the thread that constructs it. -/
theorem known_construct (known : Known s) (runs : s.running t = some id) (loop : LoopPtr)
    (current : ThreadNo → Option LoopPtr) : Known { s with
      loops := Function.update s.loops loop (some ⟨t, id⟩)
      loopInThisThread := current } where
  positive := known.positive
  distinct := known.distinct
  cached := known.cached
  counted := known.counted
  fresh := known.fresh
  creators other owned live := by
    rcases live_of_constructed live with rfl | before
    · have started := started_of_running known runs
      exact started
    · exact known.creators other owned before
  noted other owned own live runs' := by
    rcases live_of_constructed live with rfl | before
    · exact Option.some.inj (runs.symm.trans runs')
    · exact known.noted other owned own before runs'

theorem live_of_destroyed {other : LoopPtr}
    (live : Function.update s.loops loop none other = some owned) :
    s.loops other = some owned := by
  by_cases here : other = loop
  · simp [here] at live
  · simpa [here] using live

theorem known_destroy (known : Known s) (loop : LoopPtr) (current : ThreadNo → Option LoopPtr) :
    Known { s with
      loops := Function.update s.loops loop none
      loopInThisThread := current } where
  positive := known.positive
  distinct := known.distinct
  cached := known.cached
  counted := known.counted
  fresh := known.fresh
  creators _ owned live := known.creators _ owned (live_of_destroyed live)
  noted _ owned own live := known.noted _ owned own (live_of_destroyed live)

theorem running_of_exit (runs : Function.update s.running t none u = some id) :
    u ≠ t ∧ s.running u = some id := by
  by_cases here : u = t
  · simp [here] at runs
  · exact ⟨here, by simpa [here] using runs⟩

theorem known_exit (known : Known s) (t : ThreadNo) :
    Known { s with running := Function.update s.running t none } where
  positive u own runs := known.positive u own (running_of_exit runs).2
  distinct u v own runs runs' :=
    known.distinct u v own (running_of_exit runs).2 (running_of_exit runs').2
  cached u own runs := known.cached u own (running_of_exit runs).2
  counted := known.counted
  fresh u later := by
    have fresh := known.fresh u later
    by_cases here : u = t
    · exact ⟨by simp [here], fresh.2⟩
    · exact ⟨by simpa [here] using fresh.1, fresh.2⟩
  creators := known.creators
  noted other owned own live runs := known.noted other owned own live (running_of_exit runs).2

/-- Whoever runs after a start ran before, or is the thread that was started. -/
theorem running_of_start
    (runs : Function.update s.running s.started (some id) u = some own) :
    u = s.started ∧ own = id ∨ u ≠ s.started ∧ s.running u = some own := by
  by_cases here : u = s.started
  · subst here
    exact Or.inl ⟨rfl, Option.some.inj (runs.symm.trans (Function.update_self ..))⟩
  · exact Or.inr ⟨here, by simpa [here] using runs⟩

theorem known_start (known : Known s) (positive : 0 < id) (free : ∀ t, s.running t ≠ some id) :
    Known { s with
      running := Function.update s.running s.started (some id)
      started := s.started + 1 } where
  positive u own runs := by
    rcases running_of_start runs with ⟨-, rfl⟩ | ⟨-, before⟩
    · exact positive
    · exact known.positive u own before
  distinct u v own runs runs' := by
    rcases running_of_start runs with ⟨rfl, rfl⟩ | ⟨-, before⟩ <;>
      rcases running_of_start runs' with ⟨rfl, same⟩ | ⟨-, before'⟩
    · rfl
    · exact absurd before' (free v)
    · exact absurd (same ▸ before) (free u)
    · exact known.distinct u v own before before'
  cached u own runs := by
    rcases running_of_start runs with ⟨rfl, -⟩ | ⟨-, before⟩
    · exact Or.inl (known.fresh _ (Nat.le_refl _)).2
    · exact known.cached u own before
  counted := known.counted
  fresh u later := by
    have apart : u ≠ s.started := Nat.ne_of_gt later
    simpa [apart] using known.fresh u (Nat.le_of_succ_le later)
  creators other owned live := Nat.lt_succ_of_lt (known.creators other owned live)
  noted other owned own live runs := by
    have before := known.creators other owned live
    rcases running_of_start runs with ⟨same, -⟩ | ⟨-, ran⟩
    · exact absurd same (Nat.ne_of_lt before)
    · exact known.noted other owned own live ran

theorem known_step (known : Known s) (step : threadIds.Step s call next) : Known next := by
  cases step_move known step with
  | start positive free => exact known_start known positive free
  | exit runs => exact known_exit known _
  | construct runs unused free => exact known_construct (known_asked known runs) runs _ _
  | destroy runs live => exact known_destroy known _ _
  | asks runs => exact known_asked known runs

theorem known_of_start (start : threadIds.Start s) : Known s := by
  obtain ⟨threads, loops, started⟩ := start
  have none (t : ThreadNo) := (threads t).1
  exact
    { positive := fun t id runs => by cases (none t).symm.trans runs
      distinct := fun t u id runs => by cases (none t).symm.trans runs
      cached := fun t id runs => by cases (none t).symm.trans runs
      counted := fun t => by rw [(threads t).2.2.2, if_pos (threads t).2.1]
      fresh := fun t _ => ⟨none t, (threads t).2.1⟩
      creators := fun loop owned live => by cases (loops loop).symm.trans live
      noted := fun loop owned id live => by cases (loops loop).symm.trans live }

/-- The loops with the threads that constructed them. -/
def byCreator (s : ThreadIds) : LoopThreads where
  threadId loop := (s.loops loop).map OwnedLoop.creator
  loopInThisThread := s.loopInThisThread

theorem creator_update (s : ThreadIds) (loop : LoopPtr) (entry : Option OwnedLoop) :
    (fun other => (Function.update s.loops loop entry other).map OwnedLoop.creator) =
      Function.update (byCreator s).threadId loop (entry.map OwnedLoop.creator) := by
  funext other
  by_cases here : other = loop
  · subst here
    simp
  · simp [byCreator, here]

theorem byCreator_step (move : Move s call next) :
    byCreator next = byCreator s ∨ ∃ life, loopLives.Step (byCreator s) life (byCreator next) := by
  cases move with
  | start | exit | asks => exact Or.inl rfl
  | @construct t id loop _ unused free =>
    refine Or.inr ⟨.construct t loop, by simp [LoopPerThread.Possible, byCreator, unused], ?_⟩
    have entered := creator_update s loop (some ⟨t, id⟩)
    simp only [LoopPerThread.perform, byCreator, free] at entered ⊢
    rw [entered]
    rfl
  | @destroy t id loop _ live =>
    refine Or.inr ⟨.destroy t loop, by simpa [LoopPerThread.Possible, byCreator] using live, ?_⟩
    have removed := creator_update s loop none
    simp only [LoopPerThread.perform, byCreator] at removed ⊢
    rw [removed]
    rfl

/-- With the threads told apart by their numbers, the loops come and go as in a process whose
ids are never used again. -/
structure Lived (s : ThreadIds) : Prop extends Known s where
  lives : loopLives.Reachable (byCreator s)

theorem reachable_lived (reached : threadIds.Reachable s) : Lived s := by
  refine reached.invariant ?_ ?_
  · intro s start
    have known := known_of_start start
    obtain ⟨threads, none, _⟩ := start
    refine ⟨known, .start ⟨fun loop => ?_, fun t => (threads t).2.2.1⟩⟩
    simp [byCreator, none]
  · intro s call next lived step
    have known := lived.toKnown
    refine ⟨known_step known step, ?_⟩
    rcases byCreator_step (step_move known step) with same | ⟨life, stepped⟩
    · exact same ▸ lived.lives
    · exact lived.lives.step stepped

/-- The thread runs, and `isInLoopThread()` tells it that the loop is its own. -/
def Told (s : ThreadIds) (t : ThreadNo) (owned : OwnedLoop) : Prop :=
  s.running t ≠ none ∧ (isInLoopThread s t owned).1 = true

theorem told_iff (known : Known s) : Told s t owned ↔ s.running t = some owned.threadId := by
  constructor
  · rintro ⟨runs, told⟩
    obtain ⟨id, runs⟩ := Option.ne_none_iff_exists'.mp runs
    rw [(isInLoopThread_iff known runs).mp told, runs]
  · intro runs
    exact ⟨by simp [runs], (isInLoopThread_iff known runs).mpr rfl⟩

theorem told_creator (known : Known s) (live : s.loops loop = some owned)
    (runs : s.running owned.creator ≠ none) : Told s t owned ↔ t = owned.creator := by
  obtain ⟨id, runs⟩ := Option.ne_none_iff_exists'.mp runs
  have noted := known.noted loop owned id live runs
  rw [told_iff known, noted]
  constructor
  · exact fun told => known.distinct t owned.creator id told runs
  · rintro rfl
    exact runs

/-- However threads come and go and their ids are used again: no two running threads are told
that one loop is theirs, and while the thread that constructed it runs it is that one; no
thread asks the kernel twice. -/
theorem one_thread_told (reached : threadIds.Reachable s) :
    loopLives.Reachable (byCreator s) ∧ (∀ t, s.syscalls t ≤ 1) ∧
      ∀ loop owned, s.loops loop = some owned →
        (∀ t u, Told s t owned → Told s u owned → t = u) ∧
        (s.running owned.creator ≠ none → ∀ t, Told s t owned ↔ t = owned.creator) := by
  obtain ⟨known, lives⟩ := reachable_lived reached
  refine ⟨lives, fun t => ?_, fun loop owned live => ⟨fun t u here there => ?_,
    fun runs t => told_creator known live runs⟩⟩
  · have counted := known.counted t
    split at counted <;> omega
  · rw [told_iff known] at here there
    exact known.distinct t u owned.threadId here there

/-- Before the process has a thread. -/
def noThreads : ThreadIds where
  running _ := none
  cachedTid _ := 0
  loopInThisThread _ := none
  loops _ := none
  started := 0
  syscalls _ := 0

def played (calls : List TidCall) : ThreadIds :=
  (StepSystem.play (fun s call => (perform s call).toOption) noThreads calls).getD noThreads

/-- The first thread has constructed loop 100, and the second has asked about it. -/
def secondAsks : List TidCall :=
  [.start 7, .construct 0 100, .start 8, .isInLoopThread 1 100]

theorem second_asks_run :
    (threadIds.restrict InTime).Run noThreads secondAsks (played secondAsks) :=
  .cons ⟨trivial, ⟨by decide, nofun⟩, rfl⟩ <|
  .cons ⟨trivial, ⟨nofun, rfl⟩, rfl⟩ <|
  .cons ⟨trivial, ⟨by decide, fun t => by
    by_cases first : t = 0 <;> simp [cacheTid, noThreads, first]⟩, rfl⟩ <|
  .cons ⟨trivial, ⟨nofun, nofun⟩, rfl⟩ .nil

theorem noThreads_start : threadIds.Start noThreads :=
  ⟨fun _ => ⟨rfl, rfl, rfl, rfl⟩, fun _ => rfl, rfl⟩

theorem first_thread_told :
    Told (played secondAsks) 0 ⟨0, 7⟩ ∧ ¬ Told (played secondAsks) 1 ⟨0, 7⟩ := by
  have reached : threadIds.Reachable (played secondAsks) :=
    ⟨_, _, noThreads_start, second_asks_run.unrestricted⟩
  have told := ((one_thread_told reached).2.2 100 ⟨0, 7⟩ rfl).2 nofun
  exact ⟨(told 0).mpr rfl, fun other => absurd ((told 1).mp other) (by decide)⟩

/-- Every loop is a running thread's. -/
structure Attended (s : ThreadIds) : Prop extends Known s where
  attended : ∀ loop owned, s.loops loop = some owned → s.running owned.creator ≠ none

theorem creators_run (attended : Attended s) (inTime : InTime s call) (move : Move s call next)
    (live : next.loops loop = some owned) : next.running owned.creator ≠ none := by
  cases move with
  | asks => exact attended.attended loop owned live
  | destroy => exact attended.attended loop owned (live_of_destroyed live)
  | construct runs =>
    rcases live_of_constructed live with rfl | before
    · simp [asked, runs]
    · exact attended.attended loop owned before
  | start =>
    by_cases new : owned.creator = s.started
    · simp [new]
    · simpa [new] using attended.attended loop owned live
  | exit => simpa [inTime loop owned live] using attended.attended loop owned live

theorem reachable_attended (reached : (threadIds.restrict InTime).Reachable s) : Attended s := by
  refine reached.invariant ?_ ?_
  · intro s start
    exact ⟨known_of_start start, fun loop _ live => by cases (start.2.1 loop).symm.trans live⟩
  · rintro s call next attended ⟨inTime, step⟩
    have known := attended.toKnown
    exact ⟨known_step known step, fun _ _ => creators_run attended inTime (step_move known step)⟩

/-- The next thread can get the id that is free now. -/
theorem told_by_reuse (known : Known s) (overdue : ¬ InTime s call) (move : Move s call next) :
    ∃ id later loop owned, threadIds.Step next (.start id) later ∧
      later.loops loop = some owned ∧ next.started ≠ owned.creator ∧
      Told later next.started owned := by
  cases move with
  | start | construct | destroy | asks => exact absurd trivial overdue
  | @exit t id runs =>
    simp only [InTime, not_forall, not_not] at overdue
    obtain ⟨loop, owned, live, rfl⟩ := overdue
    have exited := known_exit known owned.creator
    have noted := known.noted loop owned id live runs
    have free (u : ThreadNo) : Function.update s.running owned.creator none u ≠ some id := by
      intro ran
      obtain ⟨apart, ran⟩ := running_of_exit ran
      exact apart (known.distinct u owned.creator id ran runs)
    have positive := known.positive owned.creator id runs
    refine ⟨id, _, loop, owned, ⟨⟨positive, free⟩, rfl⟩, live, ?_, ?_⟩
    · exact Nat.ne_of_gt (known.creators loop owned live)
    · rw [told_iff (known_start exited positive free), noted]
      exact Function.update_self ..

/-- As long as no thread ends before the loops that it has constructed, a thread is told that
a loop is its own exactly if it has constructed it; and behind the first end of a thread that
is too early, the next thread can be told so of a loop of the old one. -/
theorem loops_know_threads_iff (reached : (threadIds.restrict InTime).Reachable s) :
    (∀ loop owned, s.loops loop = some owned → ∀ t, Told s t owned ↔ t = owned.creator) ∧
      ∀ call next, ¬ InTime s call → threadIds.Step s call next →
        ∃ id later loop owned, threadIds.Step next (.start id) later ∧
          later.loops loop = some owned ∧ next.started ≠ owned.creator ∧
          Told later next.started owned := by
  obtain ⟨known, attended⟩ := reachable_attended reached
  exact ⟨fun loop owned live t => told_creator known live (attended loop owned live),
    fun call next overdue step => told_by_reuse known overdue (step_move known step)⟩

/-- The first thread ends, and its loop stays. -/
def firstEnds : ThreadIds := played (secondAsks ++ [.exit 0])

theorem third_told_of_loop_of_first :
    ∃ id later loop owned, threadIds.Step firstEnds (.start id) later ∧
      later.loops loop = some owned ∧ firstEnds.started ≠ owned.creator ∧
      Told later firstEnds.started owned := by
  have reached : (threadIds.restrict InTime).Reachable (played secondAsks) :=
    ⟨_, _, noThreads_start, second_asks_run⟩
  have overdue : ¬ InTime (played secondAsks) (.exit 0) := fun inTime =>
    inTime 100 ⟨0, 7⟩ rfl rfl
  exact (loops_know_threads_iff reached).2 (.exit 0) firstEnds overdue ⟨nofun, rfl⟩

end CurrentThread
end MiniMuduo
