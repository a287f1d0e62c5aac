import MiniMuduo.EPollPoller
import MiniMuduo.EventLoop

/-! One loop per thread. The constructor writes `t_loopInThisThread` of the thread that
constructs, and refuses while that is set; the destructor clears `t_loopInThisThread` of
the thread that destroys. The guard keeps its promise exactly as long as these are the
same thread. -/
namespace MiniMuduo.LoopPerThread

/-- The address of an `EventLoop`. -/
abbrev LoopPtr := Nat

/-- `%p`, of a pointer that is not null. -/
def printPointer (loop : LoopPtr) : String := "0x" ++ String.ofList (Nat.toDigits 16 loop)

/-- `threadId_` of every live loop, and every thread's `t_loopInThisThread`. -/
structure LoopThreads where
  threadId : LoopPtr → Option Tid
  loopInThisThread : Tid → Option LoopPtr

/-- A thread constructs a loop, or runs the destructor of one. -/
inductive LoopCall where
  | construct (thread : Tid) (loop : LoopPtr)
  | destroy (thread : Tid) (loop : LoopPtr)
  deriving DecidableEq, Repr

/-- `EventLoop::EventLoop()` and `EventLoop::~EventLoop()`. -/
def perform (s : LoopThreads) : LoopCall → Except Exit LoopThreads
  | .construct t loop =>
    match s.loopInThisThread t with
    | some other =>
      .error ⟨-1, s!"Another EventLoop {printPointer other} exists in this thread {t} \n"⟩
    | none => .ok {
        threadId := Function.update s.threadId loop (some t)
        loopInThisThread := Function.update s.loopInThisThread t (some loop) }
  | .destroy t loop => .ok {
      threadId := Function.update s.threadId loop none
      loopInThisThread := Function.update s.loopInThisThread t none }

/-- A loop is constructed where none lives, and destroyed where one does. -/
def Possible (s : LoopThreads) : LoopCall → Prop
  | .construct _ loop => s.threadId loop = none
  | .destroy _ loop => s.threadId loop ≠ none

/-- Any threads construct and destroy loops, until one of them exits. -/
def loopLives : StepSystem LoopThreads LoopCall where
  Start s := (∀ loop, s.threadId loop = none) ∧ ∀ t, s.loopInThisThread t = none
  Step s call next := Possible s call ∧ perform s call = .ok next

/-- Each thread has at most one live loop, and `t_loopInThisThread` is that loop. -/
structure OneLoop (s : LoopThreads) : Prop where
  atMostOne : ∀ t loop other, s.threadId loop = some t → s.threadId other = some t → loop = other
  current : ∀ t loop, s.threadId loop = some t → s.loopInThisThread t = some loop
  null : ∀ t, (∀ loop, s.threadId loop ≠ some t) → s.loopInThisThread t = none

/-- There is one loop per thread, whoever destroys it. -/
def OneLoopPerThread : Prop := ∀ s, loopLives.Reachable s → OneLoop s

/-- A loop is destroyed by the thread that constructed it. -/
def ByCreator (s : LoopThreads) : LoopCall → Prop
  | .construct _ _ => True
  | .destroy t loop => s.threadId loop = some t

variable {s next : LoopThreads} {t : Tid} {loop : LoopPtr} {call : LoopCall}

/-- The two records are inverse to each other. -/
theorem oneLoop_iff :
    OneLoop s ↔ ∀ t loop, s.loopInThisThread t = some loop ↔ s.threadId loop = some t := by
  constructor
  · intro one t loop
    refine ⟨fun current => ?_, one.current t loop⟩
    by_contra dead
    have none : ∀ other, s.threadId other ≠ some t := by
      intro other alive
      obtain rfl := Option.some.inj ((one.current t other alive).symm.trans current)
      exact dead alive
    cases (one.null t none).symm.trans current
  · intro inverse
    refine ⟨fun t loop other here there => ?_, fun t loop => (inverse t loop).mpr, fun t none => ?_⟩
    · rw [← inverse] at here there
      exact Option.some.inj (here.symm.trans there)
    · cases current : s.loopInThisThread t with
      | none => rfl
      | some loop => exact absurd ((inverse t loop).mp current) (none loop)

theorem start_oneLoop (start : loopLives.Start s) : OneLoop s := by
  rw [oneLoop_iff]
  intro t loop
  rw [start.1, start.2]
  exact ⟨nofun, nofun⟩

/-- A constructor that returns enters its loop in both records. -/
theorem construct_oneLoop (one : OneLoop s)
    (step : loopLives.Step s (.construct t loop) next) : OneLoop next := by
  obtain ⟨fresh, ran⟩ := step
  rw [oneLoop_iff] at one ⊢
  simp only [perform] at ran
  split at ran
  · cases ran
  · rename_i free
    obtain rfl := Except.ok.inj ran
    intro u other
    by_cases here : u = t
    · by_cases same : other = loop
      · simp [here, same]
      · have silent : s.threadId other ≠ some t := by
          rw [Ne, ← one t other, free]
          exact nofun
        simpa [here, same, Ne.symm same] using silent
    · by_cases same : other = loop
      · have apart : s.loopInThisThread u ≠ some loop := by
          rw [Ne, one u loop, fresh]
          exact nofun
        simpa [here, same, Ne.symm here] using apart
      · simpa [here, same] using one u other

/-- A destructor keeps the records in step exactly if the creator runs it: another
thread clears its own pointer, and leaves the creator's on a dead loop. -/
theorem destroy_oneLoop_iff (one : OneLoop s)
    (step : loopLives.Step s (.destroy t loop) next) :
    OneLoop next ↔ s.threadId loop = some t := by
  obtain ⟨alive, ran⟩ := step
  obtain rfl := Except.ok.inj ran
  have inverse := oneLoop_iff.mp one
  constructor
  · intro kept
    obtain ⟨creator, created⟩ := Option.ne_none_iff_exists'.mp alive
    by_cases here : creator = t
    · rw [created, here]
    · have dangling := (oneLoop_iff.mp kept creator loop).mp
        (by simpa [here] using (inverse creator loop).mpr created)
      simp at dangling
  · intro created
    rw [oneLoop_iff]
    intro u other
    by_cases here : u = t
    · by_cases same : other = loop
      · simp [here, same]
      · have silent : s.threadId other ≠ some t :=
          fun owned => same (one.atMostOne t other loop owned created)
        simpa [here, same] using silent
    · by_cases same : other = loop
      · have apart : s.loopInThisThread u ≠ some loop := by
          rw [Ne, inverse u loop, created]
          exact fun equal => here (Option.some.inj equal).symm
        simpa [here, same] using apart
      · simpa [here, same] using inverse u other

/-- As long as every loop was destroyed by its creator, each thread has its one loop;
and the next step leaves it so exactly if it keeps to that as well. -/
theorem one_loop_per_thread_iff (reached : (loopLives.restrict ByCreator).Reachable s) :
    OneLoop s ∧ ∀ call next, loopLives.Step s call next →
      (OneLoop next ↔ ByCreator s call) := by
  have each (s : LoopThreads) (one : OneLoop s) (call : LoopCall) (next : LoopThreads)
      (step : loopLives.Step s call next) : OneLoop next ↔ ByCreator s call := by
    cases call with
    | construct t loop => exact iff_of_true (construct_oneLoop one step) trivial
    | destroy t loop => exact destroy_oneLoop_iff one step
  have one : OneLoop s := by
    refine reached.invariant ?_ ?_
    · exact fun _ => start_oneLoop
    · exact fun s call next one step => (each s one call next step.2).mpr step.1
  exact ⟨one, each s one⟩

/-- Nobody has a loop. -/
def noLoops : LoopThreads := ⟨fun _ => none, fun _ => none⟩

def after (calls : List LoopCall) : LoopThreads :=
  (StepSystem.play (fun s call => (perform s call).toOption) noLoops calls).getD noLoops

/-- Two threads construct a loop each, and the first destroys its own. -/
theorem own_loop_destroyed :
    OneLoop (after [.construct 1 100, .construct 2 200, .destroy 1 100]) := by
  have first : (loopLives.restrict ByCreator).Step noLoops (.construct 1 100)
      (after [.construct 1 100]) := ⟨trivial, rfl, rfl⟩
  have second : (loopLives.restrict ByCreator).Step (after [.construct 1 100]) (.construct 2 200)
      (after [.construct 1 100, .construct 2 200]) := ⟨trivial, rfl, rfl⟩
  have third : loopLives.Step (after [.construct 1 100, .construct 2 200]) (.destroy 1 100)
      (after [.construct 1 100, .construct 2 200, .destroy 1 100]) := ⟨nofun, rfl⟩
  have reached : (loopLives.restrict ByCreator).Reachable
      (after [.construct 1 100, .construct 2 200]) :=
    ⟨noLoops, _, ⟨fun _ => rfl, fun _ => rfl⟩, .cons first (.cons second .nil)⟩
  exact ((one_loop_per_thread_iff reached).2 _ _ third).mpr rfl

/-- Thread 2 destroys the loop of thread 1, which still points to it. -/
theorem foreign_destruction_dangles : ¬ OneLoopPerThread := by
  intro always
  have first : loopLives.Step noLoops (.construct 1 100) (after [.construct 1 100]) := ⟨rfl, rfl⟩
  have second : loopLives.Step (after [.construct 1 100]) (.destroy 2 100)
      (after [.construct 1 100, .destroy 2 100]) := ⟨nofun, rfl⟩
  have one := always _ ⟨noLoops, _, ⟨fun _ => rfl, fun _ => rfl⟩, .cons first (.cons second .nil)⟩
  have dead : (after [.construct 1 100, .destroy 2 100]).threadId = fun _ => none := by
    funext loop
    show Function.update (Function.update (fun _ => none) 100 (some 1)) 100 none loop = none
    by_cases same : loop = 100 <;> simp [same]
  have dangling : (some 100 : Option LoopPtr) = none :=
    one.null 1 fun loop alive => by simp [dead] at alive
  cases dangling

end MiniMuduo.LoopPerThread
