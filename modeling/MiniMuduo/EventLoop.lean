import MiniMuduo.Library.StepSystem
import Mathlib.Algebra.Group.Nat.Defs
import Mathlib.Logic.Function.Basic

/-! `EventLoop.cc` as its threads execute it. Each read or write of an atomic
member, each section under `mutex_` and each system call on the eventfd is one
step; the steps of the loop thread and of any number of other threads interleave
freely. A functor is opaque: what it does is what the loop thread does while it
runs. -/
namespace MiniMuduo

/-- `pid_t` of a thread. -/
abbrev Tid := Nat

/-- Where a thread stands in a call of `queueInLoop`, `runInLoop` or `quit`. -/
inductive CallPc (Functor : Type) where
  | idle
  /-- In front of `pendingFunctors_.emplace_back(cb)`. -/
  | push (functor : Functor)
  /-- In front of `if(!isInLoopThread() || callingPendingFunctors_)`. -/
  | queueTest
  /-- In front of `quit_ = true`. -/
  | storeQuit
  /-- In front of `if(!isInLoopThread())`. -/
  | quitTest
  /-- In front of the `write` in `wakeup()`. -/
  | wakeup
  deriving DecidableEq, Repr

/-- Where the loop thread stands in `loop()`. -/
inductive LoopPc (Functor : Type) where
  /-- Not inside: `loop()` was not called yet, or has returned. -/
  | outside
  | setLooping
  | resetQuit
  | whileTest
  | epollWait
  /-- Calling `handleEvent` on the active channels. -/
  | dispatch
  | setCalling
  | swap
  /-- At the head of the loop over `functors`, with these still to call. -/
  | functors (rest : List Functor)
  | inFunctor (rest : List Functor)
  | clearLooping
  deriving DecidableEq, Repr

/-- The shared members of the loop, the kernel's counter behind `wakeupFd_`, what
was logged at ERROR level, and where every thread stands. The last two fields only
record history: all functors pushed, and all called from the queue. -/
structure EventLoop (Functor : Type) where
  looping : Bool := false
  quit : Bool := false
  callingPendingFunctors : Bool := false
  pendingFunctors : List Functor := []
  counter : Nat := 0
  errors : List String := []
  pc : LoopPc Functor := .outside
  calls : Tid → CallPc Functor := fun _ => .idle
  pushed : List Functor := []
  executed : List Functor := []

/-- A call that a thread may begin. -/
inductive Request (Functor : Type) where
  | queueInLoop (functor : Functor)
  | runInLoop (functor : Functor)
  | quit
  deriving DecidableEq, Repr

/-- Who moves: a thread begins a call or takes the next step of one, the loop
thread enters `loop()` or takes its next step in it, or the wake-up channel's read
callback runs. -/
inductive LoopAction (Functor : Type) where
  | call (thread : Tid) (request : Request Functor)
  | advance (thread : Tid)
  | enterLoop
  | loop
  | handleRead
  deriving DecidableEq, Repr

variable {Functor : Type}

/-- The loop thread runs code that is not the loop's own: channel callbacks,
functors, or whatever is around `loop()`. -/
def LoopPc.runsUserCode : LoopPc Functor → Bool
  | .outside | .dispatch | .inFunctor _ => true
  | _ => false

def CallPc.isIdle : CallPc Functor → Bool
  | .idle => true
  | _ => false

/-- The largest value of an eventfd's counter; a write beyond it fails. -/
def eventfdMax : Nat := 2 ^ 64 - 2

namespace EventLoop

def setCall (s : EventLoop Functor) (t : Tid) (pc : CallPc Functor) : EventLoop Functor :=
  { s with calls := Function.update s.calls t pc }

@[simp] theorem setCall_same (s : EventLoop Functor) (t : Tid) (pc : CallPc Functor) :
    (s.setCall t pc).calls t = pc := by
  simp [setCall]

theorem setCall_other {s : EventLoop Functor} {t u : Tid} {pc : CallPc Functor}
    (different : t ≠ u) : (s.setCall t pc).calls u = s.calls u := by
  simp [setCall, Ne.symm different]

/-- `EventLoop::wakeup`; a failed write returns -1, which is printed as `%lu`. -/
def wakeup (s : EventLoop Functor) : EventLoop Functor :=
  if s.counter < eventfdMax then { s with counter := s.counter + 1 }
  else { s with errors := s.errors ++
    ["EventLoop::wakeup() writes 18446744073709551615 bytes instead of 8 \n"] }

/-- `EventLoop::handleRead`: a read resets the counter, and fails at 0. -/
def handleRead (s : EventLoop Functor) : EventLoop Functor :=
  if s.counter = 0 then { s with errors := s.errors ++
    ["EventLoop::handleRead() reads -1 bytes instead of 8"] }
  else { s with counter := 0 }

/-- After a `wakeup()` the counter is positive, whether or not the write failed. -/
theorem wakeup_eq (s : EventLoop Functor) :
    ∃ counter errors, 0 < counter ∧ s.wakeup = { s with counter := counter, errors := errors } := by
  unfold wakeup
  split
  · exact ⟨s.counter + 1, s.errors, Nat.succ_pos _, rfl⟩
  · rename_i full
    exact ⟨s.counter, _, Nat.lt_of_lt_of_le (by decide) (Nat.le_of_not_lt full), rfl⟩

/-- After `handleRead` the counter is 0, whether or not the read failed. -/
theorem handleRead_eq (s : EventLoop Functor) :
    ∃ errors, s.handleRead = { s with counter := 0, errors := errors } := by
  unfold handleRead
  split
  · rename_i zero
    exact ⟨_, by rw [← zero]⟩
  · exact ⟨s.errors, rfl⟩

/-- A call begins. On the loop thread `runInLoop` calls the functor at once. -/
def beginCall (owner : Tid) (s : EventLoop Functor) (t : Tid) :
    Request Functor → EventLoop Functor
  | .queueInLoop functor => s.setCall t (.push functor)
  | .runInLoop functor => if t = owner then s else s.setCall t (.push functor)
  | .quit => s.setCall t .storeQuit

theorem beginCall_eq (owner : Tid) (s : EventLoop Functor) (t : Tid) (request : Request Functor) :
    ∃ calls, s.beginCall owner t request = { s with calls := calls } := by
  cases request with
  | queueInLoop functor => exact ⟨_, rfl⟩
  | runInLoop functor =>
    simp only [beginCall]
    split
    · exact ⟨s.calls, rfl⟩
    · exact ⟨_, rfl⟩
  | quit => exact ⟨_, rfl⟩

theorem beginCall_other (owner : Tid) (s : EventLoop Functor) {t u : Tid} (different : t ≠ u)
    (request : Request Functor) : (s.beginCall owner t request).calls u = s.calls u := by
  cases request with
  | queueInLoop functor => exact setCall_other different
  | runInLoop functor =>
    simp only [beginCall]
    split
    · rfl
    · exact setCall_other different
  | quit => exact setCall_other different

/-- The next step of the call thread `t` is in. -/
def advance (owner : Tid) (s : EventLoop Functor) (t : Tid) : Option (EventLoop Functor) :=
  match s.calls t with
  | .idle => none
  | .push functor => some ({ s with
      pendingFunctors := s.pendingFunctors ++ [functor]
      pushed := s.pushed ++ [functor] }.setCall t .queueTest)
  | .queueTest =>
    some (s.setCall t (if t ≠ owner ∨ s.callingPendingFunctors = true then .wakeup else .idle))
  | .storeQuit => some ({ s with quit := true }.setCall t .quitTest)
  | .quitTest => some (s.setCall t (if t ≠ owner then .wakeup else .idle))
  | .wakeup => some (s.wakeup.setCall t .idle)

/-- The next step of `loop()` and of the `doPendingFunctors()` inside it.
`epoll_wait` may return at any time, with events, on a timeout or interrupted. -/
def loopStep (s : EventLoop Functor) : Option (EventLoop Functor) :=
  match s.pc with
  | .outside => none
  | .setLooping => some { s with looping := true, pc := .resetQuit }
  | .resetQuit => some { s with quit := false, pc := .whileTest }
  | .whileTest => some { s with pc := if s.quit then .clearLooping else .epollWait }
  | .epollWait => some { s with pc := .dispatch }
  | .dispatch => some { s with pc := .setCalling }
  | .setCalling => some { s with callingPendingFunctors := true, pc := .swap }
  | .swap => some { s with pendingFunctors := [], pc := .functors s.pendingFunctors }
  | .functors (functor :: rest) =>
    some { s with executed := s.executed ++ [functor], pc := .inFunctor rest }
  | .inFunctor rest => some { s with pc := .functors rest }
  | .functors [] => some { s with callingPendingFunctors := false, pc := .whileTest }
  | .clearLooping => some { s with looping := false, pc := .outside }

/-- One atomic step, if it is that thread's turn: a thread makes one call at a
time, and the loop thread makes calls only from code that is not the loop's. -/
def step (owner : Tid) (s : EventLoop Functor) : LoopAction Functor → Option (EventLoop Functor)
  | .call t request =>
    if (s.calls t).isIdle && (t != owner || s.pc.runsUserCode) then
      some (s.beginCall owner t request)
    else none
  | .advance t => s.advance owner t
  | .enterLoop =>
    match s.pc with
    | .outside => if (s.calls owner).isIdle then some { s with pc := .setLooping } else none
    | _ => none
  | .loop => if (s.calls owner).isIdle then s.loopStep else none
  | .handleRead =>
    match s.pc with
    | .dispatch => if (s.calls owner).isIdle then some s.handleRead else none
    | _ => none

/-- The functors of the current batch that are still to be called. -/
def batch (s : EventLoop Functor) : List Functor :=
  match s.pc with
  | .functors rest | .inFunctor rest => rest
  | _ => []

/-- Everything a step can be, with what it needs and what it leaves. -/
inductive Transition (owner : Tid) :
    EventLoop Functor → LoopAction Functor → EventLoop Functor → Prop where
  | call {s : EventLoop Functor} {t : Tid} (request : Request Functor) :
      s.calls t = .idle → (t = owner → s.pc.runsUserCode = true) →
      Transition owner s (.call t request) (s.beginCall owner t request)
  | push {s : EventLoop Functor} {t : Tid} {functor : Functor} :
      s.calls t = .push functor → Transition owner s (.advance t) ({ s with
        pendingFunctors := s.pendingFunctors ++ [functor]
        pushed := s.pushed ++ [functor] }.setCall t .queueTest)
  | queueTestWakes {s : EventLoop Functor} {t : Tid} :
      s.calls t = .queueTest → t ≠ owner ∨ s.callingPendingFunctors = true →
      Transition owner s (.advance t) (s.setCall t .wakeup)
  | queueTestSkips {s : EventLoop Functor} :
      s.calls owner = .queueTest → s.callingPendingFunctors = false →
      Transition owner s (.advance owner) (s.setCall owner .idle)
  | storeQuit {s : EventLoop Functor} {t : Tid} :
      s.calls t = .storeQuit →
      Transition owner s (.advance t) ({ s with quit := true }.setCall t .quitTest)
  | quitTestWakes {s : EventLoop Functor} {t : Tid} :
      s.calls t = .quitTest → t ≠ owner →
      Transition owner s (.advance t) (s.setCall t .wakeup)
  | quitTestSkips {s : EventLoop Functor} :
      s.calls owner = .quitTest → Transition owner s (.advance owner) (s.setCall owner .idle)
  | wakeup {s : EventLoop Functor} {t : Tid} :
      s.calls t = .wakeup → Transition owner s (.advance t) (s.wakeup.setCall t .idle)
  | enterLoop {s : EventLoop Functor} :
      s.calls owner = .idle → s.pc = .outside →
      Transition owner s .enterLoop { s with pc := .setLooping }
  | setLooping {s : EventLoop Functor} :
      s.calls owner = .idle → s.pc = .setLooping →
      Transition owner s .loop { s with looping := true, pc := .resetQuit }
  | resetQuit {s : EventLoop Functor} :
      s.calls owner = .idle → s.pc = .resetQuit →
      Transition owner s .loop { s with quit := false, pc := .whileTest }
  | stop {s : EventLoop Functor} :
      s.calls owner = .idle → s.pc = .whileTest → s.quit = true →
      Transition owner s .loop { s with pc := .clearLooping }
  | poll {s : EventLoop Functor} :
      s.calls owner = .idle → s.pc = .whileTest → s.quit = false →
      Transition owner s .loop { s with pc := .epollWait }
  | pollReturns {s : EventLoop Functor} :
      s.calls owner = .idle → s.pc = .epollWait →
      Transition owner s .loop { s with pc := .dispatch }
  | dispatched {s : EventLoop Functor} :
      s.calls owner = .idle → s.pc = .dispatch →
      Transition owner s .loop { s with pc := .setCalling }
  | setCalling {s : EventLoop Functor} :
      s.calls owner = .idle → s.pc = .setCalling →
      Transition owner s .loop { s with callingPendingFunctors := true, pc := .swap }
  | swap {s : EventLoop Functor} :
      s.calls owner = .idle → s.pc = .swap →
      Transition owner s .loop { s with pendingFunctors := [], pc := .functors s.pendingFunctors }
  | callFunctor {s : EventLoop Functor} {functor : Functor} {rest : List Functor} :
      s.calls owner = .idle → s.pc = .functors (functor :: rest) →
      Transition owner s .loop { s with executed := s.executed ++ [functor], pc := .inFunctor rest }
  | functorReturns {s : EventLoop Functor} {rest : List Functor} :
      s.calls owner = .idle → s.pc = .inFunctor rest →
      Transition owner s .loop { s with pc := .functors rest }
  | clearCalling {s : EventLoop Functor} :
      s.calls owner = .idle → s.pc = .functors [] →
      Transition owner s .loop { s with callingPendingFunctors := false, pc := .whileTest }
  | clearLooping {s : EventLoop Functor} :
      s.calls owner = .idle → s.pc = .clearLooping →
      Transition owner s .loop { s with looping := false, pc := .outside }
  | handleRead {s : EventLoop Functor} :
      s.calls owner = .idle → s.pc = .dispatch →
      Transition owner s .handleRead s.handleRead

variable {owner : Tid} {s next : EventLoop Functor} {action : LoopAction Functor} {t : Tid}

theorem idle_of_isIdle {pc : CallPc Functor} (idle : pc.isIdle = true) : pc = .idle := by
  cases pc <;> first | rfl | cases idle

private theorem advance_transition (stepped : s.advance owner t = some next) :
    Transition owner s (.advance t) next := by
  unfold advance at stepped
  cases pc : s.calls t with
  | idle => simp [pc] at stepped
  | push functor =>
    simp only [pc, Option.some.injEq] at stepped
    exact stepped ▸ .push pc
  | queueTest =>
    simp only [pc, Option.some.injEq] at stepped
    subst stepped
    by_cases wakes : t ≠ owner ∨ s.callingPendingFunctors = true
    · rw [if_pos wakes]
      exact .queueTestWakes pc wakes
    · rw [if_neg wakes]
      obtain ⟨here, calm⟩ := not_or.mp wakes
      obtain rfl := not_not.mp here
      exact .queueTestSkips pc (Bool.not_eq_true _ ▸ calm)
  | storeQuit =>
    simp only [pc, Option.some.injEq] at stepped
    exact stepped ▸ .storeQuit pc
  | quitTest =>
    simp only [pc, Option.some.injEq] at stepped
    subst stepped
    by_cases wakes : t ≠ owner
    · rw [if_pos wakes]
      exact .quitTestWakes pc wakes
    · rw [if_neg wakes]
      obtain rfl := not_not.mp wakes
      exact .quitTestSkips pc
  | wakeup =>
    simp only [pc, Option.some.injEq] at stepped
    exact stepped ▸ .wakeup pc

private theorem loopStep_transition (idle : s.calls owner = .idle)
    (stepped : s.loopStep = some next) : Transition owner s .loop next := by
  unfold loopStep at stepped
  cases pc : s.pc with
  | outside => simp [pc] at stepped
  | setLooping =>
    simp only [pc, Option.some.injEq] at stepped
    exact stepped ▸ .setLooping idle pc
  | resetQuit =>
    simp only [pc, Option.some.injEq] at stepped
    exact stepped ▸ .resetQuit idle pc
  | whileTest =>
    simp only [pc, Option.some.injEq] at stepped
    subst stepped
    by_cases quit : s.quit = true
    · rw [if_pos quit]
      exact .stop idle pc quit
    · rw [if_neg quit]
      exact .poll idle pc (Bool.not_eq_true _ ▸ quit)
  | epollWait =>
    simp only [pc, Option.some.injEq] at stepped
    exact stepped ▸ .pollReturns idle pc
  | dispatch =>
    simp only [pc, Option.some.injEq] at stepped
    exact stepped ▸ .dispatched idle pc
  | setCalling =>
    simp only [pc, Option.some.injEq] at stepped
    exact stepped ▸ .setCalling idle pc
  | swap =>
    simp only [pc, Option.some.injEq] at stepped
    exact stepped ▸ .swap idle pc
  | functors batch =>
    cases batch with
    | nil =>
      simp only [pc, Option.some.injEq] at stepped
      exact stepped ▸ .clearCalling idle pc
    | cons functor rest =>
      simp only [pc, Option.some.injEq] at stepped
      exact stepped ▸ .callFunctor idle pc
  | inFunctor rest =>
    simp only [pc, Option.some.injEq] at stepped
    exact stepped ▸ .functorReturns idle pc
  | clearLooping =>
    simp only [pc, Option.some.injEq] at stepped
    exact stepped ▸ .clearLooping idle pc

/-- A step is one of the transitions. -/
theorem step_transition (stepped : s.step owner action = some next) :
    Transition owner s action next := by
  cases action with
  | call t request =>
    simp only [step] at stepped
    split at stepped
    · rename_i may
      obtain rfl := Option.some.inj stepped
      obtain ⟨idle, user⟩ := Bool.and_eq_true _ _ ▸ may
      refine .call request (idle_of_isIdle idle) fun here => ?_
      simpa [here] using user
    · cases stepped
  | advance t => exact advance_transition stepped
  | enterLoop =>
    simp only [step] at stepped
    split at stepped
    · rename_i pc
      split at stepped
      · rename_i idle
        obtain rfl := Option.some.inj stepped
        exact .enterLoop (idle_of_isIdle idle) pc
      · cases stepped
    · cases stepped
  | loop =>
    simp only [step] at stepped
    split at stepped
    · rename_i idle
      exact loopStep_transition (idle_of_isIdle idle) stepped
    · cases stepped
  | handleRead =>
    simp only [step] at stepped
    split at stepped
    · rename_i pc
      split at stepped
      · rename_i idle
        obtain rfl := Option.some.inj stepped
        exact .handleRead (idle_of_isIdle idle) pc
      · cases stepped
    · cases stepped

/-- A thread's call goes on only by its own steps. -/
theorem calls_kept (transition : Transition owner s action next)
    (silent : ∀ request, action ≠ .call t request) (still : action ≠ .advance t) :
    next.calls t = s.calls t := by
  have apart {u : Tid} (advances : (.advance u : LoopAction Functor) ≠ .advance t) : u ≠ t := by
    rintro rfl
    exact advances rfl
  cases transition with
  | @call u request _ _ =>
    have different : u ≠ t := by
      rintro rfl
      exact silent request rfl
    exact beginCall_other owner s different request
  | push | queueTestWakes | queueTestSkips | storeQuit | quitTestWakes | quitTestSkips =>
    exact setCall_other (apart still)
  | wakeup =>
    obtain ⟨counter, errors, _, written⟩ := wakeup_eq s
    rw [setCall_other (apart still), written]
  | handleRead =>
    obtain ⟨errors, drained⟩ := handleRead_eq s
    rw [drained]
  | _ => rfl

end EventLoop

/-- A loop owned by one thread and used by all, from its constructor on. -/
def loopSystem (Functor : Type) (owner : Tid) :
    StepSystem (EventLoop Functor) (LoopAction Functor) where
  Start s := s = {}
  Step s action t := s.step owner action = some t

end MiniMuduo
