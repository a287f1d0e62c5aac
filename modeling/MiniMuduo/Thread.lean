import Mathlib.Logic.Function.Basic
import MiniMuduo.EventLoop
import MiniMuduo.Library.StepSystem

/-! `Thread.cc`: a `Thread`, what its owner calls on it, and the threads that `start()`
creates. Every access that one side makes where the other can see it is a step of its own:
the members, the semaphore in the frame of `start()`, and `func_`, which the new thread calls
where it lies. -/
namespace MiniMuduo

/-- A thread that `start()` creates, in the lambda that it runs. -/
inductive BodyPc where
  | absent
  /-- In front of `tid_ = CurrentThread::tid()`. -/
  | created
  /-- In front of `sem_post(&sem)`. -/
  | numbered
  /-- In front of `func_()`. -/
  | posted
  /-- In `func_()`. -/
  | running
  | ended
  deriving DecidableEq, Repr

/-- The owner. -/
inductive OwnerPc where
  /-- In none of the calls. -/
  | outside
  /-- In `start()`, in front of `new std::thread`. -/
  | creating
  /-- In front of the assignment of `thread_`. -/
  | assigning
  /-- At `sem_wait(&sem)`. -/
  | waiting
  /-- In `join()`, at `thread_->join()`. -/
  | joining
  deriving DecidableEq, Repr

inductive ThreadCall where
  | start
  | join
  /-- `~Thread()`. -/
  | destroy
  deriving DecidableEq, Repr

/-- What ends a program, or leaves it without meaning. -/
inductive ThreadFault where
  /-- `thread_->` where `thread_` is null. -/
  | nullThread
  /-- `std::terminate`: a `std::thread` that is joinable is destroyed, or one that is not is
  detached by a destructor. -/
  | terminate
  /-- A thread uses the object after its end. -/
  | destroyed
  /-- A thread uses the semaphore after the end of `start()`. -/
  | frameGone
  deriving DecidableEq, Repr

structure Thread where
  started : Bool := false
  joined : Bool := false
  /-- Which of the threads that were created `thread_` stands for. -/
  thread : Option Nat := none
  /-- `thread_->joinable()`. -/
  joinable : Bool := false
  tid : Tid := 0
  alive : Bool := true
  owner : OwnerPc := .outside
  /-- The count of the semaphore, while `start()` has one. -/
  sem : Option Nat := none
  /-- How many threads there have been. -/
  created : Nat := 0
  body : Nat → BodyPc := fun _ => .absent

inductive ThreadEvent where
  | call (call : ThreadCall)
  /-- The owner goes on; `created` says whether a `std::thread` that it makes comes about. -/
  | owner (created : Bool)
  /-- A thread goes on. -/
  | body (k : Nat)
  /-- It uses what `func_` holds, in `func_()`. -/
  | useFunc (k : Nat)
  deriving DecidableEq, Repr

/-- The owner begins a call. -/
def ThreadEvent.isCall : ThreadEvent → Bool
  | .call _ => true
  | _ => false

namespace Thread

def setBody (s : Thread) (k : Nat) (pc : BodyPc) : Thread :=
  { s with body := Function.update s.body k pc }

/-- `~Thread()`, with the end of `thread_`. The threads see no step between the detachment and
the end of the members. -/
def destroy (s : Thread) : Except ThreadFault Thread :=
  if s.started && !s.joined then
    match s.thread with
    | none => .error .nullThread
    | some _ =>
      if s.joinable then .ok { s with joinable := false, alive := false }
      else .error .terminate
  else if s.joinable then .error .terminate
  else .ok { s with alive := false }

def beginCall (s : Thread) : ThreadCall → Except ThreadFault Thread
  | .start => .ok { s with started := true, sem := some 0, owner := .creating }
  | .join => .ok { s with joined := true, owner := .joining }
  | .destroy => s.destroy

/-- The owner's next step in `start()` or `join()`. A `std::thread` that cannot be created and
one that is not joinable throw `std::system_error`, which leaves the call. -/
def ownerStep (s : Thread) (created : Bool) : Option (Except ThreadFault Thread) :=
  match s.owner with
  | .outside => none
  | .creating =>
    if created then
      some (.ok
        ({ s with created := s.created + 1, owner := .assigning }.setBody s.created .created))
    else some (.ok { s with sem := none, owner := .outside })
  | .assigning =>
    if s.joinable then some (.error .terminate)
    else some (.ok { s with thread := some (s.created - 1), joinable := true, owner := .waiting })
  | .waiting =>
    match s.sem with
    | some (_ + 1) => some (.ok { s with sem := none, owner := .outside })
    | _ => none
  | .joining =>
    match s.thread with
    | none => some (.error .nullThread)
    | some k =>
      if s.joinable then
        if s.body k = .ended then some (.ok { s with joinable := false, owner := .outside })
        else none
      else some (.ok { s with owner := .outside })

/-- The next step of a thread, to which the kernel has given `ids k`. -/
def bodyStep (ids : Nat → Tid) (s : Thread) (k : Nat) : Option (Except ThreadFault Thread) :=
  match s.body k with
  | .absent | .ended => none
  | .created =>
    if s.alive then some (.ok ({ s with tid := ids k }.setBody k .numbered))
    else some (.error .destroyed)
  | .numbered =>
    match s.sem with
    | none => some (.error .frameGone)
    | some count => some (.ok ({ s with sem := some (count + 1) }.setBody k .posted))
  | .posted =>
    if s.alive then some (.ok (s.setBody k .running)) else some (.error .destroyed)
  | .running => some (.ok (s.setBody k .ended))

/-- One atomic step. -/
def step (ids : Nat → Tid) (s : Thread) : ThreadEvent → Option (Except ThreadFault Thread)
  | .call call => if s.owner = .outside ∧ s.alive = true then some (s.beginCall call) else none
  | .owner created => s.ownerStep created
  | .body k => s.bodyStep ids k
  | .useFunc k =>
    if s.body k = .running then
      if s.alive then some (.ok s) else some (.error .destroyed)
    else none

/-- A `Thread` from its constructor on, as far as nothing has gone wrong. -/
def system (ids : Nat → Tid) : StepSystem Thread ThreadEvent where
  Start s := s = {}
  Step s action next := s.step ids action = some (.ok next)

/-- Everything a step can be that goes well: what it needs and what it leaves. -/
inductive Move (ids : Nat → Tid) : Thread → ThreadEvent → Thread → Prop where
  | start {s : Thread} : s.owner = .outside → s.alive = true →
      Move ids s (.call .start) { s with started := true, sem := some 0, owner := .creating }
  | join {s : Thread} : s.owner = .outside → s.alive = true →
      Move ids s (.call .join) { s with joined := true, owner := .joining }
  | detach {s : Thread} {k : Nat} : s.owner = .outside → s.alive = true → s.started = true →
      s.joined = false → s.thread = some k → s.joinable = true →
      Move ids s (.call .destroy) { s with joinable := false, alive := false }
  | destroy {s : Thread} : s.owner = .outside → s.alive = true →
      (s.started = true → s.joined = true) → s.joinable = false →
      Move ids s (.call .destroy) { s with alive := false }
  | create {s : Thread} : s.owner = .creating →
      Move ids s (.owner true)
        ({ s with created := s.created + 1, owner := .assigning }.setBody s.created .created)
  | createThrows {s : Thread} : s.owner = .creating →
      Move ids s (.owner false) { s with sem := none, owner := .outside }
  | assign {s : Thread} {created : Bool} : s.owner = .assigning → s.joinable = false →
      Move ids s (.owner created)
        { s with thread := some (s.created - 1), joinable := true, owner := .waiting }
  | semWait {s : Thread} {created : Bool} {count : Nat} : s.owner = .waiting →
      s.sem = some (count + 1) →
      Move ids s (.owner created) { s with sem := none, owner := .outside }
  | joinReturns {s : Thread} {created : Bool} {k : Nat} : s.owner = .joining →
      s.thread = some k → s.joinable = true → s.body k = .ended →
      Move ids s (.owner created) { s with joinable := false, owner := .outside }
  | joinThrows {s : Thread} {created : Bool} {k : Nat} : s.owner = .joining →
      s.thread = some k → s.joinable = false →
      Move ids s (.owner created) { s with owner := .outside }
  | number {s : Thread} {k : Nat} : s.body k = .created → s.alive = true →
      Move ids s (.body k) ({ s with tid := ids k }.setBody k .numbered)
  | semPost {s : Thread} {k count : Nat} : s.body k = .numbered → s.sem = some count →
      Move ids s (.body k) ({ s with sem := some (count + 1) }.setBody k .posted)
  | enter {s : Thread} {k : Nat} : s.body k = .posted → s.alive = true →
      Move ids s (.body k) (s.setBody k .running)
  | useFunc {s : Thread} {k : Nat} : s.body k = .running → s.alive = true →
      Move ids s (.useFunc k) s
  | leave {s : Thread} {k : Nat} : s.body k = .running →
      Move ids s (.body k) (s.setBody k .ended)

variable {ids : Nat → Tid} {s next : Thread} {action : ThreadEvent}

theorem destroy_move (outside : s.owner = .outside) (alive : s.alive = true)
    (destroyed : s.destroy = .ok next) : Move ids s (.call .destroy) next := by
  unfold destroy at destroyed
  split at destroyed
  · rename_i detaches
    obtain ⟨started, joined⟩ : s.started = true ∧ s.joined = false := by simpa using detaches
    split at destroyed
    · cases destroyed
    · split at destroyed
      · cases destroyed
        exact .detach outside alive started joined ‹_› ‹_›
      · cases destroyed
  · rename_i stays
    split at destroyed
    · cases destroyed
    · cases destroyed
      exact .destroy outside alive (by simpa using stays) (Bool.eq_false_iff.mpr ‹_›)

theorem ownerStep_move {created : Bool} (stepped : s.ownerStep created = some (.ok next)) :
    Move ids s (.owner created) next := by
  unfold ownerStep at stepped
  split at stepped
  · cases stepped
  · cases created with
    | true =>
      cases stepped
      exact .create ‹_›
    | false =>
      cases stepped
      exact .createThrows ‹_›
  · split at stepped
    · cases stepped
    · cases stepped
      exact .assign ‹_› (Bool.eq_false_iff.mpr ‹_›)
  · split at stepped
    · cases stepped
      exact .semWait ‹_› ‹_›
    · cases stepped
  · split at stepped
    · cases stepped
    · split at stepped
      · split at stepped
        · cases stepped
          exact .joinReturns ‹_› ‹_› ‹_› ‹_›
        · cases stepped
      · cases stepped
        exact .joinThrows ‹_› ‹_› (Bool.eq_false_iff.mpr ‹_›)

theorem bodyStep_move {k : Nat} (stepped : s.bodyStep ids k = some (.ok next)) :
    Move ids s (.body k) next := by
  unfold bodyStep at stepped
  split at stepped
  · cases stepped
  · cases stepped
  · split at stepped
    · cases stepped
      exact .number ‹_› ‹_›
    · cases stepped
  · split at stepped
    · cases stepped
    · cases stepped
      exact .semPost ‹_› ‹_›
  · split at stepped
    · cases stepped
      exact .enter ‹_› ‹_›
    · cases stepped
  · cases stepped
    exact .leave ‹_›

theorem step_move (stepped : (system ids).Step s action next) :
    Move ids s action next := by
  cases action with
  | call call =>
    obtain ⟨⟨outside, alive⟩, begun⟩ := Option.ite_none_right_eq_some.mp stepped
    cases call with
    | start =>
      cases begun
      exact .start outside alive
    | join =>
      cases begun
      exact .join outside alive
    | destroy => exact destroy_move outside alive (Option.some.inj begun)
  | owner created => exact ownerStep_move stepped
  | body k => exact bodyStep_move stepped
  | useFunc k =>
    obtain ⟨running, used⟩ := Option.ite_none_right_eq_some.mp stepped
    split at used
    · cases used
      exact .useFunc running ‹_›
    · cases used

@[simp, grind =] theorem setBody_body (k j : Nat) (pc : BodyPc) :
    (s.setBody k pc).body j = if j = k then pc else s.body j :=
  Function.update_apply ..

section
variable (k : Nat) (pc : BodyPc)

@[simp, grind =] theorem setBody_owner : (s.setBody k pc).owner = s.owner := rfl

@[simp, grind =] theorem setBody_thread : (s.setBody k pc).thread = s.thread := rfl

@[simp, grind =] theorem setBody_joinable : (s.setBody k pc).joinable = s.joinable := rfl

@[simp, grind =] theorem setBody_created : (s.setBody k pc).created = s.created := rfl

@[simp, grind =] theorem setBody_alive : (s.setBody k pc).alive = s.alive := rfl

@[simp, grind =] theorem setBody_sem : (s.setBody k pc).sem = s.sem := rfl

@[simp, grind =] theorem setBody_tid : (s.setBody k pc).tid = s.tid := rfl

@[simp, grind =] theorem setBody_started : (s.setBody k pc).started = s.started := rfl

@[simp, grind =] theorem setBody_joined : (s.setBody k pc).joined = s.joined := rfl

end

end Thread
end MiniMuduo
