import MiniMuduo.EventLoop

/-! `EventLoopThread.cc` again, with `Thread::join` and `Thread::~Thread`, one access of
a shared variable at a time: every lock and unlock of `mutex_`, every read and write of
`loop_`, the wait on `cond_` and the end of each object is a step of its own. Any thread
may call into the loop while that is alive. -/
namespace MiniMuduo

/-- The thread that uses the `EventLoopThread`, in `startLoop()` and the destructor. -/
inductive UserPc where
  /-- In front of `thread_.start()`. -/
  | fresh
  /-- In front of `std::unique_lock<std::mutex> lock(mutex_)`. -/
  | locking
  /-- At `while( loop_ == nullptr )`. -/
  | testing
  /-- In `cond_.wait(lock)`, the mutex released. -/
  | asleep
  /-- Woken, and about to take the mutex again. -/
  | relocking
  /-- In front of `loop = loop_`. -/
  | assigning
  | unlocking
  /-- `startLoop()` has returned. -/
  | returned
  /-- At the destructor's `if ( loop_ != nullptr)`. -/
  | destroying
  /-- In front of `loop_->quit()`. -/
  | callQuit
  | quitting
  /-- In `thread_.join()`. -/
  | joining
  /-- The body of the destructor is done, the members' destructors are not. -/
  | members
  | destroyed
  deriving DecidableEq, Repr

/-- The thread that runs `threadFunc`. -/
inductive FuncPc where
  | notStarted
  /-- In front of `EventLoop loop`. -/
  | constructing
  /-- In `callback_(&loop)`, if it is set. -/
  | callback
  | lockingPublish
  /-- In front of `loop_ = &loop`. -/
  | publishing
  /-- In front of `cond_.notify_one()`. -/
  | notifying
  | unlockingPublish
  /-- In front of `loop.loop()`. -/
  | entering
  | looping
  | lockingClear
  /-- In front of `loop_ = nullptr`. -/
  | clearing
  | unlockingClear
  /-- In front of the destructor of `loop`. -/
  | destroyingLoop
  | returned
  deriving DecidableEq, Repr

/-- Who can hold `mutex_`. -/
inductive Party where
  | user
  | func
  deriving DecidableEq, Repr

/-- An `EventLoopThread` and what its two threads share. `published` says that `loop_`
is not null, `result` that the pointer is not null which `startLoop()` returns. -/
structure Handshake (Functor : Type) where
  user : UserPc := .fresh
  func : FuncPc := .notStarted
  holder : Option Party := none
  published : Bool := false
  result : Bool := false
  exiting : Bool := false
  started : Bool := false
  joined : Bool := false
  detached : Bool := false
  loop : EventLoop Functor := {}

/-- Who moves. -/
inductive HandshakeAction (Functor : Type) where
  /-- The user's thread takes its next step. -/
  | user
  /-- The thread of `threadFunc` takes its next step outside of `loop()`. -/
  | func
  /-- A spurious wake-up. -/
  | wake
  /-- The user's thread begins the destructor. -/
  | destroy
  /-- A step of the loop, by whoever calls it or runs in it. -/
  | inLoop (action : LoopAction Functor)
  deriving DecidableEq, Repr

/-- The pc is inside a section that locks `mutex_`. -/
def UserPc.holds : UserPc → Bool
  | .testing | .assigning | .unlocking => true
  | _ => false

def FuncPc.holds : FuncPc → Bool
  | .publishing | .notifying | .unlockingPublish | .clearing | .unlockingClear => true
  | _ => false

/-- The loop is constructed and not destroyed yet. -/
def FuncPc.loopAlive : FuncPc → Bool
  | .notStarted | .constructing | .returned => false
  | _ => true

namespace Handshake

variable {Functor : Type}

/-- The next step of the user's thread. `start()` returns when the new thread runs; the
steps of the destructor's `quit()` are steps of the loop. -/
def userStep (owner user : Tid) (s : Handshake Functor) : Option (Handshake Functor) :=
  match s.user with
  | .fresh => some { s with user := .locking, func := .constructing, started := true }
  | .locking | .relocking =>
    if s.holder = none then some { s with user := .testing, holder := some .user } else none
  | .testing =>
    if s.published then some { s with user := .assigning }
    else some { s with user := .asleep, holder := none }
  | .asleep => none
  | .assigning => some { s with user := .unlocking, result := s.published }
  | .unlocking => some { s with user := .returned, holder := none }
  | .returned => none
  | .destroying => some { s with user := if s.published then .callQuit else .members }
  | .callQuit => (s.loop.step owner (.call user .quit)).map fun loop =>
    { s with user := .quitting, loop := loop }
  | .quitting => if (s.loop.calls user).isIdle then some { s with user := .joining } else none
  | .joining =>
    if s.func = .returned then some { s with user := .members, joined := true } else none
  | .members => some { s with user := .destroyed, detached := s.started && !s.joined }
  | .destroyed => none

/-- The next step of `threadFunc` outside of `loop()`. -/
def funcStep (owner : Tid) (s : Handshake Functor) : Option (Handshake Functor) :=
  match s.func with
  | .notStarted => none
  | .constructing => some { s with func := .callback }
  | .callback =>
    if (s.loop.calls owner).isIdle then some { s with func := .lockingPublish } else none
  | .lockingPublish =>
    if s.holder = none then some { s with func := .publishing, holder := some .func } else none
  | .publishing => some { s with func := .notifying, published := true }
  | .notifying => some { s with
      func := .unlockingPublish
      user := if s.user = .asleep then .relocking else s.user }
  | .unlockingPublish => some { s with func := .entering, holder := none }
  | .entering => none
  | .looping =>
    match s.loop.pc with
    | .outside =>
      if (s.loop.calls owner).isIdle then some { s with func := .lockingClear } else none
    | _ => none
  | .lockingClear =>
    if s.holder = none then some { s with func := .clearing, holder := some .func } else none
  | .clearing => some { s with func := .unlockingClear, published := false }
  | .unlockingClear => some { s with func := .destroyingLoop, holder := none }
  | .destroyingLoop => some { s with func := .returned }
  | .returned => none

/-- Whose turn a step of the loop can be: the loop's own thread calls in from the
callback and from `loop()`, the user's thread between `startLoop()` and the destructor,
any other thread as long as there is a loop. -/
def mayStep (owner user : Tid) (s : Handshake Functor) : LoopAction Functor → Bool
  | .call t _ =>
    if t = owner then s.func == .callback || s.func == .looping
    else if t = user then s.user == .returned
    else s.func.loopAlive
  | .advance _ => true
  | .enterLoop => s.func == .entering
  | .loop | .handleRead => s.func == .looping

/-- A step of the loop; its entry moves `threadFunc` too. -/
def inLoop (owner : Tid) (s : Handshake Functor) (action : LoopAction Functor) :
    Option (Handshake Functor) :=
  (s.loop.step owner action).map fun loop =>
    match action with
    | .enterLoop => { s with loop := loop, func := .looping }
    | _ => { s with loop := loop }

/-- One atomic step. -/
def step (owner user : Tid) (s : Handshake Functor) :
    HandshakeAction Functor → Option (Handshake Functor)
  | .user => s.userStep owner user
  | .func => s.funcStep owner
  | .wake => if s.user = .asleep then some { s with user := .relocking } else none
  | .destroy =>
    if s.user = .returned ∧ (s.loop.calls user).isIdle = true then
      some { s with user := .destroying, exiting := true }
    else none
  | .inLoop action => if s.mayStep owner user action then s.inLoop owner action else none

/-- Everything a step can be: what it needs and what it leaves. -/
inductive Move (owner user : Tid) :
    Handshake Functor → HandshakeAction Functor → Handshake Functor → Prop where
  | start {s : Handshake Functor} : s.user = .fresh →
      Move owner user s .user { s with user := .locking, func := .constructing, started := true }
  | lock {s : Handshake Functor} : s.user = .locking ∨ s.user = .relocking → s.holder = none →
      Move owner user s .user { s with user := .testing, holder := some .user }
  | sees {s : Handshake Functor} : s.user = .testing → s.published = true →
      Move owner user s .user { s with user := .assigning }
  | sleeps {s : Handshake Functor} : s.user = .testing → s.published = false →
      Move owner user s .user { s with user := .asleep, holder := none }
  | assign {s : Handshake Functor} : s.user = .assigning →
      Move owner user s .user { s with user := .unlocking, result := s.published }
  | unlock {s : Handshake Functor} : s.user = .unlocking →
      Move owner user s .user { s with user := .returned, holder := none }
  | destroy {s : Handshake Functor} :
      s.user = .returned → (s.loop.calls user).isIdle = true →
      Move owner user s .destroy { s with user := .destroying, exiting := true }
  | quits {s : Handshake Functor} : s.user = .destroying → s.published = true →
      Move owner user s .user { s with user := .callQuit }
  | skipsJoin {s : Handshake Functor} : s.user = .destroying → s.published = false →
      Move owner user s .user { s with user := .members }
  | callQuit {s : Handshake Functor} {loop : EventLoop Functor} :
      s.user = .callQuit → s.loop.step owner (.call user .quit) = some loop →
      Move owner user s .user { s with user := .quitting, loop := loop }
  | quitReturns {s : Handshake Functor} :
      s.user = .quitting → (s.loop.calls user).isIdle = true →
      Move owner user s .user { s with user := .joining }
  | joins {s : Handshake Functor} : s.user = .joining → s.func = .returned →
      Move owner user s .user { s with user := .members, joined := true }
  | destroyMembers {s : Handshake Functor} : s.user = .members →
      Move owner user s .user { s with user := .destroyed, detached := s.started && !s.joined }
  | wake {s : Handshake Functor} : s.user = .asleep →
      Move owner user s .wake { s with user := .relocking }
  | construct {s : Handshake Functor} : s.func = .constructing →
      Move owner user s .func { s with func := .callback }
  | calledBack {s : Handshake Functor} :
      s.func = .callback → (s.loop.calls owner).isIdle = true →
      Move owner user s .func { s with func := .lockingPublish }
  | lockPublish {s : Handshake Functor} : s.func = .lockingPublish → s.holder = none →
      Move owner user s .func { s with func := .publishing, holder := some .func }
  | publish {s : Handshake Functor} : s.func = .publishing →
      Move owner user s .func { s with func := .notifying, published := true }
  | notify {s : Handshake Functor} : s.func = .notifying → s.user = .asleep →
      Move owner user s .func { s with func := .unlockingPublish, user := .relocking }
  | notifyNobody {s : Handshake Functor} : s.func = .notifying → s.user ≠ .asleep →
      Move owner user s .func { s with func := .unlockingPublish }
  | unlockPublish {s : Handshake Functor} : s.func = .unlockingPublish →
      Move owner user s .func { s with func := .entering, holder := none }
  | loopReturns {s : Handshake Functor} :
      s.func = .looping → s.loop.pc = .outside → (s.loop.calls owner).isIdle = true →
      Move owner user s .func { s with func := .lockingClear }
  | lockClear {s : Handshake Functor} : s.func = .lockingClear → s.holder = none →
      Move owner user s .func { s with func := .clearing, holder := some .func }
  | clear {s : Handshake Functor} : s.func = .clearing →
      Move owner user s .func { s with func := .unlockingClear, published := false }
  | unlockClear {s : Handshake Functor} : s.func = .unlockingClear →
      Move owner user s .func { s with func := .destroyingLoop, holder := none }
  | destroyLoop {s : Handshake Functor} : s.func = .destroyingLoop →
      Move owner user s .func { s with func := .returned }
  | enterLoop {s : Handshake Functor} {loop : EventLoop Functor} :
      s.func = .entering → s.loop.step owner .enterLoop = some loop →
      Move owner user s (.inLoop .enterLoop) { s with loop := loop, func := .looping }
  | inLoop {s : Handshake Functor} {action : LoopAction Functor} {loop : EventLoop Functor} :
      action ≠ .enterLoop → s.mayStep owner user action = true →
      s.loop.step owner action = some loop →
      Move owner user s (.inLoop action) { s with loop := loop }

variable {owner user : Tid} {s next : Handshake Functor} {action : HandshakeAction Functor}

private theorem userStep_move (stepped : s.userStep owner user = some next) :
    Move owner user s .user next := by
  unfold userStep at stepped
  cases pc : s.user with
  | fresh =>
    simp only [pc, Option.some.injEq] at stepped
    exact stepped ▸ .start pc
  | locking =>
    simp only [pc, Option.ite_none_right_eq_some] at stepped
    obtain ⟨free, ⟨⟩⟩ := stepped
    exact .lock (Or.inl pc) free
  | relocking =>
    simp only [pc, Option.ite_none_right_eq_some] at stepped
    obtain ⟨free, ⟨⟩⟩ := stepped
    exact .lock (Or.inr pc) free
  | testing =>
    simp only [pc] at stepped
    split at stepped
    · rename_i published
      obtain rfl := Option.some.inj stepped
      exact .sees pc published
    · rename_i unpublished
      obtain rfl := Option.some.inj stepped
      exact .sleeps pc (Bool.not_eq_true _ ▸ unpublished)
  | asleep => simp [pc] at stepped
  | assigning =>
    simp only [pc, Option.some.injEq] at stepped
    exact stepped ▸ .assign pc
  | unlocking =>
    simp only [pc, Option.some.injEq] at stepped
    exact stepped ▸ .unlock pc
  | returned => simp [pc] at stepped
  | destroying =>
    simp only [pc, Option.some.injEq] at stepped
    subst stepped
    by_cases published : s.published = true
    · rw [if_pos published]
      exact .quits pc published
    · rw [if_neg published]
      exact .skipsJoin pc (Bool.not_eq_true _ ▸ published)
  | callQuit =>
    simp only [pc, Option.map_eq_some_iff] at stepped
    obtain ⟨loop, called, rfl⟩ := stepped
    exact .callQuit pc called
  | quitting =>
    simp only [pc, Option.ite_none_right_eq_some] at stepped
    obtain ⟨idle, ⟨⟩⟩ := stepped
    exact .quitReturns pc idle
  | joining =>
    simp only [pc, Option.ite_none_right_eq_some] at stepped
    obtain ⟨returned, ⟨⟩⟩ := stepped
    exact .joins pc returned
  | members =>
    simp only [pc, Option.some.injEq] at stepped
    exact stepped ▸ .destroyMembers pc
  | destroyed => simp [pc] at stepped

private theorem funcStep_move (stepped : s.funcStep owner = some next) :
    Move owner user s .func next := by
  unfold funcStep at stepped
  cases pc : s.func with
  | notStarted => simp [pc] at stepped
  | constructing =>
    simp only [pc, Option.some.injEq] at stepped
    exact stepped ▸ .construct pc
  | callback =>
    simp only [pc, Option.ite_none_right_eq_some] at stepped
    obtain ⟨idle, ⟨⟩⟩ := stepped
    exact .calledBack pc idle
  | lockingPublish =>
    simp only [pc, Option.ite_none_right_eq_some] at stepped
    obtain ⟨free, ⟨⟩⟩ := stepped
    exact .lockPublish pc free
  | publishing =>
    simp only [pc, Option.some.injEq] at stepped
    exact stepped ▸ .publish pc
  | notifying =>
    simp only [pc, Option.some.injEq] at stepped
    subst stepped
    by_cases asleep : s.user = .asleep
    · rw [if_pos asleep]
      exact .notify pc asleep
    · rw [if_neg asleep]
      exact .notifyNobody pc asleep
  | unlockingPublish =>
    simp only [pc, Option.some.injEq] at stepped
    exact stepped ▸ .unlockPublish pc
  | entering => simp [pc] at stepped
  | looping =>
    simp only [pc] at stepped
    split at stepped
    · rename_i outside
      obtain ⟨idle, ⟨⟩⟩ := Option.ite_none_right_eq_some.mp stepped
      exact .loopReturns pc outside idle
    · cases stepped
  | lockingClear =>
    simp only [pc, Option.ite_none_right_eq_some] at stepped
    obtain ⟨free, ⟨⟩⟩ := stepped
    exact .lockClear pc free
  | clearing =>
    simp only [pc, Option.some.injEq] at stepped
    exact stepped ▸ .clear pc
  | unlockingClear =>
    simp only [pc, Option.some.injEq] at stepped
    exact stepped ▸ .unlockClear pc
  | destroyingLoop =>
    simp only [pc, Option.some.injEq] at stepped
    exact stepped ▸ .destroyLoop pc
  | returned => simp [pc] at stepped

/-- A step is one of the moves. -/
theorem step_move (stepped : s.step owner user action = some next) :
    Move owner user s action next := by
  cases action with
  | user => exact userStep_move stepped
  | func => exact funcStep_move stepped
  | wake =>
    obtain ⟨pc, ⟨⟩⟩ := Option.ite_none_right_eq_some.mp stepped
    exact .wake pc
  | destroy =>
    obtain ⟨⟨pc, idle⟩, ⟨⟩⟩ := Option.ite_none_right_eq_some.mp stepped
    exact .destroy pc idle
  | inLoop action =>
    obtain ⟨may, stepped⟩ := Option.ite_none_right_eq_some.mp stepped
    obtain ⟨loop, within, rfl⟩ := Option.map_eq_some_iff.mp stepped
    cases action with
    | enterLoop => exact .enterLoop (beq_iff_eq.mp may) within
    | call | advance | loop | handleRead => exact .inLoop nofun may within

theorem Move.of_clearing (move : Move owner user s .func next) (pc : s.func = .clearing) :
    next = { s with func := .unlockingClear, published := false } := by
  cases move with
  | clear => rfl
  | construct other | calledBack other _ | lockPublish other _ | publish other | notify other _
  | notifyNobody other _ | unlockPublish other | loopReturns other _ _ | lockClear other _
  | unlockClear other | destroyLoop other => cases pc.symm.trans other

end Handshake

/-- An `EventLoopThread` from its constructor on: the thread `user` uses it, its loop runs
in the thread `owner`. -/
def handshakeSystem (Functor : Type) (owner user : Tid) :
    StepSystem (Handshake Functor) (HandshakeAction Functor) where
  Start s := s = {}
  Step s action t := s.step owner user action = some t

end MiniMuduo
