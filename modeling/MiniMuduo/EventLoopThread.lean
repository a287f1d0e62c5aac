import MiniMuduo.EventLoop

/-! `EventLoopThread.cc`: one thread starts a loop in a thread of its own, gets the
loop from `startLoop()` and ends it again, by `quit()` or by the destructor. A
section under `mutex_` is one step; waiting on `cond_` may end at any time, and the
test is then made again. -/
namespace MiniMuduo

/-- Where the thread that uses the `EventLoopThread` stands. -/
inductive StarterPc where
  /-- In front of `startLoop()`. -/
  | fresh
  /-- In `startLoop()`, at `while( loop_ == nullptr )`. -/
  | waiting
  /-- `startLoop()` has returned the loop. -/
  | returned
  /-- In `quit()` on the returned loop. -/
  | quitting
  /-- In `~EventLoopThread`, in front of `if ( loop_ != nullptr)`. -/
  | destroying
  /-- In the destructor's `loop_->quit()`. -/
  | lastQuit
  /-- In front of `thread_.join()`. -/
  | joining
  | done
  deriving DecidableEq, Repr

/-- Where the thread that runs `threadFunc` stands. -/
inductive ThreadPc where
  | notStarted
  /-- In front of `EventLoop loop;`. -/
  | constructing
  /-- In `callback_(&loop)`, if it is set. -/
  | callback
  /-- In front of `loop.loop()`. -/
  | entering
  | looping
  /-- `loop_` is null again and the loop is gone. -/
  | finished
  deriving DecidableEq, Repr

/-- An `EventLoopThread`, its two threads and the loop on the stack of one of them,
which before it is constructed is as the constructor leaves it. `published` says that
`loop_` is not null; `quitDone` only records that a `quit()` of the starter has
returned. -/
structure LoopThread (Functor : Type) where
  starter : StarterPc := .fresh
  thread : ThreadPc := .notStarted
  published : Bool := false
  exiting : Bool := false
  loop : EventLoop Functor := {}
  quitDone : Bool := false

inductive ThreadAction (Functor : Type) where
  /-- `thread_.start()` -/
  | start
  /-- A test of `loop_` in `startLoop()` that ends the waiting. -/
  | startLoopReturns
  | quit
  | destroy
  /-- The destructor's `if ( loop_ != nullptr)`. -/
  | testLoop
  | join
  | construct
  /-- `loop_ = &loop; cond_.notify_one();` -/
  | publish
  /-- `loop_ = nullptr;`, and `loop` goes out of scope. -/
  | clear
  | inLoop (action : LoopAction Functor)
  deriving DecidableEq, Repr

variable {Functor : Type}

def LoopPc.isOutside : LoopPc Functor → Bool
  | .outside => true
  | _ => false

namespace LoopThread

/-- Whose turn a step of the loop can be. Calls of `quit()` by the starter have steps
of their own. -/
def mayStep (owner starter : Tid) (s : LoopThread Functor) : LoopAction Functor → Bool
  | .call t (.queueInLoop _) | .call t (.runInLoop _) =>
    (t == owner && (s.thread == .callback || s.thread == .looping)) ||
      (t == starter && s.starter == .returned)
  | .call t .quit => t == owner && (s.thread == .callback || s.thread == .looping)
  | .advance t => t == owner || t == starter
  | .enterLoop => s.thread == .entering
  | .loop | .handleRead => s.thread == .looping

/-- The starter's `quit()` returns when its call is over. -/
def quitReturns (starter : Tid) (s : LoopThread Functor) : LoopThread Functor :=
  if (s.loop.calls starter).isIdle then
    match s.starter with
    | .quitting => { s with starter := .returned, quitDone := true }
    | .lastQuit => { s with starter := .joining, quitDone := true }
    | _ => s
  else s

/-- A step of the loop, with what it means for its thread and for the starter. -/
def inLoop (owner starter : Tid) (s : LoopThread Functor) (action : LoopAction Functor) :
    Option (LoopThread Functor) := do
  let loop ← s.loop.step owner action
  match action with
  | .enterLoop => some { s with loop := loop, thread := .looping }
  | .advance t =>
    if t = starter then some (quitReturns starter { s with loop := loop })
    else some { s with loop := loop }
  | _ => some { s with loop := loop }

/-- One atomic step of the two threads. -/
def step (owner starter : Tid) (s : LoopThread Functor) :
    ThreadAction Functor → Option (LoopThread Functor)
  | .start =>
    if s.starter = .fresh ∧ s.thread = .notStarted then
      some { s with starter := .waiting, thread := .constructing }
    else none
  | .startLoopReturns =>
    if s.starter = .waiting ∧ s.published = true then some { s with starter := .returned }
    else none
  | .quit =>
    if s.starter = .returned then do
      let loop ← s.loop.step owner (.call starter .quit)
      some { s with starter := .quitting, loop := loop }
    else none
  | .destroy =>
    if s.starter = .returned ∧ (s.loop.calls starter).isIdle = true then
      some { s with starter := .destroying, exiting := true }
    else none
  | .testLoop =>
    if s.starter = .destroying then
      if s.published then do
        let loop ← s.loop.step owner (.call starter .quit)
        some { s with starter := .lastQuit, loop := loop }
      else some { s with starter := .done }
    else none
  | .join =>
    if s.starter = .joining ∧ s.thread = .finished then some { s with starter := .done }
    else none
  | .construct =>
    if s.thread = .constructing then some { s with thread := .callback } else none
  | .publish =>
    if s.thread = .callback ∧ (s.loop.calls owner).isIdle = true then
      some { s with thread := .entering, published := true }
    else none
  | .clear =>
    if s.thread = .looping ∧ s.loop.pc.isOutside = true ∧ (s.loop.calls owner).isIdle = true then
      some { s with thread := .finished, published := false }
    else none
  | .inLoop action =>
    if s.mayStep owner starter action then s.inLoop owner starter action else none

end LoopThread

/-- An `EventLoopThread` used by the thread `starter`, whose loop runs in `owner`. -/
def threadSystem (Functor : Type) (owner starter : Tid) :
    StepSystem (LoopThread Functor) (ThreadAction Functor) where
  Start s := s = {}
  Step s action t := s.step owner starter action = some t

end MiniMuduo
