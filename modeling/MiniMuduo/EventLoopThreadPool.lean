import Mathlib.Algebra.Group.Int.Defs
import Mathlib.Data.List.Basic

/-! `EventLoopThreadPool.cc`: one base loop, and one loop in each of the threads that `start`
creates. Loops are objects, told apart by the order of their construction; a callback is
opaque, and what is recorded of it is on which loops it was run. -/
namespace MiniMuduo

/-- An `EventLoop` object. -/
abbrev LoopId := Nat

/-- The loops constructed so far, and every run of an init callback. -/
structure LoopWorld (Callback : Type) where
  constructed : Nat
  inits : List (Callback × LoopId)

/-- An `EventLoopThread` with what its constructor is given. -/
structure EventLoopThread (Callback : Type) where
  callback : Option Callback
  name : String

/-- The members of the pool; `int` is `Int`, kept in range where the source counts up. -/
structure EventLoopThreadPool (Callback : Type) where
  baseloop : LoopId
  name : String
  started : Bool := false
  numThreads : Int := 0
  next : Int := 0
  threads : List (EventLoopThread Callback) := []
  loops : List LoopId := []

variable {Callback : Type}

/-- The largest `int`. -/
def intMax : Int := 2 ^ 31 - 1

/-- An `int` where the source compares or indexes with a `size_t`. -/
def sizeT (i : Int) : Nat := (i % 2 ^ 64).toNat

/-- `startLoop()`, when it returns: `threadFunc` has constructed its loop and has run the
callback on it, if there is one. -/
def EventLoopThread.startLoop (thread : EventLoopThread Callback) (world : LoopWorld Callback) :
    LoopId × LoopWorld Callback :=
  let loop := world.constructed
  let inits := match thread.callback with
    | some cb => world.inits ++ [(cb, loop)]
    | none => world.inits
  (loop, ⟨world.constructed + 1, inits⟩)

namespace EventLoopThreadPool

/-- The constructor. -/
def new (baseloop : LoopId) (nameArg : String) : EventLoopThreadPool Callback where
  baseloop := baseloop
  name := nameArg

def setThreadNum (pool : EventLoopThreadPool Callback) (numThreads : Int) :
    EventLoopThreadPool Callback :=
  { pool with numThreads := numThreads }

/-- `snprintf` of `"%s%d"`: the name as a C string, and the number. -/
def threadName (name : String) (i : Nat) : String :=
  String.ofList (name.toList.takeWhile (· != Char.ofNat 0)) ++ toString i

/-- One round of the loop in `start`. -/
def startThread (cb : Option Callback)
    (state : EventLoopThreadPool Callback × LoopWorld Callback) (i : Nat) :
    EventLoopThreadPool Callback × LoopWorld Callback :=
  let (pool, world) := state
  let thread : EventLoopThread Callback := ⟨cb, threadName pool.name i⟩
  let (loop, world) := thread.startLoop world
  ({ pool with threads := pool.threads ++ [thread], loops := pool.loops ++ [loop] }, world)

/-- `start`; `i < numThreads_` fails at once for a negative number. -/
def start (pool : EventLoopThreadPool Callback) (cb : Option Callback)
    (world : LoopWorld Callback) : EventLoopThreadPool Callback × LoopWorld Callback :=
  let (pool, world) := (List.range pool.numThreads.toNat).foldl (startThread cb)
    ({ pool with started := true }, world)
  match cb with
  | some cb =>
    if pool.numThreads = 0 then
      (pool, { world with inits := world.inits ++ [(cb, pool.baseloop)] })
    else (pool, world)
  | none => (pool, world)

/-- `getNextLoop`; nothing for an index outside `loops_` or a counter beyond `int`. -/
def getNextLoop (pool : EventLoopThreadPool Callback) :
    Option (LoopId × EventLoopThreadPool Callback) :=
  if pool.loops.isEmpty then some (pool.baseloop, pool)
  else
    match pool.loops[sizeT pool.next]? with
    | none => none
    | some loop =>
      if pool.next = intMax then none
      else
        let next := pool.next + 1
        some (loop, { pool with next := if pool.loops.length ≤ sizeT next then 0 else next })

def getAllLoops (pool : EventLoopThreadPool Callback) : List LoopId :=
  if pool.loops.isEmpty then [pool.baseloop] else pool.loops

/-- What a number of calls return, and the pool they leave. -/
def nextLoops (pool : EventLoopThreadPool Callback) :
    Nat → Option (List LoopId × EventLoopThreadPool Callback)
  | 0 => some ([], pool)
  | k + 1 => do
    let (loop, pool) ← pool.getNextLoop
    let (loops, pool) ← pool.nextLoops k
    return (loop :: loops, pool)

end EventLoopThreadPool
end MiniMuduo
