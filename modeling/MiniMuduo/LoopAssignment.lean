import MiniMuduo.EventLoopThreadPool
import MiniMuduo.Library.RoundRobin

/-! Which loop `getNextLoop` hands out. The loops from `next_` on, and then those in front of
it, stand in a line; every call serves the first and puts it at the back. -/
namespace MiniMuduo.LoopAssignment
open EventLoopThreadPool RoundRobin

variable {Callback : Type} {pool later : EventLoopThreadPool Callback} {cb : Option Callback}
variable {world : LoopWorld Callback} {n k : Nat}

/-- The loops are distinct, and `next_` is the index of one. -/
structure Cyclic (pool : EventLoopThreadPool Callback) : Prop where
  distinct : pool.loops.Nodup
  countable : (pool.loops.length : Int) ≤ intMax
  nonnegative : 0 ≤ pool.next
  inside : pool.next < pool.loops.length

/-- The line in which the loops stand. -/
def line (pool : EventLoopThreadPool Callback) : List LoopId :=
  pool.loops.rotate pool.next.toNat

/-- What is fair about a sequence of results. -/
structure Fair (loops : List LoopId) (baseloop : LoopId) (results : List LoopId) : Prop where
  inside : loops ≠ [] → ∀ loop ∈ results, loop ∈ loops
  window : loops ≠ [] → ∀ i, i + loops.length ≤ results.length →
    ((results.drop i).take loops.length).Perm loops
  once : loops.Nodup
  even : ∀ a ∈ loops, ∀ b ∈ loops, results.count a ≤ results.count b + 1
  base : loops = [] → ∀ loop ∈ results, loop = baseloop

theorem sizeT_of_nat {i : Nat} (small : (i : Int) ≤ intMax + 1) : sizeT i = i := by
  unfold intMax at small
  unfold sizeT
  omega

/-- The counter goes up, and back to 0 behind the last loop. -/
theorem getNextLoop_eq {i : Nat} {loop : LoopId} (cursor : pool.next = i)
    (countable : (pool.loops.length : Int) ≤ intMax) (indexed : pool.loops[i]? = some loop) :
    pool.getNextLoop =
      some (loop, { pool with next := if pool.loops.length ≤ i + 1 then 0 else i + 1 }) := by
  obtain ⟨inside, _⟩ := List.getElem?_eq_some_iff.mp indexed
  have loops : pool.loops.isEmpty = false := by
    rw [List.isEmpty_eq_false_iff]
    rintro none
    simp [none] at inside
  have here : sizeT (i : Int) = i := sizeT_of_nat (by omega)
  have above : sizeT ((i : Int) + 1) = i + 1 := sizeT_of_nat (i := i + 1) (by omega)
  have counts : (i : Int) ≠ intMax := by omega
  simp only [getNextLoop, loops, cursor, here, indexed, if_neg counts, above,
    if_neg Bool.false_ne_true]

/-- A call serves the first in line and puts it at the back. -/
theorem getNextLoop_line (cyclic : Cyclic pool) : ∃ loop rest next,
    line pool = loop :: rest ∧ pool.getNextLoop = some (loop, { pool with next := next }) ∧
      Cyclic { pool with next := next } ∧ line { pool with next := next } = rest ++ [loop] := by
  obtain ⟨distinct, countable, nonnegative, inside⟩ := cyclic
  obtain ⟨i, cursor⟩ := Int.eq_ofNat_of_zero_le nonnegative
  have within : i < pool.loops.length := by omega
  have stands : line pool = pool.loops.rotate i := by rw [line, cursor, Int.toNat_natCast]
  have head := List.head?_rotate within
  cases shape : pool.loops.rotate i with
  | nil => simp [shape, within] at head
  | cons loop rest =>
    rw [shape, List.head?_cons] at head
    have turned : pool.loops.rotate (i + 1) = rest ++ [loop] := by
      rw [← List.rotate_rotate, shape, List.rotate_cons_succ, List.rotate_zero]
    refine ⟨loop, rest, _, stands.trans shape, getNextLoop_eq cursor countable head.symm, ?_, ?_⟩
    · split
      · exact ⟨distinct, countable, Int.le_refl 0, by simp only; omega⟩
      · exact ⟨distinct, countable, by simp only; omega, by simp only; omega⟩
    · rw [← turned]
      split
      · rename_i last
        have length : i + 1 = pool.loops.length := by omega
        rw [length, List.rotate_length]
        exact List.rotate_zero pool.loops
      · rfl

/-- Any number of calls are as many turns of the line. -/
theorem nextLoops_turns (cyclic : Cyclic pool) (k : Nat) :
    ∃ next, pool.nextLoops k = some (turns (line pool) k, { pool with next := next }) := by
  induction k generalizing pool with
  | zero => exact ⟨pool.next, by rw [turns_zero]; rfl⟩
  | succ k ih =>
    obtain ⟨loop, rest, next, stands, called, kept, turned⟩ := getNextLoop_line cyclic
    obtain ⟨last, rested⟩ := ih kept
    refine ⟨last, ?_⟩
    rw [nextLoops, called, stands, turns_cons_succ, ← turned]
    simp only [Option.bind_eq_bind, Option.bind_some, rested]
    rfl

/-- The runs of a callback, if there is one, on these loops. -/
def runsOn (cb : Option Callback) (loops : List LoopId) : List (Callback × LoopId) :=
  match cb with
  | some cb => loops.map fun loop => (cb, loop)
  | none => []

theorem runsOn_append (cb : Option Callback) (loops more : List LoopId) :
    runsOn cb (loops ++ more) = runsOn cb loops ++ runsOn cb more := by
  cases cb with
  | none => rfl
  | some cb => exact List.map_append

/-- So many rounds add as many new loops, each after a run of the callback on it. -/
structure Grown (cb : Option Callback) (count : Nat)
    (before after : EventLoopThreadPool Callback × LoopWorld Callback) : Prop where
  loops : after.1.loops = before.1.loops ++ List.range' before.2.constructed count
  inits : after.2.inits =
    before.2.inits ++ runsOn cb (List.range' before.2.constructed count)
  constructed : after.2.constructed = before.2.constructed + count
  next : after.1.next = before.1.next
  baseloop : after.1.baseloop = before.1.baseloop
  numThreads : after.1.numThreads = before.1.numThreads

theorem startThread_grown (cb : Option Callback)
    (state : EventLoopThreadPool Callback × LoopWorld Callback) (i : Nat) :
    Grown cb 1 state (startThread cb state i) where
  loops := rfl
  inits := by
    cases cb with
    | none => exact (List.append_nil _).symm
    | some cb => rfl
  constructed := rfl
  next := rfl
  baseloop := rfl
  numThreads := rfl

theorem Grown.trans {count more : Nat}
    {before middle after : EventLoopThreadPool Callback × LoopWorld Callback}
    (first : Grown cb count before middle) (second : Grown cb more middle after) :
    Grown cb (count + more) before after where
  loops := by
    rw [second.loops, first.loops, first.constructed, List.append_assoc, List.range'_append_1]
  inits := by
    rw [second.inits, first.inits, first.constructed, List.append_assoc, ← runsOn_append,
      List.range'_append_1]
  constructed := by rw [second.constructed, first.constructed, Nat.add_assoc]
  next := second.next.trans first.next
  baseloop := second.baseloop.trans first.baseloop
  numThreads := second.numThreads.trans first.numThreads

theorem startThreads_grown (cb : Option Callback)
    (state : EventLoopThreadPool Callback × LoopWorld Callback) (count : Nat) :
    Grown cb count state ((List.range count).foldl (startThread cb) state) := by
  induction count with
  | zero =>
    refine ⟨(List.append_nil _).symm, ?_, rfl, rfl, rfl, rfl⟩
    cases cb <;> exact (List.append_nil _).symm
  | succ count ih =>
    rw [List.range_succ, List.foldl_append]
    exact ih.trans (startThread_grown cb _ count)

/-- `start` is these rounds, and then a run of the callback on the base loop if the number of
threads is 0. -/
theorem start_eq (pool : EventLoopThreadPool Callback) (cb : Option Callback)
    (world : LoopWorld Callback) : ∃ after, Grown cb pool.numThreads.toNat (pool, world) after ∧
      pool.start cb world = (after.1, { after.2 with
        inits := after.2.inits ++ runsOn cb (if pool.numThreads = 0 then [pool.baseloop] else [])
      }) := by
  obtain ⟨after, rounds⟩ : ∃ after, after = (List.range pool.numThreads.toNat).foldl
      (startThread cb) ({ pool with started := true }, world) := ⟨_, rfl⟩
  have grown : Grown cb pool.numThreads.toNat ({ pool with started := true }, world) after :=
    rounds ▸ startThreads_grown cb _ _
  have number : after.1.numThreads = pool.numThreads := grown.numThreads
  have base : after.1.baseloop = pool.baseloop := grown.baseloop
  refine ⟨after, ⟨grown.loops, grown.inits, grown.constructed, grown.next, base, number⟩, ?_⟩
  simp only [start, ← rounds, number, base]
  cases cb with
  | none => simp [runsOn]
  | some cb =>
    by_cases none : pool.numThreads = 0
    · simp [runsOn, none]
    · simp [runsOn, none]

/-- A pool after one `start`, with any `int` for the number of threads. -/
def startedPool (baseloop : LoopId) (name : String) (numThreads : Int32) (cb : Option Callback)
    (world : LoopWorld Callback) : EventLoopThreadPool Callback × LoopWorld Callback :=
  ((EventLoopThreadPool.new baseloop name).setThreadNum numThreads.toInt).start cb world

variable {baseloop : LoopId} {name : String} {numThreads : Int32}

/-- What one `start` leaves: a new loop for each thread, `next_` at the first; and the callback
has been run on every new loop, and on the base loop if the number of threads is 0. -/
structure Started (baseloop : LoopId) (numThreads : Int32) (cb : Option Callback)
    (world : LoopWorld Callback)
    (after : EventLoopThreadPool Callback × LoopWorld Callback) : Prop where
  loops : after.1.loops = List.range' world.constructed numThreads.toInt.toNat
  next : after.1.next = 0
  base : after.1.baseloop = baseloop
  inits : after.2.inits = world.inits ++
    runsOn cb (List.range' world.constructed numThreads.toInt.toNat ++
      if numThreads.toInt = 0 then [baseloop] else [])

theorem startedPool_started (baseloop : LoopId) (name : String) (numThreads : Int32)
    (cb : Option Callback) (world : LoopWorld Callback) :
    Started baseloop numThreads cb world (startedPool baseloop name numThreads cb world) := by
  obtain ⟨after, grown, started⟩ := start_eq
    ((EventLoopThreadPool.new baseloop name).setThreadNum numThreads.toInt) cb world
  rw [startedPool, started]
  refine ⟨grown.loops, grown.next, grown.baseloop, ?_⟩
  simp only [grown.inits, runsOn_append, List.append_assoc]
  rfl

theorem startedPool_cyclic
    (some : (startedPool baseloop name numThreads cb world).1.loops ≠ []) :
    Cyclic (startedPool baseloop name numThreads cb world).1 := by
  have started := startedPool_started baseloop name numThreads cb world
  have positive := List.length_pos_of_ne_nil some
  have int := numThreads.toInt_lt
  refine ⟨?_, ?_, Int.le_of_eq started.next.symm, ?_⟩
  · rw [started.loops]
    exact List.nodup_range'
  · rw [started.loops, List.length_range']
    unfold intMax
    omega
  · rw [started.next]
    exact Int.natCast_pos.mpr positive

theorem nextLoops_base (empty : pool.loops = []) (k : Nat) :
    pool.nextLoops k = some (List.replicate k pool.baseloop, pool) := by
  have called : pool.getNextLoop = some (pool.baseloop, pool) := by
    simp [getNextLoop, empty]
  induction k with
  | zero => rfl
  | succ k ih =>
    rw [nextLoops, called]
    simp only [Option.bind_eq_bind, Option.bind_some, ih]
    rfl

/-- The results from a cyclic pool, which are turns of its line, are fair. -/
theorem turns_are_fair (cyclic : Cyclic pool) (k : Nat) :
    Fair pool.loops pool.baseloop (turns (line pool) k) := by
  have length : (line pool).length = pool.loops.length := List.length_rotate ..
  have same : (line pool).Perm pool.loops := List.rotate_perm ..
  have distinct : (line pool).Nodup := same.nodup_iff.mpr cyclic.distinct
  refine ⟨fun _ loop served => same.mem_iff.mp (turns_subset _ _ loop served), ?_,
    cyclic.distinct, ?_, ?_⟩
  · intro some i within
    have positive : line pool ≠ [] := fun none => some (List.rotate_eq_nil_iff.mp none)
    rw [turns_length positive] at within
    rw [← length] at within ⊢
    rw [turns_window _ within]
    exact (List.rotate_perm ..).trans same
  · intro a here b there
    exact turns_fair distinct (same.mem_iff.mpr here) (same.mem_iff.mpr there) k
  · intro empty
    have inside := cyclic.inside
    have nonnegative := cyclic.nonnegative
    rw [empty, List.length_nil] at inside
    omega

/-- After `start`, with whatever number, any number of calls of `getNextLoop` stay inside
`loops_` and serve its loops round robin, or all return the base loop if there are none. -/
theorem assignment_is_fair (baseloop : LoopId) (name : String) (numThreads : Int32)
    (cb : Option Callback) (world : LoopWorld Callback) (k : Nat) :
    ∃ results later, (startedPool baseloop name numThreads cb world).1.nextLoops k =
        some (results, later) ∧ results.length = k ∧
      Fair (startedPool baseloop name numThreads cb world).1.loops baseloop results := by
  have started := startedPool_started baseloop name numThreads cb world
  by_cases empty : (startedPool baseloop name numThreads cb world).1.loops = []
  · refine ⟨_, _, nextLoops_base empty k, List.length_replicate, ?_⟩
    rw [empty, started.base]
    exact ⟨fun some => absurd rfl some, fun some => absurd rfl some, List.nodup_nil,
      fun _ here => absurd here List.not_mem_nil,
      fun _ loop served => List.eq_of_mem_replicate served⟩
  · have cyclic := startedPool_cyclic empty
    obtain ⟨next, served⟩ := nextLoops_turns cyclic k
    have some : line (startedPool baseloop name numThreads cb world).1 ≠ [] :=
      fun none => empty (List.rotate_eq_nil_iff.mp none)
    refine ⟨_, _, served, turns_length some k, ?_⟩
    have fair := turns_are_fair cyclic k
    rwa [started.base] at fair

/-- Three threads, and a fourth and fifth call. -/
example : ((startedPool 0 "pool" 3 (some ()) ⟨1, []⟩).1.nextLoops 5).map Prod.fst =
    some [1, 2, 3, 1, 2] := by rfl

end MiniMuduo.LoopAssignment
