import MiniMuduo.LoopAssignment

/-! Which loops have been initialised when `start` returns. `start` asks whether the number of
threads is 0, `getNextLoop` and `getAllLoops` whether there are loops. For a negative number
the answers differ, and the base loop is handed out as it is. -/
namespace MiniMuduo.PoolStart
open EventLoopThreadPool LoopAssignment RoundRobin

variable {Callback : Type} {baseloop : LoopId} {name : String} {numThreads : Int32}
variable {cb : Option Callback} {world : LoopWorld Callback}

/-- The callback has been run exactly once on each loop of the pool and on no other, and only
such loops are handed out. -/
structure AllInitialised (cb : Callback) (before : LoopWorld Callback)
    (after : EventLoopThreadPool Callback × LoopWorld Callback) : Prop where
  runs : ∃ ran : List LoopId, after.2.inits = before.inits ++ ran.map (fun loop => (cb, loop)) ∧
    ran.Nodup ∧ ∀ loop, loop ∈ ran ↔ loop ∈ after.1.getAllLoops
  handedOut : ∀ k, ∃ results later, after.1.nextLoops k = some (results, later) ∧
    ∀ loop ∈ results, loop ∈ after.1.getAllLoops

/-- Every loop that can be handed out has been initialised. -/
def LoopsInitialised (Callback : Type) : Prop :=
  ∀ (baseloop : LoopId) (name : String) (numThreads : Int32) (cb : Callback)
    (world : LoopWorld Callback),
    AllInitialised cb world (startedPool baseloop name numThreads (some cb) world)

theorem getAllLoops_of_empty {pool : EventLoopThreadPool Callback} (empty : pool.loops = []) :
    pool.getAllLoops = [pool.baseloop] := by
  simp [getAllLoops, empty]

theorem getAllLoops_of_some {pool : EventLoopThreadPool Callback} (some : pool.loops ≠ []) :
    pool.getAllLoops = pool.loops := by
  simp [getAllLoops, some]

/-- Every call of `getNextLoop` returns one of `getAllLoops()`. -/
theorem handed_out (k : Nat) : ∃ results later,
    (startedPool baseloop name numThreads cb world).1.nextLoops k = some (results, later) ∧
      ∀ loop ∈ results, loop ∈ (startedPool baseloop name numThreads cb world).1.getAllLoops := by
  by_cases empty : (startedPool baseloop name numThreads cb world).1.loops = []
  · refine ⟨_, _, nextLoops_base empty k, fun loop served => ?_⟩
    rw [getAllLoops_of_empty empty, List.eq_of_mem_replicate served]
    exact List.mem_singleton_self _
  · obtain ⟨next, served⟩ := nextLoops_turns (startedPool_cyclic empty) k
    refine ⟨_, _, served, fun loop turn => ?_⟩
    rw [getAllLoops_of_some empty]
    exact List.mem_rotate.mp (turns_subset _ _ loop turn)

/-- The loops of the pool. -/
theorem startedPool_getAllLoops :
    (startedPool baseloop name numThreads cb world).1.getAllLoops =
      if numThreads.toInt ≤ 0 then [baseloop]
      else List.range' world.constructed numThreads.toInt.toNat := by
  have started := startedPool_started baseloop name numThreads cb world
  have loops := started.loops
  split
  · rename_i none
    rw [Int.toNat_of_nonpos none] at loops
    rw [getAllLoops_of_empty loops, started.base]
  · rename_i some
    have positive : (startedPool baseloop name numThreads cb world).1.loops ≠ [] := by
      rw [loops]
      apply List.ne_nil_of_length_pos
      rw [List.length_range']
      omega
    rw [getAllLoops_of_some positive, loops]

/-- The loops that the callback is run on. -/
theorem startedPool_runs (cb : Callback) :
    (startedPool baseloop name numThreads (some cb) world).2.inits = world.inits ++
      (List.range' world.constructed numThreads.toInt.toNat ++
        if numThreads.toInt = 0 then [baseloop] else []).map fun loop => (cb, loop) :=
  (startedPool_started baseloop name numThreads (some cb) world).inits

/-- Every loop of the pool has been initialised exactly if the number of threads is not
negative. -/
theorem all_initialised_iff (baseloop : LoopId) (name : String) (numThreads : Int32)
    (cb : Callback) (world : LoopWorld Callback) :
    AllInitialised cb world (startedPool baseloop name numThreads (some cb) world) ↔
      0 ≤ numThreads.toInt := by
  constructor
  · rintro ⟨⟨ran, logged, -, same⟩, -⟩
    by_contra negative
    have none : numThreads.toInt ≠ 0 := by omega
    have few : numThreads.toInt ≤ 0 := by omega
    rw [startedPool_runs, Int.toNat_of_nonpos few, if_neg none] at logged
    have nothing : ran = [] := by simpa using logged
    have base := (same baseloop).mpr (by rw [startedPool_getAllLoops, if_pos few]; simp)
    rw [nothing] at base
    exact List.not_mem_nil base
  · intro enough
    refine ⟨⟨_, startedPool_runs cb, ?_⟩, handed_out⟩
    rw [startedPool_getAllLoops]
    by_cases none : numThreads.toInt = 0
    · simp [none]
    · have some : ¬ numThreads.toInt ≤ 0 := by omega
      rw [if_neg none, if_neg some, List.append_nil]
      exact ⟨List.nodup_range', fun _ => Iff.rfl⟩

/-- With -1 threads the base loop is handed out, and the callback is not run at all. -/
theorem negative_number_uninitialised : ¬ LoopsInitialised Unit := by
  intro initialised
  obtain ⟨ran, logged, -, same⟩ := (initialised 0 "pool" (-1) () ⟨1, []⟩).runs
  have silent : (startedPool 0 "pool" (-1) (some ()) ⟨1, []⟩).2.inits = [] := by rfl
  have whole : (startedPool 0 "pool" (-1) (some ()) ⟨1, []⟩).1.getAllLoops = [0] := by rfl
  rw [silent] at logged
  rw [whole] at same
  have nothing : ran = [] := by simpa using logged
  rw [nothing] at same
  exact List.not_mem_nil ((same 0).mpr List.mem_cons_self)

end MiniMuduo.PoolStart
