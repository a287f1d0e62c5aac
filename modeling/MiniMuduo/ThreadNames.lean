import MiniMuduo.Library.Numeral
import MiniMuduo.LoopAssignment
import Mathlib.Algebra.Group.Nat.Defs

/-! The names of threads: what `EventLoopThreadPool::start` prints into an array on the stack,
and what `Thread::setDefaultName` makes up from a counter that all threads share. The counter
is atomic, so the threads of a process are told apart by the order of their construction. -/
namespace MiniMuduo.ThreadNames
open Numeral EventLoopThreadPool LoopAssignment

/-- What `snprintf` leaves of a text in an array of so many bytes. -/
def snprintf (size : Nat) (text : String) : String := String.ofList (text.toList.take (size - 1))

/-- `Thread::setDefaultName`: the name of the thread, and `numCreated_` after. -/
def setDefaultName (name : String) (numCreated : Int32) : String × Int32 :=
  (if name = "" then snprintf 32 ("Thread" ++ toString numCreated ++ " ") else name,
    numCreated + 1)

/-- The names of threads that are constructed one after the other with these arguments. -/
def constructed (numCreated : Int32) : List String → List String
  | [] => []
  | name :: names =>
    let (name, numCreated) := setDefaultName name numCreated
    name :: constructed numCreated names

variable {Callback : Type} {name other : String} {i j : Nat}

theorem snprintf_whole {size : Nat} (fits : name.length < size) : snprintf size name = name := by
  rw [snprintf, List.take_of_length_le, String.ofList_toList]
  rw [String.length_toList]
  omega

/-! ### Pools -/

theorem threadName_toList (name : String) (i : Nat) :
    (threadName name i).toList = name.toList.takeWhile (· != Char.ofNat 0) ++ print i := by
  simp [threadName, print]

/-- Not even the largest `int` needs more than the 32 bytes. -/
theorem threadName_fits (name : String) (small : (i : Int) ≤ intMax) :
    (threadName name i).length < name.length + 32 := by
  have front := (List.takeWhile_sublist (l := name.toList) (· != Char.ofNat 0)).length_le
  have digits : (print i).length ≤ 10 := print_length (by decide) (by
    unfold intMax at small
    omega)
  rw [← String.length_toList, threadName_toList, List.length_append]
  rw [String.length_toList] at front
  omega

theorem threadName_inj (same : threadName name i = threadName name j) : i = j := by
  have digits : print i = print j := by
    apply List.append_cancel_left
    rw [← threadName_toList, same, threadName_toList]
  rw [← value_print i, digits, value_print]

theorem startThreads_name (cb : Option Callback)
    (state : EventLoopThreadPool Callback × LoopWorld Callback) (count : Nat) :
    ((List.range count).foldl (startThread cb) state).1.name = state.1.name := by
  induction count with
  | zero => rfl
  | succ count ih =>
    rw [List.range_succ, List.foldl_append]
    exact ih

/-- The rounds of `start` name their threads by the pool and by their number. -/
theorem startThreads_names (cb : Option Callback)
    (state : EventLoopThreadPool Callback × LoopWorld Callback) (count : Nat) :
    ((List.range count).foldl (startThread cb) state).1.threads.map EventLoopThread.name =
      state.1.threads.map EventLoopThread.name ++
        (List.range count).map (threadName state.1.name) := by
  induction count with
  | zero => simp
  | succ count ih =>
    have name := startThreads_name cb state count
    rw [List.range_succ, List.foldl_append, List.map_append, ← List.append_assoc, ← ih]
    simp [startThread, name]

theorem startedPool_names (baseloop : LoopId) (name : String) (numThreads : Int32)
    (cb : Option Callback) (world : LoopWorld Callback) :
    (startedPool baseloop name numThreads cb world).1.threads.map EventLoopThread.name =
      (List.range numThreads.toInt.toNat).map (threadName name) := by
  obtain ⟨pool, fresh⟩ : ∃ pool : EventLoopThreadPool Callback, pool =
      { (EventLoopThreadPool.new baseloop name).setThreadNum numThreads.toInt with
        started := true } := ⟨_, rfl⟩
  have none : pool.threads.map EventLoopThread.name = [] := by rw [fresh]; rfl
  have same : pool.name = name := by rw [fresh]; rfl
  have names := startThreads_names cb (pool, world) numThreads.toInt.toNat
  rw [none, List.nil_append, same, fresh] at names
  rw [startedPool, start]
  cases cb with
  | none => exact names
  | some cb =>
    dsimp only
    split <;> exact names

/-! ### Threads without a name -/

theorem int_repr_inj {a b : Int} (same : a.repr = b.repr) : a = b := by
  have nat : ∀ n m : Nat, n.repr = m.repr → n = m := by
    intro n m same
    rw [← value_print n, print, ← Nat.toList_repr, same, Nat.toList_repr, ← print, value_print]
  have sign : ∀ n m : Nat, n.repr ≠ "-" ++ m.repr := by
    intro n m same
    have digit : ('-').isDigit = true := by
      apply print_digits n
      rw [print, ← Nat.toList_repr, same]
      simp
    cases digit
  rw [Int.repr_eq_if, Int.repr_eq_if] at same
  split at same <;> split at same
  · have := nat _ _ same
    omega
  · exact absurd same (sign _ _)
  · exact absurd same.symm (sign _ _)
  · have := nat _ _ (by simpa using same)
    omega

theorem int32_length (n : Int32) : (toString n).length ≤ 11 := by
  have digits : ∀ m : Nat, m ≤ 2147483648 → m.repr.length ≤ 10 := fun m small =>
    (Nat.length_repr_le_iff (by decide)).mpr (by omega)
  have low := n.le_toInt
  have high := n.toInt_lt
  show n.toInt.repr.length ≤ 11
  rw [Int.repr_eq_if]
  split
  · have := digits n.toInt.toNat (by omega)
    omega
  · rw [String.length_append]
    have := digits (-n.toInt).toNat (by omega)
    simp only [show ("-" : String).length = 1 from rfl]
    omega

theorem default_whole (numCreated : Int32) :
    (setDefaultName "" numCreated).1 = "Thread" ++ toString numCreated ++ " " := by
  rw [setDefaultName, if_pos rfl]
  apply snprintf_whole
  have digits := int32_length numCreated
  simp only [String.length_append, show ("Thread" : String).length = 6 from rfl,
    show (" " : String).length = 1 from rfl]
  omega

theorem default_inj {n m : Int32} (same : (setDefaultName "" n).1 = (setDefaultName "" m).1) :
    n = m := by
  rw [default_whole, default_whole] at same
  apply Int32.toInt_inj.mp
  apply int_repr_inj
  have lists := congrArg String.toList same
  simp only [String.toList_append] at lists
  have middle := List.append_cancel_left (List.append_cancel_right lists)
  exact String.toList_inj.mp middle

theorem constructed_getElem? (numCreated : Int32) (names : List String) (i : Nat) :
    (constructed numCreated names)[i]? =
      names[i]?.map fun name => (setDefaultName name (numCreated + Int32.ofNat i)).1 := by
  induction names generalizing numCreated i with
  | nil => rfl
  | cons name names ih =>
    cases i with
    | zero => simp [constructed]
    | succ i =>
      have next : numCreated + 1 + Int32.ofNat i = numCreated + Int32.ofNat (i + 1) := by
        rw [Int32.ofNat_add, Int32.add_assoc, Int32.add_comm 1]
        rfl
      rw [constructed, List.getElem?_cons_succ, List.getElem?_cons_succ, ← next, ← ih]
      rfl

/-- The counter comes back to a value after 2^32 threads. -/
theorem counter_apart (numCreated : Int32) (after : i < j) (before : j < i + 2 ^ 32) :
    numCreated + Int32.ofNat i ≠ numCreated + Int32.ofNat j := by
  intro same
  have bits := congrArg Int32.toBitVec ((Int32.add_right_inj numCreated).mp same)
  rw [Int32.toBitVec_ofNat', Int32.toBitVec_ofNat'] at bits
  have numbers := congrArg BitVec.toNat bits
  rw [BitVec.toNat_ofNat, BitVec.toNat_ofNat] at numbers
  omega

/-- A name that the counter makes up ends in a blank, and one of a pool in a digit. -/
theorem default_ne_threadName (numCreated : Int32) (name : String) (i : Nat) :
    (setDefaultName "" numCreated).1 ≠ threadName name i := by
  intro same
  have blank : (setDefaultName "" numCreated).1.toList.getLast? = some ' ' := by
    rw [default_whole, String.toList_append]
    exact List.getLast?_concat
  have digit : (threadName name i).toList.getLast? = (print i).getLast? := by
    have some : print i ≠ [] := Nat.toDigits_ne_nil
    rw [threadName_toList, List.getLast?_append_of_ne_nil _ some]
  rw [same, digit] at blank
  cases print_digits i ' ' (List.mem_of_getLast? blank)

/-- The threads of a pool have names of their own, none of them cut off; a thread with a name
keeps it; of any 2^32 threads in a row no two get the same name made up, and none gets one that
the pool gives. -/
theorem threads_told_apart (baseloop : LoopId) (name : String) (numThreads : Int32)
    (cb : Option Callback) (world : LoopWorld Callback) (numCreated : Int32)
    (names : List String) :
    let pool := (startedPool baseloop name numThreads cb world).1
    let given := constructed numCreated names
    (pool.threads.map EventLoopThread.name).Nodup ∧
      (∀ thread ∈ pool.threads,
        snprintf (name.length + 32) thread.name = thread.name ∧ thread.name ≠ "") ∧
      (∀ (i : Nat) own, names[i]? = some own → own ≠ "" → given[i]? = some own) ∧
      (∀ i j : Nat, i < j → j < i + 2 ^ 32 → names[i]? = some "" → names[j]? = some "" →
        given[i]? ≠ given[j]?) ∧
      ∀ i : Nat, names[i]? = some "" → ∀ thread ∈ pool.threads, given[i]? ≠ some thread.name := by
  intro pool given
  have printed : pool.threads.map EventLoopThread.name =
      (List.range numThreads.toInt.toNat).map (threadName name) :=
    startedPool_names baseloop name numThreads cb world
  have numbered : ∀ thread ∈ pool.threads, ∃ i : Nat, (i : Int) ≤ intMax ∧
      thread.name = threadName name i := by
    intro thread member
    have among := List.mem_map_of_mem (f := EventLoopThread.name) member
    rw [printed] at among
    obtain ⟨i, below, same⟩ := List.mem_map.mp among
    have small := numThreads.toInt_lt
    refine ⟨i, ?_, same.symm⟩
    rw [List.mem_range] at below
    unfold intMax
    omega
  refine ⟨?_, ?_, ?_, ?_, ?_⟩
  · rw [printed]
    exact List.nodup_range.map_on fun _ _ _ _ => threadName_inj
  · intro thread member
    obtain ⟨i, small, same⟩ := numbered thread member
    rw [same]
    refine ⟨snprintf_whole (threadName_fits name small), fun empty => ?_⟩
    have none := congrArg String.toList empty
    simp [threadName_toList, print] at none
  · intro i own at_i some_name
    show (constructed numCreated names)[i]? = _
    rw [constructed_getElem?, at_i, Option.map_some, setDefaultName, if_neg some_name]
  · intro i j after before at_i at_j same
    rw [show given = constructed numCreated names from rfl, constructed_getElem?,
      constructed_getElem?, at_i, at_j] at same
    exact counter_apart numCreated after before (default_inj (Option.some.inj same))
  · intro i at_i thread member same
    obtain ⟨k, _, thread_name⟩ := numbered thread member
    rw [show given = constructed numCreated names from rfl, constructed_getElem?, at_i,
      thread_name] at same
    exact default_ne_threadName _ name k (Option.some.inj same)

/-- A thread with a name between two without: the counter goes on. -/
theorem second_default_differs :
    (constructed 0 ["", "io", ""])[0]? ≠ (constructed 0 ["", "io", ""])[2]? :=
  (threads_told_apart 0 "pool" 2 (none : Option Unit) ⟨0, []⟩ 0 ["", "io", ""]).2.2.2.1
    0 2 (by decide) (by decide) rfl rfl

end MiniMuduo.ThreadNames
