import Mathlib.Data.List.Basic

/-! Copying array elements one at a time in increasing order, as a loop over two
cursors. Each access is checked, so that a result exists exactly when every read
and every write fell inside its array. -/

universe u

namespace ForwardCopy

variable {α : Type u}

/-- Write one element, failing outside the array. -/
def store (array : List α) (index : Nat) (value : α) : Option (List α) :=
  if index < array.length then some (array.set index value) else none

/-- Copy `count` elements of one array into another. -/
def copyFrom (source : List α) (target : List α) (first result : Nat) :
    Nat → Option (List α)
  | 0 => some target
  | count + 1 => do
    let value ← source[first]?
    let next ← store target result value
    copyFrom source next (first + 1) (result + 1) count

/-- Copy `count` elements to another place of the same array; what is read may
already have been overwritten. -/
def copyWithin (array : List α) (first result : Nat) : Nat → Option (List α)
  | 0 => some array
  | count + 1 => do
    let value ← array[first]?
    let next ← store array result value
    copyWithin next (first + 1) (result + 1) count

private theorem store_inside {array : List α} {index : Nat} (inside : index < array.length)
    (value : α) : store array index value = some (array.set index value) := by
  simp [store, inside]

private theorem take_set_succ {array : List α} {index : Nat} (inside : index < array.length)
    (value : α) : (array.set index value).take (index + 1) = array.take index ++ [value] := by
  rw [List.take_add_one, List.take_set_of_le (Nat.le_refl _)]
  simp [inside]

private theorem drop_set_above {array : List α} {index position : Nat}
    (below : index < position) (value : α) :
    (array.set index value).drop position = array.drop position := by
  rw [List.drop_set, if_pos below]

private theorem store_length {array next : List α} {index : Nat} {value : α}
    (stored : store array index value = some next) : next.length = array.length := by
  unfold store at stored
  split at stored
  · obtain rfl := Option.some.inj stored
    exact List.length_set
  · cases stored

theorem copyFrom_length {source target copied : List α} {first result count : Nat}
    (ran : copyFrom source target first result count = some copied) :
    copied.length = target.length := by
  induction count generalizing target first result with
  | zero =>
    obtain rfl := Option.some.inj ran
    rfl
  | succ count ih =>
    obtain ⟨value, _, ran⟩ := Option.bind_eq_some_iff.mp ran
    obtain ⟨next, stored, ran⟩ := Option.bind_eq_some_iff.mp ran
    exact (ih ran).trans (store_length stored)

theorem copyWithin_length {array copied : List α} {first result count : Nat}
    (ran : copyWithin array first result count = some copied) :
    copied.length = array.length := by
  induction count generalizing array first result with
  | zero =>
    obtain rfl := Option.some.inj ran
    rfl
  | succ count ih =>
    obtain ⟨value, _, ran⟩ := Option.bind_eq_some_iff.mp ran
    obtain ⟨next, stored, ran⟩ := Option.bind_eq_some_iff.mp ran
    exact (ih ran).trans (store_length stored)

/-- Between two arrays the copy is the obvious splice. -/
theorem copyFrom_eq (source : List α) (count : Nat) {target : List α} {first result : Nat}
    (reads : first + count ≤ source.length) (writes : result + count ≤ target.length) :
    copyFrom source target first result count =
      some (target.take result ++ (source.drop first).take count ++
        target.drop (result + count)) := by
  induction count generalizing target first result with
  | zero => simp [copyFrom]
  | succ count ih =>
    have readsHere : first < source.length := by omega
    have writesHere : result < target.length := by omega
    simp only [copyFrom, List.getElem?_eq_getElem readsHere, store_inside writesHere,
      Option.bind_eq_bind, Option.bind_some]
    rw [ih (by omega) (by simp only [List.length_set]; omega), take_set_succ writesHere,
      drop_set_above (by omega), List.drop_eq_getElem_cons readsHere, List.take_succ_cons]
    simp [Nat.add_assoc, Nat.add_comm 1 count]

/-- A copy reads nothing behind its last element. -/
theorem copyFrom_take (source : List α) {bound : Nat} (count : Nat) {target : List α}
    {first result : Nat} (within : first + count ≤ bound) :
    copyFrom (source.take bound) target first result count =
      copyFrom source target first result count := by
  induction count generalizing target first result with
  | zero => rfl
  | succ count ih =>
    simp only [copyFrom]
    rw [List.getElem?_take_of_lt (by omega)]
    congr 1
    funext value
    congr 1
    funext next
    exact ih (by omega)

/-- Inside one array a forward copy towards the front moves the elements intact,
also where the two ranges overlap: what it overwrites has been read before. -/
theorem copyWithin_eq (count : Nat) {array : List α} {first result : Nat}
    (reads : first + count ≤ array.length) (forward : result ≤ first) :
    copyWithin array first result count =
      some (array.take result ++ (array.drop first).take count ++
        array.drop (result + count)) := by
  induction count generalizing array first result with
  | zero => simp [copyWithin]
  | succ count ih =>
    have readsHere : first < array.length := by omega
    have writesHere : result < array.length := by omega
    simp only [copyWithin, List.getElem?_eq_getElem readsHere, store_inside writesHere,
      Option.bind_eq_bind, Option.bind_some]
    rw [ih (by simp only [List.length_set]; omega) (by omega), take_set_succ writesHere,
      drop_set_above (by omega), drop_set_above (by omega),
      List.drop_eq_getElem_cons readsHere, List.take_succ_cons]
    simp [Nat.add_assoc, Nat.add_comm 1 count]

end ForwardCopy
