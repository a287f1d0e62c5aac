import Mathlib.Data.List.Rotate
import Mathlib.Data.List.Nodup

/-! Taking turns: whoever is first in line is served and goes to the back. Windows of a full
round are rotations of the line, and after any number of turns nobody is ahead by two. -/

universe u

namespace RoundRobin

variable {Item : Type u} {items : List Item} {a b : Item}

/-- Who is served in the first turns. -/
def turns : List Item → Nat → List Item
  | _, 0 => []
  | [], _ + 1 => []
  | a :: rest, k + 1 => a :: turns (rest ++ [a]) k

@[simp] theorem turns_zero (items : List Item) : turns items 0 = [] := by
  cases items <;> rfl

@[simp] theorem turns_nil (k : Nat) : turns ([] : List Item) k = [] := by
  cases k <;> rfl

@[simp] theorem turns_cons_succ (a : Item) (rest : List Item) (k : Nat) :
    turns (a :: rest) (k + 1) = a :: turns (rest ++ [a]) k := rfl

/-- The turns after the first ones are those of the line that they leave. -/
theorem turns_add (items : List Item) (j k : Nat) :
    turns items (j + k) = turns items j ++ turns (items.rotate j) k := by
  induction j generalizing items with
  | zero => simp
  | succ j ih =>
    cases items with
    | nil => simp
    | cons a rest =>
      rw [Nat.succ_add, turns_cons_succ, turns_cons_succ, ih, List.rotate_cons_succ,
        List.cons_append]

theorem turns_length (some : items ≠ []) (k : Nat) : (turns items k).length = k := by
  induction k generalizing items with
  | zero => simp
  | succ k ih =>
    obtain ⟨a, rest, rfl⟩ := List.exists_cons_of_ne_nil some
    rw [turns_cons_succ, List.length_cons, ih (by simp)]

/-- Within the first round everyone is served in line. -/
theorem turns_take (rest served : List Item) :
    turns (rest ++ served) rest.length = rest := by
  induction rest generalizing served with
  | nil => simp
  | cons a rest ih =>
    rw [List.cons_append, List.length_cons, turns_cons_succ, List.append_assoc, ih]

theorem turns_round (items : List Item) : turns items items.length = items := by
  simpa using turns_take items []

/-- Any full round in a row is the line as it stood at its beginning. -/
theorem turns_window (items : List Item) {j k : Nat} (within : j + items.length ≤ k) :
    ((turns items k).drop j).take items.length = items.rotate j := by
  by_cases some : items = []
  · simp [some]
  obtain ⟨more, rfl⟩ := Nat.exists_eq_add_of_le within
  have round : turns (items.rotate j) items.length = items.rotate j := by
    simpa using turns_round (items.rotate j)
  rw [Nat.add_assoc, turns_add, List.drop_left' (turns_length some j), turns_add, round,
    List.take_left' (List.length_rotate ..)]

theorem turns_subset (items : List Item) (k : Nat) : ∀ a ∈ turns items k, a ∈ items := by
  induction k generalizing items with
  | zero => simp
  | succ k ih =>
    cases items with
    | nil => simp
    | cons first rest =>
      intro a served
      rcases List.mem_cons.mp served with rfl | later
      · exact List.mem_cons_self
      · simpa [or_comm] using ih _ a later

/-- After a number of turns everyone has been served once for each full round, and at most
once more. -/
theorem count_turns [DecidableEq Item] (distinct : items.Nodup) (member : a ∈ items) (k : Nat) :
    k / items.length ≤ (turns items k).count a ∧
      (turns items k).count a ≤ k / items.length + 1 := by
  induction k using Nat.strong_induction_on with
  | h k ih =>
    by_cases short : k < items.length
    · have front : turns items k = items.take k := by
        have first := turns_take (items.take k) (items.drop k)
        rwa [List.take_append_drop, List.length_take_of_le (Nat.le_of_lt short)] at first
      have once : (items.take k).count a ≤ 1 :=
        List.nodup_iff_count_le_one.mp (distinct.sublist (List.take_sublist k items)) a
      rw [Nat.div_eq_of_lt short, front]
      exact ⟨Nat.zero_le _, once⟩
    · obtain ⟨j, rfl⟩ := Nat.exists_eq_add_of_le (Nat.le_of_not_lt short)
      have positive : 0 < items.length := List.length_pos_of_mem member
      have round : turns items (items.length + j) = items ++ turns items j := by
        rw [turns_add, turns_round, List.rotate_length]
      obtain ⟨least, most⟩ := ih j (by omega)
      rw [round, List.count_append, List.count_eq_one_of_mem distinct member,
        Nat.add_div_left j positive]
      omega

/-- Nobody is ahead of anybody by two. -/
theorem turns_fair [DecidableEq Item] (distinct : items.Nodup) (here : a ∈ items)
    (there : b ∈ items) (k : Nat) : (turns items k).count a ≤ (turns items k).count b + 1 :=
  Nat.le_trans (count_turns distinct here k).2
    (Nat.succ_le_succ (count_turns distinct there k).1)

end RoundRobin
