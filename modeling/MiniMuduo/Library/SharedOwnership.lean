import Mathlib.Logic.Function.Basic

/-! Objects under shared ownership: some strong references are held on the stack, the
others by code outside, which may drop or copy them whenever it is called. An object is
destroyed with its last reference, and stays so. -/
namespace SharedOwnership

variable {Object : Type}

/-- What is known of every object. An object that exists has a reference. -/
structure Sharing (Object : Type) where
  /-- References held outside. -/
  owners : Object → Nat
  /-- References held on the stack. -/
  guards : Object → Nat
  destroyed : Object → Bool
  /-- How often code outside has been called. -/
  calls : Nat
  settled : ∀ c, destroyed c = false → 0 < owners c + guards c

/-- Destroy what has lost its last reference. -/
def Sharing.settle (owners guards : Object → Nat) (destroyed : Object → Bool) (calls : Nat) :
    Sharing Object where
  owners := owners
  guards := guards
  destroyed c := destroyed c || owners c + guards c == 0
  calls := calls
  settled c alive := by
    simp only [Bool.or_eq_false_iff, beq_eq_false_iff_ne] at alive
    omega

/-- An access to an object that does not exist any more. -/
inductive LifetimeFault (Object : Type) where
  | useAfterFree (object : Object)
  deriving DecidableEq, Repr

abbrev SharingM (Object : Type) := EStateM (LifetimeFault Object) (Sharing Object)

/-- An access to the object. -/
def touch (c : Object) : SharingM Object Unit := do
  if (← get).destroyed c then throw (.useAfterFree c)

/-- What the call with each number leaves of every object's references outside. -/
abbrev Behaviour (Object : Type) := Nat → Object → Nat

/-- Code outside is called. -/
def callOutside (left : Behaviour Object) : SharingM Object Unit :=
  modify fun s => .settle (left s.calls) s.guards s.destroyed (s.calls + 1)

variable {c d : Object} {s t r : Sharing Object}

/-- What an action that works on object `c` and makes `count` calls outside does to all
other objects. -/
structure Spares (left : Behaviour Object) (c : Object) (count : Nat) (s t : Sharing Object) :
    Prop where
  guards : t.guards = s.guards
  calls : t.calls = s.calls + count
  others : ∀ d, d ≠ c → (t.destroyed d = false ↔
    s.destroyed d = false ∧ ∀ k < count, left (s.calls + k) d + s.guards d ≠ 0)

/-- And what it does to `c`: only what is left at its end counts. -/
structure Serves (left : Behaviour Object) (c : Object) (count : Nat) (s t : Sharing Object) :
    Prop extends Spares left c count s t where
  owners : t.owners = if count = 0 then s.owners else left (s.calls + count - 1)
  own : t.destroyed c = false ↔ count = 0 ∨ left (s.calls + count - 1) c + s.guards c ≠ 0

variable {left : Behaviour Object} {count more : Nat}

private theorem below_add (P : Nat → Prop) (count more : Nat) :
    (∀ k < count + more, P k) ↔ (∀ k < count, P k) ∧ ∀ k < more, P (count + k) := by
  constructor
  · exact fun all => ⟨fun k less => all k (by omega), fun k less => all (count + k) (by omega)⟩
  · rintro ⟨first, second⟩ k less
    by_cases early : k < count
    · exact first k early
    · have late := second (k - count) (by omega)
      rwa [Nat.add_sub_cancel' (by omega)] at late

theorem Spares.refl (left : Behaviour Object) (c : Object) (s : Sharing Object) :
    Spares left c 0 s s where
  guards := rfl
  calls := rfl
  others := by simp

theorem Serves.refl (left : Behaviour Object) (alive : s.destroyed c = false) :
    Serves left c 0 s s where
  toSpares := .refl left c s
  owners := rfl
  own := iff_of_true alive (Or.inl rfl)

theorem Spares.trans (first : Spares left c count s t) (second : Spares left c more t r) :
    Spares left c (count + more) s r where
  guards := second.guards.trans first.guards
  calls := by rw [second.calls, first.calls, Nat.add_assoc]
  others d other := by
    rw [second.others d other, first.others d other, first.guards, first.calls, and_assoc,
      below_add fun k => left (s.calls + k) d + s.guards d ≠ 0]
    simp only [Nat.add_assoc]

/-- Two actions in a row, where the first does not destroy the object. -/
theorem Serves.trans (first : Serves left c count s t) (alive : t.destroyed c = false)
    (second : Serves left c more t r) : Serves left c (count + more) s r where
  toSpares := first.toSpares.trans second.toSpares
  owners := by
    rw [second.owners, first.owners, first.calls]
    by_cases none : more = 0
    · simp [none]
    · rw [if_neg none, if_neg (by omega), Nat.add_assoc]
  own := by
    rw [second.own, first.calls, first.guards]
    by_cases none : more = 0
    · simpa [none] using first.own.mp alive
    · have some : ¬ count + more = 0 := by omega
      simp only [none, some, false_or, Nat.add_assoc]

variable [DecidableEq Object]

def Sharing.held (s : Sharing Object) (c : Object) : Sharing Object where
  owners := s.owners
  guards := Function.update s.guards c (s.guards c + 1)
  destroyed := s.destroyed
  calls := s.calls
  settled d alive := by
    have before := s.settled d alive
    by_cases same : d = c
    · rw [same, Function.update_self]
      omega
    · rwa [Function.update_of_ne same]

def Sharing.released (s : Sharing Object) (c : Object) : Sharing Object :=
  .settle s.owners (Function.update s.guards c (s.guards c - 1)) s.destroyed s.calls

/-- One more reference on the stack. -/
def hold (c : Object) : SharingM Object Unit := modify (·.held c)

def release (c : Object) : SharingM Object Unit := modify (·.released c)

/-- A reference from a weak one, if the object still has any. -/
def lock (c : Object) : SharingM Object Bool := do
  let s ← get
  if 0 < s.owners c + s.guards c then
    hold c
    return true
  else return false

/-- One more reference outside, copied from one that is there. -/
def copyOut (c : Object) : SharingM Object Unit := modify fun s =>
  .settle (Function.update s.owners c (s.owners c + 1)) s.guards s.destroyed s.calls

/-- Run `body` with a reference on the stack. -/
def holding (c : Object) (body : SharingM Object Unit) : SharingM Object Unit := do
  hold c
  body
  release c

end SharedOwnership
