import Mathlib.Algebra.Group.Nat.Defs
import Mathlib.Data.List.Basic

/-! Numerals as C reads and prints them: `strtoul` with base 0 takes a leading `0x` for
hexadecimal and a leading `0` for octal, and stops at the first character that is no
digit. What `%u` prints it reads back. -/
namespace Numeral

def digitValue (c : Char) : Option Nat :=
  if c.isDigit then some (c.toNat - 48)
  else if 'a' ≤ c ∧ c ≤ 'f' then some (c.toNat - 97 + 10)
  else if 'A' ≤ c ∧ c ≤ 'F' then some (c.toNat - 65 + 10)
  else none

def isDigitOf (base : Nat) (c : Char) : Bool := (digitValue c).any (· < base)

def value (base : Nat) (digits : List Char) : Nat :=
  digits.foldl (fun n c => base * n + (digitValue c).getD 0) 0

/-- The base that a text announces, and where its digits begin. -/
def radix : List Char → Nat × List Char
  | '0' :: x :: h :: rest =>
    if (x = 'x' ∨ x = 'X') ∧ isDigitOf 16 h then (16, h :: rest) else (8, '0' :: x :: h :: rest)
  | '0' :: rest => (8, '0' :: rest)
  | text => (10, text)

/-- The number and what stands behind it. It does not saturate. -/
def strtoul (text : List Char) : Nat × List Char :=
  let (base, digits) := radix text
  (value base (digits.takeWhile (isDigitOf base)), digits.dropWhile (isDigitOf base))

/-- What `%u` prints. -/
def print (n : Nat) : List Char := Nat.toDigits 10 n

variable {n m : Nat} {c : Char} {rest other : List Char}

theorem isDigit_of_isDigitOf {base : Nat} (small : base ≤ 10) (digit : isDigitOf base c = true) :
    c.isDigit = true := by
  by_contra no
  unfold isDigitOf digitValue at digit
  rw [if_neg no] at digit
  split at digit
  · simp at digit
    omega
  · split at digit
    · simp at digit
      omega
    · cases digit

theorem isDigitOf_ten (digit : c.isDigit = true) :
    isDigitOf 10 c = true ∧ (digitValue c).getD 0 = c.toNat - 48 := by
  have range : 48 ≤ c.toNat ∧ c.toNat ≤ 57 := by
    simpa [Char.isDigit, UInt32.le_iff_toNat_le] using digit
  simp only [isDigitOf, digitValue, if_pos digit, Option.any_some, Option.getD_some, and_true,
    decide_eq_true_eq]
  omega

/-- Nothing that continues a numeral. -/
def Stops (rest : List Char) : Prop :=
  ∀ c, rest.head? = some c → c.isDigit = false ∧ c ≠ 'x' ∧ c ≠ 'X'

theorem print_digits (n : Nat) : ∀ c ∈ print n, c.isDigit = true := fun _ member =>
  Nat.isDigit_of_mem_toDigits (by decide) (by decide) member

theorem value_print (n : Nat) : value 10 (print n) = n := by
  have same : ∀ digits : List Char, (∀ c ∈ digits, c.isDigit = true) → ∀ first,
      digits.foldl (fun n c => 10 * n + (digitValue c).getD 0) first =
        Nat.ofDigitChars 10 digits first := by
    intro digits
    induction digits with
    | nil => simp
    | cons c digits ih =>
      intro all first
      rw [List.foldl_cons, ih (fun other member => all other (by simp [member])),
        Nat.ofDigitChars_cons, (isDigitOf_ten (all c (by simp))).2]
      rfl
  rw [value, same _ (print_digits n), print, Nat.ofDigitChars_ten_toDigits]

/-- A printed number has no leading zero. -/
theorem print_head (positive : 0 < n) : (print n).head? ≠ some '0' := by
  induction n using Nat.strongRecOn with
  | ind n ih =>
    by_cases small : n < 10
    · rw [print, Nat.toDigits_of_lt_base small]
      simp
      omega
    · rw [print, Nat.toDigits_of_base_le (by decide) (by omega), List.head?_append_of_ne_nil]
      · exact ih (n / 10) (by omega) (by omega)
      · exact Nat.toDigits_ne_nil

/-- A text that does not continue a numeral has no digit in front. -/
theorem no_digits {base : Nat} (small : base ≤ 10) (stops : Stops rest) :
    rest.takeWhile (isDigitOf base) = [] ∧ rest.dropWhile (isDigitOf base) = rest := by
  cases rest with
  | nil => exact ⟨rfl, rfl⟩
  | cons c rest =>
    have other : ¬ isDigitOf base c = true := by
      intro digit
      have no := (stops c rfl).1
      rw [isDigit_of_isDigitOf small digit] at no
      cases no
    exact ⟨List.takeWhile_cons_of_neg other, List.dropWhile_cons_of_neg other⟩

theorem print_span (n : Nat) (stops : Stops rest) :
    (print n ++ rest).takeWhile (isDigitOf 10) = print n ∧
      (print n ++ rest).dropWhile (isDigitOf 10) = rest := by
  have digits : ∀ c ∈ print n, isDigitOf 10 c = true := fun c member =>
    (isDigitOf_ten (print_digits n c member)).1
  obtain ⟨none, all⟩ := no_digits (Nat.le_refl 10) stops
  rw [List.takeWhile_append_of_pos digits, List.dropWhile_append_of_pos digits, none, all,
    List.append_nil]
  exact ⟨rfl, rfl⟩

theorem radix_zero (stops : Stops rest) : radix ('0' :: rest) = (8, '0' :: rest) := by
  match rest with
  | [] => rfl
  | [c] => rfl
  | x :: h :: rest =>
    obtain ⟨_, lower, upper⟩ := stops x rfl
    simp [radix, lower, upper]

theorem radix_other (other : c ≠ '0') : radix (c :: rest) = (10, c :: rest) := by
  unfold radix
  split <;> simp_all

/-- What was printed is read back, up to where the numeral stops. -/
theorem strtoul_print (n : Nat) (stops : Stops rest) : strtoul (print n ++ rest) = (n, rest) := by
  rcases Nat.eq_zero_or_pos n with rfl | positive
  · obtain ⟨none, all⟩ := no_digits (show 8 ≤ 10 by decide) stops
    have zero : isDigitOf 8 '0' = true := by decide
    show strtoul ('0' :: rest) = (0, rest)
    rw [strtoul, radix_zero stops]
    simp only [List.takeWhile_cons_of_pos zero, List.dropWhile_cons_of_pos zero, none, all]
    rfl
  · have head := print_head positive
    obtain ⟨digits, behind⟩ := print_span n stops
    cases printed : print n with
    | nil => exact absurd printed Nat.toDigits_ne_nil
    | cons c more =>
      rw [printed] at head digits behind
      have other : c ≠ '0' := fun zero => head (by rw [zero]; rfl)
      rw [List.cons_append] at digits behind ⊢
      rw [strtoul, radix_other other]
      simp only [digits, behind]
      rw [← printed, value_print]

theorem stops_nil : Stops [] := nofun

theorem stops_cons (other : c.isDigit = false ∧ c ≠ 'x' ∧ c ≠ 'X') : Stops (c :: rest) := by
  rintro _ ⟨⟩
  exact other

/-- So many digits are enough. -/
theorem print_length {k : Nat} (positive : 0 < k) (small : n < 10 ^ k) : (print n).length ≤ k :=
  (Nat.length_toDigits_le_iff (by decide) positive).mpr small

/-! ### Numerals of one width -/

/-- What `%0Nu` prints. -/
def padded (width n : Nat) : List Char :=
  List.replicate (width - (print n).length) '0' ++ print n

theorem padded_length {width : Nat} (positive : 0 < width) (small : n < 10 ^ width) :
    (padded width n).length = width := by
  have fits := print_length positive small
  rw [padded, List.length_append, List.length_replicate]
  omega

theorem padded_digits (width n : Nat) : ∀ c ∈ padded width n, c.isDigit = true := by
  intro c member
  rcases List.mem_append.mp member with zero | digit
  · rw [List.eq_of_mem_replicate zero]
    decide
  · exact print_digits n c digit

theorem value_zeros (count : Nat) (digits : List Char) :
    value 10 (List.replicate count '0' ++ digits) = value 10 digits := by
  induction count with
  | zero => rfl
  | succ count ih => exact ih

theorem value_padded (width n : Nat) : value 10 (padded width n) = n := by
  rw [padded, value_zeros, value_print]

theorem value_from (digits : List Char) (first : Nat) :
    digits.foldl (fun n c => 10 * n + (digitValue c).getD 0) first =
      first * 10 ^ digits.length + value 10 digits := by
  induction digits generalizing first with
  | nil => simp [value]
  | cons c digits ih =>
    rw [value, List.foldl_cons, List.foldl_cons, ih, ih, List.length_cons, Nat.pow_succ,
      Nat.mul_zero, Nat.zero_add, Nat.add_mul, Nat.add_assoc, Nat.mul_comm 10 first, Nat.mul_assoc,
      Nat.mul_comm 10]

theorem value_cons (c : Char) (digits : List Char) :
    value 10 (c :: digits) = (digitValue c).getD 0 * 10 ^ digits.length + value 10 digits := by
  rw [value, List.foldl_cons, value_from, Nat.mul_zero, Nat.zero_add]

theorem digit_lt_ten {c : Char} (digit : c.isDigit = true) : (digitValue c).getD 0 < 10 := by
  have range : c.toNat ≤ 57 := by
    simp [Char.isDigit, UInt32.le_iff_toNat_le] at digit
    exact digit.2
  rw [(isDigitOf_ten digit).2]
  omega

theorem value_lt (digits : List Char) (all : ∀ c ∈ digits, c.isDigit = true) :
    value 10 digits < 10 ^ digits.length := by
  induction digits with
  | nil => simp [value]
  | cons c digits ih =>
    have rest := ih fun other member => all other (List.mem_cons_of_mem c member)
    have first := digit_lt_ten (all c List.mem_cons_self)
    have most := Nat.mul_le_mul_right (10 ^ digits.length) (Nat.le_of_lt_succ first)
    rw [value_cons, List.length_cons, Nat.pow_succ]
    omega

theorem digit_lt_iff {c d : Char} (first : c.isDigit = true) (second : d.isDigit = true) :
    c < d ↔ (digitValue c).getD 0 < (digitValue d).getD 0 := by
  rw [(isDigitOf_ten first).2, (isDigitOf_ten second).2, Char.lt_def, UInt32.lt_iff_toNat_lt]
  simp [Char.isDigit, UInt32.le_iff_toNat_le] at first second
  show c.toNat < d.toNat ↔ _
  omega

theorem digit_inj {c d : Char} (first : c.isDigit = true) (second : d.isDigit = true)
    (same : (digitValue c).getD 0 = (digitValue d).getD 0) : c = d := by
  rw [(isDigitOf_ten first).2, (isDigitOf_ten second).2] at same
  simp [Char.isDigit, UInt32.le_iff_toNat_le] at first second
  exact Char.toNat_inj.mp (by omega)

/-- What stands in front counts first. -/
theorem front_lt_iff {a b low high base : Nat} (below : low < base) (below' : high < base) :
    a * base + low < b * base + high ↔ a < b ∨ a = b ∧ low < high := by
  rcases Nat.lt_trichotomy a b with less | rfl | greater
  · have most := Nat.mul_le_mul_right base (Nat.succ_le_of_lt less)
    rw [Nat.succ_mul] at most
    exact iff_of_true (by omega) (Or.inl less)
  · simp
  · have most := Nat.mul_le_mul_right base (Nat.succ_le_of_lt greater)
    rw [Nat.succ_mul] at most
    exact iff_of_false (by omega) (by omega)

/-- Of two rows of as many digits, the one that is the first in the order of the texts is the
less. -/
theorem digits_lt_iff {first second : List Char} (same : first.length = second.length)
    (all : ∀ c ∈ first, c.isDigit = true) (all' : ∀ c ∈ second, c.isDigit = true) :
    first < second ↔ value 10 first < value 10 second := by
  induction first generalizing second with
  | nil =>
    obtain rfl := List.eq_nil_of_length_eq_zero same.symm
    simp [value]
  | cons c first ih =>
    cases second with
    | nil => cases same
    | cons d second =>
      have lengths : first.length = second.length := Nat.succ.inj same
      have digits := fun other member => all other (List.mem_cons_of_mem c member)
      have digits' := fun other member => all' other (List.mem_cons_of_mem d member)
      have digit := all c List.mem_cons_self
      have digit' := all' d List.mem_cons_self
      have equal : c = d ↔ (digitValue c).getD 0 = (digitValue d).getD 0 :=
        ⟨fun same => by rw [same], digit_inj digit digit'⟩
      rw [List.cons_lt_cons_iff, ih lengths digits digits', digit_lt_iff digit digit', equal,
        value_cons, value_cons, lengths]
      exact (front_lt_iff (lengths ▸ value_lt first digits) (value_lt second digits')).symm

variable {width : Nat}

/-- Texts are compared in front first, if the fronts are of one length. -/
theorem append_lt_iff {front front' : List Char} (same : front.length = front'.length) :
    front ++ rest < front' ++ other ↔ front < front' ∨ front = front' ∧ rest < other := by
  induction front generalizing front' with
  | nil =>
    obtain rfl := List.eq_nil_of_length_eq_zero same.symm
    simp
  | cons c front ih =>
    cases front' with
    | nil => cases same
    | cons d front' =>
      rw [List.cons_append, List.cons_append, List.cons_lt_cons_iff, ih (Nat.succ.inj same),
        List.cons_lt_cons_iff, List.cons.injEq]
      constructor
      · rintro (less | ⟨equal, less | ⟨same, less⟩⟩)
        · exact Or.inl (Or.inl less)
        · exact Or.inl (Or.inr ⟨equal, less⟩)
        · exact Or.inr ⟨⟨equal, same⟩, less⟩
      · rintro ((less | ⟨equal, less⟩) | ⟨⟨equal, same⟩, less⟩)
        · exact Or.inl less
        · exact Or.inr ⟨equal, Or.inl less⟩
        · exact Or.inr ⟨equal, Or.inr ⟨same, less⟩⟩

/-- Texts that begin with numerals of one width are in the order of the numbers. -/
theorem padded_lt_iff (positive : 0 < width) (small : n < 10 ^ width) (small' : m < 10 ^ width) :
    padded width n ++ rest < padded width m ++ other ↔ n < m ∨ n = m ∧ rest < other := by
  have lengths : (padded width n).length = (padded width m).length := by
    rw [padded_length positive small, padded_length positive small']
  have equal : padded width n = padded width m ↔ n = m := by
    refine ⟨fun same => ?_, fun same => by rw [same]⟩
    rw [← value_padded width n, same, value_padded]
  rw [append_lt_iff lengths, equal,
    digits_lt_iff lengths (padded_digits width n) (padded_digits width m), value_padded,
    value_padded]

theorem padded_inj (positive : 0 < width) (small : n < 10 ^ width) (small' : m < 10 ^ width) :
    padded width n ++ rest = padded width m ++ other ↔ n = m ∧ rest = other := by
  constructor
  · intro same
    obtain ⟨front, behind⟩ := List.append_inj same (by
      rw [padded_length positive small, padded_length positive small'])
    rw [← value_padded width n, front, value_padded]
    exact ⟨rfl, behind⟩
  · rintro ⟨rfl, rfl⟩
    rfl

/-- Numerals of one width, each behind a separator. -/
def columns (width : Nat) : List Char → List Nat → List Char
  | c :: separators, n :: numbers => c :: (padded width n ++ columns width separators numbers)
  | _, _ => []

variable {separators : List Char} {numbers others : List Nat}

theorem columns_length (positive : 0 < width) (small : ∀ n ∈ numbers, n < 10 ^ width)
    (same : numbers.length = separators.length) :
    (columns width separators numbers).length = separators.length * (width + 1) := by
  induction separators generalizing numbers with
  | nil => simp [columns]
  | cons c separators ih =>
    cases numbers with
    | nil => cases same
    | cons n numbers =>
      have rest := ih (fun m member => small m (List.mem_cons_of_mem n member))
        (Nat.succ.inj same)
      have first := padded_length positive (small n List.mem_cons_self)
      rw [columns, List.length_cons, List.length_append, rest, first, List.length_cons,
        Nat.succ_mul]
      omega

/-- Between the same separators, texts are in the order of the rows of numbers. -/
theorem columns_lt_iff (positive : 0 < width) (small : ∀ n ∈ numbers, n < 10 ^ width)
    (small' : ∀ n ∈ others, n < 10 ^ width) (same : numbers.length = separators.length)
    (same' : others.length = separators.length) :
    columns width separators numbers < columns width separators others ↔ numbers < others := by
  induction separators generalizing numbers others with
  | nil =>
    obtain rfl := List.eq_nil_of_length_eq_zero same
    obtain rfl := List.eq_nil_of_length_eq_zero same'
    simp [columns]
  | cons c separators ih =>
    match numbers, others with
    | n :: numbers, m :: others =>
      have rest := ih (fun k member => small k (List.mem_cons_of_mem n member))
        (fun k member => small' k (List.mem_cons_of_mem m member)) (Nat.succ.inj same)
        (Nat.succ.inj same')
      rw [columns, columns, List.cons_lt_cons_iff, List.cons_lt_cons_iff,
        padded_lt_iff positive (small n List.mem_cons_self) (small' m List.mem_cons_self), rest]
      simp

theorem columns_inj (positive : 0 < width) (small : ∀ n ∈ numbers, n < 10 ^ width)
    (small' : ∀ n ∈ others, n < 10 ^ width) (same : numbers.length = separators.length)
    (same' : others.length = separators.length) :
    columns width separators numbers = columns width separators others ↔ numbers = others := by
  induction separators generalizing numbers others with
  | nil =>
    obtain rfl := List.eq_nil_of_length_eq_zero same
    obtain rfl := List.eq_nil_of_length_eq_zero same'
    simp
  | cons c separators ih =>
    match numbers, others with
    | n :: numbers, m :: others =>
      have rest := ih (fun k member => small k (List.mem_cons_of_mem n member))
        (fun k member => small' k (List.mem_cons_of_mem m member)) (Nat.succ.inj same)
        (Nat.succ.inj same')
      rw [columns, columns, List.cons.injEq, List.cons.injEq,
        padded_inj positive (small n List.mem_cons_self) (small' m List.mem_cons_self), rest]
      simp

end Numeral
