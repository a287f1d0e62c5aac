import MiniMuduo.Channel
import MiniMuduo.Library.Numeral
import Mathlib.Algebra.Group.Nat.Defs

/-! `Timestamp::toString`. What `localtime` makes of the seconds that `now()` has stored is an
input; the rest is the text that stands in front of every message of the log. -/
namespace MiniMuduo
open Numeral

/-- A broken-down time, as far as it is printed. -/
structure Tm where
  /-- Since 1900. -/
  year : Int
  /-- Since January. -/
  mon : Int
  mday : Int
  hour : Int
  min : Int
  sec : Int
  deriving DecidableEq, Repr

namespace Timestamp

/-- `%d`. -/
def printInt (n : Int) : List Char := if n < 0 then '-' :: print n.natAbs else print n.natAbs

/-- `%Nd`. -/
def blankPadded (width : Nat) (n : Int) : List Char :=
  List.replicate (width - (printInt n).length) ' ' ++ printInt n

/-- `%0Nd`, where the sign counts. -/
def zeroPadded (width : Nat) (n : Int) : List Char :=
  if n < 0 then '-' :: padded (width - 1) n.natAbs else padded width n.natAbs

/-- What `snprintf` leaves of the text in 128 bytes. `localtime` always answers here, where
the source's may return null, and the sums are those of unbounded integers: the source adds
`int`s, which overflow in the last years that a `tm` can hold. -/
def toString (localtime : Timestamp → Tm) (time : Timestamp) : List Char :=
  let tm := localtime time
  (blankPadded 4 (tm.year + 1900) ++ '/' :: zeroPadded 2 (tm.mon + 1) ++ '/' ::
    zeroPadded 2 tm.mday ++ ' ' :: zeroPadded 2 tm.hour ++ ':' :: zeroPadded 2 tm.min ++ ':' ::
    zeroPadded 2 tm.sec).take 127

/-- What is printed, from the year down to the second. -/
def fields (tm : Tm) : List Int := [tm.year, tm.mon, tm.mday, tm.hour, tm.min, tm.sec]

/-- A year of four digits, and the others as `localtime` gives them; there are leap seconds. -/
structure InRange (tm : Tm) : Prop where
  year : 1000 ≤ tm.year + 1900 ∧ tm.year + 1900 ≤ 9999
  mon : 0 ≤ tm.mon ∧ tm.mon ≤ 11
  mday : 1 ≤ tm.mday ∧ tm.mday ≤ 31
  hour : 0 ≤ tm.hour ∧ tm.hour ≤ 23
  min : 0 ≤ tm.min ∧ tm.min ≤ 59
  sec : 0 ≤ tm.sec ∧ tm.sec ≤ 60

theorem zeroPadded_eq {n : Int} (width : Nat) (positive : 0 ≤ n) :
    zeroPadded width n = padded width n.toNat := by
  rw [zeroPadded, if_neg (by omega), show n.natAbs = n.toNat by omega]

/-- Four digits need no blanks. -/
theorem blankPadded_eq {n : Int} (low : 1000 ≤ n) (high : n ≤ 9999) :
    blankPadded 4 n = padded 4 n.toNat := by
  have digits : (print n.toNat).length = 4 := by
    have most := print_length (n := n.toNat) (k := 4) (by decide) (by omega)
    have least : ¬ (print n.toNat).length ≤ 3 := by
      rw [print, Nat.length_toDigits_le_iff (by decide) (by decide)]
      omega
    omega
  have plain : printInt n = print n.toNat := by
    rw [printInt, if_neg (by omega), show n.natAbs = n.toNat by omega]
  rw [blankPadded, plain, padded, digits]
  rfl

/-- What stands behind the year, as it is printed. -/
def numbers (tm : Tm) : List Nat :=
  [(tm.mon + 1).toNat, tm.mday.toNat, tm.hour.toNat, tm.min.toNat, tm.sec.toNat]

/-- The text, as numerals of fixed width. -/
def text (tm : Tm) : List Char :=
  padded 4 (tm.year + 1900).toNat ++ columns 2 ['/', '/', ' ', ':', ':'] (numbers tm)

variable {tm other : Tm}

theorem numbers_small (plain : InRange tm) : ∀ n ∈ numbers tm, n < 10 ^ 2 := by
  obtain ⟨_, _, _, _, _, _⟩ := plain
  simp only [numbers, List.mem_cons, List.not_mem_nil, or_false]
  omega

theorem year_small (plain : InRange tm) : (tm.year + 1900).toNat < 10 ^ 4 := by
  have year := plain.year
  omega

theorem text_length (plain : InRange tm) : (text tm).length = 19 := by
  rw [text, List.length_append, padded_length (by decide) (year_small plain),
    columns_length Nat.two_pos (numbers_small plain) rfl]
  rfl

theorem toString_eq (localtime : Timestamp → Tm) {time : Timestamp}
    (plain : InRange (localtime time)) : toString localtime time = text (localtime time) := by
  have short := text_length plain
  obtain ⟨year, mon, mday, hour, min, sec⟩ := plain
  have whole : blankPadded 4 ((localtime time).year + 1900) ++ '/' ::
      zeroPadded 2 ((localtime time).mon + 1) ++ '/' :: zeroPadded 2 (localtime time).mday ++
      ' ' :: zeroPadded 2 (localtime time).hour ++ ':' :: zeroPadded 2 (localtime time).min ++
      ':' :: zeroPadded 2 (localtime time).sec = text (localtime time) := by
    rw [blankPadded_eq year.1 year.2, zeroPadded_eq 2 (by omega), zeroPadded_eq 2 (by omega),
      zeroPadded_eq 2 (by omega), zeroPadded_eq 2 (by omega), zeroPadded_eq 2 (by omega)]
    simp [text, numbers, columns]
  rw [toString]
  simp only [whole]
  exact List.take_of_length_le (by omega)

theorem toNat_lt_iff {a b : Int} (first : 0 ≤ a) (second : 0 ≤ b) : a.toNat < b.toNat ↔ a < b := by
  omega

theorem toNat_inj_iff {a b : Int} (first : 0 ≤ a) (second : 0 ≤ b) :
    a.toNat = b.toNat ↔ a = b := by
  omega

/-- None of the fields is negative, so that the numbers are in the order of the fields. -/
theorem fields_lt_iff (plain : InRange tm) (plain' : InRange other) :
    fields tm < fields other ↔
      (tm.year + 1900).toNat :: numbers tm < (other.year + 1900).toNat :: numbers other := by
  obtain ⟨_, _, _, _, _, _⟩ := plain
  obtain ⟨_, _, _, _, _, _⟩ := plain'
  simp (disch := omega) only [fields, numbers, List.cons_lt_cons_iff, List.not_lt_nil,
    toNat_lt_iff, toNat_inj_iff, Int.add_lt_add_iff_right, Int.add_left_inj]

theorem text_lt_iff (plain : InRange tm) (plain' : InRange other) :
    text tm < text other ↔ fields tm < fields other := by
  rw [fields_lt_iff plain plain', text, text,
    padded_lt_iff (by decide) (year_small plain) (year_small plain'),
    columns_lt_iff Nat.two_pos (numbers_small plain) (numbers_small plain') rfl rfl,
    List.cons_lt_cons_iff]

theorem fields_inj : fields tm = fields other ↔ tm = other := by
  cases tm
  cases other
  simp [fields]

theorem text_inj (plain : InRange tm) (plain' : InRange other) :
    text tm = text other ↔ tm = other := by
  rw [← fields_inj, text, text,
    padded_inj (by decide) (year_small plain) (year_small plain'),
    columns_inj Nat.two_pos (numbers_small plain) (numbers_small plain') rfl rfl]
  obtain ⟨_, _, _, _, _, _⟩ := plain
  obtain ⟨_, _, _, _, _, _⟩ := plain'
  simp (disch := omega) only [fields, numbers, List.cons.injEq, toNat_inj_iff, Int.add_left_inj]

/-- The texts of times all have 19 chars and are in the order of the times that they print, down
to the second; so the lines of a log are sorted as texts. -/
theorem texts_sort (localtime : Timestamp → Tm) {a b : Timestamp} (plain : InRange (localtime a))
    (plain' : InRange (localtime b)) :
    (toString localtime a < toString localtime b ↔
        fields (localtime a) < fields (localtime b)) ∧
      (toString localtime a = toString localtime b ↔ localtime a = localtime b) ∧
      (toString localtime a).length = 19 := by
  rw [toString_eq localtime plain, toString_eq localtime plain']
  exact ⟨text_lt_iff plain plain', text_inj plain plain', text_length plain⟩

/-- A minute of the first day of 1970. -/
def minuteOne (time : Timestamp) : Tm := ⟨70, 0, 1, 0, 1, time - 60⟩

/-- The tenth second comes behind the ninth, in the text too. -/
theorem nine_before_ten : toString minuteOne 69 < toString minuteOne 70 := by
  refine (texts_sort minuteOne ?_ ?_).1.mpr (by decide)
  · constructor <;> decide
  · constructor <;> decide

end Timestamp
end MiniMuduo
