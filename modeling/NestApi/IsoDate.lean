import Mathlib.Algebra.Ring.Int.Defs
import Mathlib.Algebra.Ring.Nat
import Mathlib.Data.List.Forall2

/-! The texts of moments in the format of ISO 8601, as UTF-16 code units. A moment is a number of
milliseconds from the start of 1970 on. -/

namespace NestApi.IsoDate

/-- The last `width` decimal digits of a number. -/
def pad : Nat → Nat → List UInt16
  | 0, _ => []
  | width + 1, n => pad width (n / 10) ++ [.ofNat (48 + n % 10)]

def value (digits : List UInt16) : Nat :=
  digits.foldl (fun n digit => 10 * n + (digit.toNat - 48)) 0

/-- Numbers of fixed widths, each after a mark of its own, and a `Z`. -/
def write : List (UInt16 × Nat) → List Nat → List UInt16
  | (mark, width) :: layout, n :: fields => mark :: (pad width n ++ write layout fields)
  | _, _ => [0x5A]

def read : List (UInt16 × Nat) → List UInt16 → List Nat
  | [], _ => []
  | (_, width) :: layout, text =>
    value ((text.drop 1).take width) :: read layout (text.drop (width + 1))

/-- `-MM-DDTHH:mm:ss.sss`. -/
def layout : List (UInt16 × Nat) :=
  [(0x2D, 2), (0x2D, 2), (0x54, 2), (0x3A, 2), (0x3A, 2), (0x2E, 3)]

/-- Four digits, or a sign and six. -/
def writeYear (year : Int) : List UInt16 :=
  if 0 ≤ year ∧ year ≤ 9999 then pad 4 year.toNat
  else (if year < 0 then 0x2D else 0x2B) :: pad 6 year.natAbs

def readYear : List UInt16 → Int × List UInt16
  | [] => (0, [])
  | mark :: text =>
    if mark = 0x2D then (-value (text.take 6), text.drop 6)
    else if mark = 0x2B then (value (text.take 6), text.drop 6)
    else (value ((mark :: text).take 4), (mark :: text).drop 4)

/-- The year of a day and the day in it, from the first of March on, so that a leap day is the last
of its year, of its four years and of its four centuries. -/
def march (day : Int) : Int × Nat :=
  let ofEra := (day % 146097).toNat
  let century := min (ofEra / 36524) 3
  let ofCentury := ofEra - 36524 * century
  let year := min (ofCentury % 1461 / 365) 3
  (day / 146097 * 400 + ↑(100 * century + 4 * (ofCentury / 1461) + year),
    ofCentury % 1461 - 365 * year)

def dayOf (year : Int) (ofYear : Nat) : Int :=
  year / 400 * 146097 + year % 400 / 100 * 36524 + year % 100 / 4 * 1461 + year % 4 * 365 + ofYear

/-- The year of a moment, and its month, day, hour, minute, second and millisecond. -/
def split (time : Int) : Int × List Nat :=
  let (year, ofYear) := march (time / 86400000 + 719468)
  -- from March on, five months have 153 days
  let month := (5 * ofYear + 2) / 153
  let rest := (time % 86400000).toNat
  (year + ↑(month / 10), [(month + 2) % 12 + 1, ofYear - (153 * month + 2) / 5 + 1, rest / 3600000,
    rest / 60000 % 60, rest / 1000 % 60, rest % 1000])

def join (year : Int) : List Nat → Int
  | [month, day, hour, minute, second, millisecond] =>
    let month := (month + 9) % 12
    let days := dayOf (year - ↑(month / 10)) ((153 * month + 2) / 5 + day - 1) - 719468
    days * 86400000 + ↑(((hour * 60 + minute) * 60 + second) * 1000 + millisecond)
  | _ => 0

def print (time : Int) : List UInt16 := writeYear (split time).1 ++ write layout (split time).2

def parse (text : List UInt16) : Option Int :=
  let time := join (readYear text).1 (read layout (readYear text).2)
  if print time = text then some time else none

variable {width n : Nat} {text : List UInt16}

theorem length_pad (width n : Nat) : (pad width n).length = width := by
  induction width generalizing n with
  | zero => rfl
  | succ width ih => rw [pad, List.length_append, ih, List.length_singleton]

theorem toNat_digit (n : Nat) : (UInt16.ofNat (48 + n % 10)).toNat = 48 + n % 10 := by
  rw [UInt16.toNat_ofNat']
  omega

theorem value_pad (fits : n < 10 ^ width) : value (pad width n) = n := by
  induction width generalizing n with
  | zero =>
    have zero : n = 0 := by omega
    rw [zero]
    rfl
  | succ width ih =>
    have front : value (pad width (n / 10)) = n / 10 := ih (by omega)
    unfold value at front ⊢
    rw [pad, List.foldl_append, front, List.foldl_cons, toNat_digit]
    simp only [List.foldl_nil]
    omega

theorem take_pad : (pad width n ++ text).take width = pad width n :=
  List.take_left' (length_pad width n)

theorem drop_pad : (pad width n ++ text).drop width = text :=
  List.drop_left' (length_pad width n)

theorem read_write {layout : List (UInt16 × Nat)} {fields : List Nat}
    (fits : List.Forall₂ (fun field n => n < 10 ^ field.2) layout fields) :
    read layout (write layout fields) = fields := by
  induction fits with
  | nil => rfl
  | cons small _ ih =>
    simp only [write, read, List.drop_succ_cons, List.drop_zero, take_pad, drop_pad, ih]
    rw [value_pad small]

theorem readYear_writeYear {year : Int} (small : year.natAbs < 10 ^ 6) :
    readYear (writeYear year ++ text) = (year, text) := by
  unfold writeYear
  split
  · obtain ⟨mark, rest, shape, high⟩ : ∃ mark rest,
        pad 4 year.toNat ++ text = mark :: rest ∧ 48 ≤ mark.toNat :=
      ⟨_, _, rfl, by rw [toNat_digit]; omega⟩
    have sign : ∀ other : UInt16, other.toNat < 48 → mark ≠ other := by
      rintro other low rfl
      omega
    rw [shape, readYear, if_neg (sign _ (by decide)), if_neg (sign _ (by decide)), ← shape,
      take_pad, drop_pad, value_pad (by omega)]
    exact Prod.ext (by omega) rfl
  · by_cases negative : year < 0
    · rw [if_pos negative, List.cons_append, readYear, if_pos rfl, take_pad, drop_pad,
        value_pad small]
      exact Prod.ext (by omega) rfl
    · rw [if_neg negative, List.cons_append, readYear, if_neg (by decide), if_pos rfl, take_pad,
        drop_pad, value_pad small]
      exact Prod.ext (by omega) rfl

theorem march_lt (day : Int) : (march day).2 < 366 := by
  simp only [march]
  omega

theorem dayOf_parts {era : Int} {century four year ofYear : Nat} (centuries : century ≤ 3)
    (fours : four ≤ 24) (years : year ≤ 3) :
    dayOf (era * 400 + ↑(100 * century + 4 * four + year)) ofYear =
      era * 146097 + 36524 * century + 1461 * four + 365 * year + ofYear := by
  unfold dayOf
  generalize counted : era * 400 + ↑(100 * century + 4 * four + year) = all
  have parts : all / 400 = era ∧ all % 400 / 100 = century ∧ all % 100 / 4 = four ∧
      all % 4 = year := by
    omega
  omega

theorem dayOf_march (day : Int) : dayOf (march day).1 (march day).2 = day := by
  simp only [march]
  rw [dayOf_parts (by omega) (by omega) (by omega)]
  omega

theorem join_split (time : Int) : join (split time).1 (split time).2 = time := by
  have inside := march_lt (time / 86400000 + 719468)
  have back := dayOf_march (time / 86400000 + 719468)
  simp only [split, join]
  generalize march (time / 86400000 + 719468) = day at *
  generalize months : (5 * day.2 + 2) / 153 = month
  have again : ((month + 2) % 12 + 1 + 9) % 12 = month := by omega
  have kept : (153 * month + 2) / 5 + (day.2 - (153 * month + 2) / 5 + 1) - 1 = day.2 := by omega
  rw [again, kept, Int.add_sub_cancel, back]
  omega

/-- A moment that a year of six digits is enough for is read back from its text. -/
theorem parse_print {time : Int} (small : -10 ^ 16 < time ∧ time < 10 ^ 16) :
    parse (print time) = some time := by
  have fits : List.Forall₂ (fun (field : UInt16 × Nat) n => n < 10 ^ field.2) layout
      (split time).2 := by
    have inside := march_lt (time / 86400000 + 719468)
    simp only [split, layout, List.forall₂_cons, List.forall₂_nil_left_iff, and_true]
    omega
  have year : (split time).1.natAbs < 10 ^ 6 := by
    simp only [split, march]
    omega
  have back : join (readYear (print time)).1 (read layout (readYear (print time)).2) = time := by
    rw [print, readYear_writeYear year, read_write fits, join_split]
  simp only [parse, back, if_true]

end NestApi.IsoDate
