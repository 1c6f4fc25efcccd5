import Mathlib.Data.List.Basic
import NestApi.JsString

namespace NestApi

/-- A JavaScript string: UTF-16 code units, lone surrogates included. -/
abbrev Utf16 := List UInt16

namespace Utf16

/-- The code units of one character, as a surrogate pair above the basic plane. -/
def ofChar (c : Char) : Utf16 :=
  if c.val < 0x10000 then [c.val.toUInt16]
  else
    let offset := c.val - 0x10000
    [(0xD800 : UInt16) + (offset >>> 10).toUInt16, (0xDC00 : UInt16) + (offset &&& 0x3FF).toUInt16]

def ofString (s : String) : Utf16 := s.toList.flatMap ofChar

def isHigh (unit : UInt16) : Bool := 0xD800 ≤ unit.toNat && unit.toNat < 0xDC00

def isLow (unit : UInt16) : Bool := 0xDC00 ≤ unit.toNat && unit.toNat < 0xE000

def pairChar (high low : UInt16) : Char :=
  Char.ofNat (0x10000 + (high.toNat - 0xD800) * 0x400 + (low.toNat - 0xDC00))

/-- A code unit by itself: a character, unless it is half of a pair. -/
def single (unit : UInt16) : Char ⊕ UInt16 :=
  if isHigh unit || isLow unit then .inr unit else .inl (Char.ofNat unit.toNat)

/-- The characters of a string, and the lone surrogates between them. -/
def scalars : Utf16 → List (Char ⊕ UInt16)
  | [] => []
  | [unit] => [single unit]
  | high :: low :: rest =>
    if isHigh high && isLow low then .inl (pairChar high low) :: scalars rest
    else single high :: scalars (low :: rest)

def units : Char ⊕ UInt16 → Utf16
  | .inl c => ofChar c
  | .inr unit => [unit]

def isSpace (unit : UInt16) : Bool := JsString.isSpace (Char.ofNat unit.toNat)

def trim (text : Utf16) : Utf16 := ((text.dropWhile isSpace).reverse.dropWhile isSpace).reverse

theorem toNat_ofNat_of_valid {code : Nat} (valid : code.isValidChar) :
    (Char.ofNat code).toNat = code := by
  rw [Char.ofNat, dif_pos valid]
  rfl

theorem ofChar_basic {c : Char} (small : c.toNat < 0x10000) : ofChar c = [c.val.toUInt16] := by
  have less : c.val < 0x10000 := UInt32.lt_iff_toNat_lt.mpr small
  rw [ofChar, if_pos less]

theorem ofChar_pairChar {high low : UInt16} (first : isHigh high = true)
    (second : isLow low = true) : ofChar (pairChar high low) = [high, low] := by
  simp only [isHigh, isLow, Bool.and_eq_true, decide_eq_true_eq] at first second
  have valid : (0x10000 + (high.toNat - 0xD800) * 0x400 + (low.toNat - 0xDC00)).isValidChar := by
    right
    omega
  have code : (pairChar high low).val.toNat =
      0x10000 + (high.toNat - 0xD800) * 0x400 + (low.toNat - 0xDC00) := toNat_ofNat_of_valid valid
  have above : ¬ (pairChar high low).val < 0x10000 := by
    rw [UInt32.lt_iff_toNat_lt, code]
    simp
    omega
  have offset : ((pairChar high low).val - 0x10000).toNat =
      (high.toNat - 0xD800) * 0x400 + (low.toNat - 0xDC00) := by
    rw [UInt32.toNat_sub_of_le _ _ (UInt32.not_lt.mp above), code]
    simp
    omega
  have left : (0xD800 : UInt16) + (((pairChar high low).val - 0x10000) >>> 10).toUInt16 = high := by
    apply UInt16.toNat_inj.mp
    rw [UInt16.toNat_add, UInt32.toNat_toUInt16, UInt32.toNat_shiftRight, offset,
      Nat.shiftRight_eq_div_pow, show UInt32.toNat 10 % 32 = 10 from rfl,
      show UInt16.toNat 0xD800 = 0xD800 from rfl]
    omega
  have right : (0xDC00 : UInt16) + (((pairChar high low).val - 0x10000) &&& 0x3FF).toUInt16 =
      low := by
    apply UInt16.toNat_inj.mp
    rw [UInt16.toNat_add, UInt32.toNat_toUInt16, UInt32.toNat_and, offset,
      show UInt32.toNat 0x3FF = 2 ^ 10 - 1 from rfl, Nat.and_two_pow_sub_one_eq_mod,
      show UInt16.toNat 0xDC00 = 0xDC00 from rfl]
    omega
  rw [ofChar, if_neg above]
  exact congrArg₂ (fun first second => [first, second]) left right

theorem units_single (unit : UInt16) : units (single unit) = [unit] := by
  unfold single
  split
  · rfl
  · rename_i whole
    simp only [isHigh, isLow, Bool.or_eq_true, Bool.and_eq_true, decide_eq_true_eq] at whole
    have small : unit.toNat < 0x10000 := unit.toNat_lt
    have valid : unit.toNat.isValidChar := by
      unfold Nat.isValidChar
      omega
    have code := toNat_ofNat_of_valid valid
    rw [units, ofChar_basic (by omega)]
    congr 1
    apply UInt16.toNat_inj.mp
    rw [UInt32.toNat_toUInt16, show (Char.ofNat unit.toNat).val.toNat = unit.toNat from code]
    exact Nat.mod_eq_of_lt small

theorem flatMap_units_scalars (text : Utf16) : (scalars text).flatMap units = text := by
  fun_induction scalars text with
  | case1 => rfl
  | case2 => simp [units_single]
  | case3 high low rest pair ih =>
    simp only [Bool.and_eq_true] at pair
    simp [units, ofChar_pairChar pair.1 pair.2, ih]
  | case4 high low rest _ ih => simp [units_single, ih]

end Utf16

end NestApi
