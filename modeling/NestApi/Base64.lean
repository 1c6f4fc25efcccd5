import Mathlib.Data.UInt

namespace NestApi.Base64

theorem toList_loop (bytes : ByteArray) (i : Nat) (read : List UInt8) :
    ByteArray.toList.loop bytes i read = read.reverse ++ bytes.data.toList.drop i := by
  induction left : bytes.size - i using Nat.strongRecOn generalizing i read with
  | ind left ih =>
    rw [ByteArray.toList.loop]
    by_cases inside : i < bytes.size
    · have size : i < bytes.data.toList.length := inside
      have here : bytes.get! i = bytes.data.toList[i] := getElem!_pos bytes.data i inside
      rw [if_pos inside, ih _ (by omega) (i + 1) _ rfl, List.reverse_cons, List.append_assoc,
        here, List.singleton_append, List.getElem_cons_drop]
    · rw [if_neg inside, List.drop_of_length_le, List.append_nil]
      exact Nat.le_of_not_lt inside

theorem mk_toList (bytes : ByteArray) : ByteArray.mk bytes.toList.toArray = bytes := by
  rw [ByteArray.toList, toList_loop]
  rfl

/-- The six-bit digits of a sequence of bytes. A rest of one or two bytes is filled up with zero
bits. -/
def digits : List UInt8 → List Nat
  | first :: second :: third :: rest =>
    first.toNat / 4 :: (first.toNat % 4 * 16 + second.toNat / 16) ::
      (second.toNat % 16 * 4 + third.toNat / 64) :: third.toNat % 64 :: digits rest
  | [first, second] =>
    [first.toNat / 4, first.toNat % 4 * 16 + second.toNat / 16, second.toNat % 16 * 4]
  | [first] => [first.toNat / 4, first.toNat % 4 * 16]
  | [] => []

/-- The bytes that can be made of whole groups of eight bits. -/
def ofDigits : List Nat → List UInt8
  | a :: b :: c :: d :: rest =>
    UInt8.ofNat (a * 4 + b / 16) :: UInt8.ofNat (b % 16 * 16 + c / 4) ::
      UInt8.ofNat (c % 4 * 64 + d) :: ofDigits rest
  | [a, b, c] => [UInt8.ofNat (a * 4 + b / 16), UInt8.ofNat (b % 16 * 16 + c / 4)]
  | [a, b] => [UInt8.ofNat (a * 4 + b / 16)]
  | _ => []

theorem ofNat_eq_of_toNat (byte : UInt8) {n : Nat} (same : n = byte.toNat) :
    UInt8.ofNat n = byte := by
  rw [same, UInt8.ofNat_toNat]

theorem ofDigits_digits (bytes : List UInt8) : ofDigits (digits bytes) = bytes := by
  induction bytes using digits.induct with
  | case1 first second third rest ih =>
    have one := first.toNat_lt
    have two := second.toNat_lt
    have three := third.toNat_lt
    rw [digits, ofDigits, ih, ofNat_eq_of_toNat first (by omega),
      ofNat_eq_of_toNat second (by omega), ofNat_eq_of_toNat third (by omega)]
  | case2 first second =>
    have one := first.toNat_lt
    have two := second.toNat_lt
    rw [digits, ofDigits, ofNat_eq_of_toNat first (by omega), ofNat_eq_of_toNat second (by omega)]
  | case3 first =>
    have one := first.toNat_lt
    rw [digits, ofDigits, ofNat_eq_of_toNat first (by omega)]
  | case4 => rfl

theorem lt_of_mem_digits {bytes : List UInt8} {digit : Nat} (mem : digit ∈ digits bytes) :
    digit < 64 := by
  induction bytes using digits.induct with
  | case1 first second third rest ih =>
    have one := first.toNat_lt
    have two := second.toNat_lt
    have three := third.toNat_lt
    simp only [digits, List.mem_cons] at mem
    rcases mem with rfl | rfl | rfl | rfl | mem
    · omega
    · omega
    · omega
    · omega
    · exact ih mem
  | case2 first second =>
    have one := first.toNat_lt
    have two := second.toNat_lt
    simp only [digits, List.mem_cons, List.not_mem_nil, or_false] at mem
    omega
  | case3 first =>
    have one := first.toNat_lt
    simp only [digits, List.mem_cons, List.not_mem_nil, or_false] at mem
    omega
  | case4 => cases mem

section Alphabet

/-! Any alphabet of 64 letters, and a reader that passes over every other character. -/

variable {letter : Nat → Char} {value : Char → Option Nat}

theorem filterMap_letters (reads : ∀ digit < 64, value (letter digit) = some digit)
    (bytes : List UInt8) : ((digits bytes).map letter).filterMap value = digits bytes := by
  rw [List.filterMap_map]
  have every : ∀ digit ∈ digits bytes, (value ∘ letter) digit = some digit :=
    fun digit mem => reads digit (lt_of_mem_digits mem)
  rw [List.filterMap_congr every, List.filterMap_some]

end Alphabet

section Standard

def letters : List Char :=
  "ABCDEFGHIJKLMNOPQRSTUVWXYZabcdefghijklmnopqrstuvwxyz0123456789+/".toList

end Standard

end NestApi.Base64
