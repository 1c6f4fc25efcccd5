import Mathlib.Data.Nat.Digits.Defs
import Mathlib.Data.List.Induction

namespace NestApi.JsString

/-- The upper case of a character, as far as it is made of ASCII letters. What upper-cases to
something outside ASCII is left as it is. -/
def upperChar : Char → List Char
  | 'ß' => ['S', 'S']
  | 'ı' => ['I']
  | 'ſ' => ['S']
  | 'ﬀ' => ['F', 'F']
  | 'ﬁ' => ['F', 'I']
  | 'ﬂ' => ['F', 'L']
  | 'ﬃ' => ['F', 'F', 'I']
  | 'ﬄ' => ['F', 'F', 'L']
  | 'ﬅ' => ['S', 'T']
  | 'ﬆ' => ['S', 'T']
  | c => [c.toUpper]

def toUpperCase (text : String) : String := String.ofList (text.toList.flatMap upperChar)

/-- Lower case; exact for ASCII text. -/
def toLowerCase (text : String) : String := String.ofList (text.toList.map Char.toLower)

/-- A text the code takes for present: neither missing nor empty. -/
def given (text : Option String) : Option String := text.filter fun present => present ≠ ""

/-- The characters `encodeURIComponent` leaves alone. -/
def isUnreserved (c : Char) : Bool := c.isAlphanum || "-_.!~*'()".toList.contains c

def percentEncode (byte : UInt8) : List Char :=
  ['%', Nat.digitChar (byte.toNat / 16), Nat.digitChar (byte.toNat % 16)].map Char.toUpper

def encodeURIComponent (text : String) : String :=
  String.ofList (text.toList.flatMap fun c =>
    if isUnreserved c then [c] else (String.singleton c).toUTF8.toList.flatMap percentEncode)

def trimSlashes (text : String) : String :=
  String.ofList (text.toList.reverse.dropWhile fun c => c = '/').reverse

/-- What `\s` matches and `trim` removes. -/
def isSpace (c : Char) : Bool :=
  [0x09, 0x0A, 0x0B, 0x0C, 0x0D, 0x20, 0xA0, 0x1680, 0x2028, 0x2029, 0x202F, 0x205F, 0x3000,
    0xFEFF].contains c.toNat || (0x2000 ≤ c.toNat && c.toNat ≤ 0x200A)

def trim (text : String) : String :=
  String.ofList ((text.toList.dropWhile isSpace).reverse.dropWhile isSpace).reverse

def padStart (text : String) (length : Nat) (fill : Char) : String :=
  String.ofList (List.replicate (length - text.length) fill ++ text.toList)

theorem isDigit_of_mem_decimal {n : Nat} {c : Char} (mem : c ∈ (toString n).toList) :
    c.isDigit = true := by
  rw [Nat.toString_eq_ofList_toDigits, String.toList_ofList] at mem
  exact Nat.isDigit_of_mem_toDigits (by decide) (by decide) mem

theorem decimal_injective : Function.Injective fun n : Nat => toString n := by
  intro first second same
  have chars : ∀ n, Nat.ofDigitChars 10 (toString n).toList 0 = n := by
    intro n
    rw [Nat.toString_eq_ofList_toDigits, String.toList_ofList]
    exact Nat.ofDigitChars_ten_toDigits
  rw [← chars first, ← chars second]
  exact congrArg (fun text => Nat.ofDigitChars 10 (String.toList text) 0) same

theorem toDigits_head {n : Nat} (positive : 0 < n) :
    ∃ c rest, Nat.toDigits 10 n = c :: rest ∧ c ≠ '0' := by
  induction n using Nat.strongRecOn with
  | ind n ih =>
    by_cases small : n < 10
    · refine ⟨n.digitChar, [], Nat.toDigits_of_lt_base small, ?_⟩
      rw [Ne, Nat.digitChar_eq_zero]
      omega
    · obtain ⟨c, rest, digits, other⟩ := ih (n / 10) (by omega) (by omega)
      rw [Nat.toDigits_of_base_le (by decide) (by omega), digits]
      exact ⟨c, rest ++ [(n % 10).digitChar], rfl, other⟩

/-- `0|[1-9][0-9]*`. -/
def isDecimal (text : List Char) : Bool :=
  text = ['0'] || text.all Char.isDigit && text.head?.any (· ≠ '0')

theorem digitChar_of_isDigit {c : Char} (digit : c.isDigit = true) :
    ∃ n < 10, n.digitChar = c := by
  obtain ⟨low, high⟩ := Char.isDigit_iff_toNat.mp digit
  have zero : '0'.toNat = 48 := rfl
  have nine : '9'.toNat = 57 := rfl
  refine ⟨c.toNat - 48, by omega, Char.toNat_inj.mp ?_⟩
  rw [Nat.toNat_digitChar_of_lt_ten (by omega)]
  omega

theorem isDecimal_toDigits (n : Nat) : isDecimal (Nat.toDigits 10 n) = true := by
  rcases Nat.eq_zero_or_pos n with rfl | positive
  · decide
  · obtain ⟨c, rest, digits, other⟩ := toDigits_head positive
    have all : (Nat.toDigits 10 n).all Char.isDigit = true :=
      List.all_eq_true.mpr fun c mem => Nat.isDigit_of_mem_toDigits (by decide) (by decide) mem
    rw [isDecimal, all, digits]
    simp [other]

theorem toDigits_ofDigitChars {c : Char} {rest : List Char} (digit : c.isDigit = true)
    (other : c ≠ '0') (digits : ∀ d ∈ rest, d.isDigit = true) :
    0 < Nat.ofDigitChars 10 (c :: rest) 0 ∧
      Nat.toDigits 10 (Nat.ofDigitChars 10 (c :: rest) 0) = c :: rest := by
  induction rest using List.reverseRecOn with
  | nil =>
    obtain ⟨n, small, rfl⟩ := digitChar_of_isDigit digit
    have positive : n ≠ 0 := fun zero => other (Nat.digitChar_eq_zero.mpr zero)
    rw [Nat.ofDigitChars_cons_digitChar_of_lt_ten small, Nat.ofDigitChars_nil, Nat.mul_zero,
      Nat.zero_add]
    exact ⟨by omega, Nat.toDigits_of_lt_base small⟩
  | append_singleton rest last ih =>
    obtain ⟨positive, same⟩ := ih fun d mem => digits d (List.mem_append_left _ mem)
    obtain ⟨n, small, rfl⟩ :=
      digitChar_of_isDigit (digits last (List.mem_append_right _ List.mem_cons_self))
    rw [← List.cons_append, Nat.ofDigitChars_append,
      Nat.ofDigitChars_cons_digitChar_of_lt_ten small, Nat.ofDigitChars_nil]
    refine ⟨by omega, ?_⟩
    rw [← Nat.toDigits_append_toDigits (by decide) positive small, same,
      Nat.toDigits_of_lt_base small]

theorem toDigits_of_isDecimal {text : List Char} (decimal : isDecimal text = true) :
    Nat.toDigits 10 (Nat.ofDigitChars 10 text 0) = text := by
  simp only [isDecimal, Bool.or_eq_true, decide_eq_true_eq, Bool.and_eq_true] at decimal
  rcases decimal with rfl | ⟨digits, head⟩
  · decide
  · cases text with
    | nil => simp at head
    | cons c =>
      have all := List.all_eq_true.mp digits
      exact (toDigits_ofDigitChars (all c List.mem_cons_self) (by simpa using head)
        fun d mem => all d (List.mem_cons_of_mem c mem)).2

theorem padStart_decimal_injective (length : Nat) :
    Function.Injective fun n : Nat => padStart (toString n) length '0' := by
  intro first second same
  have chars : ∀ n, Nat.ofDigitChars 10 (padStart (toString n) length '0').toList 0 = n := by
    intro n
    rw [padStart, String.toList_ofList, Nat.ofDigitChars_append, Nat.ofDigitChars_replicate_zero,
      Nat.mul_zero, Nat.toString_eq_ofList_toDigits, String.toList_ofList]
    exact Nat.ofDigitChars_ten_toDigits
  rw [← chars first, ← chars second]
  exact congrArg (fun text => Nat.ofDigitChars 10 (String.toList text) 0) same

theorem fromUTF8?_toUTF8 (text : String) : String.fromUTF8? text.toUTF8 = some text := by
  have valid : text.toUTF8.IsValidUTF8 := text.isValidUTF8
  rw [String.fromUTF8?, dif_pos valid]
  rfl

end NestApi.JsString
