import NestApi.OrderedMap
import NestApi.Utf16

namespace NestApi.JsonText

/-- What `JSON.parse` returns, over the numbers of the language. Objects have their properties in
the order of the text. -/
inductive Value (N : Type) where
  | null
  | bool (value : Bool)
  | num (value : N)
  | str (value : Utf16)
  | arr (items : List (Value N))
  | obj (fields : List (Utf16 × Value N))

section Numerals

def isNumeralChar (c : Char) : Bool := "0123456789+-.eE".toList.contains c

def digits : List Char → Option (List Char)
  | [] => none
  | c :: rest => if c.isDigit then some (rest.dropWhile Char.isDigit) else none

def afterSign : List Char → List Char
  | [] => []
  | c :: rest => if c = '-' then rest else c :: rest

def afterInteger : List Char → Option (List Char)
  | [] => none
  | c :: rest => if c = '0' then some rest else digits (c :: rest)

def afterFraction : List Char → Option (List Char)
  | [] => some []
  | c :: rest => if c = '.' then digits rest else some (c :: rest)

def afterExponent : List Char → Option (List Char)
  | [] => some []
  | c :: rest =>
    if c = 'e' ∨ c = 'E' then
      match rest with
      | [] => none
      | sign :: rest => digits (if sign = '+' ∨ sign = '-' then rest else sign :: rest)
    else some (c :: rest)

def isNumeral (text : List Char) : Bool :=
  text.all isNumeralChar &&
    ((afterInteger (afterSign text)).bind afterFraction).bind afterExponent == some []

end Numerals

/-- How numbers are printed and read. Those that are not finite have no exact text, nor has minus
zero. -/
structure Numbers (N : Type) where
  print : N → List Char
  read : List Char → N
  Exact : N → Prop
  numeral : ∀ n, Exact n → isNumeral (print n) = true
  read_print : ∀ n, Exact n → read (print n) = n

section Strings

def hex (code : Nat) : List Char :=
  [code / 4096 % 16, code / 256 % 16, code / 16 % 16, code % 16].map Nat.digitChar

def shortEscape (c : Char) : Option Char :=
  [('"', '"'), ('\\', '\\'), ('\x08', 'b'), ('\t', 't'), ('\n', 'n'), ('\x0c', 'f'),
    ('\r', 'r')].lookup c

/-- A character of a string, or half of a pair, as it is printed. -/
def escape : Char ⊕ UInt16 → List Char
  | .inl c =>
    match shortEscape c with
    | some letter => ['\\', letter]
    | none => if c.toNat < 0x20 then '\\' :: 'u' :: hex c.toNat else [c]
  | .inr unit => '\\' :: 'u' :: hex unit.toNat

def printString (text : Utf16) : List Char :=
  '"' :: (Utf16.scalars text).flatMap escape ++ ['"']

def hexDigit (c : Char) : Option Nat :=
  if '0' ≤ c ∧ c ≤ '9' then some (c.toNat - '0'.toNat)
  else if 'a' ≤ c ∧ c ≤ 'f' then some (c.toNat - 'a'.toNat + 10)
  else if 'A' ≤ c ∧ c ≤ 'F' then some (c.toNat - 'A'.toNat + 10)
  else none

def unescape (letter : Char) : Option Char :=
  [('"', '"'), ('\\', '\\'), ('/', '/'), ('b', '\x08'), ('t', '\t'), ('n', '\n'), ('f', '\x0c'),
    ('r', '\r')].lookup letter

def parseString : List Char → Option (Utf16 × List Char)
  | [] => none
  | '"' :: rest => some ([], rest)
  | '\\' :: 'u' :: a :: b :: c :: d :: rest =>
    (hexDigit a).bind fun a => (hexDigit b).bind fun b => (hexDigit c).bind fun c =>
      (hexDigit d).bind fun d => (parseString rest).map fun (text, rest) =>
        (UInt16.ofNat (((a * 16 + b) * 16 + c) * 16 + d) :: text, rest)
  | '\\' :: letter :: rest =>
    (unescape letter).bind fun c => (parseString rest).map fun (text, rest) =>
      (Utf16.ofChar c ++ text, rest)
  | c :: rest =>
    if c.toNat < 0x20 then none
    else (parseString rest).map fun (text, rest) => (Utf16.ofChar c ++ text, rest)

theorem hexDigit_digitChar {digit : Nat} (small : digit < 16) :
    hexDigit (Nat.digitChar digit) = some digit := by
  have all : ∀ digit : Fin 16, hexDigit (Nat.digitChar digit) = some digit.val := by decide
  exact all ⟨digit, small⟩

theorem parseString_hex {code : Nat} (small : code < 65536) (rest : List Char) :
    parseString ('\\' :: 'u' :: hex code ++ rest) =
      (parseString rest).map fun (text, rest) => (UInt16.ofNat code :: text, rest) := by
  have sum : ((code / 4096 % 16 * 16 + code / 256 % 16) * 16 + code / 16 % 16) * 16 + code % 16 =
      code := by omega
  simp only [hex, List.map_cons, List.map_nil, List.cons_append, List.nil_append, parseString]
  rw [hexDigit_digitChar (by omega), hexDigit_digitChar (by omega),
    hexDigit_digitChar (by omega), hexDigit_digitChar (by omega)]
  simp only [Option.bind_some, sum]

theorem parseString_plain {c : Char} (quote : c ≠ '"') (backslash : c ≠ '\\')
    (printable : ¬ c.toNat < 0x20) (rest : List Char) : parseString (c :: rest) =
      (parseString rest).map fun (text, rest) => (Utf16.ofChar c ++ text, rest) := by
  rw [parseString.eq_5 c rest quote (fun _ _ _ _ _ same => absurd same backslash)
    (fun _ _ same => absurd same backslash), if_neg printable]

theorem parseString_escape (scalar : Char ⊕ UInt16) (rest : List Char) :
    parseString (escape scalar ++ rest) =
      (parseString rest).map fun (text, rest) => (Utf16.units scalar ++ text, rest) := by
  cases scalar with
  | inr unit =>
    have same : UInt16.ofNat unit.toNat = unit := UInt16.ofNat_toNat
    rw [escape, parseString_hex unit.toNat_lt, same]
    rfl
  | inl c =>
    by_cases quote : c = '"'
    · subst quote
      rfl
    by_cases backslash : c = '\\'
    · subst backslash
      rfl
    by_cases short : c ∈ ['\x08', '\t', '\n', '\x0c', '\r']
    · simp only [List.mem_cons, List.not_mem_nil, or_false] at short
      rcases short with rfl | rfl | rfl | rfl | rfl <;> rfl
    have long : shortEscape c = none := by
      simp only [List.mem_cons, List.not_mem_nil, or_false, not_or] at short
      simp [shortEscape, List.lookup_eq_none_iff, quote, backslash, short]
    simp only [escape, long]
    split
    · rename_i control
      have code : UInt16.ofNat c.toNat = c.val.toUInt16 := rfl
      rw [parseString_hex (by omega), Utf16.units, Utf16.ofChar_basic (by omega), code]
      rfl
    · rename_i printable
      exact parseString_plain quote backslash printable rest

theorem parseString_printString (text : Utf16) (rest : List Char) :
    parseString ((Utf16.scalars text).flatMap escape ++ '"' :: rest) = some (text, rest) := by
  have each : ∀ scalars : List (Char ⊕ UInt16),
      parseString (scalars.flatMap escape ++ '"' :: rest) =
        some (scalars.flatMap Utf16.units, rest) := by
    intro scalars
    induction scalars with
    | nil => rfl
    | cons scalar scalars ih =>
      rw [List.flatMap_cons, List.append_assoc, parseString_escape, ih]
      rfl
  rw [each, Utf16.flatMap_units_scalars]

end Strings

section Values

variable {N : Type} (numbers : Numbers N)

mutual

/-- `JSON.stringify`. -/
def print : Value N → List Char
  | .null => "null".toList
  | .bool true => "true".toList
  | .bool false => "false".toList
  | .num value => numbers.print value
  | .str value => printString value
  | .arr items => '[' :: printItems items ++ [']']
  | .obj fields => '\x7b' :: printFields fields ++ ['\x7d']

def printItems : List (Value N) → List Char
  | [] => []
  | [item] => print item
  | item :: next :: rest => print item ++ ',' :: printItems (next :: rest)

def printFields : List (Utf16 × Value N) → List Char
  | [] => []
  | [(name, value)] => printString name ++ ':' :: print value
  | (name, value) :: next :: rest =>
    printString name ++ ':' :: print value ++ ',' :: printFields (next :: rest)

end

def isWhitespace (c : Char) : Bool := [' ', '\t', '\n', '\r'].contains c

def skip (text : List Char) : List Char := text.dropWhile isWhitespace

def parseWord (text : List Char) : Option (Value N × List Char) :=
  if "null".toList.isPrefixOf text then some (.null, text.drop 4)
  else if "true".toList.isPrefixOf text then some (.bool true, text.drop 4)
  else if "false".toList.isPrefixOf text then some (.bool false, text.drop 5)
  else none

def parseNumber (text : List Char) : Option (Value N × List Char) :=
  if isNumeral (text.takeWhile isNumeralChar) then
    some (.num (numbers.read (text.takeWhile isNumeralChar)), text.dropWhile isNumeralChar)
  else none

/-- Properties in the order of the text; one that comes again replaces the first. -/
def collect (fields : List (Utf16 × Value N)) : List (Utf16 × Value N) :=
  fields.foldl (fun object field => OrderedMap.setEntries field.1 field.2 object) []

mutual

def parseValue : Nat → List Char → Option (Value N × List Char)
  | 0, _ => none
  | _, [] => none
  | fuel + 1, c :: rest =>
    if c = '"' then (parseString rest).map fun (text, rest) => (.str text, rest)
    else if c = '[' then
      if (skip rest).head? = some ']' then some (.arr [], (skip rest).tail)
      else (parseItems fuel rest).map fun (items, rest) => (.arr items, rest)
    else if c = '\x7b' then
      if (skip rest).head? = some '\x7d' then some (.obj [], (skip rest).tail)
      else (parseFields fuel rest).map fun (fields, rest) => (.obj (collect fields), rest)
    else (parseWord (c :: rest)).or (parseNumber numbers (c :: rest))

def parseItems : Nat → List Char → Option (List (Value N) × List Char)
  | 0, _ => none
  | fuel + 1, text =>
    (parseValue fuel (skip text)).bind fun (item, rest) =>
      match skip rest with
      | [] => none
      | c :: rest =>
        if c = ']' then some ([item], rest)
        else if c = ',' then
          (parseItems fuel rest).map fun (items, rest) => (item :: items, rest)
        else none

def parseFields : Nat → List Char → Option (List (Utf16 × Value N) × List Char)
  | 0, _ => none
  | fuel + 1, text =>
    match skip text with
    | [] => none
    | quote :: rest =>
      if quote ≠ '"' then none
      else
        (parseString rest).bind fun (name, rest) =>
          match skip rest with
          | [] => none
          | colon :: rest =>
            if colon ≠ ':' then none
            else
              (parseValue fuel (skip rest)).bind fun (value, rest) =>
                match skip rest with
                | [] => none
                | c :: rest =>
                  if c = '\x7d' then some ([(name, value)], rest)
                  else if c = ',' then
                    (parseFields fuel rest).map fun (fields, rest) =>
                      ((name, value) :: fields, rest)
                  else none

end

/-- `JSON.parse`. -/
def parse (text : List Char) : Option (Value N) :=
  (parseValue numbers text.length (skip text)).bind fun (value, rest) =>
    if skip rest = [] then some value else none

mutual

/-- Values that JSON says exactly: their numbers have exact texts, and no object has a property
twice. -/
def Exact : Value N → Prop
  | .null | .bool _ | .str _ => True
  | .num value => numbers.Exact value
  | .arr items => ExactItems items
  | .obj fields => (fields.map Prod.fst).Nodup ∧ ExactFields fields

def ExactItems : List (Value N) → Prop
  | [] => True
  | item :: rest => Exact item ∧ ExactItems rest

def ExactFields : List (Utf16 × Value N) → Prop
  | [] => True
  | (_, value) :: rest => Exact value ∧ ExactFields rest

end

def Stops (rest : List Char) : Prop := ∀ c ∈ rest.head?, isNumeralChar c = false

theorem stops_cons {c : Char} (other : isNumeralChar c = false) (rest : List Char) :
    Stops (c :: rest) := by
  intro first same
  cases same
  exact other

theorem skip_cons {c : Char} (shown : isWhitespace c = false) (rest : List Char) :
    skip (c :: rest) = c :: rest := by
  simp [skip, shown]

variable {numbers} {value : Value N}

/-- A number is printed as a digit or a sign, and more of these. -/
theorem Numbers.print_cons {n : N} (exact : numbers.Exact n) :
    ∃ c rest, numbers.print n = c :: rest ∧ isNumeralChar c = true := by
  have numeral := numbers.numeral n exact
  simp only [isNumeral, Bool.and_eq_true] at numeral
  cases text : numbers.print n with
  | nil => simp [text, afterSign, afterInteger] at numeral
  | cons c rest =>
    rw [text, List.all_cons, Bool.and_eq_true] at numeral
    exact ⟨c, rest, rfl, numeral.1.1⟩

theorem numeralChar_other {c : Char} (numeral : isNumeralChar c = true) :
    isWhitespace c = false ∧ c ≠ ']' ∧ c ≠ '"' ∧ c ≠ '[' ∧ c ≠ '\x7b' ∧ c ≠ 'n' ∧ c ≠ 't' ∧
      c ≠ 'f' := by
  have all : ∀ c ∈ "0123456789+-.eE".toList, isWhitespace c = false ∧ c ≠ ']' ∧ c ≠ '"' ∧
      c ≠ '[' ∧ c ≠ '\x7b' ∧ c ≠ 'n' ∧ c ≠ 't' ∧ c ≠ 'f' :=
    List.forall_iff_forall_mem.mp (by decide)
  exact all c (by simpa [isNumeralChar] using numeral)

theorem print_cons (exact : Exact numbers value) :
    ∃ c rest, print numbers value = c :: rest ∧ isWhitespace c = false ∧ c ≠ ']' := by
  cases value with
  | null => exact ⟨'n', "ull".toList, rfl, by decide, by decide⟩
  | bool value =>
    cases value with
    | true => exact ⟨'t', "rue".toList, rfl, by decide, by decide⟩
    | false => exact ⟨'f', "alse".toList, rfl, by decide, by decide⟩
  | num =>
    obtain ⟨c, rest, text, numeral⟩ := Numbers.print_cons exact
    have other := numeralChar_other numeral
    exact ⟨c, rest, text, other.1, other.2.1⟩
  | str => exact ⟨'"', _, rfl, by decide, by decide⟩
  | arr => exact ⟨'[', _, rfl, by decide, by decide⟩
  | obj => exact ⟨'\x7b', _, rfl, by decide, by decide⟩

theorem skip_print (exact : Exact numbers value) (rest : List Char) :
    skip (print numbers value ++ rest) = print numbers value ++ rest := by
  obtain ⟨c, more, text, shown, _⟩ := print_cons exact
  rw [text]
  exact skip_cons shown _

theorem parseValue_num {n : N} (exact : numbers.Exact n) {rest : List Char} (stops : Stops rest)
    (fuel : Nat) :
    parseValue numbers (fuel + 1) (numbers.print n ++ rest) = some (.num n, rest) := by
  have numeral := numbers.numeral n exact
  have chars : ∀ c ∈ numbers.print n, isNumeralChar c = true := by
    simp only [isNumeral, Bool.and_eq_true, List.all_eq_true] at numeral
    exact numeral.1
  have taken : (numbers.print n ++ rest).takeWhile isNumeralChar = numbers.print n := by
    rw [List.takeWhile_append_of_pos chars]
    cases rest with
    | nil => simp
    | cons c => simp [stops c rfl]
  have dropped : (numbers.print n ++ rest).dropWhile isNumeralChar = rest := by
    rw [List.dropWhile_append_of_pos chars]
    cases rest with
    | nil => rfl
    | cons c => simp [stops c rfl]
  have number : parseNumber numbers (numbers.print n ++ rest) = some (.num n, rest) := by
    rw [parseNumber, taken, dropped, if_pos numeral, numbers.read_print n exact]
  obtain ⟨c, more, text, first⟩ := Numbers.print_cons exact
  obtain ⟨_, _, quote, bracket, brace, word⟩ := numeralChar_other first
  rw [text, List.cons_append] at number ⊢
  have words : parseWord (c :: (more ++ rest)) = (none : Option (Value N × List Char)) := by
    simp [parseWord, List.isPrefixOf, Ne.symm word.1, Ne.symm word.2.1, Ne.symm word.2.2]
  rw [parseValue, if_neg quote, if_neg bracket, if_neg brace, words, number]
  rfl

theorem collect_of_nodup {fields : List (Utf16 × Value N)}
    (distinct : (fields.map Prod.fst).Nodup) : collect fields = fields := by
  have each : ∀ before after : List (Utf16 × Value N),
      ((before ++ after).map Prod.fst).Nodup →
        after.foldl (fun object field => OrderedMap.setEntries field.1 field.2 object) before =
          before ++ after := by
    intro before after
    induction after generalizing before with
    | nil => simp
    | cons field after ih =>
      intro distinct
      have new : ∀ earlier : List (Utf16 × Value N), field.1 ∉ earlier.map Prod.fst →
          OrderedMap.setEntries field.1 field.2 earlier = earlier ++ [field] := by
        intro earlier
        induction earlier with
        | nil => simp [OrderedMap.setEntries]
        | cons entry rest ih =>
          intro absent
          simp only [List.map_cons, List.mem_cons, not_or] at absent
          simp [OrderedMap.setEntries, Ne.symm absent.1, ih absent.2]
      have absent : field.1 ∉ before.map Prod.fst := by
        intro listed
        rw [List.map_append, List.nodup_append] at distinct
        exact distinct.2.2 field.1 listed field.1 (by simp) rfl
      rw [List.foldl_cons, new before absent, ih _ (by simpa using distinct)]
      simp
  exact each [] fields (by simpa using distinct)

section Steps

variable {item : Value N} {items : List (Value N)} {fields : List (Utf16 × Value N)} {fuel : Nat}
  {text rest : List Char} {more : List Char}

theorem parseValue_arr {c : Char} (shown : isWhitespace c = false) (other : c ≠ ']')
    (read : parseItems numbers fuel (c :: text) = some (items, rest)) :
    parseValue numbers (fuel + 1) ('[' :: c :: text) = some (.arr items, rest) := by
  rw [parseValue, if_neg (by decide), if_pos rfl, skip_cons shown, read, List.head?_cons,
    if_neg (by simpa using other)]
  rfl

theorem parseValue_obj (distinct : (fields.map Prod.fst).Nodup)
    (read : parseFields numbers fuel ('"' :: text) = some (fields, rest)) :
    parseValue numbers (fuel + 1) ('\x7b' :: '"' :: text) = some (.obj fields, rest) := by
  rw [parseValue, if_neg (by decide), if_neg (by decide), if_pos rfl, skip_cons (by decide), read,
    List.head?_cons, if_neg (by decide)]
  simp [collect_of_nodup distinct]

theorem parseItems_last (start : skip text = text)
    (read : parseValue numbers fuel text = some (item, ']' :: rest)) :
    parseItems numbers (fuel + 1) text = some ([item], rest) := by
  rw [parseItems, start, read]
  simp [skip_cons (show isWhitespace ']' = false by decide)]

theorem parseItems_cons (start : skip text = text)
    (read : parseValue numbers fuel text = some (item, ',' :: more))
    (others : parseItems numbers fuel more = some (items, rest)) :
    parseItems numbers (fuel + 1) text = some (item :: items, rest) := by
  rw [parseItems, start, read]
  simp [skip_cons (show isWhitespace ',' = false by decide), others]

theorem parseFields_name (name : Utf16) (start : skip text = text) :
    parseFields numbers (fuel + 1) (printString name ++ ':' :: text) =
      (parseValue numbers fuel text).bind fun (value, rest) =>
        match skip rest with
        | [] => none
        | c :: rest =>
          if c = '\x7d' then some ([(name, value)], rest)
          else if c = ',' then
            (parseFields numbers fuel rest).map fun (fields, rest) =>
              ((name, value) :: fields, rest)
          else none := by
  have quoted : printString name ++ ':' :: text =
      '"' :: ((Utf16.scalars name).flatMap escape ++ '"' :: ':' :: text) := by
    simp [printString]
  rw [quoted, parseFields, skip_cons (by decide)]
  simp [parseString_printString, skip_cons (show isWhitespace ':' = false by decide), start]

theorem parseFields_last (name : Utf16) (start : skip text = text)
    (read : parseValue numbers fuel text = some (item, '\x7d' :: rest)) :
    parseFields numbers (fuel + 1) (printString name ++ ':' :: text) =
      some ([(name, item)], rest) := by
  rw [parseFields_name name start, read]
  simp [skip_cons (show isWhitespace '\x7d' = false by decide)]

theorem parseFields_cons (name : Utf16) (start : skip text = text)
    (read : parseValue numbers fuel text = some (item, ',' :: more))
    (others : parseFields numbers fuel more = some (fields, rest)) :
    parseFields numbers (fuel + 1) (printString name ++ ':' :: text) =
      some ((name, item) :: fields, rest) := by
  rw [parseFields_name name start, read]
  simp [skip_cons (show isWhitespace ',' = false by decide), others]

end Steps

theorem length_print (exact : Exact numbers value) : 1 ≤ (print numbers value).length := by
  obtain ⟨c, rest, text, _⟩ := print_cons exact
  rw [text, List.length_cons]
  omega

mutual

/-- A printed value is read back where it ends. -/
theorem parseValue_print : ∀ value, Exact numbers value → ∀ rest,
    Stops rest → ∀ fuel, (print numbers value).length ≤ fuel →
      parseValue numbers fuel (print numbers value ++ rest) = some (value, rest)
  | _, exact, _, _, 0, enough => absurd ((length_print exact).trans enough) (by decide)
  | .null, _, _, _, _ + 1, _ => rfl
  | .bool true, _, _, _, _ + 1, _ => rfl
  | .bool false, _, _, _, _ + 1, _ => rfl
  | .num _, exact, _, stops, fuel + 1, _ => parseValue_num exact stops fuel
  | .str text, _, rest, _, fuel + 1, _ => by
      have quoted : print numbers (.str text) ++ rest =
          '"' :: ((Utf16.scalars text).flatMap escape ++ '"' :: rest) := by
        simp [print, printString]
      rw [quoted, parseValue, if_pos rfl, parseString_printString]
      rfl
  | .arr [], _, _, _, _ + 1, _ => rfl
  | .arr (item :: more), exact, rest, _, fuel + 1, enough => by
      simp only [print, List.length_append, List.length_cons, List.length_nil] at enough
      obtain ⟨c, text, head, shown, other⟩ : ∃ c text, printItems numbers (item :: more) =
          c :: text ∧ isWhitespace c = false ∧ c ≠ ']' := by
        obtain ⟨c, text, head, facts⟩ := print_cons exact.1
        cases more with
        | nil => exact ⟨c, text, head, facts⟩
        | cons => exact ⟨c, _, congrArg (fun text => text ++ _) head, facts⟩
      obtain ⟨fuel, rfl⟩ : ∃ less, fuel = less + 1 := ⟨fuel - 1, by omega⟩
      have read := parseItems_print item more exact.1 exact.2 rest fuel (by omega)
      rw [print, List.cons_append, List.cons_append, List.append_assoc, List.singleton_append, head]
      rw [head] at read
      exact parseValue_arr shown other read
  | .obj [], _, _, _, _ + 1, _ => rfl
  | .obj ((name, value) :: more), exact, rest, _, fuel + 1, enough => by
      simp only [print, List.length_append, List.length_cons, List.length_nil] at enough
      obtain ⟨fuel, rfl⟩ : ∃ less, fuel = less + 1 := ⟨fuel - 1, by omega⟩
      have read := parseFields_print name value more exact.2.1 exact.2.2 rest fuel (by omega)
      rw [print, List.cons_append, List.cons_append, List.append_assoc, List.singleton_append]
      obtain ⟨text, head⟩ : ∃ text, printFields numbers ((name, value) :: more) = '"' :: text := by
        cases more <;> exact ⟨_, rfl⟩
      rw [head] at read ⊢
      exact parseValue_obj exact.1 read
termination_by value => sizeOf value

theorem parseItems_print : ∀ item more, Exact numbers item →
    ExactItems numbers more → ∀ (rest : List Char) fuel,
      (printItems numbers (item :: more)).length ≤ fuel →
        parseItems numbers (fuel + 1) (printItems numbers (item :: more) ++ ']' :: rest) =
          some (item :: more, rest)
  | item, [], exact, _, rest, fuel, enough => by
      simp only [printItems] at enough
      have read := parseValue_print item exact (']' :: rest) (stops_cons (by decide) rest) fuel
        enough
      exact parseItems_last (skip_print exact _) read
  | item, next :: more, exact, exacts, rest, fuel, enough => by
      simp only [printItems, List.length_append, List.length_cons] at enough
      obtain ⟨fuel, rfl⟩ : ∃ less, fuel = less + 1 := ⟨fuel - 1, by omega⟩
      have read := parseValue_print item exact
        (',' :: (printItems numbers (next :: more) ++ ']' :: rest)) (stops_cons (by decide) _)
        (fuel + 1) (by omega)
      have long := length_print exact
      have others := parseItems_print next more exacts.1 exacts.2 rest fuel (by omega)
      rw [printItems, List.append_assoc, List.cons_append]
      exact parseItems_cons (skip_print exact _) read others
termination_by item more => sizeOf item + sizeOf more

theorem parseFields_print : ∀ name value more,
    Exact numbers value → ExactFields numbers more → ∀ (rest : List Char) fuel,
      (printFields numbers ((name, value) :: more)).length ≤ fuel →
        parseFields numbers (fuel + 1)
            (printFields numbers ((name, value) :: more) ++ '\x7d' :: rest) =
          some ((name, value) :: more, rest)
  | name, value, [], exact, _, rest, fuel, enough => by
      simp only [printFields, List.length_append, List.length_cons] at enough
      have read := parseValue_print value exact ('\x7d' :: rest) (stops_cons (by decide) rest) fuel
        (by omega)
      rw [printFields, List.append_assoc, List.cons_append]
      exact parseFields_last name (skip_print exact _) read
  | name, value, (next, follows) :: more, exact, exacts, rest, fuel, enough => by
      simp only [printFields, List.length_append, List.length_cons] at enough
      obtain ⟨fuel, rfl⟩ : ∃ less, fuel = less + 1 := ⟨fuel - 1, by omega⟩
      have read := parseValue_print value exact
        (',' :: (printFields numbers ((next, follows) :: more) ++ '\x7d' :: rest))
        (stops_cons (by decide) _) (fuel + 1) (by omega)
      have others := parseFields_print next follows more exacts.1 exacts.2 rest fuel (by omega)
      rw [printFields, List.append_assoc, List.append_assoc, List.cons_append, List.cons_append]
      exact parseFields_cons name (skip_print exact _) read others
termination_by _ value more => sizeOf value + sizeOf more

end

/-- `JSON.parse` undoes `JSON.stringify`. -/
theorem parse_print (exact : Exact numbers value) :
    parse numbers (print numbers value) = some value := by
  have read := parseValue_print value exact [] (by rintro _ ⟨⟩) _ (Nat.le_refl _)
  have start := skip_print exact []
  rw [List.append_nil] at read start
  rw [parse, start, read]
  rfl

end Values

end NestApi.JsonText
