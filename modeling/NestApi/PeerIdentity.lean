import NestApi.JsonText

/- The subject alternative names of a peer's certificate: how Node prints them, and how they are
read back. -/
namespace NestApi.Mtls

section Node

inductive Kind where
  | uri
  | dns
  | email
  | ipAddress
  | dirName
  | registeredId
  | otherName
  | x400Name
  | ediPartyName
  deriving DecidableEq

def Kind.label : Kind → List Char
  | .uri => "URI".toList
  | .dns => "DNS".toList
  | .email => "email".toList
  | .ipAddress => "IP Address".toList
  | .dirName => "DirName".toList
  | .registeredId => "Registered ID".toList
  | .otherName => "othername".toList
  | .x400Name => "X400Name".toList
  | .ediPartyName => "EdiPartyName".toList

def Kind.isUtf8 : Kind → Bool
  | .dirName | .otherName => true
  | _ => false

/-- A subject alternative name. The bytes of one that is not UTF-8 are taken as Latin-1. -/
structure AltName where
  kind : Kind
  value : List Char
  latin : kind.isUtf8 = false → ∀ c ∈ value, c.toNat < 256

variable (utf8 : Bool)

def isPlain (c : Char) : Bool :=
  (0x20 ≤ c.toNat && c.toNat ≤ 0x7E) || (utf8 && 0x80 ≤ c.toNat)

def isSafe (c : Char) : Bool := isPlain utf8 c && !(['"', '\\', ',', '\''].contains c)

def escapeChar (c : Char) : List Char :=
  if c = '\\' ∨ c = '"' then ['\\', c]
  else if isPlain utf8 c ∧ c ≠ ',' then [c]
  else '\\' :: 'u' :: JsonText.hex c.toNat

def printAltName (value : List Char) : List Char :=
  if value.all (isSafe utf8) then value else '"' :: (value.flatMap (escapeChar utf8) ++ ['"'])

def AltName.print (name : AltName) : List Char :=
  name.kind.label ++ ':' :: printAltName name.kind.isUtf8 name.value

/-- `X509Certificate.subjectAltName`. -/
def printAltNames : List AltName → List Char
  | [] => []
  | [name] => name.print
  | name :: next :: rest => name.print ++ ',' :: ' ' :: printAltNames (next :: rest)

end Node

structure SubjectAltNameEntry where
  kind : List Char
  value : Utf16

/-- A quoted value from its second character to its closing quote, and what follows. -/
def endOfQuotedValue : List Char → Option (List Char × List Char)
  | [] => none
  | ['\\'] => none
  | '\\' :: escaped :: rest =>
    (endOfQuotedValue rest).map fun (value, rest) => ('\\' :: escaped :: value, rest)
  | '"' :: rest => some (['"'], rest)
  | c :: rest => (endOfQuotedValue rest).map fun (value, rest) => (c :: value, rest)

/-- `JSON.parse` of a text that starts with a quote, from its second character on. -/
def safeJsonParse (text : List Char) : Option Utf16 :=
  (JsonText.parseString text).bind fun (value, rest) => if rest = [] then some value else none

def untilSeparator : List Char → List Char × List Char
  | [] => ([], [])
  | c :: rest =>
    if c = ',' ∧ rest.head? = some ' ' then ([], c :: rest)
    else ((c :: (untilSeparator rest).1), (untilSeparator rest).2)

def parseValue (raw : List Char) : Option (Utf16 × List Char) :=
  match raw with
  | '"' :: rest => do
    let (quoted, rest) ← endOfQuotedValue rest
    let value ← safeJsonParse quoted
    return (value, rest)
  | _ =>
    let (value, rest) := untilSeparator raw
    if value.contains ',' then none else some (value.flatMap Utf16.ofChar, rest)

def parseEntry (raw : List Char) : Option (SubjectAltNameEntry × List Char) :=
  match raw.dropWhile (· ≠ ':') with
  | [] => none
  | _ :: rest =>
    let kind := raw.takeWhile (· ≠ ':')
    if kind = [] ∨ kind.any (['"', '\'', ','].contains ·) then none
    else (parseValue rest).map fun (value, rest) => (⟨kind, value⟩, rest)

/-- The loop over what is left of the text. Each turn reads a character at least. -/
def parseEntries : Nat → List Char → Option (List SubjectAltNameEntry)
  | _, [] => some []
  | 0, _ => none
  | fuel + 1, raw =>
    (parseEntry raw).bind fun (entry, rest) =>
      match rest with
      | [] => some [entry]
      | ',' :: ' ' :: rest => (parseEntries fuel rest).map (entry :: ·)
      | _ => none

def parseSubjectAltName : Option (List Char) → Option (List SubjectAltNameEntry)
  | none => some []
  | some raw => parseEntries raw.length raw

def identityKinds : List (List Char) := ["URI".toList, "DNS".toList]

def peerIdentitiesFrom (raw : Option (List Char)) : List Utf16 :=
  match parseSubjectAltName raw with
  | none => []
  | some entries => (entries.filter fun entry => entry.kind ∈ identityKinds).map (·.value)

def AltName.text (name : AltName) : Utf16 := name.value.flatMap Utf16.ofChar

/-- An entry of whatever kind, as it is printed: a label without quotes, commas and colons, and any
value. -/
structure Entry where
  label : List Char
  value : List Char
  utf8 : Bool
  plain : label ≠ [] ∧ (∀ c ∈ label, c ≠ ':') ∧ label.any (['"', '\'', ','].contains ·) = false
  basic : utf8 = false → ∀ c ∈ value, c.toNat < 65536

def Entry.print (entry : Entry) : List Char :=
  entry.label ++ ':' :: printAltName entry.utf8 entry.value

def Entry.text (entry : Entry) : Utf16 := entry.value.flatMap Utf16.ofChar

def printEntries : List Entry → List Char
  | [] => []
  | [entry] => entry.print
  | entry :: next :: rest => entry.print ++ ',' :: ' ' :: printEntries (next :: rest)

theorem label_plain (kind : Kind) : kind.label ≠ [] ∧ (∀ c ∈ kind.label, c ≠ ':') ∧
    kind.label.any (['"', '\'', ','].contains ·) = false := by
  cases kind <;> exact ⟨by decide, List.forall_iff_forall_mem.mp (by decide), by decide⟩

def AltName.entry (name : AltName) : Entry :=
  ⟨name.kind.label, name.value, name.kind.isUtf8, label_plain name.kind,
    fun bytes c mem => (name.latin bytes c mem).trans (by decide)⟩

theorem printAltNames_eq (names : List AltName) :
    printAltNames names = printEntries (names.map AltName.entry) := by
  induction names with
  | nil => rfl
  | cons name names ih =>
    cases names with
    | nil => rfl
    | cons =>
      rw [printAltNames, ih]
      rfl

section RoundTrip

variable {utf8 : Bool} {c : Char} {rest : List Char} {value : List Char}

theorem endOfQuotedValue_plain (quote : c ≠ '"') (backslash : c ≠ '\\') (rest : List Char) :
    endOfQuotedValue (c :: rest) =
      (endOfQuotedValue rest).map fun (value, rest) => (c :: value, rest) := by
  exact endOfQuotedValue.eq_5 c rest (fun same _ => backslash same)
    (fun _ _ same => absurd same backslash) quote

theorem digitChar_plain (digit : Nat) :
    Nat.digitChar (digit % 16) ≠ '"' ∧ Nat.digitChar (digit % 16) ≠ '\\' := by
  have all : ∀ digit : Fin 16, Nat.digitChar digit ≠ '"' ∧ Nat.digitChar digit ≠ '\\' := by decide
  exact all ⟨digit % 16, Nat.mod_lt _ (by decide)⟩

theorem endOfQuotedValue_hex (code : Nat) (rest : List Char) :
    endOfQuotedValue ('\\' :: 'u' :: (JsonText.hex code ++ rest)) =
      (endOfQuotedValue rest).map fun (value, rest) =>
        ('\\' :: 'u' :: (JsonText.hex code ++ value), rest) := by
  have a := digitChar_plain (code / 4096)
  have b := digitChar_plain (code / 256)
  have c := digitChar_plain (code / 16)
  have d := digitChar_plain code
  rw [endOfQuotedValue]
  simp only [JsonText.hex, List.map_cons, List.map_nil, List.cons_append, List.nil_append]
  rw [endOfQuotedValue_plain a.1 a.2, endOfQuotedValue_plain b.1 b.2,
    endOfQuotedValue_plain c.1 c.2, endOfQuotedValue_plain d.1 d.2]
  simp only [Option.map_map]
  rfl

theorem endOfQuotedValue_escape (c : Char) (rest : List Char) :
    endOfQuotedValue (escapeChar utf8 c ++ rest) =
      (endOfQuotedValue rest).map fun (value, rest) => (escapeChar utf8 c ++ value, rest) := by
  unfold escapeChar
  split_ifs with special plain
  · rw [List.cons_append, List.cons_append, endOfQuotedValue]
    rfl
  · have others := not_or.mp special
    exact endOfQuotedValue_plain others.2 others.1 rest
  · exact endOfQuotedValue_hex c.toNat rest

theorem parseString_escapeChar (small : utf8 = false → c.toNat < 65536) (rest : List Char) :
    JsonText.parseString (escapeChar utf8 c ++ rest) =
      (JsonText.parseString rest).map fun (text, rest) => (Utf16.ofChar c ++ text, rest) := by
  unfold escapeChar
  split_ifs with special plain
  · rcases special with rfl | rfl <;> rfl
  · have others := not_or.mp special
    refine JsonText.parseString_plain others.2 others.1 ?_ rest
    have shown := plain.1
    simp only [isPlain, Bool.or_eq_true, Bool.and_eq_true, decide_eq_true_eq] at shown
    omega
  · have bound : c.toNat < 65536 := by
      cases utf8 with
      | false => exact small rfl
      | true =>
        by_cases comma : c = ','
        · subst comma
          decide
        · have hidden : isPlain true c ≠ true := fun shown => plain ⟨shown, comma⟩
          simp only [isPlain, ne_eq, Bool.or_eq_true, Bool.and_eq_true, decide_eq_true_eq,
            true_and] at hidden
          omega
    have code : UInt16.ofNat c.toNat = c.val.toUInt16 := rfl
    have units := Utf16.ofChar_basic (show c.toNat < 0x10000 by omega)
    rw [JsonText.parseString_hex (by omega), code, units]
    rfl

theorem untilSeparator_safe (safe : ',' ∉ value)
    (ends : rest = [] ∨ ∃ more, rest = ',' :: ' ' :: more) :
    untilSeparator (value ++ rest) = (value, rest) := by
  induction value with
  | nil =>
    rcases ends with rfl | ⟨more, rfl⟩
    · rfl
    · simp [untilSeparator]
  | cons c value ih =>
    rw [List.mem_cons, not_or] at safe
    simp [untilSeparator, Ne.symm safe.1, ih safe.2]

theorem parseValue_quoted (small : utf8 = false → ∀ c ∈ value, c.toNat < 65536) :
    parseValue ('"' :: (value.flatMap (escapeChar utf8) ++ ['"']) ++ rest) =
      some (value.flatMap Utf16.ofChar, rest) := by
  have ends : endOfQuotedValue (value.flatMap (escapeChar utf8) ++ '"' :: rest) =
      some (value.flatMap (escapeChar utf8) ++ ['"'], rest) := by
    clear small
    induction value with
    | nil => rfl
    | cons c value ih =>
      rw [List.flatMap_cons, List.append_assoc, endOfQuotedValue_escape, ih, List.append_assoc]
      rfl
  have read : JsonText.parseString (value.flatMap (escapeChar utf8) ++ ['"']) =
      some (value.flatMap Utf16.ofChar, []) := by
    clear ends
    induction value with
    | nil => rfl
    | cons c value ih =>
      have tail := ih fun latin c mem => small latin c (List.mem_cons_of_mem _ mem)
      rw [List.flatMap_cons, List.append_assoc,
        parseString_escapeChar (fun latin => small latin c List.mem_cons_self), tail]
      rfl
  rw [List.cons_append, List.append_assoc, List.singleton_append]
  simp [parseValue, ends, safeJsonParse, read]

theorem parseValue_print (entry : Entry) (ends : rest = [] ∨ ∃ more, rest = ',' :: ' ' :: more) :
    parseValue (printAltName entry.utf8 entry.value ++ rest) = some (entry.text, rest) := by
  unfold printAltName
  split_ifs with safe
  · have each : ∀ c ∈ entry.value, c ≠ '"' ∧ c ≠ ',' := by
      intro c mem
      have own := List.all_eq_true.mp safe c mem
      simp only [isSafe, Bool.and_eq_true, Bool.not_eq_true', List.contains_eq_mem,
        List.mem_cons, decide_eq_false_iff_not, not_or] at own
      exact ⟨own.2.1, own.2.2.2.1⟩
    have comma : ',' ∉ entry.value := fun mem => (each _ mem).2 rfl
    have unquoted : ∀ more, entry.value ++ rest ≠ '"' :: more := by
      intro more same
      cases text : entry.value with
      | nil =>
        rw [text, List.nil_append] at same
        rcases ends with none | ⟨_, some⟩
        · rw [same] at none
          cases none
        · rw [same] at some
          cases some
      | cons =>
        rw [text] at same
        cases same
        exact (each '"' (by simp [text])).1 rfl
    rw [parseValue.eq_2 _ unquoted, untilSeparator_safe comma ends]
    simp [comma, Entry.text]
  · exact parseValue_quoted entry.basic

theorem parseEntry_print (entry : Entry) (ends : rest = [] ∨ ∃ more, rest = ',' :: ' ' :: more) :
    parseEntry (entry.print ++ rest) = some (⟨entry.label, entry.text⟩, rest) := by
  obtain ⟨some, colon, plain⟩ := entry.plain
  have kept : ∀ c ∈ entry.label, decide (c ≠ ':') = true := by simpa using colon
  have taken : (entry.print ++ rest).takeWhile (· ≠ ':') = entry.label := by
    rw [Entry.print, List.append_assoc, List.takeWhile_append_of_pos kept]
    simp
  have dropped : (entry.print ++ rest).dropWhile (· ≠ ':') =
      ':' :: (printAltName entry.utf8 entry.value ++ rest) := by
    rw [Entry.print, List.append_assoc, List.dropWhile_append_of_pos kept]
    simp
  simp only [parseEntry, dropped, taken, some, plain, false_or, Bool.false_eq_true, if_false,
    parseValue_print entry ends, Option.map_some]

theorem print_ne_nil (entry : Entry) : entry.print ≠ [] := by simp [Entry.print]

theorem parseEntries_print (entries : List Entry) : ∀ fuel, (printEntries entries).length ≤ fuel →
    parseEntries fuel (printEntries entries) =
      some (entries.map fun entry => ⟨entry.label, entry.text⟩) := by
  have turn : ∀ (entry : Entry) (rest : List Char) (fuel : Nat),
      parseEntries (fuel + 1) (entry.print ++ rest) = (parseEntry (entry.print ++ rest)).bind
        fun (read, rest) => match rest with
          | [] => some [read]
          | ',' :: ' ' :: rest => (parseEntries fuel rest).map (read :: ·)
          | _ => none := by
    intro entry rest fuel
    rw [parseEntries.eq_3 _ _ (by simp [print_ne_nil])]
  induction entries with
  | nil =>
    intro fuel _
    cases fuel <;> rfl
  | cons entry entries ih =>
    intro fuel enough
    have long := List.length_pos_of_ne_nil (print_ne_nil entry)
    cases entries with
    | nil =>
      rw [printEntries] at enough ⊢
      obtain ⟨fuel, rfl⟩ : ∃ less, fuel = less + 1 := ⟨fuel - 1, by omega⟩
      have read := turn entry [] fuel
      rw [parseEntry_print entry (.inl rfl), List.append_nil] at read
      exact read
    | cons =>
      rw [printEntries, List.length_append, List.length_cons, List.length_cons] at enough
      obtain ⟨fuel, rfl⟩ : ∃ less, fuel = less + 1 := ⟨fuel - 1, by omega⟩
      rw [printEntries, turn, parseEntry_print entry (.inr ⟨_, rfl⟩), Option.bind_some]
      simp [ih fuel (by omega)]

/-- The entries that are printed are read back, none more and none less. -/
theorem parseSubjectAltName_print (entries : List Entry) :
    parseSubjectAltName (some (printEntries entries)) =
      some (entries.map fun entry => ⟨entry.label, entry.text⟩) :=
  parseEntries_print entries _ (Nat.le_refl _)

theorem peerIdentitiesFrom_print (extension : Option (List AltName)) :
    peerIdentitiesFrom (extension.map printAltNames) =
      ((extension.getD []).filter fun name => name.kind = .uri ∨ name.kind = .dns).map
        AltName.text := by
  cases extension with
  | none => rfl
  | some =>
    have kinds : ∀ name : AltName, decide (name.kind.label ∈ identityKinds) =
        decide (name.kind = .uri ∨ name.kind = .dns) := by
      intro name
      cases name.kind <;> decide
    simp only [peerIdentitiesFrom, Option.map_some, printAltNames_eq, parseSubjectAltName_print,
      List.filter_map, List.map_map, Option.getD_some, Function.comp_def, AltName.entry, kinds]
    rfl

/-- No value of a certificate passes for another entry: what is read is the list that was printed,
and the identities are the values of its URI and DNS entries. -/
theorem entries_not_forged (entries : List Entry) :
    parseSubjectAltName (some (printEntries entries)) =
      some (entries.map fun entry => ⟨entry.label, entry.text⟩) ∧
    peerIdentitiesFrom (some (printEntries entries)) =
      (entries.filter fun entry => entry.label = "URI".toList ∨ entry.label = "DNS".toList).map
        Entry.text := by
  refine ⟨parseSubjectAltName_print entries, ?_⟩
  simp only [peerIdentitiesFrom, parseSubjectAltName_print, List.filter_map, List.map_map,
    identityKinds, List.mem_cons, List.not_mem_nil, or_false]
  rfl

end RoundTrip

end NestApi.Mtls
