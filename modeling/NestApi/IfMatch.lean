import NestApi.EntityTag
import NestApi.JsString
import Mathlib.Data.List.TakeWhile

namespace NestApi

def readVersion (opaqueTag : List Char) : Option Nat :=
  let parsed := Nat.ofDigitChars 10 opaqueTag 0
  if JsString.isDecimal opaqueTag ∧ parsed ≤ maxSafeInteger then some parsed else none

def isBlank (c : Char) : Bool := c = ' ' || c = '\t'

def skipWhitespace (text : List Char) : List Char := text.dropWhile isBlank

def notQuoted : HttpException :=
  .badRequest "If-Match must be \"*\" or a comma-separated list of quoted entity-tags"

def readWeak : List Char → Bool × List Char
  | 'W' :: '/' :: rest => (true, rest)
  | text => (false, text)

/-- One turn of the loop: an entity-tag and what follows it and its blanks. -/
def parseEntityTag (text : List Char) : Except HttpException (ParsedEntityTag × List Char) :=
  match readWeak (skipWhitespace text) with
  | (weak, '"' :: rest) =>
    let opaqueTag := rest.takeWhile fun c => c ≠ '"'
    match rest.dropWhile fun c => c ≠ '"' with
    | [] => .error (.badRequest "If-Match contains an unterminated entity-tag")
    | _ :: after =>
      .ok (⟨weak, String.ofList opaqueTag, readVersion opaqueTag⟩, skipWhitespace after)
  | _ => .error notQuoted

/-- The loop, with as many turns as there are characters left: none is a missing tag. -/
def parseEntityTags : Nat → List Char → Except HttpException (List ParsedEntityTag)
  | 0, _ => .error notQuoted
  | turns + 1, text => do
      let (tag, after) ← parseEntityTag text
      match after with
      | [] => return [tag]
      | ',' :: rest => return tag :: (← parseEntityTags turns rest)
      | _ => .error (.badRequest "If-Match entity-tags must be separated by commas")

def parseEntityTagList (value : String) : Except HttpException (List ParsedEntityTag) :=
  parseEntityTags value.toList.length value.toList

def parseIfMatch (raw : String) : Except HttpException ExpectedVersion :=
  let value := JsString.trim raw
  if value = "" then .error (.badRequest "If-Match must not be empty")
  else if value = "*" then .ok .any
  else (parseEntityTagList value).map .list

inductive TagList : List Char → List (Bool × List Char) → Prop where
  | last {before opaqueTag after} (weak : Bool)
      (blank : ∀ c ∈ before, isBlank c = true) (quoted : '"' ∉ opaqueTag)
      (blank' : ∀ c ∈ after, isBlank c = true) :
      TagList (before ++ ((if weak then ['W', '/'] else []) ++ '"' :: (opaqueTag ++ '"' :: after)))
        [(weak, opaqueTag)]
  | cons {before opaqueTag after rest tags} (weak : Bool)
      (blank : ∀ c ∈ before, isBlank c = true) (quoted : '"' ∉ opaqueTag)
      (blank' : ∀ c ∈ after, isBlank c = true) (more : TagList rest tags) :
      TagList (before ++ ((if weak then ['W', '/'] else []) ++
        '"' :: (opaqueTag ++ '"' :: (after ++ ',' :: rest)))) ((weak, opaqueTag) :: tags)

def parsedTag (tag : Bool × List Char) : ParsedEntityTag :=
  ⟨tag.1, String.ofList tag.2, readVersion tag.2⟩

theorem readVersion_eq_some {opaqueTag : List Char} {version : Nat} :
    readVersion opaqueTag = some version ↔
      opaqueTag = (toString version).toList ∧ version ≤ maxSafeInteger := by
  have text : (toString version).toList = Nat.toDigits 10 version := by
    rw [Nat.toString_eq_ofList_toDigits, String.toList_ofList]
  rw [text]
  simp only [readVersion, Option.ite_none_right_eq_some, Option.some.injEq]
  constructor
  · rintro ⟨⟨decimal, safe⟩, rfl⟩
    exact ⟨(JsString.toDigits_of_isDecimal decimal).symm, safe⟩
  · rintro ⟨rfl, safe⟩
    have read : Nat.ofDigitChars 10 (Nat.toDigits 10 version) 0 = version :=
      Nat.ofDigitChars_ten_toDigits
    rw [read]
    exact ⟨⟨JsString.isDecimal_toDigits version, safe⟩, rfl⟩

section Grammar

def Shown (text : List Char) : Prop := ∀ c ∈ text.head?, isBlank c = false

theorem skipWhitespace_shown (text : List Char) : Shown (skipWhitespace text) := by
  intro c head
  have := List.head?_dropWhile_not isBlank text
  rw [skipWhitespace] at head
  rw [head] at this
  simpa using this

variable {text : List Char} {raw : String} {expected : ExpectedVersion} {version : Nat}
  {after : List Char} {tag : ParsedEntityTag} {list : List (Bool × List Char)}

theorem skipWhitespace_append {before : List Char} (blank : ∀ c ∈ before, isBlank c = true)
    (shown : Shown text) : skipWhitespace (before ++ text) = text := by
  rw [skipWhitespace, List.dropWhile_append_of_pos blank]
  cases text with
  | nil => rfl
  | cons c =>
    rw [List.dropWhile_cons_of_neg]
    simp [shown c rfl]

theorem skipWhitespace_split (text : List Char) :
    ∃ before, (∀ c ∈ before, isBlank c = true) ∧ text = before ++ skipWhitespace text :=
  ⟨text.takeWhile isBlank, fun _ mem => List.mem_takeWhile_imp mem,
    (List.takeWhile_append_dropWhile ..).symm⟩

theorem readWeak_split (text : List Char) :
    text = (if (readWeak text).1 then ['W', '/'] else []) ++ (readWeak text).2 := by
  unfold readWeak
  split <;> rfl

theorem readWeak_quoted (weak : Bool) (rest : List Char) :
    readWeak ((if weak then ['W', '/'] else []) ++ '"' :: rest) = (weak, '"' :: rest) := by
  cases weak <;> rfl

/-- A tag is read exactly off a text that starts with one. -/
theorem parseEntityTag_eq_ok :
    parseEntityTag text = .ok (tag, after) ↔ ∃ before weak opaqueTag blanks,
      text = before ++ ((if weak then ['W', '/'] else []) ++
        '"' :: (opaqueTag ++ '"' :: (blanks ++ after))) ∧
      (∀ c ∈ before, isBlank c = true) ∧ '"' ∉ opaqueTag ∧ (∀ c ∈ blanks, isBlank c = true) ∧
      Shown after ∧ tag = parsedTag (weak, opaqueTag) := by
  constructor
  · intro ok
    unfold parseEntityTag at ok
    obtain ⟨before, blank, split⟩ := skipWhitespace_split text
    have weakly := readWeak_split (skipWhitespace text)
    split at ok
    · rename_i weak rest read
      dsimp only at ok
      split at ok
      · cases ok
      · rename_i c close found
        cases ok
        obtain ⟨blanks, blank', split'⟩ := skipWhitespace_split close
        have stopped : c = '"' := by
          have := List.head?_dropWhile_not (fun c => decide (c ≠ '"')) rest
          rw [found] at this
          simpa using this
        subst stopped
        refine ⟨before, weak, rest.takeWhile fun c => c ≠ '"', blanks, ?_, blank, ?_, blank',
          skipWhitespace_shown close, rfl⟩
        · rw [read] at weakly
          rw [← split', ← found, List.takeWhile_append_dropWhile, ← weakly]
          exact split
        · intro mem
          simpa using List.mem_takeWhile_imp mem
    · cases ok
  · rintro ⟨before, weak, opaqueTag, blanks, rfl, blank, quoted, blank', shown, rfl⟩
    have start : Shown ((if weak then ['W', '/'] else []) ++
        '"' :: (opaqueTag ++ '"' :: (blanks ++ after))) := by
      intro c head
      cases weak <;> cases head <;> rfl
    have inside : ∀ c ∈ opaqueTag, decide (c ≠ '"') = true := by
      intro c mem
      simp only [ne_eq, decide_eq_true_eq]
      rintro rfl
      exact quoted mem
    have closed : (opaqueTag ++ '"' :: (blanks ++ after)).dropWhile (fun c => decide (c ≠ '"')) =
        '"' :: (blanks ++ after) := by
      rw [List.dropWhile_append_of_pos inside, List.dropWhile_cons_of_neg (by simp)]
    have opened : (opaqueTag ++ '"' :: (blanks ++ after)).takeWhile (fun c => decide (c ≠ '"')) =
        opaqueTag := by
      rw [List.takeWhile_append_of_pos inside, List.takeWhile_cons_of_neg (by simp),
        List.append_nil]
    unfold parseEntityTag
    simp only [skipWhitespace_append blank start, readWeak_quoted, closed, opened,
      skipWhitespace_append blank' shown, parsedTag]

theorem length_of_parseEntityTag
    (ok : parseEntityTag text = .ok (tag, after)) : after.length + 2 ≤ text.length := by
  obtain ⟨before, weak, opaqueTag, blanks, rfl, _⟩ := parseEntityTag_eq_ok.mp ok
  simp only [List.length_append, List.length_cons]
  omega

theorem shown_nil : Shown [] := fun _ none => nomatch none

theorem shown_comma (rest : List Char) : Shown (',' :: rest) := by
  rintro c ⟨⟩
  rfl

theorem TagList.ne_nil (grammar : TagList text list) : text ≠ [] := by
  cases grammar <;> simp

/-- With a turn for each character, the loop reads the lists of entity-tags and nothing else. -/
theorem parseEntityTags_eq_ok {turns : Nat} {text : List Char} {tags : List ParsedEntityTag}
    (enough : text.length ≤ turns) : parseEntityTags turns text = .ok tags ↔
      ∃ list, TagList text list ∧ tags = list.map parsedTag := by
  induction turns generalizing text tags with
  | zero =>
    have empty : text = [] := List.length_eq_zero_iff.mp (Nat.le_zero.mp enough)
    subst empty
    constructor
    · intro ok
      cases ok
    · rintro ⟨list, grammar, _⟩
      exact absurd rfl grammar.ne_nil
  | succ turns ih =>
    constructor
    · intro ok
      simp only [parseEntityTags, bind_eq_ok] at ok
      obtain ⟨⟨tag, after⟩, read, ok⟩ := ok
      obtain ⟨before, weak, opaqueTag, blanks, rfl, blank, quoted, blank', shown, rfl⟩ :=
        parseEntityTag_eq_ok.mp read
      have shorter := length_of_parseEntityTag read
      dsimp only at ok
      split at ok
      · cases ok
        rw [List.append_nil]
        exact ⟨_, .last weak blank quoted blank', rfl⟩
      · rename_i rest
        simp only [bind_eq_ok] at ok
        obtain ⟨others, read, same⟩ := ok
        cases same
        rw [List.length_cons] at shorter
        obtain ⟨list, grammar, rfl⟩ := (ih (by omega)).mp read
        exact ⟨_, .cons weak blank quoted blank' grammar, rfl⟩
      · cases ok
    · rintro ⟨list, grammar, rfl⟩
      cases grammar with
      | @last before opaqueTag after weak blank quoted blank' =>
        have read := parseEntityTag_eq_ok.mpr ⟨before, weak, opaqueTag, after,
          by rw [List.append_nil], blank, quoted, blank', shown_nil, rfl⟩
        simp only [parseEntityTags, bind_eq_ok]
        exact ⟨_, read, rfl⟩
      | @cons before opaqueTag after rest tags weak blank quoted blank' more =>
        have read := parseEntityTag_eq_ok.mpr ⟨before, weak, opaqueTag, after, rfl, blank,
          quoted, blank', shown_comma rest, rfl⟩
        have shorter := length_of_parseEntityTag read
        rw [List.length_cons] at shorter
        simp only [parseEntityTags, bind_eq_ok]
        refine ⟨_, read, ?_⟩
        simp only [bind_eq_ok]
        exact ⟨_, (ih (by omega)).mpr ⟨tags, more, rfl⟩, rfl⟩

/-- A header names a version: it is `*`, or a list of entity-tags with a strong one whose text is
the version's decimal. -/
def Names (raw : String) (version : Nat) : Prop :=
  JsString.trim raw = "*" ∨ ∃ list, TagList (JsString.trim raw).toList list ∧
    (false, (toString version).toList) ∈ list

theorem parseIfMatch_eq_ok : parseIfMatch raw = .ok expected ↔
      JsString.trim raw = "*" ∧ expected = .any ∨
      ∃ list, TagList (JsString.trim raw).toList list ∧ expected = .list (list.map parsedTag) := by
  have loop {tags : List ParsedEntityTag} := @parseEntityTags_eq_ok
    (JsString.trim raw).toList.length (JsString.trim raw).toList tags le_rfl
  simp only [parseIfMatch]
  split_ifs with empty star
  · refine ⟨nofun, ?_⟩
    rintro (⟨star, _⟩ | ⟨list, grammar, _⟩)
    · exact absurd (empty.symm.trans star) (by decide)
    · rw [empty] at grammar
      exact absurd rfl grammar.ne_nil
  · constructor
    · intro ok
      exact .inl ⟨star, (Except.ok.inj ok).symm⟩
    · rintro (⟨_, rfl⟩ | ⟨list, grammar, _⟩)
      · rfl
      · rw [star] at grammar loop
        cases loop.mpr ⟨list, grammar, rfl⟩
  · rw [parseEntityTagList]
    constructor
    · intro ok
      cases read : parseEntityTags (JsString.trim raw).toList.length (JsString.trim raw).toList with
      | error =>
        rw [read] at ok
        cases ok
      | ok =>
        rw [read] at ok
        cases ok
        obtain ⟨list, grammar, rfl⟩ := loop.mp read
        exact .inr ⟨list, grammar, rfl⟩
    · rintro (⟨is, _⟩ | ⟨list, grammar, rfl⟩)
      · exact absurd is star
      · rw [loop.mpr ⟨list, grammar, rfl⟩]
        rfl

theorem isSatisfiedBy_list : isSatisfiedBy (.list (list.map parsedTag)) version = true ↔
      (false, (toString version).toList) ∈ list ∧ version ≤ maxSafeInteger := by
  simp only [isSatisfiedBy, List.any_map, List.any_eq_true, Function.comp_apply, parsedTag,
    Bool.and_eq_true, Bool.not_eq_true', beq_iff_eq, readVersion_eq_some]
  constructor
  · rintro ⟨⟨weak, opaqueTag⟩, mem, rfl, rfl, safe⟩
    exact ⟨mem, safe⟩
  · rintro ⟨mem, safe⟩
    exact ⟨_, mem, rfl, rfl, safe⟩

theorem names_of_isSatisfiedBy (parsed : parseIfMatch raw = .ok expected)
    (met : isSatisfiedBy expected version = true) : Names raw version := by
  rcases parseIfMatch_eq_ok.mp parsed with ⟨star, _⟩ | ⟨list, grammar, rfl⟩
  · exact .inl star
  · exact .inr ⟨list, grammar, (isSatisfiedBy_list.mp met).1⟩

theorem isSatisfiedBy_of_names (safe : version ≤ maxSafeInteger) (names : Names raw version) :
    ∃ expected, parseIfMatch raw = .ok expected ∧ isSatisfiedBy expected version = true := by
  rcases names with star | ⟨list, grammar, mem⟩
  · exact ⟨.any, parseIfMatch_eq_ok.mpr (.inl ⟨star, rfl⟩), rfl⟩
  · exact ⟨_, parseIfMatch_eq_ok.mpr (.inr ⟨list, grammar, rfl⟩),
      isSatisfiedBy_list.mpr ⟨mem, safe⟩⟩

/-- What the parser and the check make of a header is what the header says. -/
theorem names_iff (safe : version ≤ maxSafeInteger) : Names raw version ↔
      ∃ expected, parseIfMatch raw = .ok expected ∧ isSatisfiedBy expected version = true :=
  ⟨isSatisfiedBy_of_names safe, fun ⟨_, parsed, met⟩ => names_of_isSatisfiedBy parsed met⟩

theorem ne_unconditional_of_parseIfMatch (parsed : parseIfMatch raw = .ok expected) :
    expected ≠ .unconditional := by
  rcases parseIfMatch_eq_ok.mp parsed with ⟨_, rfl⟩ | ⟨list, _, rfl⟩ <;> simp

theorem parsedTag_injective : Function.Injective parsedTag := by
  rintro ⟨weak, text⟩ ⟨weak', text'⟩ same
  simp only [parsedTag, ParsedEntityTag.mk.injEq, String.ofList_inj] at same
  rw [same.1, same.2.1]

theorem Names.single {tag : Bool × List Char} (names : Names raw version)
    (one : TagList (JsString.trim raw).toList [tag]) :
    tag = (false, (toString version).toList) := by
  have parsed := parseIfMatch_eq_ok.mpr (.inr ⟨_, one, rfl⟩)
  rcases names with star | ⟨list, grammar, mem⟩
  · have any := parseIfMatch_eq_ok.mpr (.inl ⟨star, rfl⟩)
    cases Except.ok.inj (parsed.symm.trans any)
  · have same := Except.ok.inj (parsed.symm.trans (parseIfMatch_eq_ok.mpr (.inr ⟨_, grammar, rfl⟩)))
    injection same with same
    rw [← List.map_injective_iff.mpr parsedTag_injective same] at mem
    exact (List.mem_singleton.mp mem).symm

theorem parseIfMatch_formatEntityTag (safe : version ≤ maxSafeInteger) :
    parseIfMatch (formatEntityTag version) =
      .ok (.list [⟨false, toString version, some version⟩]) := by
  have text : (formatEntityTag version).toList = '"' :: ((toString version).toList ++ ['"']) := by
    simp [formatEntityTag]
  have trimmed : JsString.trim (formatEntityTag version) = formatEntityTag version := by
    have space : JsString.isSpace '"' = false := by decide
    rw [JsString.trim, text, List.dropWhile_cons_of_neg (by simp [space]), List.reverse_cons,
      List.reverse_append, List.reverse_singleton, List.singleton_append, List.cons_append,
      List.dropWhile_cons_of_neg (by simp [space]), List.reverse_cons, List.reverse_append,
      List.reverse_reverse, List.reverse_singleton, List.singleton_append, List.cons_append,
      ← text, String.ofList_toList]
  have quoted : '"' ∉ (toString version).toList := by
    intro mem
    exact absurd (JsString.isDigit_of_mem_decimal mem) (by decide)
  have grammar : TagList (JsString.trim (formatEntityTag version)).toList
      [(false, (toString version).toList)] := by
    rw [trimmed, text]
    exact @TagList.last [] (toString version).toList [] false nofun quoted nofun
  have read : readVersion (toString version).toList = some version :=
    readVersion_eq_some.mpr ⟨rfl, safe⟩
  have tag : parsedTag (false, (toString version).toList) =
      ⟨false, toString version, some version⟩ := by
    rw [parsedTag, read, String.ofList_toList]
  rw [← tag]
  exact parseIfMatch_eq_ok.mpr (.inr ⟨_, grammar, rfl⟩)

/-- The headers that are accepted and what they are read as, the versions that satisfy them, and a
version's validator as a header. -/
theorem ifMatch_parsed_exactly (raw : String) : (∀ expected, parseIfMatch raw = .ok expected ↔
      JsString.trim raw = "*" ∧ expected = .any ∨
      ∃ list, TagList (JsString.trim raw).toList list ∧ expected = .list (list.map parsedTag)) ∧
    (∀ version ≤ maxSafeInteger, (∃ expected, parseIfMatch raw = .ok expected ∧
      isSatisfiedBy expected version = true) ↔ Names raw version) ∧
    ∀ version ≤ maxSafeInteger, ∃ expected,
      parseIfMatch (formatEntityTag version) = .ok expected ∧
        ∀ other, isSatisfiedBy expected other = true ↔ other = version := by
  refine ⟨fun _ => parseIfMatch_eq_ok, fun _ safe => (names_iff safe).symm, ?_⟩
  intro version safe
  refine ⟨_, parseIfMatch_formatEntityTag safe, fun other => ?_⟩
  simp only [isSatisfiedBy, List.any_cons, List.any_nil, Bool.not_false, Bool.true_and,
    Bool.or_false, beq_iff_eq, Option.some.injEq]
  exact eq_comm

end Grammar

end NestApi
