import NestApi.IdempotencyStore
import NestApi.JsonText
import Mathlib.Data.List.TakeWhile

namespace NestApi.Idempotency

open OrderedMap Store

open JsonText (Value Numbers)

/-- A store as the interceptor sees one, at one key and within the time to live. -/
structure Backend where
  State : Type
  empty : State
  reserve : State → IdempotencyRecord Utf16 → Option (IdempotencyRecord Utf16) × State
  complete : State → Utf16 → RecordedResponse → Bool × State
  release : State → Utf16 → Bool × State

/-- `InMemoryIdempotencyStore`. -/
abbrev memory : Backend where
  State := Option (IdempotencyRecord Utf16)
  empty := none
  reserve := reserve
  complete := complete
  release := release

namespace Redis

section Values

inductive Leaf where
  | null
  | bool (value : Bool)
  | num (value : ℚ)
  | str (value : Utf16)
  | arr
  | obj
  deriving DecidableEq

def kind : Value ℚ → Leaf
  | .null => .null
  | .bool value => .bool value
  | .num value => .num value
  | .str value => .str value
  | .arr _ => .arr
  | .obj _ => .obj

def leaf : List Utf16 → Value ℚ → Option Leaf
  | [], value => some (kind value)
  | name :: path, .obj fields => (getEntries name fields).bind (leaf path)
  | _ :: _, _ => none

/-- Two values with the same properties, whatever their order. -/
def Agrees (value other : Value ℚ) : Prop := ∀ path, leaf path value = leaf path other

/-- A string without lone surrogates. -/
def WellFormed (text : Utf16) : Prop := ∃ s, text = Utf16.ofString s

mutual

/-- Values that Lua keeps: strings that are well formed, small naturals, `null`, and objects of
these. -/
def Plain : Value ℚ → Prop
  | .null => True
  | .num value => ∃ n : Nat, n < 1000 ∧ value = n
  | .str text => WellFormed text
  | .obj fields => (fields.map Prod.fst).Nodup ∧ PlainFields fields
  | .bool _ | .arr _ => False

def PlainFields : List (Utf16 × Value ℚ) → Prop
  | [] => True
  | (_, value) :: rest => Plain value ∧ PlainFields rest

end

theorem Agrees.trans {first second third : Value ℚ} (one : Agrees first second)
    (two : Agrees second third) : Agrees first third :=
  fun path => (one path).trans (two path)

variable {value : Value ℚ} {fields : List (Utf16 × Value ℚ)} {name : Utf16}
  {others : List (Utf16 × Value ℚ)}

theorem Agrees.kind {other : Value ℚ} (agrees : Agrees value other) : kind value = kind other :=
  Option.some.inj (agrees [])

theorem Agrees.obj (agrees : Agrees value (.obj fields)) : ∃ own, value = .obj own := by
  have same := agrees.kind
  cases value with
  | obj own => exact ⟨own, rfl⟩
  | _ => cases same

theorem agrees_obj_iff : Agrees (.obj fields) (.obj others) ↔ ∀ name path,
      (getEntries name fields).bind (leaf path) = (getEntries name others).bind (leaf path) := by
  constructor
  · intro agrees name path
    exact agrees (name :: path)
  · intro each path
    cases path with
    | nil => rfl
    | cons name path => exact each name path

theorem Agrees.get (agrees : Agrees (.obj fields) (.obj others))
    (found : getEntries name others = some value) :
    ∃ own, getEntries name fields = some own ∧ Agrees own value := by
  have each := agrees_obj_iff.mp agrees name
  simp only [found, Option.bind_some] at each
  cases own : getEntries name fields with
  | none =>
    have shown := each []
    rw [own] at shown
    cases shown
  | some own' =>
    refine ⟨own', rfl, fun path => ?_⟩
    have shown := each path
    rw [own] at shown
    exact shown

theorem Agrees.str {text : Utf16} (agrees : Agrees value (.str text)) : value = .str text := by
  have same := agrees.kind
  cases value with
  | str =>
    cases same
    rfl
  | _ => cases same

theorem plainFields_iff : PlainFields fields ↔ ∀ field ∈ fields, Plain field.2 := by
  induction fields with
  | nil => simp [PlainFields]
  | cons field rest ih => simp [PlainFields, ih]

theorem mem_setEntries {field : Utf16 × Value ℚ} (member : field ∈ setEntries name value fields) :
    field = (name, value) ∨ field ∈ fields := by
  induction fields with
  | nil => exact .inl (List.mem_singleton.mp member)
  | cons first rest ih =>
    unfold setEntries at member
    split at member
    · rcases List.mem_cons.mp member with here | later
      · exact .inl here
      · exact .inr (List.mem_cons_of_mem _ later)
    · rcases List.mem_cons.mp member with here | later
      · exact .inr (here ▸ List.mem_cons_self)
      · exact (ih later).imp id (List.mem_cons_of_mem _)

theorem Plain.set (plain : Plain (.obj fields)) (new : Plain value) :
    Plain (.obj (setEntries name value fields)) := by
  refine ⟨setEntries_distinct plain.1, plainFields_iff.mpr ?_⟩
  intro field member
  rcases mem_setEntries member with rfl | old
  · exact new
  · exact plainFields_iff.mp plain.2 field old

end Values

/-- The JSON of the Lua scripts beside that of the language: each reads what either has written,
properties in any order. -/
structure Cjson (numbers : Numbers ℚ) where
  decode : List Char → Option (Value ℚ)
  encode : Value ℚ → List Char
  exact : ∀ n : Nat, n < 1000 → numbers.Exact n
  decode_print : ∀ value, Plain value →
    ∃ read, decode (JsonText.print numbers value) = some read ∧ Plain read ∧ Agrees read value
  decode_encode : ∀ value, Plain value →
    ∃ read, decode (encode value) = some read ∧ Plain read ∧ Agrees read value
  parse_encode : ∀ value, Plain value →
    ∃ read, JsonText.parse numbers (encode value) = some read ∧ Agrees read value

namespace Field

def state : Utf16 := Utf16.ofString "state"
def fingerprint : Utf16 := Utf16.ofString "fingerprint"
def lease : Utf16 := Utf16.ofString "lease"
def response : Utf16 := Utf16.ofString "response"
def status : Utf16 := Utf16.ofString "status"
def contentType : Utf16 := Utf16.ofString "contentType"
def body : Utf16 := Utf16.ofString "body"

end Field

def inFlightText : Utf16 := Utf16.ofString "in-flight"
def completedText : Utf16 := Utf16.ofString "completed"

def nullable : Option Utf16 → Value ℚ
  | none => .null
  | some text => .str text

def responseFields (response : RecordedResponse) : List (Utf16 × Value ℚ) :=
  [(Field.status, .num response.status), (Field.contentType, nullable response.contentType),
    (Field.body, nullable response.body)]

def recordFields (record : IdempotencyRecord Utf16) : List (Utf16 × Value ℚ) :=
  match record.state with
  | .inFlight =>
    [(Field.state, .str inFlightText), (Field.fingerprint, .str record.fingerprint),
      (Field.lease, .str record.lease)]
  | .completed response =>
    [(Field.state, .str completedText), (Field.fingerprint, .str record.fingerprint),
      (Field.lease, .str record.lease), (Field.response, .obj (responseFields response))]

section Read

def stringAt (name : Utf16) (fields : List (Utf16 × Value ℚ)) : Option Utf16 :=
  match getEntries name fields with
  | some (.str text) => some text
  | _ => none

def nullableAt (name : Utf16) (fields : List (Utf16 × Value ℚ)) : Option (Option Utf16) :=
  match getEntries name fields with
  | some .null => some none
  | some (.str text) => some (some text)
  | _ => none

/-- What `isRecordedResponse` lets through. -/
def responseAt (name : Utf16) (fields : List (Utf16 × Value ℚ)) : Option RecordedResponse :=
  match getEntries name fields with
  | some (.obj response) =>
    match getEntries Field.status response with
    | some (.num status) =>
      (nullableAt Field.contentType response).bind fun contentType =>
        (nullableAt Field.body response).map fun body => ⟨status, contentType, body⟩
    | _ => none
  | _ => none

def readRecord : Value ℚ → Option (IdempotencyRecord Utf16)
  | .obj fields =>
    (stringAt Field.fingerprint fields).bind fun fingerprint =>
      (stringAt Field.lease fields).bind fun lease =>
        (stringAt Field.state fields).bind fun state =>
          if state = inFlightText then some ⟨fingerprint, lease, .inFlight⟩
          else if state = completedText then
            (responseAt Field.response fields).map fun response =>
              ⟨fingerprint, lease, .completed response⟩
          else none
  | _ => none

def parseRecord (numbers : Numbers ℚ) (raw : List Char) : Option (IdempotencyRecord Utf16) :=
  (JsonText.parse numbers raw).bind readRecord

variable {fields others : List (Utf16 × Value ℚ)} {name : Utf16}

section

variable (agrees : Agrees (.obj fields) (.obj others))

include agrees

theorem stringAt_of_agrees {text : Utf16} (found : getEntries name others = some (.str text)) :
    stringAt name fields = some text := by
  obtain ⟨own, here, same⟩ := agrees.get found
  rw [stringAt, here, same.str]

theorem nullableAt_of_agrees {text : Option Utf16}
    (found : getEntries name others = some (nullable text)) :
    nullableAt name fields = some text := by
  obtain ⟨own, here, same⟩ := agrees.get found
  cases text with
  | none =>
    have kind := same.kind
    cases own with
    | null => rw [nullableAt, here]
    | _ => cases kind
  | some => rw [nullableAt, here, same.str]

theorem responseAt_of_agrees {response : RecordedResponse}
    (found : getEntries name others = some (.obj (responseFields response))) :
    responseAt name fields = some response := by
  obtain ⟨own, here, same⟩ := agrees.get found
  obtain ⟨inner, rfl⟩ := same.obj
  obtain ⟨status, statusHere, statusSame⟩ :=
    same.get (show getEntries Field.status (responseFields response) =
      some (.num response.status) from rfl)
  have number : status = .num response.status := by
    have kind := statusSame.kind
    cases status with
    | num =>
      cases kind
      rfl
    | _ => cases kind
  have contentType : nullableAt Field.contentType inner = some response.contentType :=
    nullableAt_of_agrees same rfl
  have body : nullableAt Field.body inner = some response.body := nullableAt_of_agrees same rfl
  simp [responseAt, here, statusHere, number, contentType, body]

end

/-- A value with the properties of a record is read as this record. -/
theorem readRecord_of_agrees {value : Value ℚ} {record : IdempotencyRecord Utf16}
    (agrees : Agrees value (.obj (recordFields record))) : readRecord value = some record := by
  obtain ⟨fields, rfl⟩ := agrees.obj
  obtain ⟨fingerprint, lease, state⟩ := record
  have first : stringAt Field.fingerprint fields = some fingerprint := by
    cases state <;> exact stringAt_of_agrees agrees rfl
  have second : stringAt Field.lease fields = some lease := by
    cases state <;> exact stringAt_of_agrees agrees rfl
  cases state with
  | inFlight =>
    have third : stringAt Field.state fields = some inFlightText := stringAt_of_agrees agrees rfl
    simp [readRecord, first, second, third]
  | completed response =>
    have third : stringAt Field.state fields = some completedText :=
      stringAt_of_agrees agrees rfl
    have fourth : responseAt Field.response fields = some response :=
      responseAt_of_agrees agrees rfl
    have other : completedText ≠ inFlightText := by decide
    simp [readRecord, first, second, third, fourth, if_neg other]

end Read

section Scripts

variable {numbers : Numbers ℚ} (cjson : Cjson numbers)

def recordText (numbers : Numbers ℚ) (record : IdempotencyRecord Utf16) : List Char :=
  JsonText.print numbers (.obj (recordFields record))

/-- `SET NX`, and `GET` when that finds the key taken; what cannot be read is written over. -/
def reserve (numbers : Numbers ℚ) (raw : Option (List Char)) (record : IdempotencyRecord Utf16) :
    Option (IdempotencyRecord Utf16) × Option (List Char) :=
  match raw with
  | none => (none, some (recordText numbers record))
  | some text =>
    match parseRecord numbers text with
    | some existing => (some existing, raw)
    | none => (none, some (recordText numbers record))

def leased (raw : Option (List Char)) (lease : Utf16) : Option (List (Utf16 × Value ℚ)) :=
  match raw.bind cjson.decode with
  | some (.obj fields) => if stringAt Field.lease fields = some lease then some fields else none
  | _ => none

/-- `COMPLETE_IF_LEASED`. -/
def completeIfLeased (raw : Option (List Char)) (lease : Utf16) (response : RecordedResponse) :
    Bool × Option (List Char) :=
  match leased cjson raw lease,
      cjson.decode (JsonText.print numbers (.obj (responseFields response))) with
  | some fields, some value =>
    (true, some (cjson.encode (.obj (setEntries Field.response value
      (setEntries Field.state (.str completedText) fields)))))
  | _, _ => (false, raw)

/-- `RELEASE_IF_LEASED`. -/
def releaseIfLeased (raw : Option (List Char)) (lease : Utf16) : Bool × Option (List Char) :=
  match leased cjson raw lease with
  | some _ => (true, none)
  | none => (false, raw)

end Scripts

section Refinement

variable {numbers : Numbers ℚ} {cjson : Cjson numbers}

def CleanText (text : Option Utf16) : Prop := ∀ own ∈ text, WellFormed own

/-- A response of which every script can make the same: a status, and well-formed strings. -/
structure CleanResponse (response : RecordedResponse) : Prop where
  status : ∃ n : Nat, n < 1000 ∧ response.status = n
  contentType : CleanText response.contentType
  body : CleanText response.body

structure Clean (record : IdempotencyRecord Utf16) : Prop where
  fingerprint : WellFormed record.fingerprint
  lease : WellFormed record.lease
  response : ∀ response, record.state = .completed response → CleanResponse response

theorem plain_nullable {text : Option Utf16} (clean : CleanText text) : Plain (nullable text) := by
  cases text with
  | none => trivial
  | some own => exact clean own rfl

variable {response : RecordedResponse} {record : IdempotencyRecord Utf16}

theorem plain_response (clean : CleanResponse response) :
    Plain (.obj (responseFields response)) := by
  refine ⟨?_, clean.status, plain_nullable clean.contentType, plain_nullable clean.body, trivial⟩
  simp only [responseFields, List.map_cons, List.map_nil]
  decide

theorem plain_record (clean : Clean record) : Plain (.obj (recordFields record)) := by
  obtain ⟨fingerprint, lease, state⟩ := record
  cases state with
  | inFlight =>
    refine ⟨?_, ⟨_, rfl⟩, clean.fingerprint, clean.lease, trivial⟩
    simp only [recordFields, List.map_cons, List.map_nil]
    decide
  | completed response =>
    refine ⟨?_, ⟨_, rfl⟩, clean.fingerprint, clean.lease,
      plain_response (clean.response response rfl), trivial⟩
    simp only [recordFields, List.map_cons, List.map_nil]
    decide

mutual

theorem exact_of_plain (exact : ∀ n : Nat, n < 1000 → numbers.Exact n) : ∀ value, Plain value →
    JsonText.Exact numbers value
  | .null, _ => trivial
  | .bool _, _ => trivial
  | .num _, ⟨n, small, same⟩ => same ▸ exact n small
  | .str _, _ => trivial
  | .arr _, plain => plain.elim
  | .obj fields, plain => ⟨plain.1, exactFields_of_plain exact fields plain.2⟩

theorem exactFields_of_plain (exact : ∀ n : Nat, n < 1000 → numbers.Exact n) :
    ∀ fields, PlainFields fields → JsonText.ExactFields numbers fields
  | [], _ => trivial
  | (_, value) :: rest, plain =>
    ⟨exact_of_plain exact value plain.1, exactFields_of_plain exact rest plain.2⟩

end

structure Reads (cjson : Cjson numbers) (text : List Char) (record : IdempotencyRecord Utf16) :
    Prop where
  decoded : ∃ value, cjson.decode text = some value ∧ Plain value ∧
    Agrees value (.obj (recordFields record))
  parsed : parseRecord numbers text = some record

theorem reads_recordText (clean : Clean record) :
    Reads cjson (recordText numbers record) record where
  decoded := cjson.decode_print _ (plain_record clean)
  parsed := by
    have exact := exact_of_plain cjson.exact _ (plain_record clean)
    rw [parseRecord, recordText, JsonText.parse_print exact, Option.bind_some]
    exact readRecord_of_agrees fun _ => rfl

theorem reads_encode (cjson : Cjson numbers) {value : Value ℚ} (plain : Plain value)
    (agrees : Agrees value (.obj (recordFields record))) :
    Reads cjson (cjson.encode value) record where
  decoded := by
    obtain ⟨read, decoded, plain, same⟩ := cjson.decode_encode value plain
    exact ⟨read, decoded, plain, same.trans agrees⟩
  parsed := by
    obtain ⟨read, parsed, same⟩ := cjson.parse_encode value plain
    rw [parseRecord, parsed, Option.bind_some]
    exact readRecord_of_agrees (same.trans agrees)

theorem leased_of_reads {text : List Char} (reads : Reads cjson text record) (lease : Utf16) :
    if record.lease = lease then
      ∃ fields, leased cjson (some text) lease = some fields ∧ Plain (.obj fields) ∧
        Agrees (.obj fields) (.obj (recordFields record))
    else leased cjson (some text) lease = none := by
  obtain ⟨value, decoded, plain, agrees⟩ := reads.decoded
  obtain ⟨fields, rfl⟩ := agrees.obj
  have stored : getEntries Field.lease (recordFields record) = some (.str record.lease) := by
    obtain ⟨fingerprint, lease, state⟩ := record
    cases state <;> rfl
  have own := stringAt_of_agrees agrees stored
  have seen : leased cjson (some text) lease =
      if record.lease = lease then some fields else none := by
    simp [leased, decoded, own]
  split
  · rename_i mine
    rw [if_pos mine] at seen
    exact ⟨fields, seen, plain, agrees⟩
  · rename_i other
    rw [if_neg other] at seen
    exact seen

theorem getEntries_recordFields {name : Utf16} (state : name ≠ Field.state)
    (response : name ≠ Field.response) (record : IdempotencyRecord Utf16) (new : RecordState) :
    getEntries name (recordFields ⟨record.fingerprint, record.lease, new⟩) =
      getEntries name (recordFields record) := by
  obtain ⟨fingerprint, lease, old⟩ := record
  cases old <;> cases new <;>
    simp [recordFields, getEntries, List.find?_cons, Ne.symm state, Ne.symm response]

/-- What the script makes of a record is the completed record. -/
theorem agrees_completed {fields : List (Utf16 × Value ℚ)} {value : Value ℚ}
    (agrees : Agrees (.obj fields) (.obj (recordFields record)))
    (answer : Agrees value (.obj (responseFields response))) :
    Agrees (.obj (setEntries Field.response value
        (setEntries Field.state (.str completedText) fields)))
      (.obj (recordFields ⟨record.fingerprint, record.lease, .completed response⟩)) := by
  apply agrees_obj_iff.mpr
  intro name path
  rw [getEntries_setEntries, getEntries_setEntries]
  by_cases atResponse : name = Field.response
  · rw [if_pos atResponse, atResponse]
    exact answer path
  by_cases atState : name = Field.state
  · rw [if_neg atResponse, if_pos atState, atState]
    rfl
  · rw [if_neg atResponse, if_neg atState, getEntries_recordFields atState atResponse]
    exact agrees_obj_iff.mp agrees name path

/-- What is stored under the key stands for what the key holds. -/
def Related (cjson : Cjson numbers) : Option (List Char) → Option (IdempotencyRecord Utf16) → Prop
  | none, none => True
  | some text, some record => Clean record ∧ Reads cjson text record
  | _, _ => False

theorem related_cases {raw : Option (List Char)} {cell : Option (IdempotencyRecord Utf16)}
    (related : Related cjson raw cell) : raw = none ∧ cell = none ∨
      ∃ text record, raw = some text ∧ cell = some record ∧ Clean record ∧
        Reads cjson text record := by
  cases raw with
  | none =>
    cases cell with
    | none => exact .inl ⟨rfl, rfl⟩
    | some => cases related
  | some text =>
    cases cell with
    | none => cases related
    | some record => exact .inr ⟨text, record, rfl, rfl, related.1, related.2⟩

variable {raw : Option (List Char)} {cell : Option (IdempotencyRecord Utf16)}

theorem reserve_refines (related : Related cjson raw cell) (clean : Clean record) :
    (reserve numbers raw record).1 = (Store.reserve cell record).1 ∧
      Related cjson (reserve numbers raw record).2 (Store.reserve cell record).2 := by
  rcases related_cases related with ⟨rfl, rfl⟩ | ⟨text, existing, rfl, rfl, kept, reads⟩
  · exact ⟨rfl, clean, reads_recordText clean⟩
  · simp only [reserve, reads.parsed, Store.reserve]
    exact ⟨trivial, kept, reads⟩

theorem complete_refines (related : Related cjson raw cell) (lease : Utf16)
    (clean : CleanResponse response) :
    (completeIfLeased cjson raw lease response).1 = (complete cell lease response).1 ∧
      Related cjson (completeIfLeased cjson raw lease response).2
        (complete cell lease response).2 := by
  rcases related_cases related with ⟨rfl, rfl⟩ | ⟨text, record, rfl, rfl, kept, reads⟩
  · exact ⟨rfl, trivial⟩
  have seen := leased_of_reads reads lease
  by_cases mine : record.lease = lease
  · rw [if_pos mine] at seen
    obtain ⟨fields, found, plain, agrees⟩ := seen
    obtain ⟨value, decoded, plainValue, answer⟩ :=
      cjson.decode_print _ (plain_response clean)
    have plainText : Plain (.str completedText) := ⟨_, rfl⟩
    have written := reads_encode cjson ((plain.set plainText).set plainValue)
      (agrees_completed agrees answer)
    simp only [completeIfLeased, found, decoded, complete, if_pos mine]
    subst mine
    refine ⟨trivial, ⟨kept.fingerprint, kept.lease, ?_⟩, written⟩
    intro other same
    cases same
    exact clean
  · rw [if_neg mine] at seen
    simp only [completeIfLeased, seen, complete, if_neg mine]
    exact ⟨trivial, kept, reads⟩

theorem release_refines (related : Related cjson raw cell) (lease : Utf16) :
    (releaseIfLeased cjson raw lease).1 = (release cell lease).1 ∧
      Related cjson (releaseIfLeased cjson raw lease).2 (release cell lease).2 := by
  rcases related_cases related with ⟨rfl, rfl⟩ | ⟨text, record, rfl, rfl, kept, reads⟩
  · exact ⟨rfl, trivial⟩
  have seen := leased_of_reads reads lease
  by_cases mine : record.lease = lease
  · rw [if_pos mine] at seen
    obtain ⟨fields, found, -, -⟩ := seen
    simp only [releaseIfLeased, found, release, if_pos mine]
    exact ⟨trivial, trivial⟩
  · rw [if_neg mine] at seen
    simp only [releaseIfLeased, seen, release, if_neg mine]
    exact ⟨trivial, kept, reads⟩

end Refinement

end Redis

/-- `RedisIdempotencyStore`. -/
def redis {numbers : Numbers ℚ} (cjson : Redis.Cjson numbers) : Backend where
  State := Option (List Char)
  empty := none
  reserve := Redis.reserve numbers
  complete := Redis.completeIfLeased cjson
  release := Redis.releaseIfLeased cjson

section Plain

theorem isNumeralChar_of_isDigit {c : Char} (digit : c.isDigit = true) :
    JsonText.isNumeralChar c = true := by
  have all : ∀ digit : Fin 10, JsonText.isNumeralChar (Char.ofNat (48 + digit)) = true := by decide
  simp only [Char.isDigit, Bool.and_eq_true, decide_eq_true_eq] at digit
  have low : 48 ≤ c.toNat := UInt32.le_iff_toNat_le.mp digit.1
  have high : c.toNat ≤ 57 := UInt32.le_iff_toNat_le.mp digit.2
  have listed := all ⟨c.toNat - 48, by omega⟩
  have code : 48 + (c.toNat - 48) = c.toNat := by omega
  rw [code, Char.ofNat_toNat] at listed
  exact listed

theorem isNumeral_toDigits (n : Nat) : JsonText.isNumeral (Nat.toDigits 10 n) = true := by
  have digit : ∀ c ∈ Nat.toDigits 10 n, c.isDigit = true := fun c member =>
    Nat.isDigit_of_mem_toDigits (by decide) (by decide) member
  have chars : (Nat.toDigits 10 n).all JsonText.isNumeralChar = true := by
    rw [List.all_eq_true]
    intro c member
    exact isNumeralChar_of_isDigit (digit c member)
  by_cases zero : n = 0
  · subst zero
    decide
  · obtain ⟨c, rest, digits, other⟩ := JsString.toDigits_head (Nat.pos_of_ne_zero zero)
    rw [digits] at digit chars ⊢
    have first := digit c List.mem_cons_self
    have later : rest.dropWhile Char.isDigit = [] := by
      rw [List.dropWhile_eq_nil_iff]
      intro d member
      exact digit d (List.mem_cons_of_mem _ member)
    have unsigned : c ≠ '-' := by
      rintro rfl
      cases first
    simp only [JsonText.isNumeral, chars, JsonText.afterSign, if_neg unsigned,
      JsonText.afterInteger, if_neg other, JsonText.digits, first, if_true, later,
      Option.bind_some, JsonText.afterFraction, JsonText.afterExponent]
    decide

/-- The naturals among the rationals, in decimal. -/
def plainNumbers : Numbers ℚ where
  print := fun q => Nat.toDigits 10 q.num.toNat
  read := fun text => (Nat.ofDigitChars 10 text 0 : Nat)
  Exact := fun q => ∃ n : Nat, q = n
  numeral := fun q _ => isNumeral_toDigits q.num.toNat
  read_print := by
    rintro q ⟨n, rfl⟩
    have digits := @Nat.ofDigitChars_toDigits 10 n (by decide) (by decide)
    simp [digits]

theorem parse_print_plain {value : Value ℚ} (plain : Redis.Plain value) :
    JsonText.parse plainNumbers (JsonText.print plainNumbers value) = some value := by
  have naturals : ∀ n : Nat, n < 1000 → plainNumbers.Exact n := fun n _ => ⟨n, rfl⟩
  exact JsonText.parse_print (Redis.exact_of_plain naturals value plain)

def plainCjson : Redis.Cjson plainNumbers where
  decode := JsonText.parse plainNumbers
  encode := JsonText.print plainNumbers
  exact := fun n _ => ⟨n, rfl⟩
  decode_print := fun value plain => ⟨value, parse_print_plain plain, plain, fun _ => rfl⟩
  decode_encode := fun value plain => ⟨value, parse_print_plain plain, plain, fun _ => rfl⟩
  parse_encode := fun value plain => ⟨value, parse_print_plain plain, fun _ => rfl⟩

end Plain

inductive StoreCall where
  | reserve (record : IdempotencyRecord Utf16)
  | complete (lease : Utf16) (response : RecordedResponse)
  | release (lease : Utf16)

namespace StoreCall

def caller : StoreCall → Utf16
  | reserve record => record.lease
  | complete lease _ => lease
  | release lease => lease

/-- A call with well-formed strings and, if it records a response, an HTTP status. -/
def Clean : StoreCall → Prop
  | reserve record => Redis.Clean record
  | complete _ response => Redis.CleanResponse response
  | release _ => True

end StoreCall

namespace Backend

def after (backend : Backend) (state : backend.State) : StoreCall → backend.State
  | .reserve record => (backend.reserve state record).2
  | .complete lease response => (backend.complete state lease response).2
  | .release lease => (backend.release state lease).2

def run (backend : Backend) (state : backend.State) (calls : List StoreCall) : backend.State :=
  calls.foldl backend.after state

/-- The store does what the key in memory does. -/
structure Refines (backend : Backend)
    (related : backend.State → Option (IdempotencyRecord Utf16) → Prop) : Prop where
  empty : related backend.empty none
  reserve : ∀ {state cell}, related state cell → ∀ record, Redis.Clean record →
    (backend.reserve state record).1 = (Store.reserve cell record).1 ∧
      related (backend.reserve state record).2 (Store.reserve cell record).2
  complete : ∀ {state cell}, related state cell → ∀ lease {response},
    Redis.CleanResponse response →
      (backend.complete state lease response).1 = (Store.complete cell lease response).1 ∧
        related (backend.complete state lease response).2 (Store.complete cell lease response).2
  release : ∀ {state cell}, related state cell → ∀ lease,
    (backend.release state lease).1 = (Store.release cell lease).1 ∧
      related (backend.release state lease).2 (Store.release cell lease).2

theorem memory_refines : memory.Refines Eq where
  empty := rfl
  reserve := by
    rintro state cell rfl record -
    exact ⟨rfl, rfl⟩
  complete := by
    rintro state cell rfl lease response -
    exact ⟨rfl, rfl⟩
  release := by
    rintro state cell rfl lease
    exact ⟨rfl, rfl⟩

theorem redis_refines {numbers : Numbers ℚ} (cjson : Redis.Cjson numbers) :
    (redis cjson).Refines (Redis.Related cjson) where
  empty := trivial
  reserve := fun related _ clean => Redis.reserve_refines related clean
  complete := fun related lease _ clean => Redis.complete_refines related lease clean
  release := fun related lease => Redis.release_refines related lease

variable {backend : Backend} {related : backend.State → Option (IdempotencyRecord Utf16) → Prop}
  {state : backend.State} {calls : List StoreCall}

theorem Refines.after (refines : backend.Refines related)
    {cell : Option (IdempotencyRecord Utf16)} (here : related state cell) {call : StoreCall}
    (clean : call.Clean) : related (backend.after state call) (memory.after cell call) := by
  cases call with
  | reserve record => exact (refines.reserve here record clean).2
  | complete lease response => exact (refines.complete here lease clean).2
  | release lease => exact (refines.release here lease).2

/-- Along any calls, the store and the key in memory stay alike. -/
theorem Refines.run (refines : backend.Refines related) (clean : ∀ call ∈ calls, call.Clean)
    {cell : Option (IdempotencyRecord Utf16)} (here : related state cell) :
    related (backend.run state calls) (memory.run cell calls) := by
  induction calls generalizing state cell with
  | nil => exact here
  | cons call rest ih =>
    have next := refines.after here (clean call List.mem_cons_self)
    exact ih (fun call member => clean call (List.mem_cons_of_mem _ member)) next

theorem run_append (state : backend.State) (first second : List StoreCall) :
    backend.run state (first ++ second) = backend.run (backend.run state first) second :=
  List.foldl_append

theorem memory_run_of_others (record : IdempotencyRecord Utf16)
    (others : ∀ call ∈ calls, call.caller ≠ record.lease) :
    memory.run (some record) calls = some record := by
  induction calls with
  | nil => rfl
  | cons call rest ih =>
    have other := others call List.mem_cons_self
    have kept : memory.after (some record) call = some record := by
      cases call with
      | reserve => rfl
      | complete lease response =>
        have mine : record.lease ≠ lease := Ne.symm other
        simp only [Backend.after, memory, Store.complete, if_neg mine]
      | release lease =>
        have mine : record.lease ≠ lease := Ne.symm other
        simp only [Backend.after, memory, Store.release, if_neg mine]
    change memory.run (memory.after (some record) call) rest = some record
    rw [kept]
    exact ih fun call member => others call (List.mem_cons_of_mem _ member)

end Backend

end NestApi.Idempotency
