import NestApi.Common
import NestApi.DomainEvents
import NestApi.IsoDate
import NestApi.JsonText

namespace NestApi.Codec

open Events Utf16 OrderedMap

abbrev Headers := OrderedMap Utf16 Utf16

abbrev OutgoingMessage := BrokerMessage Utf16 ByteArray Headers

structure IncomingMessage extends BrokerRecord Utf16 ByteArray Headers where
  topic : Utf16
  partition : Nat
  offset : Utf16

structure Coordinates where
  partition : Nat
  offset : Utf16
  timestamp : Date

def OutgoingMessage.delivered (message : OutgoingMessage) (place : Coordinates) :
    IncomingMessage where
  topic := message.topic
  partition := place.partition
  offset := place.offset
  key := message.key
  value := message.value
  headers := message.headers
  timestamp := place.timestamp

/-- `toString()` of an integer. -/
def decimal (n : Nat) : Utf16 := ofString (toString n)

/-- The last moment that a `Date` can hold, and the first one with the sign changed. -/
def maxTime : Int := 8640000000000000

def isValidDate (date : Date) : Bool := -maxTime ≤ date && date ≤ maxTime

/-- What the codec uses of the language: numbers, dates as texts, and the text of bytes that are not
UTF-8. -/
structure Language (N : Type) where
  numbers : JsonText.Numbers N
  /-- What the error of `JSON.parse` says. -/
  syntaxError : List Char → Utf16
  toISOString : Date → Utf16
  /-- `new Date(text)`, unless its time is `NaN`. -/
  parseDate : Utf16 → Option Date
  /-- `Number(text)`, when that is finite. -/
  toNumber : Utf16 → Option ℚ
  /-- The text of bytes with replacement characters in it. -/
  replaced : ByteArray → List Char
  parseDate_toISOString : ∀ date, isValidDate date = true → parseDate (toISOString date) = some date
  toNumber_decimal : ∀ n, n ≤ maxSafeInteger → toNumber (decimal n) = some (n : ℚ)

/-- What may be thrown while a message is handled: the errors told apart with `instanceof`, and
anything else. -/
inductive Failure where
  | undecodable (topic : Utf16) (partition : Nat) (offset reason : Utf16)
  | contractViolation (topic : Utf16) (partition : Nat) (offset : Utf16)
      (subject : DomainEventName) (writerVersion : Option Nat) (readerVersion : Nat)
      (violations : List Utf16)
  | ladderAborted
  | deadLetterPublish (topic : Utf16) (cause : Failure)
  | other (isError : Bool) (type text : Utf16)

structure Version where
  number : Nat
  positive : 1 ≤ number
  safe : number ≤ maxSafeInteger

/-- What a contract throws: its `SchemaValidationError`, or anything else. -/
inductive ContractError where
  | validation (version : Nat) (violations : List Utf16)
  | other (failure : Failure)

abbrev PayloadContract (N : Type) := DomainEventName → JsonText.Value N →
    Except ContractError Version

structure EncodedDomainEvent (N : Type) where
  name : DomainEventName
  payload : List (Utf16 × JsonText.Value N)
  eventId : Utf16
  occurredAt : Date
  correlationId : Option Utf16

structure DecodedDomainEvent (N : Type) extends EncodedDomainEvent N where
  writerSchemaVersion : Option Nat

namespace EventHeader

def name : Utf16 := ofString "event-name"
def id : Utf16 := ofString "event-id"
def occurredAt : Utf16 := ofString "event-occurred-at"
def correlationId : Utf16 := ofString "correlation-id"
def contentType : Utf16 := ofString "content-type"
def schemaVersion : Utf16 := ofString "event-schema-version"

/-- `EVENT_HEADERS`. -/
def all : List Utf16 := [name, id, occurredAt, correlationId, contentType, schemaVersion]

end EventHeader

def eventContentType : Utf16 := ofString "application/json"

def nameText (name : DomainEventName) : Utf16 := ofString name.text

/-- The event of a header, `isDomainEventName` being whether there is one. -/
def eventNamed (value : Utf16) : Option DomainEventName :=
  DomainEventName.all.find? fun name => nameText name = value

/-- The `userId` of a payload, which every payload of the catalogue has, a string. -/
def partitionKeyFor {N : Type} (event : EncodedDomainEvent N) : Option Utf16 :=
  match getEntries (ofString "userId") event.payload with
  | some (.str text) => some text
  | _ => none

/-- What the propagator writes into the headers of a message. -/
structure TraceContext where
  entries : List (Utf16 × Utf16)
  /-- The names are its own. -/
  foreign : ∀ entry ∈ entries, entry.1 ∉ EventHeader.all

section

variable {N : Type} (language : Language N)

/-- `Buffer.toString("utf8")`. -/
def bufferText (bytes : ByteArray) : List Char :=
  ((String.fromUTF8? bytes).map String.toList).getD (language.replaced bytes)

/-- `Buffer.from(JSON.stringify(event.payload), "utf8")`. -/
def payloadBytes (event : EncodedDomainEvent N) : ByteArray :=
  (String.ofList (JsonText.print language.numbers (.obj event.payload))).toUTF8

def eventHeaders (event : EncodedDomainEvent N) (schemaVersion : Version) :
    List (Utf16 × Utf16) :=
  [(EventHeader.name, nameText event.name),
    (EventHeader.id, event.eventId),
    (EventHeader.occurredAt, language.toISOString event.occurredAt),
    (EventHeader.contentType, eventContentType),
    (EventHeader.schemaVersion, decimal schemaVersion.number)]

def encodeDomainEvent (trace : TraceContext) (topic : Utf16) (event : EncodedDomainEvent N)
    (contract : PayloadContract N) : Except ContractError OutgoingMessage := do
  let schemaVersion ← contract event.name (.obj event.payload)
  if !isValidDate event.occurredAt then
    throw (.other (.other true (ofString "RangeError") (ofString "Invalid time value")))
  let headers := empty.setAll (eventHeaders language event schemaVersion)
  let headers :=
    match event.correlationId with
    | none => headers
    | some correlationId => headers.set EventHeader.correlationId correlationId
  return {
    topic
    key := partitionKeyFor event
    value := payloadBytes language event
    headers := headers.setAll trace.entries }

def undecodable (message : IncomingMessage) (reason : Utf16) : Failure :=
  .undecodable message.topic message.partition message.offset reason

def quoted (text : Utf16) : Utf16 := ofString "\"" ++ text ++ ofString "\""

/-- The schema version of the producer, if it sent one. -/
def readWriterVersion (message : IncomingMessage) : Except Failure (Option Nat) :=
  match message.headers.get EventHeader.schemaVersion with
  | none => .ok none
  | some raw =>
    let rejected := undecodable message
      (quoted EventHeader.schemaVersion ++ ofString " is not a version number: " ++ raw)
    match language.toNumber raw with
    | none => .error rejected
    | some version =>
      if version.isInt ∧ 1 ≤ version then .ok (some version.num.toNat) else .error rejected

def decodeDomainEvent (message : IncomingMessage) (contract : PayloadContract N) :
    Except Failure (DecodedDomainEvent N) := do
  let missing := fun header =>
    undecodable message (ofString "no " ++ quoted header ++ ofString " header")
  let some text := message.headers.get EventHeader.name | throw (missing EventHeader.name)
  let some name := eventNamed text
    | throw (undecodable message (quoted text ++ ofString " is not an event this build knows"))
  let some eventId := message.headers.get EventHeader.id | throw (missing EventHeader.id)
  if eventId = [] then throw (missing EventHeader.id)
  let some occurredAtRaw := message.headers.get EventHeader.occurredAt
    | throw (missing EventHeader.occurredAt)
  let some occurredAt := language.parseDate occurredAtRaw
    | throw (undecodable message
        (quoted EventHeader.occurredAt ++ ofString " is not a date: " ++ occurredAtRaw))
  let some payload := JsonText.parse language.numbers (bufferText language message.value)
    | throw (undecodable message (ofString "value is not JSON: " ++
        language.syntaxError (bufferText language message.value)))
  let .obj fields := payload
    | throw (undecodable message (ofString "value is not a JSON object"))
  let writerSchemaVersion ← readWriterVersion language message
  match contract name (.obj fields) with
  | .ok _ =>
    return {
      name
      payload := fields
      eventId
      occurredAt
      correlationId := message.headers.get EventHeader.correlationId
      writerSchemaVersion }
  | .error (.validation version violations) =>
    throw (.contractViolation message.topic message.partition message.offset name
      writerSchemaVersion version violations)
  | .error (.other failure) => throw failure

/-- Headers that say what an event is, and which version its contract reported. -/
structure Stamped (event : EncodedDomainEvent N) (version : Version) (headers : Headers) :
    Prop where
  name : headers.get EventHeader.name = some (nameText event.name)
  id : headers.get EventHeader.id = some event.eventId
  occurredAt : headers.get EventHeader.occurredAt = some (language.toISOString event.occurredAt)
  schemaVersion : headers.get EventHeader.schemaVersion = some (decimal version.number)
  correlationId : headers.get EventHeader.correlationId = event.correlationId

end

section RoundTrip

variable {N : Type} {language : Language N}

theorem bufferText_toUTF8 (text : List Char) :
    bufferText language (String.ofList text).toUTF8 = text := by
  rw [bufferText, JsString.fromUTF8?_toUTF8, Option.map_some, Option.getD_some,
    String.toList_ofList]

theorem eventNamed_nameText (name : DomainEventName) : eventNamed (nameText name) = some name := by
  cases name <;> decide

variable {event : EncodedDomainEvent N} {version : Version} {contract : PayloadContract N}
  {message : IncomingMessage}

theorem Stamped.of_same {headers other : Headers} (stamped : Stamped language event version headers)
    (same : ∀ name ∈ EventHeader.all, other.get name = headers.get name) :
    Stamped language event version other where
  name := (same _ (by decide)).trans stamped.name
  id := (same _ (by decide)).trans stamped.id
  occurredAt := (same _ (by decide)).trans stamped.occurredAt
  schemaVersion := (same _ (by decide)).trans stamped.schemaVersion
  correlationId := (same _ (by decide)).trans stamped.correlationId

theorem stamped_own (event : EncodedDomainEvent N) (version : Version) :
    let headers := empty.setAll (eventHeaders language event version)
    Stamped language event version
      (match event.correlationId with
        | none => headers
        | some correlationId => headers.set EventHeader.correlationId correlationId) := by
  intro headers
  have distinct : ((eventHeaders language event version).map Prod.fst).Nodup := by
    simp only [eventHeaders, List.map_cons, List.map_nil]
    decide
  have own : ∀ entry ∈ eventHeaders language event version, headers.get entry.1 = some entry.2 := by
    intro entry member
    exact get_setAll_of_mem distinct member _
  have absent : headers.get EventHeader.correlationId = none := by
    apply get_setAll_of_notMem
    simp only [eventHeaders, List.map_cons, List.map_nil]
    decide
  have name := own (EventHeader.name, nameText event.name) (by simp [eventHeaders])
  have id := own (EventHeader.id, event.eventId) (by simp [eventHeaders])
  have occurredAt := own (EventHeader.occurredAt, language.toISOString event.occurredAt)
    (by simp [eventHeaders])
  have schemaVersion := own (EventHeader.schemaVersion, decimal version.number)
    (by simp [eventHeaders])
  cases correlation : event.correlationId with
  | none => exact ⟨name, id, occurredAt, schemaVersion, absent.trans correlation.symm⟩
  | some =>
    constructor
    · rwa [get_set_of_ne _ _ (by decide)]
    · rwa [get_set_of_ne _ _ (by decide)]
    · rwa [get_set_of_ne _ _ (by decide)]
    · rwa [get_set_of_ne _ _ (by decide)]
    · rw [get_set_self, correlation]

theorem encodeDomainEvent_ok (trace : TraceContext) (topic : Utf16)
    (accepted : contract event.name (.obj event.payload) = .ok version)
    (valid : isValidDate event.occurredAt = true) :
    ∃ headers, encodeDomainEvent language trace topic event contract =
        .ok ⟨topic, partitionKeyFor event, payloadBytes language event, headers⟩ ∧
      Stamped language event version headers := by
  simp only [encodeDomainEvent, accepted, valid]
  refine ⟨_, rfl, (stamped_own event version).of_same ?_⟩
  intro name known
  apply get_setAll_of_notMem
  intro member
  obtain ⟨entry, here, rfl⟩ := List.mem_map.mp member
  exact trace.foreign entry here known

theorem readWriterVersion_ok (stamped : Stamped language event version message.headers) :
    readWriterVersion language message = .ok (some version.number) := by
  have integer : (version.number : ℚ).isInt ∧ (1 : ℚ) ≤ version.number :=
    ⟨by simp [Rat.isInt], by exact_mod_cast version.positive⟩
  simp only [readWriterVersion, stamped.schemaVersion,
    language.toNumber_decimal version.number version.safe, if_pos integer]
  simp

theorem decodeDomainEvent_ok (accepted : contract event.name (.obj event.payload) = .ok version)
    (exact : JsonText.Exact language.numbers (.obj event.payload)) (named : event.eventId ≠ [])
    (valid : isValidDate event.occurredAt = true)
    (stamped : Stamped language event version message.headers)
    (bytes : message.value = payloadBytes language event) :
    decodeDomainEvent language message contract = .ok ⟨event, some version.number⟩ := by
  have date := language.parseDate_toISOString event.occurredAt valid
  have text : bufferText language message.value =
      JsonText.print language.numbers (.obj event.payload) := by
    rw [bytes, payloadBytes, bufferText_toUTF8]
  have payload := JsonText.parse_print exact
  simp only [decodeDomainEvent, stamped.name, eventNamed_nameText, stamped.id, if_neg named,
    stamped.occurredAt, date, text, payload, readWriterVersion_ok stamped, accepted,
    stamped.correlationId]
  rfl

end RoundTrip

section Plain

def ascii (text : Utf16) : List Char := text.map fun unit => Char.ofNat unit.toNat

theorem ascii_ofChar {c : Char} (small : c.toNat < 128) : ascii (ofChar c) = [c] := by
  have code : c.val.toUInt16.toNat = c.toNat := by
    rw [UInt32.toNat_toUInt16]
    exact Nat.mod_eq_of_lt (show c.toNat < 2 ^ 16 by omega)
  rw [ofChar_basic (by omega), ascii, List.map_singleton, code, Char.ofNat_toNat]

theorem ascii_flatMap_ofChar {chars : List Char} (small : ∀ c ∈ chars, c.toNat < 128) :
    ascii (chars.flatMap ofChar) = chars := by
  induction chars with
  | nil => rfl
  | cons c rest ih =>
    have first := ascii_ofChar (small c List.mem_cons_self)
    have later := ih fun c member => small c (List.mem_cons_of_mem _ member)
    rw [List.flatMap_cons, ascii, List.map_append]
    exact congrArg₂ (· ++ ·) first later

theorem toNat_lt_of_isDigit {c : Char} (digit : c.isDigit = true) : c.toNat < 128 := by
  simp only [Char.isDigit, Bool.and_eq_true, decide_eq_true_eq] at digit
  have below : c.val.toNat ≤ 57 := UInt32.le_iff_toNat_le.mp digit.2
  exact Nat.lt_of_le_of_lt below (by decide)

def readDecimal (text : Utf16) : Nat := Nat.ofDigitChars 10 (ascii text) 0

theorem readDecimal_decimal (n : Nat) : readDecimal (decimal n) = n := by
  have small : ∀ c ∈ Nat.toDigits 10 n, c.toNat < 128 := by
    intro c member
    exact toNat_lt_of_isDigit (Nat.isDigit_of_mem_toDigits (by decide) (by decide) member)
  have text : decimal n = (Nat.toDigits 10 n).flatMap ofChar := by
    rw [decimal, ofString, Nat.toString_eq_repr, Nat.repr_eq_ofList_toDigits, String.toList_ofList]
  rw [readDecimal, text, ascii_flatMap_ofChar small]
  exact Nat.ofDigitChars_toDigits (by decide) (by decide)

/-- A language that keeps the laws: it reads naturals only, and has one number in its JSON, zero. -/
def plainLanguage : Language Unit where
  numbers := {
    print := fun _ => ['0']
    read := fun _ => ()
    Exact := fun _ => True
    numeral := fun _ _ => by decide
    read_print := fun _ _ => rfl }
  syntaxError := fun _ => ofString "Unexpected token"
  toISOString := IsoDate.print
  parseDate := IsoDate.parse
  toNumber := fun text => some (readDecimal text : ℚ)
  replaced := fun _ => []
  parseDate_toISOString := by
    intro date valid
    simp only [isValidDate, Bool.and_eq_true, decide_eq_true_eq] at valid
    exact IsoDate.parse_print ⟨Int.lt_of_lt_of_le (by decide) valid.1,
      Int.lt_of_le_of_lt valid.2 (by decide)⟩
  toNumber_decimal := by
    intro n _
    rw [readDecimal_decimal]

end Plain

end NestApi.Codec
