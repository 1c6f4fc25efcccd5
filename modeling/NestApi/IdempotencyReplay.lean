import NestApi.IdempotencyRedis
import NestApi.IdempotencyRequests
import Mathlib

namespace NestApi.Idempotency

open Utf16 ByteArray

open JsonText (Value Numbers)

@[ext] structure Wire where
  status : ℚ
  contentType : Option Utf16
  body : ByteArray
  deriving DecidableEq


/-- The bytes of a string, lone surrogates replaced. -/
def utf8 (text : Utf16) : ByteArray :=
  (String.ofList ((scalars text).map fun scalar =>
    match scalar with
    | .inl c => c
    | .inr _ => '�')).toUTF8

def htmlType : Utf16 := ofString "text/html; charset=utf-8"
def jsonType : Utf16 := ofString "application/json; charset=utf-8"
def binaryType : Utf16 := ofString "application/octet-stream"

/-- What is used of Express besides `send`: how JSON is printed, and the content type of a
string, which says its charset. -/
structure Express where
  numbers : Numbers ℚ
  setCharset : Utf16 → Utf16
  setCharset_setCharset : ∀ type, setCharset (setCharset type) = setCharset type
  setCharset_htmlType : setCharset htmlType = htmlType
  setCharset_wellFormed : ∀ type, Redis.WellFormed type → Redis.WellFormed (setCharset type)

/-- What a handler calls: `res.send`, or `res.json` with a value or `undefined`. -/
inductive ResponseCall where
  | send (payload : Payload)
  | json (value : Option (Value ℚ))

/-- The status and content type that a handler has set, and its call. -/
structure Reply where
  status : ℚ
  contentType : Option Utf16
  call : ResponseCall

def isBodiless (status : ℚ) : Bool := status = 204 || status = 205 || status = 304

/-- The end of `send`, with the content type and the bytes it has come to. -/
def write (status : ℚ) (contentType : Option Utf16) (chunk : ByteArray) : Wire :=
  if status = 204 ∨ status = 304 then ⟨status, none, empty⟩
  else if status = 205 then ⟨status, contentType, empty⟩
  else ⟨status, contentType, chunk⟩

namespace Express

variable (express : Express)

def stringify (value : Value ℚ) : Utf16 :=
  ofString (String.ofList (JsonText.print express.numbers value))

def sendString (status : ℚ) (contentType : Option Utf16) (text : Utf16) : Wire :=
  write status
    (some (match contentType with
      | some type => express.setCharset type
      | none => htmlType))
    (utf8 text)

def given (contentType : Option Utf16) : Option Utf16 := contentType.filter fun type => type ≠ []

def sendJson (status : ℚ) (contentType : Option Utf16) (value : Value ℚ) : Wire :=
  express.sendString status (some ((given contentType).getD jsonType)) (express.stringify value)

/-- `res.send` of Express. -/
def send (status : ℚ) (contentType : Option Utf16) : Payload → Wire
  | .string text => express.sendString status contentType text
  | .json value => express.sendJson status contentType value
  | .buffer bytes => write status (some ((given contentType).getD binaryType)) bytes
  | .null | .undefined => write status contentType empty

def respond (reply : Reply) : Wire :=
  match reply.call with
  | .send payload => express.send reply.status reply.contentType payload
  | .json (some value) => express.sendJson reply.status reply.contentType value
  | .json none =>
    express.send reply.status (some ((given reply.contentType).getD jsonType)) .undefined

/-- What passes through the patched `send`: what is not a string yet is sent as JSON by `json`,
which sends the string. -/
def sends : ResponseCall → List Payload
  | .send (.json value) => [.json value, .string (express.stringify value)]
  | .send payload => [payload]
  | .json (some value) => [.string (express.stringify value)]
  | .json none => [.undefined]

/-- What the interceptor asks the store to record when the response has finished. -/
def recorded (reply : Reply) : RecordedResponse where
  status := reply.status
  contentType := (express.respond reply).contentType
  body := (express.sends reply.call).foldl capture none

def replay (response : RecordedResponse) : Wire :=
  match response.body with
  | none => ⟨response.status, response.contentType, empty⟩
  | some text => express.sendString response.status response.contentType text

end Express

def Reply.SendsBytes (reply : Reply) : Prop :=
  (∃ bytes, reply.call = .send (.buffer bytes) ∧ bytes ≠ empty) ∧ isBodiless reply.status = false

section Fidelity

variable {express : Express}

section

variable (status : ℚ) (contentType : Option Utf16)

include status contentType

/-- The content type a string is sent with is one it would be sent with again. -/
theorem sendString_again (text : Utf16) :
    express.sendString status (express.sendString status contentType text).contentType text =
      express.sendString status contentType text := by
  unfold Express.sendString
  generalize typed : (match contentType with
    | some type => express.setCharset type
    | none => htmlType) = type
  have stays : express.setCharset type = type := by
    subst typed
    cases contentType with
    | none => exact express.setCharset_htmlType
    | some type => exact express.setCharset_setCharset type
  unfold write
  split
  · rfl
  split
  · simp only [stays]
  · simp only [stays]

theorem write_body (chunk : ByteArray) : (write status contentType chunk).body =
      if isBodiless status then empty else chunk := by
  unfold write isBodiless
  by_cases stripped : status = 204 ∨ status = 304
  · rw [if_pos stripped]
    rcases stripped with rfl | rfl <;> rfl
  · rw [if_neg stripped]
    rw [not_or] at stripped
    by_cases reset : status = 205
    · simp [reset]
    · simp [stripped, reset]

theorem write_status (chunk : ByteArray) : (write status contentType chunk).status = status := by
  unfold write
  split
  · rfl
  split
  · rfl
  · rfl

/-- A response without a recorded body is replayed as it was when it had no bytes. -/
theorem replay_empty_iff (chunk : ByteArray) :
    (⟨status, (write status contentType chunk).contentType, empty⟩ : Wire) =
      write status contentType chunk ↔ isBodiless status = true ∨ chunk = empty := by
  have bytes := write_body status contentType chunk
  rw [Wire.ext_iff]
  simp only [write_status, bytes, true_and]
  cases isBodiless status with
  | true => simp
  | false => simp [eq_comm]

end

/-- A replay is what the client received, unless that was bytes. -/
theorem replay_recorded_iff (express : Express) (reply : Reply) :
    express.replay (express.recorded reply) = express.respond reply ↔ ¬ reply.SendsBytes := by
  obtain ⟨status, contentType, call⟩ := reply
  have faithful : (∀ bytes, call ≠ .send (.buffer bytes)) →
      express.replay (express.recorded ⟨status, contentType, call⟩) =
        express.respond ⟨status, contentType, call⟩ →
      (express.replay (express.recorded ⟨status, contentType, call⟩) =
        express.respond ⟨status, contentType, call⟩ ↔
          ¬ (Reply.mk status contentType call).SendsBytes) := by
    intro text same
    refine ⟨fun _ => ?_, fun _ => same⟩
    rintro ⟨⟨bytes, sent, -⟩, -⟩
    exact text bytes sent
  have silent : ∀ type, (⟨status, (write status type empty).contentType,
      empty⟩ : Wire) = write status type empty :=
    fun type => (replay_empty_iff status type empty).mpr (.inr rfl)
  cases call with
  | send payload =>
    cases payload with
    | string text => exact faithful (by simp) (sendString_again status contentType text)
    | json => exact faithful (by simp) (sendString_again status _ _)
    | null | undefined => exact faithful (by simp) (silent contentType)
    | buffer bytes =>
      refine (replay_empty_iff status _ bytes).trans ?_
      simp only [Reply.SendsBytes, ResponseCall.send.injEq, Payload.buffer.injEq]
      constructor
      · rintro (bodiless | empty) ⟨⟨_, rfl, some⟩, body⟩
        · rw [bodiless] at body
          cases body
        · exact some empty
      · intro none
        by_contra kept
        rw [not_or] at kept
        exact none ⟨⟨bytes, rfl, kept.2⟩, by simpa using kept.1⟩
  | json value =>
    cases value with
    | some => exact faithful (by simp) (sendString_again status _ _)
    | none => exact faithful (by simp) (silent _)

end Fidelity

/-- The strings of a reply are well formed, and its status is one of HTTP. -/
structure Reply.Clean (reply : Reply) : Prop where
  status : ∃ n : Nat, n < 1000 ∧ reply.status = n
  contentType : Redis.CleanText reply.contentType
  text : ∀ text, reply.call = .send (.string text) → Redis.WellFormed text

section Clean

variable {express : Express} {status : ℚ} {contentType : Option Utf16}

theorem cleanText_write {chunk : ByteArray} (clean : Redis.CleanText contentType) :
    Redis.CleanText (write status contentType chunk).contentType := by
  unfold write
  split
  · exact nofun
  split
  · exact clean
  · exact clean

theorem cleanText_some {type : Utf16} (clean : Redis.WellFormed type) :
    Redis.CleanText (some type) := by
  rintro own ⟨⟩
  exact clean

theorem wellFormed_given {otherwise : Utf16}
    (clean : Redis.CleanText contentType) (usual : Redis.WellFormed otherwise) :
    Redis.WellFormed ((Express.given contentType).getD otherwise) := by
  cases contentType with
  | none => exact usual
  | some type =>
    simp only [Express.given, Option.filter]
    split
    · exact clean type rfl
    · exact usual

theorem cleanText_sendString {text : Utf16} (clean : Redis.CleanText contentType) :
    Redis.CleanText (express.sendString status contentType text).contentType := by
  apply cleanText_write
  apply cleanText_some
  cases contentType with
  | none => exact ⟨_, rfl⟩
  | some type => exact express.setCharset_wellFormed type (clean type rfl)

theorem clean_recorded (express : Express) {reply : Reply} (clean : reply.Clean) :
    Redis.CleanResponse (express.recorded reply) where
  status := clean.status
  contentType := by
    obtain ⟨status, contentType, call⟩ := reply
    have json := cleanText_some (wellFormed_given clean.contentType ⟨_, rfl⟩ :
      Redis.WellFormed ((Express.given contentType).getD jsonType))
    have binary := cleanText_some (wellFormed_given clean.contentType ⟨_, rfl⟩ :
      Redis.WellFormed ((Express.given contentType).getD binaryType))
    cases call with
    | send payload =>
      cases payload with
      | string => exact cleanText_sendString clean.contentType
      | json => exact cleanText_sendString json
      | buffer => exact cleanText_write binary
      | null | undefined => exact cleanText_write clean.contentType
    | json value =>
      cases value with
      | some => exact cleanText_sendString json
      | none => exact cleanText_write json
  body := by
    obtain ⟨status, contentType, call⟩ := reply
    cases call with
    | send payload =>
      cases payload with
      | string text => exact cleanText_some (clean.text text rfl)
      | json => exact cleanText_some ⟨_, rfl⟩
      | buffer | null | undefined => exact nofun
    | json value =>
      cases value with
      | some => exact cleanText_some ⟨_, rfl⟩
      | none => exact nofun

end Clean

inductive IsStore : Backend → Prop where
  | memory : IsStore memory
  | redis {numbers} (cjson : Redis.Cjson numbers) : IsStore (redis cjson)

theorem IsStore.refines {backend : Backend} (store : IsStore backend) :
    ∃ related, backend.Refines related := by
  cases store with
  | memory => exact ⟨_, Backend.memory_refines⟩
  | redis cjson => exact ⟨_, Backend.redis_refines cjson⟩

/-- What happens to the key of a request that records its response: it reserves the key, others
call, it completes, and others call again. -/
def recording (fingerprint lease : Utf16) (response : RecordedResponse)
    (before later : List StoreCall) : List StoreCall :=
  (.reserve ⟨fingerprint, lease, .inFlight⟩ :: before) ++ (.complete lease response :: later)

variable {before later : List StoreCall}

theorem memory_recording (fingerprint : Utf16) {lease : Utf16}
    (others : ∀ call ∈ before ++ later, call.caller ≠ lease) (response : RecordedResponse) :
    memory.run none (recording fingerprint lease response before later) =
      some ⟨fingerprint, lease, .completed response⟩ := by
  have early : memory.run none (.reserve ⟨fingerprint, lease, .inFlight⟩ :: before) =
      some ⟨fingerprint, lease, .inFlight⟩ :=
    Backend.memory_run_of_others ⟨fingerprint, lease, .inFlight⟩
      fun call member => others call (List.mem_append_left _ member)
  have completed : memory.after (some ⟨fingerprint, lease, .inFlight⟩)
      (.complete lease response) = some ⟨fingerprint, lease, .completed response⟩ := by
    simp [Backend.after, memory, Store.complete]
  rw [recording, Backend.run_append, early]
  change memory.run (memory.after _ (.complete lease response)) later = _
  rw [completed]
  exact Backend.memory_run_of_others _ fun call member =>
    others call (List.mem_append_right _ member)

/-- What either store answers a retry with. -/
theorem reserve_after_recording {backend : Backend} (store : IsStore backend)
    {fingerprint lease retry : Utf16} {response : RecordedResponse}
    (own : Redis.Clean ⟨fingerprint, lease, .inFlight⟩) (retryClean : Redis.WellFormed retry)
    (clean : Redis.CleanResponse response) (calls : ∀ call ∈ before ++ later, call.Clean)
    (others : ∀ call ∈ before ++ later, call.caller ≠ lease) : (backend.reserve
      (backend.run backend.empty (recording fingerprint lease response before later))
      ⟨fingerprint, retry, .inFlight⟩).1 = some ⟨fingerprint, lease, .completed response⟩ := by
  obtain ⟨related, refines⟩ := store.refines
  have all : ∀ call ∈ recording fingerprint lease response before later, call.Clean := by
    intro call member
    simp only [recording, List.cons_append, List.mem_cons, List.mem_append] at member
    rcases member with rfl | early | rfl | late
    · exact own
    · exact calls call (List.mem_append_left _ early)
    · exact clean
    · exact calls call (List.mem_append_right _ late)
  have here := refines.run all refines.empty
  have answer := (refines.reserve here ⟨fingerprint, retry, .inFlight⟩
    ⟨own.fingerprint, retryClean, nofun⟩).1
  rw [answer, memory_recording fingerprint others response]
  rfl

/-- Through either store a retry is answered with what the client received, byte for byte, exactly
when that was no `Buffer`. -/
theorem replay_faithful_iff {backend : Backend} (store : IsStore backend) (express : Express)
    (reply : Reply) (clean : reply.Clean) (fingerprint lease retry : Utf16)
    (own : Redis.Clean ⟨fingerprint, lease, .inFlight⟩) (retryClean : Redis.WellFormed retry)
    (before later : List StoreCall) (calls : ∀ call ∈ before ++ later, call.Clean)
    (others : ∀ call ∈ before ++ later, call.caller ≠ lease) : ∃ existing response,
      (backend.reserve (backend.run backend.empty
        (recording fingerprint lease (express.recorded reply) before later))
        ⟨fingerprint, retry, .inFlight⟩).1 = some existing ∧
      answerFor fingerprint existing = .replayed response ∧
      (express.replay response = express.respond reply ↔ ¬ reply.SendsBytes) := by
  have answer := reserve_after_recording store own retryClean (clean_recorded express clean)
    calls others
  refine ⟨_, _, answer, ?_, replay_recorded_iff express reply⟩
  simp [answerFor]

/-- Express with content types that say their charset already. -/
def plainExpress : Express where
  numbers := plainNumbers
  setCharset := fun type => type
  setCharset_setCharset := fun _ => rfl
  setCharset_htmlType := rfl
  setCharset_wellFormed := fun _ clean => clean

theorem replay_faithful_for_text : ∃ existing response,
      ((redis plainCjson).reserve ((redis plainCjson).run (redis plainCjson).empty
        (recording (ofString "f") (ofString "a")
          (plainExpress.recorded ⟨201, none, .send (.string (ofString "made"))⟩) [] []))
        ⟨ofString "f", ofString "b", .inFlight⟩).1 = some existing ∧
      answerFor (ofString "f") existing = .replayed response ∧
      plainExpress.replay response =
        plainExpress.respond ⟨201, none, .send (.string (ofString "made"))⟩ := by
  have clean : (⟨201, none, .send (.string (ofString "made"))⟩ : Reply).Clean := by
    refine ⟨⟨201, by decide, by norm_num⟩, nofun, ?_⟩
    rintro text ⟨⟩
    exact ⟨_, rfl⟩
  obtain ⟨existing, response, found, answer, same⟩ := replay_faithful_iff (.redis plainCjson)
    plainExpress _ clean (ofString "f") (ofString "a") (ofString "b")
    ⟨⟨_, rfl⟩, ⟨_, rfl⟩, nofun⟩ ⟨_, rfl⟩ [] [] nofun nofun
  refine ⟨existing, response, found, answer, same.mpr ?_⟩
  rintro ⟨⟨bytes, sent, -⟩, -⟩
  cases sent

/-- A document that is sent as a `Buffer`. -/
def documentReply : Reply := ⟨200, none, .send (.buffer ⟨#[37, 80, 68, 70]⟩)⟩

/-- Its replay has none of its bytes. -/
theorem replay_drops_buffer : ∃ existing response,
      (memory.reserve (memory.run memory.empty
        (recording (ofString "f") (ofString "a") (plainExpress.recorded documentReply)
          [] [])) ⟨ofString "f", ofString "b", .inFlight⟩).1 = some existing ∧
      answerFor (ofString "f") existing = .replayed response ∧
      (plainExpress.respond documentReply).body = ⟨#[37, 80, 68, 70]⟩ ∧
      (plainExpress.replay response).body = empty := by
  have alone : ∀ call ∈ ([] ++ [] : List StoreCall), call.caller ≠ ofString "a" := by
    simp
  have stored := memory_recording (ofString "f") alone (plainExpress.recorded documentReply)
  refine ⟨⟨ofString "f", ofString "a",
    .completed (plainExpress.recorded documentReply)⟩, plainExpress.recorded documentReply, ?_, ?_,
    ?_, ?_⟩
  · change (Store.reserve (memory.run none _) _).1 = _
    rw [stored]
    rfl
  · simp [answerFor]
  · rfl
  · rfl

end NestApi.Idempotency
