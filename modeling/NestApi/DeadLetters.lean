import NestApi.EventCodec

namespace NestApi.Codec

open Events Utf16

inductive DeadLetterReason where
  | undecodable
  | schemaInvalid
  | handlerFailed
  deriving DecidableEq

def DeadLetterReason.text : DeadLetterReason → String
  | undecodable => "undecodable"
  | schemaInvalid => "schema-invalid"
  | handlerFailed => "handler-failed"

namespace DeadLetterHeader

def reason : Utf16 := ofString "dlt-reason"
def error : Utf16 := ofString "dlt-error"
def errorType : Utf16 := ofString "dlt-error-type"
def attempts : Utf16 := ofString "dlt-attempts"
def group : Utf16 := ofString "dlt-consumer-group"
def originTopic : Utf16 := ofString "dlt-origin-topic"
def originPartition : Utf16 := ofString "dlt-origin-partition"
def originOffset : Utf16 := ofString "dlt-origin-offset"
def failedAt : Utf16 := ofString "dlt-failed-at"

/-- `DEAD_LETTER_HEADERS`. -/
def all : List Utf16 :=
  [reason, error, errorType, attempts, group, originTopic, originPartition, originOffset, failedAt]

end DeadLetterHeader

structure DeadLetterContext where
  groupId : Utf16
  reason : DeadLetterReason
  attempts : Nat
  error : Failure
  failedAt : Date

def errorLimit : Nat := 500

def truncate (message : Utf16) : Utf16 :=
  if message.length ≤ errorLimit then message
  else message.take (errorLimit - 1) ++ ofString "…"

def coordinates (topic : Utf16) (partition : Nat) (offset : Utf16) : Utf16 :=
  topic ++ ofString "/" ++ decimal partition ++ ofString "@" ++ offset

def describeError : Failure → Utf16
  | .undecodable topic partition offset reason =>
    ofString "Cannot decode " ++ coordinates topic partition offset ++ ofString ": " ++ reason
  | .contractViolation topic partition offset subject writerVersion readerVersion violations =>
    nameText subject ++ ofString " at " ++ coordinates topic partition offset ++
      ofString " violates its schema contract — written by " ++
      (match writerVersion with
        | none => ofString "an unversioned producer"
        | some version => ofString "v" ++ decimal version) ++
      ofString ", rejected by v" ++ decimal readerVersion ++ ofString ": " ++
      List.intercalate (ofString "; ") violations
  | .ladderAborted => ofString "Retry ladder aborted; the consumer is shutting down."
  | .deadLetterPublish topic cause =>
    ofString "Could not publish to the dead-letter topic \"" ++ topic ++
      ofString "\": " ++ describeError cause ++
      ofString ". The message was not committed and will be redelivered."
  | .other _ _ text => text

/-- The name of an error's class, or the `typeof` of what is not one. -/
def errorTypeOf : Failure → Utf16
  | .undecodable .. => ofString "UndecodableMessageError"
  | .contractViolation .. => ofString "SchemaContractViolationError"
  | .ladderAborted => ofString "LadderAbortedError"
  | .deadLetterPublish .. => ofString "DeadLetterPublishError"
  | .other _ type _ => type

section

variable {N : Type} (language : Language N)

def deadLetterHeaders (message : IncomingMessage) (context : DeadLetterContext) :
    List (Utf16 × Utf16) :=
  [(DeadLetterHeader.reason, ofString context.reason.text),
    (DeadLetterHeader.error, truncate (describeError context.error)),
    (DeadLetterHeader.errorType, errorTypeOf context.error),
    (DeadLetterHeader.attempts, decimal context.attempts),
    (DeadLetterHeader.group, context.groupId),
    (DeadLetterHeader.originTopic, message.topic),
    (DeadLetterHeader.originPartition, decimal message.partition),
    (DeadLetterHeader.originOffset, message.offset),
    (DeadLetterHeader.failedAt, language.toISOString context.failedAt)]

def toDeadLetterMessage (topic : Utf16) (message : IncomingMessage)
    (context : DeadLetterContext) : OutgoingMessage where
  topic := topic
  key := message.key
  value := message.value
  headers := message.headers.setAll (deadLetterHeaders language message context)

def producedBack (dead : IncomingMessage) : OutgoingMessage where
  topic := (dead.headers.get DeadLetterHeader.originTopic).getD dead.topic
  key := dead.key
  value := dead.value
  headers := dead.headers

/-- One time that a message fails: where its topic had put it, and where the dead-letter topic
puts its copy. -/
structure Round where
  received : Coordinates
  topic : Utf16
  context : DeadLetterContext
  dead : Coordinates

def Round.redrive (message : OutgoingMessage) (round : Round) : OutgoingMessage :=
  producedBack ((toDeadLetterMessage language round.topic (message.delivered round.received)
    round.context).delivered round.dead)

def redrives (message : OutgoingMessage) (rounds : List Round) : OutgoingMessage :=
  rounds.foldl (Round.redrive language) message

def Describes (headers : Headers) (message : IncomingMessage) (context : DeadLetterContext) :
    Prop :=
  (headers.entries.filter fun entry => DeadLetterHeader.all.contains entry.1).Perm
    (deadLetterHeaders language message context)

/-- A message that is another one but for headers of dead letters. -/
structure Same (message other : OutgoingMessage) : Prop where
  topic : other.topic = message.topic
  key : other.key = message.key
  value : other.value = message.value
  headers : ∀ name, name ∉ DeadLetterHeader.all → other.headers.get name = message.headers.get name

theorem Same.trans {first second third : OutgoingMessage} (one : Same first second)
    (two : Same second third) : Same first third where
  topic := two.topic.trans one.topic
  key := two.key.trans one.key
  value := two.value.trans one.value
  headers := fun name own => (two.headers name own).trans (one.headers name own)

theorem deadLetterHeaders_names (message : IncomingMessage) (context : DeadLetterContext) :
    (deadLetterHeaders language message context).map Prod.fst = DeadLetterHeader.all := rfl

theorem deadLetterHeaders_nodup (message : IncomingMessage) (context : DeadLetterContext) :
    ((deadLetterHeaders language message context).map Prod.fst).Nodup := by
  rw [deadLetterHeaders_names]
  decide

theorem eventHeader_not_deadLetter : ∀ name ∈ EventHeader.all, name ∉ DeadLetterHeader.all := by
  decide

section

variable (topic : Utf16) (message : IncomingMessage) (context : DeadLetterContext)

include topic message context

theorem get_toDeadLetterMessage {name : Utf16} (own : name ∉ DeadLetterHeader.all) :
    (toDeadLetterMessage language topic message context).headers.get name =
      message.headers.get name :=
  OrderedMap.get_setAll_of_notMem own message.headers

theorem toDeadLetterMessage_describes :
    Describes language (toDeadLetterMessage language topic message context).headers message
      context := by
  apply OrderedMap.filter_setAll_perm (deadLetterHeaders_nodup language message context)
  intro name
  rw [deadLetterHeaders_names]
  exact List.contains_iff_mem

theorem get_originTopic : (toDeadLetterMessage language topic message context).headers.get
      DeadLetterHeader.originTopic = some message.topic := by
  apply OrderedMap.get_setAll_of_mem (deadLetterHeaders_nodup language message context)
  simp [deadLetterHeaders]

end

theorem redrive_topic (message : OutgoingMessage) (round : Round) :
    (round.redrive language message).topic = message.topic := by
  have origin := get_originTopic language round.topic (message.delivered round.received)
    round.context
  rw [OutgoingMessage.delivered] at origin
  rw [Round.redrive, producedBack, OutgoingMessage.delivered, OutgoingMessage.delivered, origin,
    Option.getD_some]

theorem same_redrive (message : OutgoingMessage) (round : Round) :
    Same message (round.redrive language message) where
  topic := redrive_topic language message round
  key := rfl
  value := rfl
  headers := by
    intro name own
    exact get_toDeadLetterMessage language round.topic (message.delivered round.received)
      round.context own

/-- However often a message is dead-lettered and produced back, it is the same. -/
theorem same_redrives (message : OutgoingMessage) (rounds : List Round) :
    Same message (redrives language message rounds) := by
  induction rounds generalizing message with
  | nil => exact ⟨rfl, rfl, rfl, fun _ _ => rfl⟩
  | cons round rest ih =>
    have first := same_redrive language message round
    exact first.trans (ih (round.redrive language message))

theorem redrives_describes (message : OutgoingMessage) (earlier : List Round) (last : Round) :
    Describes language (redrives language message (earlier ++ [last])).headers
      (message.delivered last.received) last.context := by
  have same := same_redrives language message earlier
  have described := toDeadLetterMessage_describes language last.topic
    ((redrives language message earlier).delivered last.received) last.context
  have headers : deadLetterHeaders language
      ((redrives language message earlier).delivered last.received) last.context =
        deadLetterHeaders language (message.delivered last.received) last.context := by
    simp only [deadLetterHeaders, OutgoingMessage.delivered, same.topic]
  rw [Describes, headers] at described
  rw [redrives, List.foldl_concat]
  exact described

end

/-- An event is read as it was written, with the version its contract reported, after any number of
failures; the message is the same but for the dead-letter headers of the last one. -/
theorem event_survives_wire_and_redrives {N : Type} (language : Language N) (trace : TraceContext)
    (topic : Utf16) (event : EncodedDomainEvent N) (contract : PayloadContract N)
    (version : Version) (accepted : contract event.name (.obj event.payload) = .ok version)
    (json : JsonText.Exact language.numbers (.obj event.payload))
    (named : event.eventId ≠ []) (valid : isValidDate event.occurredAt = true) :
    ∃ sent, encodeDomainEvent language trace topic event contract = .ok sent ∧
      (∀ place, decodeDomainEvent language (sent.delivered place) contract =
        .ok ⟨event, some version.number⟩) ∧
      ∀ rounds,
        Same sent (redrives language sent rounds) ∧
        (∀ place, decodeDomainEvent language
            ((redrives language sent rounds).delivered place) contract =
          .ok ⟨event, some version.number⟩) ∧
        ∀ earlier last, rounds = earlier ++ [last] →
          Describes language (redrives language sent rounds).headers
            (sent.delivered last.received) last.context := by
  obtain ⟨headers, encoded, stamped⟩ := encodeDomainEvent_ok trace topic accepted valid
  refine ⟨_, encoded, ?_, ?_⟩
  · intro place
    exact decodeDomainEvent_ok accepted json named valid stamped rfl
  · intro rounds
    have same := same_redrives language
      ⟨topic, partitionKeyFor event, payloadBytes language event, headers⟩ rounds
    refine ⟨same, ?_, ?_⟩
    · intro place
      have still := stamped.of_same fun name known =>
        same.headers name (eventHeader_not_deadLetter name known)
      exact decodeDomainEvent_ok accepted json named valid still same.value
    · intro earlier last rounds
      rw [rounds]
      exact redrives_describes language _ earlier last

def deletedAccount : EncodedDomainEvent Unit where
  name := .userDeleted
  payload := [(ofString "userId", .str (ofString "user-1")),
    (ofString "email", .str (ofString "erin@example.com"))]
  eventId := ofString "44444444-4444-4444-8444-444444444444"
  occurredAt := 1787824800000
  correlationId := some []

def firstVersion : Version := ⟨1, Nat.one_pos, by decide⟩

def acceptAll : PayloadContract Unit := fun _ _ => .ok firstVersion

theorem deletedAccount_exact :
    JsonText.Exact plainLanguage.numbers (.obj deletedAccount.payload) := by
  refine ⟨?_, trivial, trivial, trivial⟩
  simp only [deletedAccount, List.map_cons, List.map_nil]
  decide

theorem deletedAccount_survives :
    ∃ sent, encodeDomainEvent plainLanguage ⟨[], nofun⟩ (ofString "domain-events")
        deletedAccount acceptAll = .ok sent ∧
      ∀ rounds place, decodeDomainEvent plainLanguage
          ((redrives plainLanguage sent rounds).delivered place) acceptAll =
        .ok ⟨deletedAccount, some 1⟩ := by
  obtain ⟨sent, encoded, -, later⟩ := event_survives_wire_and_redrives plainLanguage ⟨[], nofun⟩
    (ofString "domain-events") deletedAccount acceptAll firstVersion rfl
    deletedAccount_exact (by decide) (by decide)
  exact ⟨sent, encoded, fun rounds place => (later rounds).2.1 place⟩

end NestApi.Codec
