import NestApi.DeadLetters
import NestApi.Program
import NestApi.Transition

namespace NestApi.Codec

open Utf16

inductive HandlerStatus where
  | ok
  | failed
  deriving DecidableEq

structure HandlerOutcome where
  handler : Utf16
  status : HandlerStatus
  error : Option Utf16

inductive Outcome where
  | handled
  | deadLettered
  deriving DecidableEq

inductive Stage (N : Type) where
  | received
  /-- At the top of the ladder's loop, with the attempts made so far. -/
  | ready (event : DecodedDomainEvent N) (attempts : Nat)
  /-- An attempt is in flight, the last one counted. -/
  | running (event : DecodedDomainEvent N) (attempts : Nat)
  | sleeping (event : DecodedDomainEvent N) (attempts : Nat)
  | givingUp (reason : DeadLetterReason) (attempts : Nat) (error : Failure)
  | producing (topic : Utf16) (copy : OutgoingMessage)
  | resolved (outcome : Outcome)
  | rejected (error : Failure)

structure Handling (N : Type) where
  stage : Stage N
  /-- `shutdown.signal.aborted`. -/
  aborted : Bool
  /-- What the subscribers made of each attempt. -/
  reports : List (List HandlerOutcome)
  /-- What the dead-letter topic has accepted. -/
  accepted : List OutgoingMessage

/-- What happens next: the shutdown, or one more stretch of the handling up to its next wait. -/
inductive HandlingAction where
  | abort
  | dispatch
  | attempt
  /-- `publishAndSettle` resolves; the draw is for the delay that may follow. -/
  | settle (outcomes : List HandlerOutcome) (random : ℚ)
  /-- `publishAndSettle` rejects. -/
  | throws (error : Failure) (random : ℚ)
  | wake
  | giveUp (failedAt : Date)
  | produce (fate : Fate Failure)

structure Consumer (N : Type) where
  language : Language N
  contract : PayloadContract N
  groupId : Utf16
  policy : BackoffPolicy
  /-- Absent when dead-lettering is disabled. -/
  deadLetterTopic : Option Utf16

def subscribersFailed {N : Type} (event : DecodedDomainEvent N) (failed : List HandlerOutcome) :
    Failure :=
  .other true (ofString "Error")
    (decimal failed.length ++ ofString " subscriber(s) failed for " ++ nameText event.name ++
      ofString " (" ++ event.eventId ++ ofString "): " ++
      List.intercalate (ofString "; ") (failed.map fun outcome =>
        outcome.handler ++ ofString ": " ++ outcome.error.getD (ofString "unknown error")))

/-- `error instanceof Error ? error : new Error(String(error))`. -/
def asError : Failure → Failure
  | .other false _ text => .other true (ofString "Error") text
  | error => error

def Handling.received {N : Type} (aborted : Bool) : Handling N := ⟨.received, aborted, [], []⟩

namespace Consumer

variable {N : Type} (consumer : Consumer N)

def afterFailure (aborted : Bool) (event : DecodedDomainEvent N) (attempts : Nat)
    (error : Failure) (random : ℚ) : Stage N :=
  match error with
  | .ladderAborted => .rejected .ladderAborted
  | error =>
    match Backoff.nextAttemptDelayMs attempts consumer.policy random with
    | none => .givingUp .handlerFailed attempts error
    | some _ => if aborted then .rejected .ladderAborted else .sleeping event attempts

def dispatch (message : IncomingMessage) : Stage N :=
  match decodeDomainEvent consumer.language message consumer.contract with
  | .ok event => .ready event 0
  | .error (.contractViolation topic partition offset subject writer reader violations) =>
    .givingUp .schemaInvalid 1
      (.contractViolation topic partition offset subject writer reader violations)
  | .error (.undecodable topic partition offset reason) =>
    .givingUp .undecodable 1 (.undecodable topic partition offset reason)
  | .error error => .rejected error

def giveUp (message : IncomingMessage) (reason : DeadLetterReason) (attempts : Nat)
    (error : Failure) (failedAt : Date) : Stage N :=
  match consumer.deadLetterTopic with
  | none => .rejected (asError error)
  | some topic =>
    .producing topic (toDeadLetterMessage consumer.language topic message
      ⟨consumer.groupId, reason, attempts, error, failedAt⟩)

def act (message : IncomingMessage) (s : Handling N) : HandlingAction → Option (Handling N)
  | .abort =>
    match s.stage with
    | .sleeping _ _ => some { s with stage := .rejected .ladderAborted, aborted := true }
    | _ => some { s with aborted := true }
  | .dispatch =>
    match s.stage with
    | .received => some { s with stage := consumer.dispatch message }
    | _ => none
  | .attempt =>
    match s.stage with
    | .ready event attempts =>
      if s.aborted then some { s with stage := .rejected .ladderAborted }
      else some { s with stage := .running event (attempts + 1) }
    | _ => none
  | .settle outcomes random =>
    match s.stage with
    | .running event attempts =>
      let failed := outcomes.filter fun outcome => outcome.status = .failed
      some { s with
        reports := s.reports ++ [outcomes]
        stage :=
          if failed.isEmpty then .resolved .handled
          else consumer.afterFailure s.aborted event attempts
            (subscribersFailed event failed) random }
    | _ => none
  | .throws error random =>
    match s.stage with
    | .running event attempts =>
      some { s with stage := consumer.afterFailure s.aborted event attempts error random }
    | _ => none
  | .wake =>
    match s.stage with
    | .sleeping event attempts => some { s with stage := .ready event attempts }
    | _ => none
  | .giveUp failedAt =>
    match s.stage with
    | .givingUp reason attempts error =>
      some { s with stage := consumer.giveUp message reason attempts error failedAt }
    | _ => none
  | .produce fate =>
    match s.stage, fate with
    | .producing _ copy, .answered =>
      some { s with accepted := s.accepted ++ [copy], stage := .resolved .deadLettered }
    | .producing topic copy, .lost error =>
      some { s with
        accepted := s.accepted ++ [copy]
        stage := .rejected (.deadLetterPublish topic error) }
    | .producing topic _, .dropped error =>
      some { s with stage := .rejected (.deadLetterPublish topic error) }
    | _, _ => none

def Decodes (message : IncomingMessage) : Prop :=
  ∃ event, decodeDomainEvent consumer.language message consumer.contract = .ok event

/-- The message decodes, and every subscriber succeeded in the last attempt. -/
def Succeeded (message : IncomingMessage) (reports : List (List HandlerOutcome)) : Prop :=
  consumer.Decodes message ∧
    ∃ outcomes ∈ reports.getLast?, ∀ outcome ∈ outcomes, outcome.status = .ok

/-- The key, the bytes and the producer's headers of a message, on the dead-letter topic. -/
def IsCopy (message : IncomingMessage) (copy : OutgoingMessage) : Prop :=
  consumer.deadLetterTopic = some copy.topic ∧ copy.key = message.key ∧
    copy.value = message.value ∧
    ∀ name, name ∉ DeadLetterHeader.all → copy.headers.get name = message.headers.get name

def Fits (message : IncomingMessage) (reports : List (List HandlerOutcome))
    (accepted : List OutgoingMessage) : Stage N → Prop
  | .received | .givingUp _ _ _ | .rejected .ladderAborted => accepted = []
  | .ready _ _ | .running _ _ | .sleeping _ _ => consumer.Decodes message ∧ accepted = []
  | .producing topic copy => accepted = [] ∧ copy.topic = topic ∧ consumer.IsCopy message copy
  | .resolved .handled => consumer.Succeeded message reports ∧ accepted = []
  | .resolved .deadLettered => ∃ copy, accepted = [copy] ∧ consumer.IsCopy message copy
  | .rejected _ => ∀ copy ∈ accepted, consumer.IsCopy message copy

/-- Where the ladder is to see a shutdown: before an attempt, the first one included, and in one
that is not the last. -/
def Interruptible (message : IncomingMessage) : Stage N → Prop
  | .received => consumer.Decodes message
  | .ready _ _ | .sleeping _ _ => True
  | .running _ attempts => attempts < consumer.policy.maxAttempts
  | _ => False

variable {consumer} {message : IncomingMessage} {reports : List (List HandlerOutcome)}

theorem isCopy_toDeadLetterMessage {topic : Utf16} (enabled : consumer.deadLetterTopic = some topic)
    (context : DeadLetterContext) :
    consumer.IsCopy message (toDeadLetterMessage consumer.language topic message context) :=
  ⟨enabled, rfl, rfl,
    fun _ own => get_toDeadLetterMessage consumer.language topic message context own⟩

theorem Fits.rejected (error : Failure) : consumer.Fits message reports [] (.rejected error) := by
  cases error with
  | ladderAborted => exact rfl
  | _ => exact nofun

theorem Fits.copies {accepted : List OutgoingMessage}
    {stage : Stage N} (fits : consumer.Fits message reports accepted stage) :
    ∀ copy ∈ accepted, consumer.IsCopy message copy := by
  have none : accepted = [] → ∀ copy ∈ accepted, consumer.IsCopy message copy := by
    rintro rfl
    exact nofun
  cases stage with
  | received | givingUp => exact none fits
  | ready | running | sleeping => exact none fits.2
  | producing => exact none fits.1
  | resolved outcome =>
    cases outcome with
    | handled => exact none fits.2
    | deadLettered =>
      obtain ⟨copy, rfl, isCopy⟩ := fits
      intro other member
      exact List.mem_singleton.mp member ▸ isCopy
  | rejected error =>
    cases error with
    | ladderAborted => exact none fits
    | _ => exact fits

theorem all_ok_of_none_failed {outcomes : List HandlerOutcome}
    (clean : (outcomes.filter fun outcome => outcome.status = .failed).isEmpty = true) :
    ∀ outcome ∈ outcomes, outcome.status = .ok := by
  intro outcome member
  have none := List.filter_eq_nil_iff.mp (List.isEmpty_iff.mp clean) outcome member
  cases status : outcome.status with
  | ok => rfl
  | failed => exact absurd (decide_eq_true status) none

theorem fits_dispatch (reports : List (List HandlerOutcome)) :
    consumer.Fits message reports [] (consumer.dispatch message) := by
  unfold dispatch
  split
  · rename_i event decoded
    exact ⟨⟨event, decoded⟩, rfl⟩
  · exact rfl
  · exact rfl
  · exact .rejected _

theorem fits_giveUp (reports : List (List HandlerOutcome)) (reason : DeadLetterReason)
    (attempts : Nat) (error : Failure) (failedAt : Date) : consumer.Fits message reports []
      (consumer.giveUp message reason attempts error failedAt) := by
  unfold giveUp
  split
  · exact .rejected _
  · rename_i topic enabled
    exact ⟨rfl, rfl, isCopy_toDeadLetterMessage enabled _⟩

theorem fits_afterFailure (reports : List (List HandlerOutcome))
    (decodes : consumer.Decodes message) (aborted : Bool) (event : DecodedDomainEvent N)
    (attempts : Nat) (error : Failure) (random : ℚ) : consumer.Fits message reports []
      (consumer.afterFailure aborted event attempts error random) := by
  unfold afterFailure
  split
  · exact rfl
  · split
    · exact rfl
    · cases aborted with
      | true => exact rfl
      | false => exact ⟨decodes, rfl⟩

variable {s t : Handling N} {action : HandlingAction} {actions : List HandlingAction}
  {error : Failure}

theorem Fits.act (fits : consumer.Fits message s.reports s.accepted s.stage)
    (taken : consumer.act message s action = some t) :
    consumer.Fits message t.reports t.accepted t.stage := by
  obtain ⟨stage, aborted, reports, accepted⟩ := s
  cases action with
  | abort =>
    cases stage with
    | sleeping event attempts =>
      cases taken
      exact fits.2
    | _ =>
      cases taken
      exact fits
  | dispatch =>
    cases stage with
    | received =>
      cases taken
      obtain rfl : accepted = [] := fits
      exact fits_dispatch reports
    | _ => cases taken
  | attempt =>
    cases stage with
    | ready event attempts =>
      obtain ⟨decodes, rfl⟩ := fits
      cases aborted with
      | true =>
        cases taken
        exact rfl
      | false =>
        cases taken
        exact ⟨decodes, rfl⟩
    | _ => cases taken
  | settle outcomes random =>
    cases stage with
    | running event attempts =>
      obtain ⟨decodes, rfl⟩ := fits
      cases taken
      dsimp only
      split
      · rename_i clean
        exact ⟨⟨decodes, outcomes, by simp, all_ok_of_none_failed clean⟩, rfl⟩
      · exact fits_afterFailure _ decodes _ _ _ _ _
    | _ => cases taken
  | throws error random =>
    cases stage with
    | running event attempts =>
      obtain ⟨decodes, rfl⟩ := fits
      cases taken
      exact fits_afterFailure _ decodes _ _ _ _ _
    | _ => cases taken
  | wake =>
    cases stage with
    | sleeping event attempts =>
      cases taken
      exact fits
    | _ => cases taken
  | giveUp failedAt =>
    cases stage with
    | givingUp reason attempts error =>
      cases taken
      obtain rfl : accepted = [] := fits
      exact fits_giveUp _ _ _ _ _
    | _ => cases taken
  | produce fate =>
    cases stage with
    | producing topic copy =>
      obtain ⟨rfl, -, isCopy⟩ := fits
      cases fate with
      | answered =>
        cases taken
        exact ⟨copy, rfl, isCopy⟩
      | lost error =>
        cases taken
        intro other member
        obtain rfl := List.mem_singleton.mp member
        exact isCopy
      | dropped error =>
        cases taken
        exact .rejected _
    | _ => cases taken

theorem rejected_kept (run : Steps (Executes (consumer.act message)) s actions t)
    (rejected : s.stage = .rejected error) : t.stage = .rejected error := by
  apply run.invariant (fun s => s.stage = .rejected error) _ rejected
  intro s action t rejected taken
  rw [Executes] at taken
  cases action <;> simp only [act, rejected] at taken
  case abort =>
    cases taken
    rfl
  all_goals cases taken

/-- What a shutdown leaves of a ladder; `flight` says whether an attempt was in flight. -/
def Halting (consumer : Consumer N) (message : IncomingMessage) (flight : Prop) : Stage N → Prop
  | .received => consumer.Decodes message
  | .ready _ _ | .rejected .ladderAborted => True
  | .running _ attempts => flight ∧ attempts < consumer.policy.maxAttempts
  | .resolved .handled => flight
  | _ => False

theorem halting_afterFailure {attempts : Nat} (flight : Prop)
    (more : attempts < consumer.policy.maxAttempts) (event : DecodedDomainEvent N)
    (error : Failure) (random : ℚ) :
    consumer.Halting message flight (consumer.afterFailure true event attempts error random) := by
  unfold afterFailure
  split
  · trivial
  · have left : Backoff.nextAttemptDelayMs attempts consumer.policy random ≠ none := by
      rw [Backoff.nextAttemptDelayMs, if_neg (by omega)]
      exact nofun
    split
    · rename_i spent
      exact absurd spent left
    · trivial

/-- A ladder that was stopped comes to no other attempt and to no copy. -/
theorem halting_act {flight : Prop}
    (halting : s.aborted = true ∧ s.accepted = [] ∧ consumer.Halting message flight s.stage)
    (taken : consumer.act message s action = some t) :
    t.aborted = true ∧ t.accepted = [] ∧ consumer.Halting message flight t.stage := by
  obtain ⟨stage, aborted, reports, accepted⟩ := s
  obtain ⟨rfl, rfl, halting⟩ :
      aborted = true ∧ accepted = [] ∧ consumer.Halting message flight stage := halting
  cases action with
  | abort =>
    cases stage with
    | sleeping => cases halting
    | _ =>
      cases taken
      exact ⟨rfl, rfl, halting⟩
  | attempt =>
    cases stage with
    | ready =>
      cases taken
      exact ⟨rfl, rfl, trivial⟩
    | _ => cases taken
  | settle outcomes random =>
    cases stage with
    | running event attempts =>
      cases taken
      refine ⟨rfl, rfl, ?_⟩
      dsimp only
      split
      · exact halting.1
      · exact halting_afterFailure flight halting.2 event _ random
    | _ => cases taken
  | throws error random =>
    cases stage with
    | running event attempts =>
      cases taken
      exact ⟨rfl, rfl, halting_afterFailure flight halting.2 event error random⟩
    | _ => cases taken
  | dispatch =>
    cases stage with
    | received =>
      cases taken
      obtain ⟨event, decoded⟩ := halting
      refine ⟨rfl, rfl, ?_⟩
      simp only [dispatch, decoded]
      trivial
    | _ => cases taken
  | wake =>
    cases stage with
    | sleeping => cases halting
    | _ => cases taken
  | giveUp failedAt =>
    cases stage with
    | givingUp => cases halting
    | _ => cases taken
  | produce fate =>
    cases stage with
    | producing => cases halting
    | _ => cases taken

def Ended (consumer : Consumer N) (message : IncomingMessage) (s : Handling N) : Prop :=
  ∀ action, action ≠ .abort → consumer.act message s action = none

/-- A stopped message has no copy; its handling can go on until it is rejected for the shutdown, and
resolves only by the success of the attempt in flight. -/
structure Stops (consumer : Consumer N) (message : IncomingMessage) (flight : Prop)
    (t : Handling N) : Prop where
  uncopied : t.accepted = []
  flown : ∀ outcome, t.stage = .resolved outcome → flight ∧ outcome = .handled
  ends : consumer.Ended message t →
    t.stage = .rejected .ladderAborted ∨ t.stage = .resolved .handled

theorem stops_of_halting {flight : Prop}
    (run : Steps (Executes (consumer.act message)) s actions t)
    (start : s.aborted = true ∧ s.accepted = [] ∧ consumer.Halting message flight s.stage) :
    consumer.Stops message flight t := by
  obtain ⟨-, uncopied, halting⟩ :=
    run.invariant _ (fun _ _ _ halting step => halting_act halting step) start
  refine ⟨uncopied, ?_, ?_⟩
  · intro outcome resolved
    rw [resolved] at halting
    cases outcome with
    | handled => exact ⟨halting, rfl⟩
    | deadLettered => cases halting
  · intro ended
    obtain ⟨stage, aborted, reports, accepted⟩ := t
    cases stage with
    | received => cases ended .dispatch (by simp)
    | ready =>
      have stuck := ended .attempt (by simp)
      cases aborted <;> cases stuck
    | running => cases ended (.settle [] 0) (by simp)
    | rejected error =>
      cases error with
      | ladderAborted => exact .inl rfl
      | _ => cases halting
    | resolved outcome =>
      cases outcome with
      | handled => exact .inr rfl
      | deadLettered => cases halting
    | _ => cases halting

/-- A shutdown that the ladder is to see stops the handling. -/
theorem interrupted {rest : List HandlingAction}
    (fits : consumer.Fits message s.reports s.accepted s.stage)
    (interruptible : consumer.Interruptible message s.stage)
    (run : Steps (Executes (consumer.act message)) s (.abort :: rest) t) :
    consumer.Stops message (∃ event attempts, s.stage = .running event attempts) t := by
  cases run with
  | cons taken tail =>
    apply stops_of_halting tail
    obtain ⟨stage, aborted, reports, accepted⟩ := s
    cases stage with
    | received =>
      cases taken
      exact ⟨rfl, fits, interruptible⟩
    | ready | sleeping =>
      cases taken
      exact ⟨rfl, fits.2, trivial⟩
    | running event attempts =>
      cases taken
      exact ⟨rfl, fits.2, ⟨event, attempts, rfl⟩, interruptible⟩
    | _ => cases interruptible

theorem rejected_of_produce {fate : Fate Failure}
    (failed : fate = .lost error ∨ fate = .dropped error)
    (taken : consumer.act message s (.produce fate) = some t) :
    ∃ topic, t.stage = .rejected (.deadLetterPublish topic error) := by
  obtain ⟨stage, aborted, reports, accepted⟩ := s
  cases stage with
  | producing topic =>
    rcases failed with rfl | rfl <;>
    · cases taken
      exact ⟨topic, rfl⟩
  | _ => cases taken

theorem rejected_of_giveUp {failedAt : Date} (disabled : consumer.deadLetterTopic = none)
    (taken : consumer.act message s (.giveUp failedAt) = some t) :
    ∃ error, t.stage = .rejected error := by
  obtain ⟨stage, aborted, reports, accepted⟩ := s
  cases stage with
  | givingUp reason attempts error =>
    cases taken
    exact ⟨asError error, by simp only [giveUp, disabled]⟩
  | _ => cases taken

theorem rejected_of_mem (holds : Failure → Prop)
    (run : Steps (Executes (consumer.act message)) s actions t) (member : action ∈ actions)
    (leads : ∀ u v, consumer.act message u action = some v →
      ∃ error, holds error ∧ v.stage = .rejected error) :
    ∃ error, holds error ∧ t.stage = .rejected error := by
  obtain ⟨first, rest, rfl⟩ := List.append_of_mem member
  obtain ⟨u, -, later⟩ := run.split
  cases later with
  | cons taken tail =>
    obtain ⟨error, holds, rejected⟩ := leads _ _ taken
    exact ⟨error, holds, rejected_kept tail rejected⟩

end Consumer

/-- Handling resolves only when the subscribers have all succeeded or one copy is on the dead-letter
topic. A shutdown that the ladder is to see, a copy that could not be produced, and giving up with
no dead-letter topic reject, and an aborted ladder leaves no copy. -/
theorem handling_never_drops {N : Type} (consumer : Consumer N) (message : IncomingMessage)
    (aborted : Bool) (actions : List HandlingAction) (s : Handling N)
    (run : Steps (Executes (consumer.act message)) (.received aborted) actions s) :
    (∀ outcome, s.stage = .resolved outcome →
      consumer.Succeeded message s.reports ∨
        ∃ copy, s.accepted = [copy] ∧ consumer.IsCopy message copy) ∧
    (s.stage = .rejected .ladderAborted → s.accepted = []) ∧
    (consumer.Interruptible message s.stage → ∀ rest t,
      Steps (Executes (consumer.act message)) s (.abort :: rest) t →
        consumer.Stops message (∃ event attempts, s.stage = .running event attempts) t) ∧
    (aborted = true → consumer.Decodes message → consumer.Stops message False s) ∧
    (∀ error, .produce (.lost error) ∈ actions ∨ .produce (.dropped error) ∈ actions →
      ∃ topic, s.stage = .rejected (.deadLetterPublish topic error)) ∧
    (consumer.deadLetterTopic = none →
      s.accepted = [] ∧ ∀ failedAt, .giveUp failedAt ∈ actions →
        ∃ error, s.stage = .rejected error) := by
  have fits : consumer.Fits message s.reports s.accepted s.stage := by
    apply run.invariant (fun (s : Handling N) => consumer.Fits message s.reports s.accepted s.stage)
    · intro s action t fits taken
      exact fits.act taken
    · exact rfl
  refine ⟨?_, ?_, ?_, ?_, ?_, ?_⟩
  · intro outcome resolved
    rw [resolved] at fits
    cases outcome with
    | handled => exact .inl fits.1
    | deadLettered => exact .inr fits
  · intro rejected
    rw [rejected] at fits
    exact fits
  · intro interruptible rest t onward
    exact Consumer.interrupted fits interruptible onward
  · intro signalled decodes
    exact Consumer.stops_of_halting run ⟨signalled, rfl, decodes⟩
  · intro error failed
    have leads : ∀ fate, fate = .lost error ∨ fate = .dropped error →
        HandlingAction.produce fate ∈ actions →
          ∃ topic, s.stage = .rejected (.deadLetterPublish topic error) := by
      intro fate reported member
      obtain ⟨_, ⟨topic, rfl⟩, rejected⟩ := Consumer.rejected_of_mem
        (fun thrown => ∃ topic, thrown = .deadLetterPublish topic error) run member
        fun u v taken => by
          obtain ⟨topic, rejected⟩ := Consumer.rejected_of_produce reported taken
          exact ⟨_, ⟨topic, rfl⟩, rejected⟩
      exact ⟨topic, rejected⟩
    rcases failed with lost | dropped
    · exact leads _ (.inl rfl) lost
    · exact leads _ (.inr rfl) dropped
  · intro disabled
    constructor
    · apply List.eq_nil_iff_forall_not_mem.mpr
      intro copy member
      have enabled := (fits.copies copy member).1
      rw [disabled] at enabled
      cases enabled
    · intro failedAt member
      obtain ⟨error, -, rejected⟩ := Consumer.rejected_of_mem (fun _ => True) run member
        fun u v taken => by
          obtain ⟨error, rejected⟩ := Consumer.rejected_of_giveUp disabled taken
          exact ⟨error, trivial, rejected⟩
      exact ⟨error, rejected⟩

def plainConsumer : Consumer Unit where
  language := plainLanguage
  contract := acceptAll
  groupId := ofString "spec-group"
  policy := ⟨250, 5000, 4⟩
  deadLetterTopic := some (ofString "domain-events.dlt")

def foreignMessage : IncomingMessage where
  topic := ofString "domain-events"
  partition := 0
  offset := ofString "7"
  key := none
  value := ⟨#[123, 125]⟩
  headers := OrderedMap.empty
  timestamp := 0

def accountMessage : IncomingMessage where
  topic := ofString "domain-events"
  partition := 0
  offset := ofString "8"
  key := partitionKeyFor deletedAccount
  value := payloadBytes plainLanguage deletedAccount
  headers := (OrderedMap.empty.setAll (eventHeaders plainLanguage deletedAccount
    firstVersion)).set EventHeader.correlationId []
  timestamp := 0

def auditFailed : HandlerOutcome :=
  ⟨ofString "AuditListener", .failed, some (ofString "disk full")⟩

theorem accountMessage_decodes : decodeDomainEvent plainLanguage accountMessage acceptAll =
    .ok ⟨deletedAccount, some 1⟩ := by
  have stamped : Stamped plainLanguage deletedAccount firstVersion
      accountMessage.headers := stamped_own deletedAccount _
  exact decodeDomainEvent_ok rfl deletedAccount_exact (by decide) (by decide) stamped rfl

theorem accountMessage_run (policy : BackoffPolicy) (aborted : Bool)
    {actions : List HandlingAction} {s : Handling Unit}
    (run : execute (({ plainConsumer with policy } : Consumer Unit).act accountMessage)
      ⟨.ready ⟨deletedAccount, some 1⟩ 0, aborted, [], []⟩ actions = some s) :
    Steps (Executes (({ plainConsumer with policy } : Consumer Unit).act accountMessage))
      (.received aborted) (.dispatch :: actions) s := by
  have decoded : ({ plainConsumer with policy } : Consumer Unit).dispatch accountMessage =
      .ready ⟨deletedAccount, some 1⟩ 0 := by
    simp only [Consumer.dispatch, plainConsumer, accountMessage_decodes]
  refine .cons ?_ (steps_iff_execute.mpr run)
  simp only [Executes, Consumer.act, Handling.received, decoded]

/-- A shutdown before the message, or in an attempt that fails and is not the last, rejects it. -/
theorem handling_never_drops_at_shutdown :
    (∃ s, Steps (Executes (plainConsumer.act accountMessage)) (.received true)
        [.dispatch, .attempt] s ∧
      s.stage = .rejected .ladderAborted ∧ plainConsumer.Stops accountMessage False s) ∧
    (∃ s t, Steps (Executes (plainConsumer.act accountMessage)) (.received false)
        [.dispatch, .attempt] s ∧
      Steps (Executes (plainConsumer.act accountMessage)) s [.abort, .settle [auditFailed] 0] t ∧
      t.stage = .rejected .ladderAborted ∧ plainConsumer.Stops accountMessage
        (∃ event attempts, s.stage = .running event attempts) t) := by
  constructor
  · have run : Steps (Executes (plainConsumer.act accountMessage)) (.received true)
        [.dispatch, .attempt] _ := accountMessage_run plainConsumer.policy true rfl
    have decodes : plainConsumer.Decodes accountMessage := ⟨_, accountMessage_decodes⟩
    exact ⟨_, run, rfl, (handling_never_drops _ _ _ _ _ run).2.2.2.1 rfl decodes⟩
  · have run : Steps (Executes (plainConsumer.act accountMessage)) (.received false)
        [.dispatch, .attempt] ⟨.running ⟨deletedAccount, some 1⟩ 1, false, [], []⟩ :=
      accountMessage_run plainConsumer.policy false rfl
    have onward : Steps (Executes (plainConsumer.act accountMessage))
        ⟨.running ⟨deletedAccount, some 1⟩ 1, false, [], []⟩
        [.abort, .settle [auditFailed] 0] _ := steps_iff_execute.mpr rfl
    exact ⟨_, _, run, onward, rfl,
      (handling_never_drops _ _ _ _ _ run).2.2.1 (show 1 < 4 by decide) _ _ onward⟩

/-- A shutdown keeps neither a message that does not decode from the dead-letter topic, nor one
whose last attempt fails. -/
theorem shutdown_dead_letters :
    (∃ s, Steps (Executes (plainConsumer.act foreignMessage)) (.received true)
        [.dispatch, .giveUp 0, .produce .answered] s ∧
      s.stage = .resolved .deadLettered ∧ s.accepted ≠ []) ∧
    (∃ s, Steps (Executes (({ plainConsumer with policy := ⟨250, 5000, 1⟩ } : Consumer Unit).act
          accountMessage)) (.received false)
        [.dispatch, .attempt, .abort, .settle [auditFailed] 0, .giveUp 0, .produce .answered] s ∧
      s.stage = .resolved .deadLettered ∧ s.accepted ≠ []) := by
  constructor
  · exact ⟨_, steps_iff_execute.mpr rfl, rfl, List.cons_ne_nil _ _⟩
  · exact ⟨_, accountMessage_run _ false rfl, rfl, List.cons_ne_nil _ _⟩

end NestApi.Codec
