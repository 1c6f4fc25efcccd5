import NestApi.Common
import NestApi.DomainEvents
import NestApi.Table
import Mathlib.Data.List.Sort

namespace NestApi.Outbox

open Events

inductive OutboxStatus where
  | pending
  | published
  | dead
  deriving DecidableEq

structure TraceCarrier where
  traceparent : Option String
  tracestate : Option String

structure NewOutboxEvent where
  eventId : String
  name : String
  payload : JsonValue
  correlationId : Option String
  occurredAt : Date
  trace : TraceCarrier

structure OutboxRow where
  id : String
  eventId : String
  name : String
  payload : JsonValue
  correlationId : Option String
  trace : TraceCarrier
  occurredAt : Date
  status : OutboxStatus
  publishedAt : Option Date
  attempts : Nat
  nextAttemptAt : Date
  lastError : Option Utf16

/-- The `outbox_events` table. -/
abbrev OutboxTable := Table OutboxRow.id

/-- The row `stage` inserts, with the defaults of the columns it leaves out. -/
def OutboxRow.staged (id : String) (event : NewOutboxEvent) (createdAt : Date) : OutboxRow where
  id
  eventId := event.eventId
  name := event.name
  payload := event.payload
  correlationId := event.correlationId
  trace := event.trace
  occurredAt := event.occurredAt
  status := .pending
  publishedAt := none
  attempts := 0
  nextAttemptAt := createdAt
  lastError := none

/-- Whether a row names an event of the catalogue, which is what `toRecord` asks. -/
def OutboxRow.known (row : OutboxRow) : Bool := (domainEventNamed row.name).isSome

def unknownOutboxEvent (row : OutboxRow) : Utf16 :=
  Utf16.ofString ("Outbox event " ++ row.eventId ++ " names \"" ++ row.name ++
    "\", which is not in DomainEventPayloads. It was staged by a build that knew this event " ++
    "and cannot be published by this one.")

def publishTimeout (row : OutboxRow) (timeoutMs : Nat) : Utf16 :=
  Utf16.ofString ("Publishing outbox event " ++ row.eventId ++ " exceeded " ++
    toString timeoutMs ++ "ms")

def truncate (message : Utf16) : Utf16 :=
  if message.length ≤ 500 then message else message.take 499 ++ Utf16.ofString "…"

/-- The updates `deliverOne` makes to a claimed row. -/
inductive OutboxWrite where
  | published (publishedAt : Date) (attempts : Nat)
  | retry (attempts : Nat) (nextAttemptAt : Date) (lastError : Utf16)
  | dead (attempts : Nat) (lastError : Utf16)

def OutboxWrite.apply (row : OutboxRow) : OutboxWrite → OutboxRow
  | .published publishedAt attempts =>
    { row with status := .published, publishedAt := some publishedAt, attempts }
  | .retry attempts nextAttemptAt lastError =>
    { row with attempts, nextAttemptAt, lastError := some lastError }
  | .dead attempts lastError => { row with status := .dead, attempts, lastError := some lastError }

def OutboxWrite.isFailure : OutboxWrite → Bool
  | .published .. => false
  | .retry .. | .dead .. => true

@[simp] theorem OutboxWrite.apply_id (row : OutboxRow) (write : OutboxWrite) :
    (write.apply row).id = row.id := by
  cases write <;> rfl

/-- How a `deliver` call ended for the pass that made it. -/
inductive Delivery where
  | accepted
  | refused (message : Utf16)
  | timedOut

/-- What a relay is configured with. The environment schema takes positive numbers only. -/
structure RelayConfig where
  batchSize : Nat
  publishTimeoutMs : Nat
  policy : BackoffPolicy
  batchPositive : 1 ≤ batchSize
  timeoutPositive : 1 ≤ publishTimeoutMs
  attemptsPositive : 1 ≤ policy.maxAttempts

variable (config : RelayConfig)

def Delivery.error (row : OutboxRow) : Delivery → Option Utf16
  | .accepted => none
  | .refused message => some message
  | .timedOut => some (publishTimeout row config.publishTimeoutMs)

/-- The update a delivery ends with. -/
def decideRow (now : Date) (random : ℚ) (row : OutboxRow) (delivery : Delivery) : OutboxWrite :=
  match delivery.error config row with
  | none => .published now (row.attempts + 1)
  | some message =>
    match Backoff.nextAttemptAt now (row.attempts + 1) config.policy random with
    | none => .dead (row.attempts + 1) (truncate message)
    | some nextAttemptAt => .retry (row.attempts + 1) nextAttemptAt (truncate message)

/-- The update for a row `toRecord` cannot read. -/
def undeliverable (row : OutboxRow) : OutboxWrite :=
  .dead (row.attempts + 1) (truncate (unknownOutboxEvent row))

/-- `ORDER BY "occurredAt" ASC, "id" ASC`. -/
def Before (first second : OutboxRow) : Prop :=
  first.occurredAt < second.occurredAt ∨ first.occurredAt = second.occurredAt ∧ first.id ≤ second.id

instance : DecidableRel Before := fun first second =>
  inferInstanceAs (Decidable (first.occurredAt < second.occurredAt ∨
    first.occurredAt = second.occurredAt ∧ first.id ≤ second.id))

/-- `status = PENDING AND nextAttemptAt <= now`, for a row no other transaction has locked. -/
def claimable (now : Date) (locked : String → Bool) (row : OutboxRow) : Bool :=
  row.status = .pending && row.nextAttemptAt ≤ now && !locked row.id

/-- `SELECT … ORDER BY … LIMIT … FOR UPDATE SKIP LOCKED`. -/
def claim (table : OutboxTable) (now : Date) (locked : String → Bool) : List OutboxRow :=
  ((table.rows.filter (claimable now locked)).insertionSort Before).take config.batchSize

theorem Before.total (first second : OutboxRow) : Before first second ∨ Before second first := by
  rcases lt_trichotomy first.occurredAt second.occurredAt with earlier | same | later
  · exact .inl (.inl earlier)
  · rcases String.le_total first.id second.id with least | most
    · exact .inl (.inr ⟨same, least⟩)
    · exact .inr (.inr ⟨same.symm, most⟩)
  · exact .inr (.inl later)

theorem Before.trans {first second third : OutboxRow} (left : Before first second)
    (right : Before second third) : Before first third := by
  rcases left with earlier | ⟨same, least⟩ <;> rcases right with later | ⟨same', least'⟩
  · exact .inl (earlier.trans later)
  · exact .inl (same' ▸ earlier)
  · exact .inl (same ▸ later)
  · exact .inr ⟨same.trans same', String.le_trans least least'⟩

instance : Std.Total Before := ⟨Before.total⟩

instance : IsTrans OutboxRow Before := ⟨fun _ _ _ => Before.trans⟩

section Claim

variable {config} {table : OutboxTable} {now : Date} {locked : String → Bool}

theorem mem_claim {row : OutboxRow} (claimed : row ∈ claim config table now locked) :
    row ∈ table.rows ∧ row.status = .pending ∧ locked row.id = false := by
  have sorted := List.mem_of_mem_take claimed
  rw [List.mem_insertionSort, List.mem_filter] at sorted
  simp only [claimable, Bool.and_eq_true, decide_eq_true_eq, Bool.not_eq_true'] at sorted
  exact ⟨sorted.1, sorted.2.1.1, sorted.2.2⟩

theorem claim_length : (claim config table now locked).length ≤ config.batchSize :=
  List.length_take_le _ _

theorem claim_distinct : ((claim config table now locked).map OutboxRow.id).Nodup := by
  have picked : ((table.rows.filter (claimable now locked)).map OutboxRow.id).Nodup :=
    table.primary.sublist (List.filter_sublist.map _)
  have sorted := ((List.perm_insertionSort Before
    (table.rows.filter (claimable now locked))).map OutboxRow.id).nodup_iff.mpr picked
  exact sorted.sublist ((List.take_sublist _ _).map _)

theorem claim_ordered : (claim config table now locked).Pairwise fun first second =>
    Before first second ∧ first.id ≠ second.id := by
  have ordered : (claim config table now locked).Pairwise Before :=
    (List.pairwise_insertionSort Before _).sublist (List.take_sublist _ _)
  exact ordered.and (List.pairwise_map.mp claim_distinct)

end Claim

end NestApi.Outbox
