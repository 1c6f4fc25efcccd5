import NestApi.SagaInstance
import NestApi.Table
import Mathlib.Data.List.Sort

namespace NestApi.Saga

/-- What a runner needs to take, hold and extend a lease. -/
structure SagaClaim where
  owner : String
  now : Date
  leaseMs : Nat
  deriving DecidableEq

def SagaClaim.expiry (claim : SagaClaim) : Date := claim.now + claim.leaseMs

namespace SagaInstanceRecord

/-- The row `create` writes, by the schema's defaults. -/
def created (input : NewSagaInstance) (now : Date) : SagaInstanceRecord where
  id := input.id
  name := input.name
  status := .running
  cursor := 0
  attempts := 0
  nextAttemptAt := now
  state := input.state
  log := []
  lastError := none
  correlationId := input.correlationId
  lockedBy := none
  lockedUntil := none
  createdAt := now
  updatedAt := now

/-- The condition both claims share: in flight, due, and not under a live lease. -/
def claimable (now : Date) (row : SagaInstanceRecord) : Bool :=
  (row.status = .running ∨ row.status = .compensating) ∧ row.nextAttemptAt ≤ now ∧
    ∀ lockedUntil ∈ row.lockedUntil, lockedUntil ≤ now

def leased (claim : SagaClaim) (row : SagaInstanceRecord) : SagaInstanceRecord :=
  { row with
    lockedBy := some claim.owner
    lockedUntil := some claim.expiry
    updatedAt := claim.now }

/-- The assignment of `save`: the log is appended to, everything else is overwritten, and
the lease is dropped or extended. -/
def saved (claim : SagaClaim) (progress : SagaProgress) (row : SagaInstanceRecord) :
    SagaInstanceRecord :=
  { row with
    status := progress.status
    cursor := progress.cursor
    attempts := progress.attempts
    nextAttemptAt := progress.nextAttemptAt
    state := progress.state
    log := row.log ++ [progress.entry]
    lastError := progress.lastError
    lockedBy := if progress.release then none else some claim.owner
    lockedUntil := if progress.release then none else some claim.expiry
    updatedAt := claim.now }

/-- The assignment of `abandon`. -/
def abandoned (reason : Utf16) (row : SagaInstanceRecord) : SagaInstanceRecord :=
  { row with status := .stuck, lastError := some reason, lockedBy := none, lockedUntil := none }

theorem leased_id (claim : SagaClaim) (row : SagaInstanceRecord) :
    (row.leased claim).id = row.id := rfl

theorem saved_id (claim : SagaClaim) (progress : SagaProgress) (row : SagaInstanceRecord) :
    (row.saved claim progress).id = row.id := rfl

theorem abandoned_id (reason : Utf16) (row : SagaInstanceRecord) :
    (row.abandoned reason).id = row.id := rfl

theorem claimable_iff (now : Date) (row : SagaInstanceRecord) :
    row.claimable now = true ↔ (row.status = .running ∨ row.status = .compensating) ∧
      row.nextAttemptAt ≤ now ∧ ∀ lockedUntil, row.lockedUntil = some lockedUntil →
        lockedUntil ≤ now := by
  simp [claimable]

@[simp] theorem saved_lockedBy_of_release (claim : SagaClaim) (progress : SagaProgress)
    (row : SagaInstanceRecord) (release : progress.release = true) :
    (row.saved claim progress).lockedBy = none := by
  simp [saved, release]

end SagaInstanceRecord

open SagaInstanceRecord

/-- The `saga_instances` table. -/
abbrev SagaStore := Table SagaInstanceRecord.id

namespace SagaStore

def create (store : SagaStore) (input : NewSagaInstance) (now : Date) : Option SagaStore :=
  store.insert (created input now)

def claims (id : String) (now : Date) (row : SagaInstanceRecord) : Bool :=
  row.id = id ∧ row.claimable now

def claim (store : SagaStore) (id : String) (claim : SagaClaim) :
    Option SagaInstanceRecord × SagaStore :=
  ((store.returning (claims id claim.now) (leased claim)).head?,
    store.update (claims id claim.now) (leased claim) (leased_id claim))

/-- `ORDER BY "nextAttemptAt" ASC, "id" ASC`. -/
def dueBefore (first second : SagaInstanceRecord) : Prop :=
  first.nextAttemptAt < second.nextAttemptAt ∨
    first.nextAttemptAt = second.nextAttemptAt ∧ first.id ≤ second.id

instance : DecidableRel dueBefore := fun first second => by
  unfold dueBefore
  infer_instance

/-- The sub-select of `claimDue`. -/
def dueIds (store : SagaStore) (now : Date) (limit : Nat) : List String :=
  (((store.rows.filter (claimable now)).insertionSort dueBefore).take limit).map
    SagaInstanceRecord.id

/-- The recovery poller's claim. The order of the rows it returns is not promised. -/
def claimDue (store : SagaStore) (claim : SagaClaim) (limit : Nat) :
    List SagaInstanceRecord × SagaStore :=
  let due := store.dueIds claim.now limit
  (store.returning (fun row => row.id ∈ due) (leased claim),
    store.update (fun row => row.id ∈ due) (leased claim) (leased_id claim))

/-- The row `save` may write: the one whose lease the caller holds, expired or not. -/
def saves (id owner : String) (row : SagaInstanceRecord) : Bool :=
  row.id = id ∧ row.lockedBy = some owner

def save (store : SagaStore) (id : String) (claim : SagaClaim) (progress : SagaProgress) :
    Option SagaInstanceRecord × SagaStore :=
  ((store.returning (saves id claim.owner) (saved claim progress)).head?,
    store.update (saves id claim.owner) (saved claim progress) (saved_id claim progress))

/-- Unconditional on the lease. -/
def abandon (store : SagaStore) (id : String) (reason : Utf16) : SagaStore :=
  store.update (fun row => row.id = id) (abandoned reason) (abandoned_id reason)

end SagaStore

end NestApi.Saga
