import NestApi.Utf16

namespace NestApi.Idempotency

structure RecordedResponse where
  status : ℚ
  contentType : Option Utf16
  body : Option Utf16
  deriving DecidableEq

inductive RecordState where
  | inFlight
  | completed (response : RecordedResponse)
  deriving DecidableEq

structure IdempotencyRecord (L : Type) where
  fingerprint : Utf16
  lease : L
  state : RecordState
  deriving DecidableEq

namespace Store

section

variable {L : Type}

def reserve (cell : Option (IdempotencyRecord L)) (record : IdempotencyRecord L) :
    Option (IdempotencyRecord L) × Option (IdempotencyRecord L) :=
  match cell with
  | some existing => (some existing, cell)
  | none => (none, some record)

def Holds (cell : Option (IdempotencyRecord L)) (lease : L) : Prop :=
  ∃ record, cell = some record ∧ record.lease = lease

variable {cell : Option (IdempotencyRecord L)} {lease other : L}

theorem Holds.unique (first : Holds cell lease) (second : Holds cell other) : lease = other := by
  obtain ⟨record, here, held⟩ := first
  obtain ⟨record', here', held'⟩ := second
  have same : record = record' := Option.some.inj (here.symm.trans here')
  rw [← held, ← held', same]

theorem Holds.reserve (holds : Holds cell lease) (record : IdempotencyRecord L) :
    Holds (reserve cell record).2 lease := by
  obtain ⟨existing, rfl, held⟩ := holds
  exact ⟨existing, rfl, held⟩

theorem holds_of_reserved {record : IdempotencyRecord L}
    (granted : (reserve cell record).1 = none) : Holds (reserve cell record).2 record.lease := by
  cases cell with
  | some => cases granted
  | none => exact ⟨record, rfl, rfl⟩

end

section

variable {L : Type} [DecidableEq L]

def complete (cell : Option (IdempotencyRecord L)) (lease : L) (response : RecordedResponse) :
    Bool × Option (IdempotencyRecord L) :=
  match cell with
  | some existing =>
    if existing.lease = lease then
      (true, some ⟨existing.fingerprint, lease, .completed response⟩)
    else (false, cell)
  | none => (false, cell)

def release (cell : Option (IdempotencyRecord L)) (lease : L) :
    Bool × Option (IdempotencyRecord L) :=
  match cell with
  | some existing => if existing.lease = lease then (true, none) else (false, cell)
  | none => (false, cell)

variable {cell : Option (IdempotencyRecord L)} {lease : L}

theorem Holds.complete (holds : Holds cell lease) (other : L) (response : RecordedResponse) :
    Holds (complete cell other response).2 lease := by
  obtain ⟨existing, rfl, held⟩ := holds
  by_cases own : existing.lease = other
  · rw [Store.complete, if_pos own]
    exact ⟨_, rfl, own.symm.trans held⟩
  · rw [Store.complete, if_neg own]
    exact ⟨existing, rfl, held⟩

theorem Holds.release (holds : Holds cell lease) {other : L} (different : lease ≠ other) :
    Holds (release cell other).2 lease := by
  obtain ⟨existing, rfl, held⟩ := holds
  have kept : existing.lease ≠ other := by
    rw [held]
    exact different
  rw [Store.release, if_neg kept]
  exact ⟨existing, rfl, held⟩

end

end Store

end NestApi.Idempotency
