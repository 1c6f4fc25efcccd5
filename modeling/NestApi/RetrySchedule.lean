import NestApi.OutboxStore
import NestApi.SagaOrchestrator

namespace NestApi

namespace Backoff

/-- The draw of the jitter source below the ceiling of an attempt, before it is rounded down. -/
def drawn (policy : BackoffPolicy) (attempts : Nat) (random : ℚ) : ℚ :=
  random * min (policy.maxMs : ℚ) (policy.baseMs * 2 ^ min ((attempts : Int) - 1) 30)

variable {policy : BackoffPolicy} {attempts : Nat} {random : ℚ}

theorem nextAttemptAt_eq_add {now due : Date}
    (scheduled : nextAttemptAt now attempts policy random = some due) :
    due = now + ⌊drawn policy attempts random⌋ := by
  unfold nextAttemptAt nextAttemptDelayMs at scheduled
  split at scheduled
  · cases scheduled
  · exact (Option.some.inj scheduled).symm

theorem capped_nonneg (exponent : Int) :
    0 ≤ min (policy.maxMs : ℚ) (policy.baseMs * 2 ^ exponent) := by
  positivity

theorem drawn_le (below : random < 1) : drawn policy (attempts + 1) random ≤
    min (policy.maxMs : ℚ) (policy.baseMs * 2 ^ attempts) := by
  have exponent : min (((attempts + 1 : Nat) : Int) - 1) 30 ≤ (attempts : Int) := by omega
  have power : (2 : ℚ) ^ min (((attempts + 1 : Nat) : Int) - 1) 30 ≤ 2 ^ attempts := by
    rw [← zpow_natCast]
    exact zpow_le_zpow_right₀ (by norm_num) exponent
  apply (mul_le_of_le_one_left (capped_nonneg _) below.le).trans
  gcongr

/-- A delay counted from `now` is one counted from a later moment if it is longer than the time
between, and not otherwise. -/
theorem counted_later_iff {now endedAt : Int} {delay : ℚ} (began : now ≤ endedAt)
    (positive : 0 ≤ delay) :
    (endedAt ≤ now + ⌊delay⌋ ∧ (now + ⌊delay⌋ ≤ endedAt → delay < 1)) ↔
      endedAt = now ∨ ((endedAt - now + 1 : Int) : ℚ) ≤ delay := by
  have whole : 0 ≤ ⌊delay⌋ := Int.floor_nonneg.mpr positive
  have least : ⌊delay⌋ < 1 ↔ delay < 1 := by rw [Int.floor_lt, Int.cast_one]
  rw [← Int.le_floor, ← least]
  omega

end Backoff

/-- A failure after which another attempt may be scheduled: of a step of a saga, or of a delivery
from the outbox. -/
inductive FailedAttempt where
  | execution (config : Saga.SagaConfig) (definition : Saga.SagaDefinition)
      (record : Saga.SagaInstanceRecord) (step : Saga.SagaStep) (error : Saga.StepError)
  | compensation (config : Saga.SagaConfig) (record : Saga.SagaInstanceRecord)
      (step : Saga.SagaStep) (error : Saga.StepError)
  | delivery (config : Outbox.RelayConfig) (row : Outbox.OutboxRow) (outcome : Outbox.Delivery)

namespace FailedAttempt

def policy : FailedAttempt → BackoffPolicy
  | execution config .. => config.policy
  | compensation config .. => config.policy
  | delivery config .. => config.policy

def earlier : FailedAttempt → Nat
  | execution _ _ record .. => record.attempts
  | compensation _ record .. => record.attempts
  | delivery _ row _ => row.attempts

/-- The `nextAttemptAt` a step stores if it is to be attempted again. -/
def retryOf (retrying : Saga.SagaStatus) (progress : Saga.SagaProgress) : Option Date :=
  if progress.status = retrying then some progress.nextAttemptAt else none

/-- The `nextAttemptAt` that is stored. `now` is what the clock said before the step was called or
the batch was claimed. -/
def nextAttemptAt (now : Date) (random : ℚ) : FailedAttempt → Option Date
  | execution config definition record step error =>
    retryOf .running (Saga.executeStep config definition record step now random (.error error))
  | compensation config record step error =>
    retryOf .compensating (Saga.compensateStep config record step now random (.error error))
  | delivery config row outcome =>
    match Outbox.decideRow config now random row outcome with
    | .retry _ nextAttemptAt _ => some nextAttemptAt
    | .published .. | .dead .. => none

variable (failed : FailedAttempt)

/-- `min(maxMs, baseMs * 2^(attempts-1))`. -/
def ceiling : ℚ := min (failed.policy.maxMs : ℚ) (failed.policy.baseMs * 2 ^ failed.earlier)

/-- The delay is counted from the end of the attempt. -/
structure DelayedFrom (endedAt : Date) (random : ℚ) (due : Date) : Prop where
  later : endedAt ≤ due
  bounded : (due : ℚ) ≤ endedAt + failed.ceiling
  waits : due ≤ endedAt → Backoff.drawn failed.policy (failed.earlier + 1) random < 1

variable {failed} {now endedAt due : Date} {random : ℚ}

/-- All three places schedule by the same ladder, from the same early reading of the clock. -/
theorem due_eq (scheduled : failed.nextAttemptAt now random = some due) :
    due = now + ⌊Backoff.drawn failed.policy (failed.earlier + 1) random⌋ := by
  apply Backoff.nextAttemptAt_eq_add
  cases failed with
  | execution config definition record step error =>
    cases retry : Saga.retryAt config now (record.attempts + 1) error random with
    | none =>
      simp only [nextAttemptAt, Saga.executeStep, retry] at scheduled
      by_cases retriable : step.kind = .retriable <;> simp [retriable, retryOf] at scheduled
    | some later =>
      simp only [nextAttemptAt, Saga.executeStep, retry] at scheduled
      cases scheduled
      exact Saga.nextAttemptAt_of_retryAt retry
  | compensation config record step error =>
    cases retry : Saga.retryAt config now (record.attempts + 1) error random with
    | none =>
      simp only [nextAttemptAt, Saga.compensateStep, retry] at scheduled
      cases scheduled
    | some later =>
      simp only [nextAttemptAt, Saga.compensateStep, retry] at scheduled
      cases scheduled
      exact Saga.nextAttemptAt_of_retryAt retry
  | delivery config row outcome =>
    cases error : outcome.error config row with
    | none =>
      simp only [nextAttemptAt, Outbox.decideRow, error] at scheduled
      cases scheduled
    | some message =>
      cases retry : Backoff.nextAttemptAt now (row.attempts + 1) config.policy random with
      | none =>
        simp only [nextAttemptAt, Outbox.decideRow, error, retry] at scheduled
        cases scheduled
      | some later =>
        simp only [nextAttemptAt, Outbox.decideRow, error, retry] at scheduled
        cases scheduled
        exact retry

/-- The delay is counted from the failure only of an attempt that takes no time, or less than is
drawn for it. -/
theorem delayed_from_failure_iff (began : now ≤ endedAt) (least : 0 ≤ random) (below : random < 1)
    (scheduled : failed.nextAttemptAt now random = some due) :
    failed.DelayedFrom endedAt random due ↔ endedAt = now ∨
      ((endedAt - now + 1 : Int) : ℚ) ≤
        Backoff.drawn failed.policy (failed.earlier + 1) random := by
  have stored := due_eq scheduled
  have bounded : Backoff.drawn failed.policy (failed.earlier + 1) random ≤ failed.ceiling :=
    Backoff.drawn_le below
  have positive : 0 ≤ Backoff.drawn failed.policy (failed.earlier + 1) random :=
    mul_nonneg least (Backoff.capped_nonneg _)
  rw [← Backoff.counted_later_iff began positive, ← stored]
  constructor
  · intro delayed
    exact ⟨delayed.later, delayed.waits⟩
  · rintro ⟨later, waits⟩
    refine ⟨later, ?_, waits⟩
    have rounded := Int.floor_le (Backoff.drawn failed.policy (failed.earlier + 1) random)
    have began' : (now : ℚ) ≤ endedAt := Int.cast_le.mpr began
    rw [stored, Int.cast_add]
    exact add_le_add began' (rounded.trans bounded)

def firstFailure : FailedAttempt :=
  .execution ⟨30000, 10000, ⟨500, 60000, 6⟩⟩ ⟨"shipping", []⟩
    { id := "saga", name := "shipping", status := .running, cursor := 0, attempts := 0,
      nextAttemptAt := 0, state := [], log := [], lastError := none, correlationId := none,
      lockedBy := none, lockedUntil := none, createdAt := 0, updatedAt := 0 }
    ⟨"pack", .retriable⟩ (Saga.sagaStepTimeoutError "pack" 10000)

theorem firstFailure_drawn :
    Backoff.drawn firstFailure.policy (firstFailure.earlier + 1) (1 / 2) = 250 := by
  norm_num [Backoff.drawn, firstFailure, policy, earlier]

theorem firstFailure_due : firstFailure.nextAttemptAt 0 (1 / 2) = some 250 := by
  decide +kernel

/-- A step that fails after a tenth of a second has the rest of its delay still to wait. -/
theorem delayed_from_quick_failure : firstFailure.DelayedFrom 100 (1 / 2) 250 := by
  refine (delayed_from_failure_iff (show (0 : Date) ≤ 100 by decide) (by norm_num) (by norm_num)
    firstFailure_due).mpr (.inr ?_)
  rw [firstFailure_drawn]
  norm_num

/-- A step that times out after ten seconds has been due again for most of them. -/
theorem due_before_it_failed : firstFailure.nextAttemptAt 0 (1 / 2) = some 250 ∧
    ¬ firstFailure.DelayedFrom 10000 (1 / 2) 250 := by
  refine ⟨firstFailure_due, ?_⟩
  rintro ⟨later, -, -⟩
  exact absurd later (by decide)

end FailedAttempt

end NestApi
