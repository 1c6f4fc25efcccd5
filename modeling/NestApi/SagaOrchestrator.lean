import NestApi.SagaDefinition
import NestApi.SagaStore

namespace NestApi.Saga

structure SagaConfig where
  leaseMs : Nat
  stepTimeoutMs : Nat
  policy : BackoffPolicy

/-- The boot check of `env.schema.ts`. -/
def SagaConfig.Booted (config : SagaConfig) : Prop := config.stepTimeoutMs * 2 < config.leaseMs

instance (config : SagaConfig) : Decidable config.Booted :=
  inferInstanceAs (Decidable (config.stepTimeoutMs * 2 < config.leaseMs))

/-- An error as the orchestrator looks at one: its text, and whether it is an
`UnretryableStepError`. -/
structure StepError where
  message : Utf16
  unretryable : Bool
  deriving DecidableEq

def sagaStepTimeoutError (step : String) (timeoutMs : Nat) : StepError :=
  ⟨Utf16.ofString ("Step \"" ++ step ++ "\" did not settle within " ++ toString timeoutMs ++ "ms."),
    false⟩

/-- How the work of a step ends, as far as the orchestrator waits for it. -/
inductive Settlement where
  | returned (patch : Option SagaStatePatch)
  | threw (error : StepError)
  | timedOut

/-- Bounds one step: the race between the work and the timer. -/
def call (config : SagaConfig) (step : String) :
    Settlement → Except StepError (Option SagaStatePatch)
  | .returned patch => .ok patch
  | .threw error => .error error
  | .timedOut => .error (sagaStepTimeoutError step config.stepTimeoutMs)

structure SagaFailure where
  step : String
  message : Utf16
  deriving DecidableEq

structure SagaStepContext where
  sagaId : String
  state : SagaState
  idempotencyKey : String
  correlationId : Option String
  failure : Option SagaFailure

structure SagaResumeError where
  sagaId : String
  problem : String
  deriving DecidableEq

def SagaResumeError.message (error : SagaResumeError) : Utf16 :=
  Utf16.ofString ("Saga " ++ error.sagaId ++ " cannot be resumed: " ++ error.problem ++ ".")

/-- The log and `lastError` are diagnostics, not logs. -/
def truncate (message : Utf16) : Utf16 :=
  if message.length ≤ 500 then message else message.take 499 ++ [0x2026]

def entry (step : String) (direction : SagaDirection) (outcome : SagaStepOutcome) (attempt : Nat)
    (loggedAt : Date) (error : Option StepError) : SagaStepLogEntry where
  step := step
  direction := direction
  outcome := outcome
  loggedAt := loggedAt
  attempt := attempt
  error := error.map fun error => truncate error.message

/-- Folds a step's patch into the state, dropping what is `undefined`. -/
def mergeState (state : SagaState) : Option SagaStatePatch → SagaState
  | none => state
  | some patch => patch.foldl (fun merged field =>
    match field.2 with
    | none => merged
    | some value => SagaState.set field.1 value merged) state

/-- When the step may next be tried, or `none` to stop trying. -/
def retryAt (config : SagaConfig) (now : Date) (attempt : Nat) (error : StepError) (random : ℚ) :
    Option Date :=
  if error.unretryable then none else Backoff.nextAttemptAt now attempt config.policy random

def idempotencyKey (record : SagaInstanceRecord) (step : SagaStep) : String :=
  record.id ++ ":" ++ step.name

def context (record : SagaInstanceRecord) (step : SagaStep) (failure : Option SagaFailure) :
    SagaStepContext where
  sagaId := record.id
  state := record.state
  idempotencyKey := idempotencyKey record step
  correlationId := record.correlationId
  failure := failure

def isForwardCompleted (item : SagaStepLogEntry) : Bool :=
  item.direction = .forward ∧ item.outcome = .completed

def isForwardFailed (item : SagaStepLogEntry) : Bool :=
  item.direction = .forward ∧ item.outcome = .failed

def forwardCompleted (log : List SagaStepLogEntry) : List String :=
  (log.filter isForwardCompleted).map SagaStepLogEntry.step

def assertPositions (definition : SagaDefinition) (sagaId : String) :
    Nat → List String → Except SagaResumeError Unit
  | _, [] => .ok ()
  | index, step :: rest =>
    let expected := definition.steps[index]?.map SagaStep.name
    if expected = some step then assertPositions definition sagaId (index + 1) rest
    else
      .error ⟨sagaId, "it completed \"" ++ step ++ "\" at position " ++ toString index ++
        ", where \"" ++ definition.name ++ "\" now has " ++
        (match expected with
          | some name => "\"" ++ name ++ "\""
          | none => "nothing")⟩

/-- Refuses to resume an instance whose definition has moved underneath it. -/
def assertResumable (definition : SagaDefinition) (record : SagaInstanceRecord) :
    Except SagaResumeError Unit :=
  assertPositions definition record.id 0 (forwardCompleted record.log)

/-- `definition.steps[cursor]`, `undefined` outside the list. -/
def SagaDefinition.stepAt (definition : SagaDefinition) : Int → Option SagaStep
  | .ofNat index => definition.steps[index]?
  | .negSucc _ => none

/-- The failure a compensation is cleaning up after, recovered from the log. -/
def failureFrom (definition : SagaDefinition) (record : SagaInstanceRecord) : SagaFailure :=
  match record.log.reverse.find? isForwardFailed with
  | some item =>
    ⟨item.step, (item.error.or record.lastError).getD (Utf16.ofString "unknown failure")⟩
  | none =>
    ⟨((definition.stepAt record.cursor).map SagaStep.name).getD "unknown",
      record.lastError.getD (Utf16.ofString "unknown failure")⟩

inductive Decision where
  | execute (step : SagaStep)
  | compensate (step : SagaStep)
  | skip (step : SagaStep)
  deriving DecidableEq

/-- The deciding half of `step`; the compensation of a step that has none is a skip. -/
def step (definition : SagaDefinition) (record : SagaInstanceRecord) :
    Except SagaResumeError Decision := do
  assertResumable definition record
  match definition.stepAt record.cursor with
  | none =>
    .error ⟨record.id, "cursor " ++ toString record.cursor ++ " is outside the " ++
      toString definition.steps.length ++ " steps of \"" ++ definition.name ++ "\""⟩
  | some step =>
    if record.status = .compensating then
      if step.kind = .compensatable then .ok (.compensate step) else .ok (.skip step)
    else .ok (.execute step)

/-- What `executeStep` reports once the call has settled. -/
def executeStep (config : SagaConfig) (definition : SagaDefinition) (record : SagaInstanceRecord)
    (step : SagaStep) (now : Date) (random : ℚ)
    (outcome : Except StepError (Option SagaStatePatch)) : SagaProgress :=
  let attempt := record.attempts + 1
  match outcome with
  | .ok patch =>
    let cursor := record.cursor + 1
    let done : Bool := (definition.steps.length : Int) ≤ cursor
    { status := if done then .completed else .running
      cursor := cursor
      attempts := 0
      nextAttemptAt := now
      state := mergeState record.state patch
      entry := entry step.name .forward .completed attempt now none
      lastError := record.lastError
      release := done }
  | .error error =>
    match retryAt config now attempt error random with
    | some retryAt =>
      { status := .running
        cursor := record.cursor
        attempts := attempt
        nextAttemptAt := retryAt
        state := record.state
        entry := entry step.name .forward .failed attempt now (some error)
        lastError := some (truncate error.message)
        release := true }
    | none =>
      if step.kind = .retriable then
        { status := .stuck
          cursor := record.cursor
          attempts := attempt
          nextAttemptAt := now
          state := record.state
          entry := entry step.name .forward .failed attempt now (some error)
          lastError := some (truncate error.message)
          release := true }
      else
        -- The failed step compensates too, so the cursor stays.
        { status := .compensating
          cursor := record.cursor
          attempts := 0
          nextAttemptAt := now
          state := record.state
          entry := entry step.name .forward .failed attempt now (some error)
          lastError := some (truncate error.message)
          release := false }

def undoneStep (record : SagaInstanceRecord) (step : SagaStep) (now : Date)
    (outcome : SagaStepOutcome) : SagaProgress :=
  let cursor := record.cursor - 1
  let done : Bool := cursor < 0
  { status := if done then .compensated else .compensating
    cursor := cursor
    attempts := 0
    nextAttemptAt := now
    state := record.state
    entry := entry step.name .backward outcome (record.attempts + 1) now none
    lastError := record.lastError
    release := done }

/-- What `compensateStep` reports for a step without a compensation. -/
def skipStep (record : SagaInstanceRecord) (step : SagaStep) (now : Date) : SagaProgress :=
  undoneStep record step now .skipped

/-- What `compensateStep` reports once the call has settled. -/
def compensateStep (config : SagaConfig) (record : SagaInstanceRecord) (step : SagaStep)
    (now : Date) (random : ℚ) (outcome : Except StepError (Option SagaStatePatch)) :
    SagaProgress :=
  let attempt := record.attempts + 1
  match outcome with
  | .ok _ => undoneStep record step now .completed
  | .error error =>
    match retryAt config now attempt error random with
    | some retryAt =>
      { status := .compensating
        cursor := record.cursor
        attempts := attempt
        nextAttemptAt := retryAt
        state := record.state
        entry := entry step.name .backward .failed attempt now (some error)
        lastError := record.lastError
        release := true }
    | none =>
      { status := .stuck
        cursor := record.cursor
        attempts := attempt
        nextAttemptAt := now
        state := record.state
        entry := entry step.name .backward .failed attempt now (some error)
        -- The compensation failure replaces the original reason.
        lastError := some (truncate error.message)
        release := true }

/-- Every saga a build knows how to run, by name. -/
abbrev SagaRegistry := OrderedMap String SagaDefinition

def SagaRegistry.find (registry : SagaRegistry) (name : String) : Option SagaDefinition :=
  registry.get name

def maxIterations (definition : SagaDefinition) : Nat := definition.steps.length * 2 + 2

def unregistered (record : SagaInstanceRecord) : Utf16 :=
  Utf16.ofString ("no definition named \"" ++ record.name ++ "\" is registered")

theorem assertPositions_eq_ok_iff (definition : SagaDefinition) (sagaId : String) (start : Nat)
    (completed : List String) :
    assertPositions definition sagaId start completed = .ok () ↔
      ∀ index name, completed[index]? = some name →
        definition.names[start + index]? = some name := by
  induction completed generalizing start with
  | nil => simp [assertPositions]
  | cons name rest ih =>
    simp only [assertPositions, ← SagaDefinition.getElem?_names]
    split
    · rename_i expected
      rw [ih]
      constructor
      · intro tail index other found
        cases index with
        | zero =>
          cases found
          exact expected
        | succ index =>
          have here := tail index other found
          rwa [show start + 1 + index = start + (index + 1) by omega] at here
      · intro all index other found
        have here := all (index + 1) other found
        rwa [show start + (index + 1) = start + 1 + index by omega] at here
    · rename_i unexpected
      simp only [reduceCtorEq, false_iff, not_forall]
      exact ⟨0, name, rfl, unexpected⟩

/-- A row is resumable exactly when what it completed is the start of the definition. -/
theorem assertResumable_eq_ok_iff (definition : SagaDefinition) (record : SagaInstanceRecord) :
    assertResumable definition record = .ok () ↔
      forwardCompleted record.log <+: definition.names := by
  rw [assertResumable, assertPositions_eq_ok_iff, List.prefix_iff_getElem?]
  constructor
  · intro all index inside
    have here := all index _ (List.getElem?_eq_getElem inside)
    rwa [Nat.zero_add] at here
  · intro all index name found
    obtain ⟨inside, rfl⟩ := List.getElem?_eq_some_iff.mp found
    rw [Nat.zero_add]
    exact all index inside

theorem retryAt_unretryable (config : SagaConfig) (now : Date) (attempt : Nat) (message : Utf16)
    (random : ℚ) : retryAt config now attempt ⟨message, true⟩ random = none := rfl

section

variable {config : SagaConfig} {now due : Date} {attempt : Nat} {error : StepError} {random : ℚ}
  (scheduled : retryAt config now attempt error random = some due)

include scheduled

theorem nextAttemptAt_of_retryAt :
    Backoff.nextAttemptAt now attempt config.policy random = some due := by
  unfold retryAt at scheduled
  split at scheduled
  · cases scheduled
  · exact scheduled

theorem attempt_lt_of_retryAt : attempt < config.policy.maxAttempts :=
  Backoff.attempts_lt_of_nextAttemptAt (nextAttemptAt_of_retryAt scheduled)

end

theorem retryAt_eq_none_iff {config : SagaConfig} {now : Date} {attempt : Nat} {error : StepError}
    {random : ℚ} : retryAt config now attempt error random = none ↔
      error.unretryable = true ∨ config.policy.maxAttempts ≤ attempt := by
  unfold retryAt
  by_cases permanent : error.unretryable = true
  · simp [permanent]
  · simp [permanent, Backoff.nextAttemptAt_eq_none_iff]

/-- The decision depends on what the row completed, where its cursor points and which way
it is going, and on nothing else. -/
theorem step_eq_ok_iff (definition : SagaDefinition) (record : SagaInstanceRecord)
    (decision : Decision) :
    step definition record = .ok decision ↔
      forwardCompleted record.log <+: definition.names ∧
        ∃ next, definition.stepAt record.cursor = some next ∧
          decision = (if record.status = .compensating then
            if next.kind = .compensatable then .compensate next else .skip next
          else .execute next) := by
  rw [← assertResumable_eq_ok_iff]
  unfold step
  cases resumable : assertResumable definition record with
  | error => simp [bind, Except.bind]
  | ok =>
    cases found : definition.stepAt record.cursor with
    | none => simp [bind, Except.bind]
    | some next =>
      by_cases backward : record.status = .compensating <;>
        by_cases undoable : next.kind = .compensatable <;>
        simp [bind, Except.bind, backward, undoable, @eq_comm _ decision]

end NestApi.Saga
