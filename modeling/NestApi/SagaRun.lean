import NestApi.SagaOrchestrator
import NestApi.Transition

namespace NestApi.Saga

/-- The services behind the steps. `W` is their state, and `O` what the environment chooses about
one call. -/
structure Participants (W O : Type) where
  execute : SagaStep → SagaStepContext → O → W → Settlement × W
  compensate : SagaStep → SagaStepContext → O → W → Settlement × W

/-- Steps that may return or throw anything at any call. -/
def Participants.free : Participants Unit Settlement where
  execute := fun _ _ settlement world => (settlement, world)
  compensate := fun _ _ settlement world => (settlement, world)

/-- One call of a step's `execute` or `compensate`. -/
structure Call where
  direction : SagaDirection
  index : Int
  step : String
  key : String
  deriving DecidableEq

def callOf (record : SagaInstanceRecord) : Decision → Option Call
  | .execute step => some ⟨.forward, record.cursor, step.name, idempotencyKey record step⟩
  | .compensate step => some ⟨.backward, record.cursor, step.name, idempotencyKey record step⟩
  | .skip _ => none

/-- What one pass of the loop in `drive` has to save, and what the participants are left
with. -/
structure Performed (W : Type) where
  world : W
  progress : SagaProgress

/-- A saga row under runners that hold its lease. `calls` are the calls made so far, also of runners
that died before saving. -/
structure RunState (W : Type) where
  record : SagaInstanceRecord
  world : W
  calls : List Call

inductive RunAction (O : Type) where
  | claim (owner : String) (now : Date)
  | turn (owner : String) (startedAt savedAt : Date) (random : ℚ) (choice : O)
  | crash (owner : String) (startedAt : Date) (random : ℚ) (choice : O)

section Machine

variable {W O : Type} (config : SagaConfig) (definition : SagaDefinition)
  (participants : Participants W O)

def perform (record : SagaInstanceRecord) (world : W) (startedAt : Date) (random : ℚ)
    (choice : O) : Decision → Performed W
  | .execute step =>
    let answer := participants.execute step (context record step none) choice world
    { world := answer.2
      progress := executeStep config definition record step startedAt random
        (call config step.name answer.1) }
  | .compensate step =>
    let answer := participants.compensate step
      (context record step (some (failureFrom definition record))) choice world
    { world := answer.2
      progress := compensateStep config record step startedAt random
        (call config step.name answer.1) }
  | .skip step =>
    { world, progress := skipStep record step startedAt }

/-- Whether `drive` takes a turn on this row under this owner. -/
def driven (owner : String) (record : SagaInstanceRecord) : Bool :=
  record.lockedBy = some owner ∧ isTerminal record.status = false

/-- One atomic step of a saga run: a claim, one pass of `drive` with its save, or a pass whose
runner dies before it saves. -/
def RunState.act (s : RunState W) : RunAction O → Option (RunState W)
  | .claim owner now =>
    if s.record.claimable now then
      some { s with record := s.record.leased ⟨owner, now, config.leaseMs⟩ }
    else none
  | .turn owner startedAt savedAt random choice =>
    if driven owner s.record then
      match step definition s.record with
      | .error problem => some { s with record := s.record.abandoned (truncate problem.message) }
      | .ok decision =>
        let done := perform config definition participants s.record s.world startedAt random
          choice decision
        some
          { record := s.record.saved ⟨owner, savedAt, config.leaseMs⟩ done.progress
            world := done.world
            calls := s.calls ++ (callOf s.record decision).toList }
    else none
  | .crash owner startedAt random choice =>
    if driven owner s.record then
      match step definition s.record with
      | .error _ => some s
      | .ok decision =>
        let done := perform config definition participants s.record s.world startedAt random
          choice decision
        some { s with world := done.world, calls := s.calls ++ (callOf s.record decision).toList }
    else none

def Runs (s : RunState W) (actions : List (RunAction O)) (t : RunState W) : Prop :=
  Steps (Executes (RunState.act config definition participants)) s actions t

end Machine

/-- A saga as `start` leaves it. -/
def RunState.started {W : Type} (input : NewSagaInstance) (now : Date) (world : W) :
    RunState W where
  record := SagaInstanceRecord.created input now
  world := world
  calls := []

section Decided

variable {definition : SagaDefinition} {record : SagaInstanceRecord} {decision : Decision}

/-- What a row in flight leads to: the step at its cursor is executed, undone or skipped. -/
inductive Decided (definition : SagaDefinition) (record : SagaInstanceRecord) :
    Decision → Prop where
  | execute {next} (found : definition.stepAt record.cursor = some next)
      (running : record.status = .running) : Decided definition record (.execute next)
  | compensate {next} (found : definition.stepAt record.cursor = some next)
      (back : record.status = .compensating) (kind : next.kind = .compensatable) :
      Decided definition record (.compensate next)
  | skip {next} (found : definition.stepAt record.cursor = some next)
      (back : record.status = .compensating) (kind : next.kind ≠ .compensatable) :
      Decided definition record (.skip next)

theorem decided_of_step (inFlight : isTerminal record.status = false)
    (decided : step definition record = .ok decision) : Decided definition record decision := by
  obtain ⟨_, next, found, chosen⟩ := (step_eq_ok_iff _ _ _).mp decided
  subst chosen
  split
  · rename_i back
    split
    · rename_i kind
      exact .compensate found back kind
    · rename_i kind
      exact .skip found back kind
  · refine .execute found ?_
    cases status : record.status <;> simp_all [isTerminal]

theorem Decided.inFlight (decided : Decided definition record decision) :
    isTerminal record.status = false := by
  cases decided with
  | execute _ status | compensate _ status | skip _ status =>
    rw [status]
    rfl

end Decided

section Acted

variable {W O : Type} (config : SagaConfig) (definition : SagaDefinition)
  (participants : Participants W O) (s : RunState W)

/-- Everything an action can do to a row, guards included. -/
inductive Acted : RunAction O → RunState W → Prop where
  | claimed {owner now} (free : s.record.claimable now = true) :
      Acted (.claim owner now) { s with record := s.record.leased ⟨owner, now, config.leaseMs⟩ }
  | refused {owner startedAt savedAt random choice problem}
      (inFlight : isTerminal s.record.status = false)
      (refused : step definition s.record = .error problem) :
      Acted (.turn owner startedAt savedAt random choice)
        { s with record := s.record.abandoned (truncate problem.message) }
  | saved {owner startedAt savedAt random choice decision done}
      (decided : Decided definition s.record decision)
      (performed : done = perform config definition participants s.record s.world startedAt random
        choice decision) :
      Acted (.turn owner startedAt savedAt random choice)
        { record := s.record.saved ⟨owner, savedAt, config.leaseMs⟩ done.progress
          world := done.world
          calls := s.calls ++ (callOf s.record decision).toList }
  | stopped {owner startedAt random choice} (inFlight : isTerminal s.record.status = false) :
      Acted (.crash owner startedAt random choice) s
  | crashed {owner startedAt random choice decision done}
      (decided : Decided definition s.record decision)
      (performed : done = perform config definition participants s.record s.world startedAt random
        choice decision) :
      Acted (.crash owner startedAt random choice) { s with
        world := done.world
        calls := s.calls ++ (callOf s.record decision).toList }

end Acted

theorem driven_iff (owner : String) (record : SagaInstanceRecord) : driven owner record = true ↔
      record.lockedBy = some owner ∧ isTerminal record.status = false := by
  simp [driven]

section Turn

variable {W O : Type} {config : SagaConfig} {definition : SagaDefinition}
  {participants : Participants W O} {s t : RunState W} {action : RunAction O}

theorem acted (taken : s.act config definition participants action = some t) :
    Acted config definition participants s action t := by
  cases action with
  | claim =>
    obtain ⟨free, rfl⟩ := of_ite_some taken
    exact .claimed free
  | turn =>
    obtain ⟨held, taken⟩ := Option.ite_none_right_eq_some.mp taken
    have inFlight := ((driven_iff _ _).mp held).2
    split at taken
    · rename_i problem refused
      cases taken
      exact .refused inFlight refused
    · rename_i decision decided
      cases taken
      exact .saved (decided_of_step inFlight decided) rfl
  | crash =>
    obtain ⟨held, taken⟩ := Option.ite_none_right_eq_some.mp taken
    have inFlight := ((driven_iff _ _).mp held).2
    split at taken
    · cases taken
      exact .stopped inFlight
    · rename_i decision decided
      cases taken
      exact .crashed (decided_of_step inFlight decided) rfl

theorem act_turn {s : RunState W} {owner : String} {decision : Decision}
    (held : driven owner s.record = true) (decided : step definition s.record = .ok decision)
    (startedAt savedAt : Date) (random : ℚ) (choice : O) :
    s.act config definition participants (.turn owner startedAt savedAt random choice) =
      some { record := s.record.saved ⟨owner, savedAt, config.leaseMs⟩
               (perform config definition participants s.record s.world startedAt random choice
                 decision).progress
             world := (perform config definition participants s.record s.world startedAt random
               choice decision).world
             calls := s.calls ++ (callOf s.record decision).toList } := by
  simp [RunState.act, held, decided]

theorem act_claim (s : RunState W) (inFlight : isTerminal s.record.status = false)
    (owner : String) : ∃ now, s.act config definition participants (.claim owner now) =
      some { s with record := s.record.leased ⟨owner, now, config.leaseMs⟩ } := by
  refine ⟨max s.record.nextAttemptAt (s.record.lockedUntil.getD 0), ?_⟩
  have free : s.record.claimable (max s.record.nextAttemptAt (s.record.lockedUntil.getD 0)) := by
    refine (SagaInstanceRecord.claimable_iff _ _).mpr ⟨?_, le_max_left _ _, ?_⟩
    · cases status : s.record.status <;> simp_all [isTerminal]
    · intro lockedUntil held
      rw [held, Option.getD_some]
      exact le_max_right _ _
  simp [RunState.act, free]

/-- What an action adds to the calls, and which row it decided that on. -/
theorem act_appends (taken : s.act config definition participants action = some t) :
    t.record.id = s.record.id ∧ (t.calls = s.calls ∨
      ∃ decision, Decided definition s.record decision ∧
        t.calls = s.calls ++ (callOf s.record decision).toList) := by
  cases acted taken with
  | claimed | refused | stopped => exact ⟨rfl, Or.inl rfl⟩
  | saved decided | crashed decided => exact ⟨rfl, Or.inr ⟨_, decided, rfl⟩⟩

theorem run_id {actions : List (RunAction O)}
    (run : Runs config definition participants s actions t) : t.record.id = s.record.id := by
  refine Steps.invariant (fun u => u.record.id = s.record.id) ?_ run rfl
  intro u action v same taken
  exact (act_appends taken).1.trans same

end Turn

def RunAction.choice {O : Type} : RunAction O → Option O
  | .claim .. => none
  | .turn _ _ _ _ choice => some choice
  | .crash _ _ _ choice => some choice

def Logs (item : SagaStepLogEntry) (name : String) (direction : SagaDirection)
    (outcome : SagaStepOutcome) : Prop :=
  item.step = name ∧ item.direction = direction ∧ item.outcome = outcome

/-- The seven progress records, by what they write. `limit` is the policy's
`maxAttempts`. -/
inductive Move (definition : SagaDefinition) (limit : Nat) (record : SagaInstanceRecord) :
    Decision → SagaProgress → Prop where
  | advanced {step progress} (logged : Logs progress.entry step.name .forward .completed)
      (status : progress.status =
        if (definition.size : Int) ≤ record.cursor + 1 then .completed else .running)
      (cursor : progress.cursor = record.cursor + 1) (attempts : progress.attempts = 0)
      (release : progress.release = decide ((definition.size : Int) ≤ record.cursor + 1)) :
      Move definition limit record (.execute step) progress
  | retried {step progress} (logged : Logs progress.entry step.name .forward .failed)
      (status : progress.status = .running) (cursor : progress.cursor = record.cursor)
      (attempts : progress.attempts = record.attempts + 1) (left : record.attempts + 1 < limit) :
      Move definition limit record (.execute step) progress
  | halted {step progress} (kind : step.kind = .retriable)
      (logged : Logs progress.entry step.name .forward .failed)
      (status : progress.status = .stuck) (cursor : progress.cursor = record.cursor)
      (release : progress.release = true) : Move definition limit record (.execute step) progress
  | turned {step progress} (kind : step.kind ≠ .retriable)
      (logged : Logs progress.entry step.name .forward .failed)
      (status : progress.status = .compensating) (cursor : progress.cursor = record.cursor)
      (attempts : progress.attempts = 0) :
      Move definition limit record (.execute step) progress
  | undone {step progress decision outcome}
      (decided : decision = .compensate step ∧ outcome = .completed ∨
        decision = .skip step ∧ outcome = .skipped)
      (logged : Logs progress.entry step.name .backward outcome)
      (status : progress.status = if record.cursor - 1 < 0 then .compensated else .compensating)
      (cursor : progress.cursor = record.cursor - 1) (attempts : progress.attempts = 0)
      (release : progress.release = decide (record.cursor - 1 < 0)) :
      Move definition limit record decision progress
  | undoRetried {step progress} (logged : Logs progress.entry step.name .backward .failed)
      (status : progress.status = .compensating) (cursor : progress.cursor = record.cursor)
      (attempts : progress.attempts = record.attempts + 1) (left : record.attempts + 1 < limit) :
      Move definition limit record (.compensate step) progress
  | undoHalted {step progress} (logged : Logs progress.entry step.name .backward .failed)
      (status : progress.status = .stuck) (cursor : progress.cursor = record.cursor)
      (release : progress.release = true) : Move definition limit record (.compensate step) progress

theorem executeStep_move (config : SagaConfig) (definition : SagaDefinition)
    (record : SagaInstanceRecord) (step : SagaStep) (now : Date) (random : ℚ)
    (outcome : Except StepError (Option SagaStatePatch)) :
    Move definition config.policy.maxAttempts record (.execute step)
      (executeStep config definition record step now random outcome) := by
  cases outcome with
  | ok =>
    refine Move.advanced (by simp [executeStep, entry, Logs]) ?_ rfl rfl rfl
    by_cases last : (definition.steps.length : Int) ≤ record.cursor + 1
    · simp [executeStep, SagaDefinition.size, last]
    · simp [executeStep, SagaDefinition.size, last]
  | error error =>
    cases scheduled : retryAt config now (record.attempts + 1) error random with
    | some =>
      refine Move.retried ?_ ?_ ?_ ?_ (attempt_lt_of_retryAt scheduled) <;>
        simp [executeStep, scheduled, entry, Logs]
    | none =>
      by_cases kind : step.kind = .retriable
      · apply Move.halted kind <;> simp [executeStep, scheduled, kind, entry, Logs]
      · apply Move.turned kind <;> simp [executeStep, scheduled, kind, entry, Logs]

theorem undoneStep_move (definition : SagaDefinition) (limit : Nat) (record : SagaInstanceRecord)
    (step : SagaStep) (now : Date) {decision : Decision} {outcome : SagaStepOutcome}
    (decided : decision = .compensate step ∧ outcome = .completed ∨
      decision = .skip step ∧ outcome = .skipped) :
    Move definition limit record decision (undoneStep record step now outcome) := by
  refine Move.undone decided (by simp [undoneStep, entry, Logs]) ?_ rfl rfl rfl
  by_cases last : record.cursor - 1 < 0
  · simp [undoneStep, last]
  · simp [undoneStep, last]

theorem compensateStep_move (config : SagaConfig) (definition : SagaDefinition)
    (record : SagaInstanceRecord) (step : SagaStep) (now : Date) (random : ℚ)
    (outcome : Except StepError (Option SagaStatePatch)) :
    Move definition config.policy.maxAttempts record (.compensate step)
      (compensateStep config record step now random outcome) := by
  cases outcome with
  | ok => exact undoneStep_move _ _ _ _ _ (Or.inl ⟨rfl, rfl⟩)
  | error error =>
    cases scheduled : retryAt config now (record.attempts + 1) error random with
    | some =>
      refine Move.undoRetried ?_ ?_ ?_ ?_ (attempt_lt_of_retryAt scheduled) <;>
        simp [compensateStep, scheduled, entry, Logs]
    | none => apply Move.undoHalted <;> simp [compensateStep, scheduled, entry, Logs]

variable {definition : SagaDefinition} {record : SagaInstanceRecord}

/-- Whatever the participants do, a turn writes one of the seven progress records. -/
theorem perform_move {W O : Type} {config : SagaConfig}
    {participants : Participants W O} {world : W} {startedAt : Date}
    {random : ℚ} {choice : O} {decision : Decision} {done : Performed W}
    (performed : done = perform config definition participants record world startedAt random choice
      decision) : Move definition config.policy.maxAttempts record decision done.progress := by
  subst performed
  cases decision with
  | execute => exact executeStep_move _ _ _ _ _ _ _
  | compensate => exact compensateStep_move _ _ _ _ _ _ _
  | skip => exact undoneStep_move _ _ _ _ _ (Or.inr ⟨rfl, rfl⟩)

theorem Move.ladder {limit : Nat}
    {decision : Decision} {progress : SagaProgress} (positive : 1 ≤ limit)
    (move : Move definition limit record decision progress)
    (inFlight : isTerminal progress.status = false) : progress.attempts < limit := by
  cases move with
  | advanced => omega
  | retried => omega
  | halted _ _ status | undoHalted _ status => simp [status, isTerminal] at inFlight
  | turned => omega
  | undone => omega
  | undoRetried => omega

theorem Move.release {limit : Nat} {decision : Decision} {progress : SagaProgress}
    (move : Move definition limit record decision progress)
    (terminal : isTerminal progress.status = true) : progress.release = true := by
  cases move with
  | advanced _ status _ _ release | undone _ _ status _ _ release =>
    rw [release, decide_eq_true_iff]
    by_contra early
    rw [status, if_neg early] at terminal
    cases terminal
  | halted _ _ _ _ release | undoHalted _ _ _ release => exact release
  | retried _ status | turned _ _ status | undoRetried _ status =>
    rw [status] at terminal
    cases terminal

/-- The defaults of the orchestrator's constructor. -/
def defaultConfig : SagaConfig := ⟨30000, 10000, ⟨500, 60000, 6⟩⟩

end NestApi.Saga
