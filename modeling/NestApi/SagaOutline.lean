import NestApi.SagaHistory

namespace NestApi.Saga

/-- A proof outline of a saga. `forward` is what holds in front of a step, `backward` what holds,
once the saga has turned around, with so many steps left to undo. Each survives attempts that fail
and attempts whose runner dies. -/
structure Outline {W O : Type} (config : SagaConfig) (definition : SagaDefinition)
    (participants : Participants W O) (id : String)
    (allowed : RunState W → RunAction O → Prop) where
  forward : Nat → SagaState → W → Prop
  backward : Nat → Nat → SagaState → W → Prop
  executed : ∀ {position step context world} choice, definition.steps[position]? = some step →
    context.idempotencyKey = id ++ ":" ++ step.name → forward position context.state world →
    forward position context.state (participants.execute step context choice world).2 ∧
      ∀ patch, (participants.execute step context choice world).1 = .returned patch →
        forward (position + 1) (mergeState context.state patch)
          (participants.execute step context choice world).2
  turned : ∀ {s position step owner startedAt savedAt random choice error},
    allowed s (.turn owner startedAt savedAt random choice) → s.record.id = id →
    Ascending definition s.record position → definition.steps[position]? = some step →
    step.kind ≠ .retriable → forward position s.record.state s.world →
    call config step.name
      (participants.execute step (context s.record step none) choice s.world).1 = .error error →
    retryAt config startedAt (s.record.attempts + 1) error random = none →
    backward position (position + 1) s.record.state
      (participants.execute step (context s.record step none) choice s.world).2
  compensated : ∀ {turn index step context world} choice, definition.steps[index]? = some step →
    step.kind = .compensatable →
    context.idempotencyKey = id ++ ":" ++ step.name → index ≤ turn →
    backward turn (index + 1) context.state world →
    backward turn (index + 1) context.state (participants.compensate step context choice world).2 ∧
      ∀ patch, (participants.compensate step context choice world).1 = .returned patch →
        backward turn index context.state (participants.compensate step context choice world).2
  skipped : ∀ {turn index step state world},
    definition.steps[index]? = some step → step.kind ≠ .compensatable → index ≤ turn →
    turn ≤ boundary definition.steps → backward turn (index + 1) state world →
    backward turn index state world

variable {progress : SagaProgress}

/-- Where an execution leaves the row: past the step, at it, or turned around at it. -/
theorem executeStep_cases (config : SagaConfig) (definition : SagaDefinition)
    (record : SagaInstanceRecord) (step : SagaStep) (now : Date) (random : ℚ)
    (outcome : Except StepError (Option SagaStatePatch))
    (reported : progress = executeStep config definition record step now random outcome) :
    (∃ patch, outcome = .ok patch ∧ progress.cursor = record.cursor + 1 ∧
      progress.state = mergeState record.state patch ∧ progress.status ≠ .compensating) ∨
    progress.cursor = record.cursor ∧ progress.state = record.state ∧
      (progress.status ≠ .compensating ∨ step.kind ≠ .retriable ∧
        ∃ error, outcome = .error error ∧
          retryAt config now (record.attempts + 1) error random = none) := by
  subst reported
  cases outcome with
  | ok patch =>
    refine Or.inl ⟨patch, rfl, rfl, rfl, ?_⟩
    simp only [executeStep]
    split <;> decide
  | error error =>
    right
    cases scheduled : retryAt config now (record.attempts + 1) error random with
    | some => simp [executeStep, scheduled]
    | none =>
      by_cases kind : step.kind = .retriable
      · simp [executeStep, scheduled, kind]
      · simp [executeStep, scheduled, kind]

/-- Where a compensation leaves the row: one step further back, or at the step. -/
theorem compensateStep_cases (config : SagaConfig) (record : SagaInstanceRecord) (step : SagaStep)
    (now : Date) (random : ℚ) (outcome : Except StepError (Option SagaStatePatch))
    (reported : progress = compensateStep config record step now random outcome) :
    progress.state = record.state ∧
      ((∃ patch, outcome = .ok patch ∧ progress.cursor = record.cursor - 1) ∨
        progress.cursor = record.cursor) := by
  subst reported
  cases outcome with
  | ok patch => exact ⟨rfl, Or.inl ⟨patch, rfl, rfl⟩⟩
  | error error =>
    cases scheduled : retryAt config now (record.attempts + 1) error random with
    | some | none => simp [compensateStep, scheduled]

theorem call_eq_ok {config : SagaConfig} {name : String} {settlement : Settlement}
    {patch : Option SagaStatePatch} (ok : call config name settlement = .ok patch) :
    settlement = .returned patch := by
  cases settlement with
  | returned =>
    cases ok
    rfl
  | threw => cases ok
  | timedOut => cases ok

theorem context_key {record : SagaInstanceRecord} {id : String} (named : record.id = id)
    (step : SagaStep) (failure : Option SagaFailure) :
    (context record step failure).idempotencyKey = id ++ ":" ++ step.name := by
  rw [← named]
  rfl

namespace Outline

variable {W O : Type} {config : SagaConfig} {definition : SagaDefinition}
  {participants : Participants W O} {id : String} {allowed : RunState W → RunAction O → Prop}
  (outline : Outline config definition participants id allowed)

def Holds (s : RunState W) : Prop :=
  (∃ position, Ascending definition s.record position ∧
    outline.forward position s.record.state s.world) ∨
  ∃ turn index : Nat, Unwinding definition s.record turn ∧ s.record.cursor + 1 = index ∧
    outline.backward turn index s.record.state s.world

def both (first second : Outline config definition participants id allowed) :
    Outline config definition participants id allowed where
  forward := fun position state world =>
    first.forward position state world ∧ second.forward position state world
  backward := fun turn left state world =>
    first.backward turn left state world ∧ second.backward turn left state world
  executed := by
    intro position step context world choice found key here
    have left := first.executed choice found key here.1
    have right := second.executed choice found key here.2
    exact ⟨⟨left.1, right.1⟩, fun patch returned => ⟨left.2 patch returned, right.2 patch returned⟩⟩
  turned := fun permitted named ascending found kind here failed final =>
    ⟨first.turned permitted named ascending found kind here.1 failed final,
      second.turned permitted named ascending found kind here.2 failed final⟩
  compensated := by
    intro turn index step context world choice found kind key below here
    have left := first.compensated choice found kind key below here.1
    have right := second.compensated choice found kind key below here.2
    exact ⟨⟨left.1, right.1⟩, fun patch returned => ⟨left.2 patch returned, right.2 patch returned⟩⟩
  skipped := fun found kind below pivot here =>
    ⟨first.skipped found kind below pivot here.1, second.skipped found kind below pivot here.2⟩

def barring (barred : Nat → Prop)
    (never : ∀ {s : RunState W} {position : Nat} {step : SagaStep} {owner : String}
      {startedAt savedAt : Date} {random : ℚ} {choice : O} {error : StepError}, barred position →
      allowed s (.turn owner startedAt savedAt random choice) → s.record.id = id →
      Ascending definition s.record position → definition.steps[position]? = some step →
      outline.forward position s.record.state s.world →
      call config step.name
        (participants.execute step (context s.record step none) choice s.world).1 ≠ .error error) :
    Outline config definition participants id allowed where
  forward := outline.forward
  backward := fun turn left state world =>
    ¬ barred turn ∧ outline.backward turn left state world
  executed := outline.executed
  turned := fun permitted named ascending found kind here failed final =>
    ⟨fun wrong => never wrong permitted named ascending found here failed,
      outline.turned permitted named ascending found kind here failed final⟩
  compensated := by
    intro turn index step context world choice found kind key below here
    have kept := outline.compensated choice found kind key below here.2
    exact ⟨⟨here.1, kept.1⟩, fun patch returned => ⟨here.1, kept.2 patch returned⟩⟩
  skipped := fun found kind below pivot here =>
    ⟨here.1, outline.skipped found kind below pivot here.2⟩

variable {outline}

variable {s t : RunState W}

theorem Holds.leased (holds : outline.Holds s) (claim : SagaClaim) :
    outline.Holds { s with record := s.record.leased claim } := by
  rcases holds with ⟨position, ascending, here⟩ | ⟨turn, index, unwinding, left, here⟩
  · exact Or.inl ⟨position, ascending.congr rfl rfl rfl, here⟩
  · exact Or.inr ⟨turn, index, unwinding.congr rfl rfl rfl, left, here⟩

variable {startedAt savedAt : Date} {random : ℚ} {choice : O} {done : Performed W}
  {decision : Decision}

theorem Holds.crashed (holds : outline.Holds s) (named : s.record.id = id)
    (decided : Decided definition s.record decision)
    (performed : done = perform config definition participants s.record s.world startedAt random
      choice decision) (calls : List Call) :
    outline.Holds { s with world := done.world, calls := calls } := by
  subst performed
  rcases holds with ⟨position, ascending, here⟩ | ⟨turn, left, unwinding, cursor, here⟩
  · obtain ⟨next, found, rfl⟩ := ascending.decided decided
    refine Or.inl ⟨position, ascending, ?_⟩
    exact (outline.executed choice found (context_key named next none) here).1
  · obtain ⟨index, next, here', below, found, chosen⟩ := unwinding.decided decided
    obtain rfl : left = index + 1 := by omega
    refine Or.inr ⟨turn, index + 1, unwinding, cursor, ?_⟩
    rcases chosen with ⟨kind, rfl⟩ | ⟨_, rfl⟩
    · exact (outline.compensated choice found kind (context_key named next _) below here).1
    · exact here

theorem Holds.advanced {position : Nat} {next : SagaStep} {owner : String}
    (formed : definition.WellFormed) (named : s.record.id = id)
    (permitted : allowed s (.turn owner startedAt savedAt random choice))
    (ascending : Ascending definition s.record position)
    (here : outline.forward position s.record.state s.world)
    (decided : Decided definition s.record (.execute next))
    (found : definition.steps[position]? = some next)
    (performed : done = perform config definition participants s.record s.world startedAt random
      choice (.execute next)) (claim : SagaClaim) (calls : List Call) :
    outline.Holds ⟨s.record.saved claim done.progress, done.world, calls⟩ := by
  have kept := outline.executed choice found (context_key named next none) here
  have cursor := ascending.cursor
  have moved := ascending.move claim formed decided (perform_move performed)
  have world : done.world =
      (participants.execute next (context s.record next none) choice s.world).2 := by
    rw [performed, perform]
  have progress : done.progress = executeStep config definition s.record next startedAt random
      (call config next.name (participants.execute next (context s.record next none) choice
        s.world).1) := by
    rw [performed, perform]
  have cases := executeStep_cases _ _ _ _ _ _ _ progress
  rcases moved with ⟨position', _, row⟩ | ⟨back, row⟩
  · have now : done.progress.cursor = position' := row.cursor
    refine Or.inl ⟨position', row, ?_⟩
    change outline.forward position' done.progress.state done.world
    rcases cases with ⟨patch, ok, onward, state, _⟩ | ⟨same, state, _⟩
    · have next : position' = position + 1 := by omega
      rw [next, state, world]
      exact kept.2 patch (call_eq_ok ok)
    · have next : position' = position := by omega
      rw [next, state, world]
      exact kept.1
  · refine Or.inr ⟨position, position + 1, row, ?_, ?_⟩
    · change done.progress.cursor + 1 = _
      rcases cases with ⟨_, _, _, _, wrong⟩ | ⟨same, _, _⟩
      · exact absurd back wrong
      · omega
    · change outline.backward position (position + 1) done.progress.state done.world
      rcases cases with ⟨_, _, _, _, wrong⟩ | ⟨_, state, wrong | ⟨kind, error, failed, final⟩⟩
      · exact absurd back wrong
      · exact absurd back wrong
      · rw [state, world]
        exact outline.turned permitted named ascending found kind here failed final

theorem Holds.undone {turn left : Nat} (named : s.record.id = id)
    (unwinding : Unwinding definition s.record turn) (cursor : s.record.cursor + 1 = left)
    (here : outline.backward turn left s.record.state s.world)
    (decided : Decided definition s.record decision)
    (performed : done = perform config definition participants s.record s.world startedAt random
      choice decision) (claim : SagaClaim) (calls : List Call) :
    outline.Holds ⟨s.record.saved claim done.progress, done.world, calls⟩ := by
  have row := (unwinding.move claim decided (perform_move performed)).1
  subst performed
  obtain ⟨index, next, here', below, found, chosen⟩ := unwinding.decided decided
  obtain rfl : left = index + 1 := by omega
  rcases chosen with ⟨kind, rfl⟩ | ⟨kind, rfl⟩
  · have kept := outline.compensated choice found kind
      (context_key named next (some (failureFrom definition s.record))) below here
    have cases := compensateStep_cases config s.record next startedAt random
      (call config next.name (participants.compensate next
        (context s.record next (some (failureFrom definition s.record))) choice s.world).1) rfl
    rcases cases with ⟨state, ⟨patch, ok, down⟩ | same⟩
    · refine Or.inr ⟨turn, index, row, ?_, ?_⟩
      · change (compensateStep ..).cursor + 1 = _
        rw [down]
        omega
      · change outline.backward turn index (compensateStep ..).state _
        rw [state]
        exact kept.2 patch (call_eq_ok ok)
    · refine Or.inr ⟨turn, index + 1, row, ?_, ?_⟩
      · change (compensateStep ..).cursor + 1 = _
        rw [same, cursor]
      · change outline.backward turn (index + 1) (compensateStep ..).state _
        rw [state]
        exact kept.1
  · refine Or.inr ⟨turn, index, row, ?_, outline.skipped found kind below unwinding.pivot here⟩
    change s.record.cursor - 1 + 1 = _
    omega

theorem holds (outline : Outline config definition participants id allowed)
    (formed : definition.WellFormed) (positive : 1 ≤ config.policy.maxAttempts)
    {input : NewSagaInstance} {now : Date} {world : W} {actions : List (RunAction O)}
    (run : Steps (Guarded allowed (Executes (RunState.act config definition participants)))
      (.started input now world) actions t) (named : input.id = id)
    (start : outline.forward 0 input.state world) : outline.Holds t := by
  have first := RunInvariant.started formed positive input now world
  refine (Steps.invariant (fun s => RunInvariant definition config.policy.maxAttempts s ∧
    s.record.id = id ∧ outline.Holds s) ?_ run ⟨first, named,
    Or.inl ⟨0, Ascending.created formed input now, start⟩⟩).2.2
  intro s action u known taken
  obtain ⟨invariant, named, holds⟩ := known
  obtain ⟨permitted, taken⟩ := taken
  refine ⟨invariant.act formed positive taken, (act_appends taken).1.trans named, ?_⟩
  cases acted taken with
  | claimed => exact holds.leased _
  | refused inFlight refused => exact (invariant.rowInvariant.not_refused inFlight refused).elim
  | saved decided performed =>
    rcases holds with ⟨position, ascending, here⟩ | ⟨turn, left, unwinding, cursor, here⟩
    · obtain ⟨next, found, rfl⟩ := ascending.decided decided
      exact Holds.advanced formed named permitted ascending here decided found performed _ _
    · exact Holds.undone named unwinding cursor here decided performed _ _
  | stopped => exact holds
  | crashed decided performed => exact holds.crashed named decided performed _

theorem Holds.completed (holds : outline.Holds t) (status : t.record.status = .completed) :
    outline.forward definition.size t.record.state t.world := by
  rcases holds with ⟨position, ascending, here⟩ | ⟨turn, index, unwinding, _, _⟩
  · rwa [ascending.last status] at here
  · exact absurd status unwinding.not_forward.2

theorem Holds.compensated (holds : outline.Holds t) (status : t.record.status = .compensated) :
    ∃ turn, turn ≤ boundary definition.steps ∧ outline.backward turn 0 t.record.state t.world := by
  rcases holds with ⟨position, ascending, _⟩ | ⟨turn, index, unwinding, left, here⟩
  · exact absurd status ascending.not_undone.2
  · have low := unwinding.low status
    have none : index = 0 := by omega
    exact ⟨turn, unwinding.pivot, none ▸ here⟩

end Outline

end NestApi.Saga
