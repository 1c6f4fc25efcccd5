import NestApi.SagaOutline

namespace NestApi.Saga

/-- How many steps a row has left in the worst case: up to the end and all the way back. -/
def stepsLeft (definition : SagaDefinition) (cursor : Int) : SagaStatus → Nat
  | .running => 2 * definition.size - cursor.toNat
  | .compensating => (cursor + 1).toNat
  | _ => 0

/-- What every saved turn uses up: attempts at a step, and steps. -/
def rank (definition : SagaDefinition) (limit : Nat) (record : SagaInstanceRecord) : Nat :=
  if isTerminal record.status then 0
  else stepsLeft definition record.cursor record.status * limit + (limit - record.attempts)

section Rank

variable {definition : SagaDefinition} {limit : Nat} {record : SagaInstanceRecord}
  {progress : SagaProgress} (claim : SagaClaim)

section

variable (inFlight : isTerminal record.status = false)

include inFlight

theorem rank_lt_of_terminal
    (ladder : record.attempts < limit) (done : isTerminal progress.status = true) :
    rank definition limit (record.saved claim progress) < rank definition limit record := by
  have after : isTerminal (record.saved claim progress).status = true := done
  simp only [rank, inFlight, after, Bool.false_eq_true, ↓reduceIte]
  omega

theorem rank_lt_of_stepsLeft (ladder : record.attempts < limit)
    (fewer : stepsLeft definition progress.cursor progress.status <
      stepsLeft definition record.cursor record.status) :
    rank definition limit (record.saved claim progress) < rank definition limit record := by
  have whole := Nat.mul_le_mul_right limit (Nat.succ_le_of_lt fewer)
  rw [Nat.succ_mul] at whole
  have after : rank definition limit (record.saved claim progress) ≤
      stepsLeft definition progress.cursor progress.status * limit + limit := by
    rw [rank]
    split
    · omega
    · change stepsLeft definition progress.cursor progress.status * limit +
        (limit - progress.attempts) ≤ _
      omega
  simp only [rank, inFlight, Bool.false_eq_true, ↓reduceIte] at after ⊢
  omega

theorem rank_lt_of_attempts
    (left : record.attempts + 1 < limit) (attempts : progress.attempts = record.attempts + 1)
    (cursor : progress.cursor = record.cursor) (status : progress.status = record.status) :
    rank definition limit (record.saved claim progress) < rank definition limit record := by
  simp only [rank, SagaInstanceRecord.saved, status, cursor, attempts, inFlight,
    Bool.false_eq_true, ↓reduceIte]
  omega

end

theorem RowInvariant.rank_lt {decision : Decision}
    (invariant : RowInvariant definition limit record)
    (decided : Decided definition record decision)
    (move : Move definition limit record decision progress) :
    rank definition limit (record.saved claim progress) < rank definition limit record := by
  have inFlight := decided.inFlight
  have ladder := invariant.ladder inFlight
  rcases invariant.standing with ⟨position, ascending⟩ | ⟨turn, unwinding⟩
  · obtain ⟨running, inside⟩ := ascending.running inFlight
    obtain ⟨next, _, rfl⟩ := ascending.decided decided
    have here := ascending.cursor
    cases move with
    | advanced logged status =>
      split at status
      · apply rank_lt_of_terminal claim inFlight ladder
        rw [status]
        rfl
      · apply rank_lt_of_stepsLeft claim inFlight ladder
        simp only [status, running, stepsLeft]
        omega
    | retried logged status cursor attempts left =>
      exact rank_lt_of_attempts claim inFlight left attempts cursor (status.trans running.symm)
    | halted kind logged status =>
      apply rank_lt_of_terminal claim inFlight ladder
      rw [status]
      rfl
    | turned kind logged status =>
      apply rank_lt_of_stepsLeft claim inFlight ladder
      simp only [status, running, stepsLeft]
      omega
    | undone chosen => rcases chosen with ⟨wrong, _⟩ | ⟨wrong, _⟩ <;> cases wrong
  · have back := (unwinding.compensating inFlight).1
    obtain ⟨index, next, here, _, _, chosen⟩ := unwinding.decided decided
    cases move with
    | undone chosen logged status =>
      split at status
      · apply rank_lt_of_terminal claim inFlight ladder
        rw [status]
        rfl
      · apply rank_lt_of_stepsLeft claim inFlight ladder
        simp only [status, back, stepsLeft]
        omega
    | undoRetried logged status cursor attempts left =>
      exact rank_lt_of_attempts claim inFlight left attempts cursor (status.trans back.symm)
    | undoHalted logged status =>
      apply rank_lt_of_terminal claim inFlight ladder
      rw [status]
      rfl
    | advanced | retried | halted
    | turned => rcases chosen with ⟨_, wrong⟩ | ⟨_, wrong⟩ <;> cases wrong

end Rank

section Ends

variable {W O : Type} {config : SagaConfig} {definition : SagaDefinition}
  {participants : Participants W O} {allowed : RunState W → RunAction O → Prop}

variable {s : RunState W} (formed : definition.WellFormed)
  (positive : 1 ≤ config.policy.maxAttempts) (choice : O)
  (claims : ∀ s owner now, allowed s (.claim owner now))
  (turns : ∀ s owner startedAt savedAt random, allowed s
    (.turn owner startedAt savedAt random choice))
  (invariant : RunInvariant definition config.policy.maxAttempts s)

include formed positive choice claims turns invariant

theorem RunInvariant.exists_turn (inFlight : isTerminal s.record.status = false) :
    ∃ actions t, Steps (Guarded allowed (Executes (RunState.act config definition participants)))
      s actions t ∧ RunInvariant definition config.policy.maxAttempts t ∧
      rank definition config.policy.maxAttempts t.record <
        rank definition config.policy.maxAttempts s.record := by
  obtain ⟨now, claimed⟩ : ∃ now, s.act config definition participants (.claim "runner" now) = _ :=
    act_claim s inFlight "runner"
  have leased := invariant.leased ⟨"runner", now, config.leaseMs⟩
  have held : driven "runner" (s.record.leased ⟨"runner", now, config.leaseMs⟩) = true :=
    (driven_iff _ _).mpr ⟨rfl, inFlight⟩
  obtain ⟨decision, decided⟩ := leased.rowInvariant.step_ok inFlight
  have taken : RunState.act config definition participants
      { s with record := s.record.leased ⟨"runner", now, config.leaseMs⟩ }
      (.turn "runner" 0 0 0 choice) = _ :=
    act_turn held decided 0 0 0 choice
  exact ⟨_, _, .cons ⟨claims _ _ _, claimed⟩ (.single ⟨turns _ _ _ _ _, taken⟩),
    leased.act formed positive taken,
    leased.rowInvariant.rank_lt _ (decided_of_step inFlight decided) (perform_move rfl)⟩

/-- From everywhere a saga can get, it can be driven to an end, whichever way its steps
settle. -/
theorem RunInvariant.ends :
    ∃ actions t, Steps (Guarded allowed (Executes (RunState.act config definition participants)))
      s actions t ∧ isTerminal t.record.status = true := by
  obtain ⟨actions, t, run, _, done⟩ := Steps.reach
    (fun s : RunState W => rank definition config.policy.maxAttempts s.record)
    (fun s known (flying : ¬ isTerminal s.record.status = true) =>
      known.exists_turn formed positive choice claims turns (by simpa using flying)) invariant
  exact ⟨actions, t, run, done⟩

end Ends

/-- Participants that neither let the last step return nor let the first one be undone. -/
structure Blocked {W O : Type} (definition : SagaDefinition) (participants : Participants W O)
    (allowed : O → Prop) : Prop where
  last : ∀ {step context choice world patch}, definition.steps[definition.size - 1]? = some step →
    allowed choice → (participants.execute step context choice world).1 ≠ .returned patch
  undoable : ∀ {step}, definition.steps[0]? = some step → step.kind = .compensatable
  first : ∀ {step context choice world patch}, definition.steps[0]? = some step → allowed choice →
    (participants.compensate step context choice world).1 ≠ .returned patch

section Blocked

variable {W O : Type} {config : SagaConfig} {definition : SagaDefinition}
  {participants : Participants W O} {allowed : O → Prop} {s t : RunState W}

variable {startedAt : Date} {random : ℚ} {choice : O} {done : Performed W}
  (blocked : Blocked definition participants allowed) {next : SagaStep}

include blocked

/-- A turn on the way forward completes no blocked saga. -/
theorem Blocked.executed {position : Nat} (ascending : Ascending definition s.record position)
    (found : definition.steps[position]? = some next) (permitted : allowed choice)
    (performed : done = perform config definition participants s.record s.world startedAt random
      choice (.execute next)) : done.progress.status ≠ .completed := by
  intro finished
  have cursor := ascending.cursor
  have size : definition.size = definition.steps.length := rfl
  have inside := lt_of_getElem? found
  have cases := executeStep_cases config definition s.record next startedAt random
    (call config next.name (participants.execute next (context s.record next none) choice
      s.world).1) (show done.progress = _ by rw [performed, perform])
  cases perform_move performed with
  | advanced _ status =>
    rcases cases with ⟨patch, ok, _⟩ | ⟨same, _⟩
    · have final : position = definition.size - 1 := by
        rw [status] at finished
        split at finished
        · omega
        · cases finished
      rw [final] at found
      exact blocked.last found permitted (call_eq_ok ok)
    · omega
  | retried _ status | halted _ _ status | turned _ _ status => cases status.symm.trans finished
  | undone chosen => rcases chosen with ⟨wrong, _⟩ | ⟨wrong, _⟩ <;> cases wrong

theorem Blocked.compensated {index : Nat} (cursor : s.record.cursor = index)
    (found : definition.steps[index]? = some next) {decision : Decision}
    (chosen : next.kind = .compensatable ∧ decision = .compensate next ∨
      next.kind ≠ .compensatable ∧ decision = .skip next) (permitted : allowed choice)
    (performed : done = perform config definition participants s.record s.world startedAt random
      choice decision) : done.progress.status ≠ .compensated := by
  subst performed
  intro done
  have low : ∀ outcome, (undoneStep s.record next startedAt outcome).status = .compensated →
      index = 0 := by
    intro outcome status
    simp only [undoneStep, decide_eq_true_eq] at status
    split at status
    · omega
    · cases status
  rcases chosen with ⟨_, rfl⟩ | ⟨kind, rfl⟩
  · cases settled : (participants.compensate next
      (context s.record next (some (failureFrom definition s.record))) choice s.world).1 with
    | returned =>
      simp only [perform, settled, call, compensateStep] at done
      rw [low _ done] at found
      exact blocked.first found permitted settled
    | threw | timedOut =>
      simp only [perform, settled, call, compensateStep] at done
      split at done <;> cases done
  · rw [low _ done] at found
    exact kind (blocked.undoable found)

/-- Left to such participants, a saga in flight can end in no way but stuck. -/
theorem Blocked.stuck (formed : definition.WellFormed) (positive : 1 ≤ config.policy.maxAttempts)
    (invariant : RunInvariant definition config.policy.maxAttempts s)
    (inFlight : isTerminal s.record.status = false) {actions : List (RunAction O)}
    (run : Steps (Guarded (fun _ action => ∀ choice, action.choice = some choice → allowed choice)
      (Executes (RunState.act config definition participants))) s actions t)
    (ended : isTerminal t.record.status = true) : t.record.status = .stuck := by
  have unfinished := Steps.invariant (fun u => RunInvariant definition config.policy.maxAttempts u ∧
    u.record.status ≠ .completed ∧ u.record.status ≠ .compensated) ?_ run
    ⟨invariant, by rintro status; simp [status, isTerminal] at inFlight,
      by rintro status; simp [status, isTerminal] at inFlight⟩
  · cases status : t.record.status with
    | running | compensating => simp [status, isTerminal] at ended
    | completed => exact absurd status unfinished.2.1
    | compensated => exact absurd status unfinished.2.2
    | stuck => rfl
  intro u action v known taken
  obtain ⟨known, apart⟩ := known
  obtain ⟨permitted, taken⟩ := taken
  refine ⟨known.act formed positive taken, ?_⟩
  cases acted taken with
  | claimed | stopped | crashed => exact apart
  | refused inFlight refused => exact (known.rowInvariant.not_refused inFlight refused).elim
  | saved decided performed =>
    have allowed := permitted _ rfl
    rcases known.rowInvariant.standing with ⟨position, ascending⟩ | ⟨turn, unwinding⟩
    · obtain ⟨next, found, rfl⟩ := ascending.decided decided
      refine ⟨blocked.executed ascending found allowed performed, ?_⟩
      rcases ascending.move _ formed decided (perform_move performed) with
        ⟨_, _, row⟩ | ⟨back, _⟩
      · exact row.not_undone.2
      · intro wrong
        exact absurd (back.symm.trans wrong) (by decide)
    · obtain ⟨index, next, here, _, found, chosen⟩ := unwinding.decided decided
      refine ⟨?_, blocked.compensated here found chosen allowed performed⟩
      exact (unwinding.move _ decided (perform_move performed)).1.not_forward.2

end Blocked

end NestApi.Saga
