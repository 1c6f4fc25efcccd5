import NestApi.Indexed
import NestApi.SagaRun

namespace NestApi.Saga

open SagaDefinition

def isUndone (item : SagaStepLogEntry) : Bool :=
  item.direction = .backward ∧ (item.outcome = .completed ∨ item.outcome = .skipped)

/-- The names of the backward completed-or-skipped entries, oldest first. -/
def undoneSteps (log : List SagaStepLogEntry) : List String :=
  (log.filter isUndone).map SagaStepLogEntry.step

def forwardFailed (log : List SagaStepLogEntry) : List String :=
  (log.filter isForwardFailed).map SagaStepLogEntry.step

section Log

variable {log : List SagaStepLogEntry} {item : SagaStepLogEntry} {name : String}

theorem forwardCompleted_snoc (log : List SagaStepLogEntry) (item : SagaStepLogEntry) :
    forwardCompleted (log ++ [item]) =
      forwardCompleted log ++ if isForwardCompleted item then [item.step] else [] := by
  by_cases kept : isForwardCompleted item <;> simp [forwardCompleted, kept]

theorem forwardFailed_snoc (log : List SagaStepLogEntry) (item : SagaStepLogEntry) :
    forwardFailed (log ++ [item]) =
      forwardFailed log ++ if isForwardFailed item then [item.step] else [] := by
  by_cases kept : isForwardFailed item <;> simp [forwardFailed, kept]

theorem undoneSteps_snoc (log : List SagaStepLogEntry) (item : SagaStepLogEntry) :
    undoneSteps (log ++ [item]) = undoneSteps log ++ if isUndone item then [item.step] else [] := by
  by_cases kept : isUndone item <;> simp [undoneSteps, kept]

theorem undoneSteps_eq_nil (forwardOnly : ∀ item ∈ log, item.direction = .forward) :
    undoneSteps log = [] := by
  simp only [undoneSteps, List.map_eq_nil_iff, List.filter_eq_nil_iff]
  intro item member
  simp [isUndone, forwardOnly item member]

end Log

/-- A row on its way forward: the first `position` steps completed, nothing undone. It
gets stuck only past the pivot. -/
structure Ascending (definition : SagaDefinition) (record : SagaInstanceRecord)
    (position : Nat) : Prop where
  cursor : record.cursor = position
  status : record.status = .running ∧ position < definition.size ∨
    record.status = .completed ∧ position = definition.size ∨
    record.status = .stuck ∧ position < definition.size ∧ boundary definition.steps < position
  forwardOnly : ∀ item ∈ record.log, item.direction = .forward
  completed : forwardCompleted record.log = definition.names.take position

/-- A row on its way back: step `turn`, not past the pivot, failed for good after the steps before
it, and those from `turn` down to above the cursor are undone. -/
structure Unwinding (definition : SagaDefinition) (record : SagaInstanceRecord)
    (turn : Nat) : Prop where
  inside : turn < definition.size
  pivot : turn ≤ boundary definition.steps
  status : record.status = .compensating ∧ 0 ≤ record.cursor ∨
    record.status = .compensated ∧ record.cursor = -1 ∨
    record.status = .stuck ∧ 0 ≤ record.cursor
  high : record.cursor ≤ turn
  completed : forwardCompleted record.log = definition.names.take turn
  failed : (forwardFailed record.log).getLast? = definition.names[turn]?
  undone : undoneSteps record.log =
    ((definition.names.take (turn + 1)).drop (record.cursor + 1).toNat).reverse

structure RowInvariant (definition : SagaDefinition) (limit : Nat)
    (record : SagaInstanceRecord) : Prop where
  standing : (∃ position, Ascending definition record position) ∨
    ∃ turn, Unwinding definition record turn
  ladder : isTerminal record.status = false → record.attempts < limit

section Standing

variable {definition : SagaDefinition} {record other : SagaInstanceRecord}

theorem Ascending.created (formed : definition.WellFormed) (input : NewSagaInstance) (now : Date) :
    Ascending definition (SagaInstanceRecord.created input now) 0 := by
  refine ⟨rfl, Or.inl ⟨rfl, formed.nonempty⟩, ?_, rfl⟩
  intro item member
  cases member

variable {position turn : Nat}

theorem Ascending.congr (ascending : Ascending definition record position)
    (status : other.status = record.status) (cursor : other.cursor = record.cursor)
    (log : other.log = record.log) : Ascending definition other position := by
  obtain ⟨here, standing, forwardOnly, completed⟩ := ascending
  exact ⟨cursor.trans here, by rwa [status], by rwa [log], by rwa [log]⟩

theorem Unwinding.congr (unwinding : Unwinding definition record turn)
    (status : other.status = record.status) (cursor : other.cursor = record.cursor)
    (log : other.log = record.log) : Unwinding definition other turn := by
  obtain ⟨inside, pivot, standing, high, completed, failed, undone⟩ := unwinding
  exact ⟨inside, pivot, by rwa [status, cursor], by rwa [cursor], by rwa [log], by rwa [log],
    by rwa [log, cursor]⟩

theorem Ascending.running (ascending : Ascending definition record position)
    (inFlight : isTerminal record.status = false) :
    record.status = .running ∧ position < definition.size := by
  rcases ascending.status with running | ⟨done, _⟩ | ⟨stuck, _⟩
  · exact running
  · simp [done, isTerminal] at inFlight
  · simp [stuck, isTerminal] at inFlight

theorem Unwinding.compensating (unwinding : Unwinding definition record turn)
    (inFlight : isTerminal record.status = false) :
    record.status = .compensating ∧ ∃ index : Nat, record.cursor = index := by
  rcases unwinding.status with ⟨running, low⟩ | ⟨done, _⟩ | ⟨stuck, _⟩
  · exact ⟨running, Int.eq_ofNat_of_zero_le low⟩
  · simp [done, isTerminal] at inFlight
  · simp [stuck, isTerminal] at inFlight

theorem Ascending.not_undone (ascending : Ascending definition record position) :
    record.status ≠ .compensating ∧ record.status ≠ .compensated := by
  rcases ascending.status with ⟨status, _⟩ | ⟨status, _⟩ | ⟨status, _⟩ <;> simp [status]

theorem Unwinding.not_forward (unwinding : Unwinding definition record turn) :
    record.status ≠ .running ∧ record.status ≠ .completed := by
  rcases unwinding.status with ⟨status, _⟩ | ⟨status, _⟩ | ⟨status, _⟩ <;> simp [status]

theorem Ascending.last {position : Nat} (ascending : Ascending definition record position)
    (status : record.status = .completed) : position = definition.size := by
  rcases ascending.status with ⟨other, _⟩ | ⟨_, last⟩ | ⟨other, _⟩
  · rw [status] at other
    cases other
  · exact last
  · rw [status] at other
    cases other

theorem Unwinding.low (unwinding : Unwinding definition record turn)
    (status : record.status = .compensated) : record.cursor = -1 := by
  rcases unwinding.status with ⟨other, _⟩ | ⟨_, low⟩ | ⟨other, _⟩
  · rw [status] at other
    cases other
  · exact low
  · rw [status] at other
    cases other

end Standing

theorem SagaDefinition.stepAt_natCast (definition : SagaDefinition) (index : Nat) :
    definition.stepAt (index : Int) = definition.steps[index]? := rfl

section Decided

variable {definition : SagaDefinition} {record : SagaInstanceRecord} {decision : Decision}

theorem stepAt_eq_some {cursor : Int} {next : SagaStep}
    (found : definition.stepAt cursor = some next) :
    ∃ index : Nat, cursor = index ∧ definition.steps[index]? = some next := by
  cases cursor with
  | ofNat index => exact ⟨index, rfl, found⟩
  | negSucc => cases found

/-- On its way forward, the decision is to execute the step at the position. -/
theorem Ascending.decided {position : Nat} (ascending : Ascending definition record position)
    (decided : Decided definition record decision) :
    ∃ next, definition.steps[position]? = some next ∧ decision = .execute next := by
  cases decided with
  | execute found =>
    rw [ascending.cursor, stepAt_natCast] at found
    exact ⟨_, found, rfl⟩
  | compensate _ back | skip _ back => exact absurd back ascending.not_undone.1

/-- On its way back, the decision is to undo the step at the cursor, or to skip it. -/
theorem Unwinding.decided {turn : Nat} (unwinding : Unwinding definition record turn)
    (decided : Decided definition record decision) :
    ∃ (index : Nat) (next : SagaStep), record.cursor = index ∧ index ≤ turn ∧
      definition.steps[index]? = some next ∧
      (next.kind = .compensatable ∧ decision = .compensate next ∨
        next.kind ≠ .compensatable ∧ decision = .skip next) := by
  have high := unwinding.high
  cases decided with
  | execute _ running => exact absurd running unwinding.not_forward.1
  | compensate found _ kind =>
    obtain ⟨index, cursor, found⟩ := stepAt_eq_some found
    exact ⟨index, _, cursor, by omega, found, Or.inl ⟨kind, rfl⟩⟩
  | skip found _ kind =>
    obtain ⟨index, cursor, found⟩ := stepAt_eq_some found
    exact ⟨index, _, cursor, by omega, found, Or.inr ⟨kind, rfl⟩⟩

end Decided

theorem drop_reverse_snoc {names : List String} {turn index : Nat} {name : String}
    (inside : index ≤ turn) (found : names[index]? = some name) :
    ((names.take (turn + 1)).drop (index + 1)).reverse ++ [name] =
      ((names.take (turn + 1)).drop index).reverse := by
  have taken : (names.take (turn + 1))[index]? = some name := by
    rw [List.getElem?_take_of_lt (by omega), found]
  obtain ⟨bound, same⟩ := List.getElem?_eq_some_iff.mp taken
  rw [List.drop_eq_getElem_cons bound, List.reverse_cons, same]

theorem take_snoc {names : List String} {index : Nat} {name : String}
    (found : names[index]? = some name) : names.take index ++ [name] = names.take (index + 1) := by
  rw [List.take_add_one, found, Option.toList_some]

section Move

variable {definition : SagaDefinition} {limit : Nat} {record : SagaInstanceRecord}
  {decision : Decision} {progress : SagaProgress} (claim : SagaClaim)

variable {name : String} {turn : Nat}

theorem forwardCompleted_failed {direction : SagaDirection}
    (logged : Logs progress.entry name direction .failed) :
    forwardCompleted (record.log ++ [progress.entry]) = forwardCompleted record.log := by
  have kept : isForwardCompleted progress.entry = false := by
    simp [isForwardCompleted, logged.2.2]
  rw [forwardCompleted_snoc, kept]
  simp

theorem Ascending.turned {position : Nat} (ascending : Ascending definition record position)
    (inside : position < definition.size) (before : position ≤ boundary definition.steps)
    (named : definition.names[position]? = some name)
    (logged : Logs progress.entry name .forward .failed) (status : progress.status = .compensating)
    (moved : progress.cursor = position) :
    Unwinding definition (record.saved claim progress) position := by
  have forwardOnly := forall_mem_concat ascending.forwardOnly logged.2.1
  refine ⟨inside, before, Or.inl ⟨status, ?_⟩, ?_, ?_, ?_, ?_⟩
  · change 0 ≤ progress.cursor
    omega
  · change progress.cursor ≤ _
    omega
  · exact (forwardCompleted_failed logged).trans ascending.completed
  · have kept : isForwardFailed progress.entry = true := by
      simp [isForwardFailed, logged.2.1, logged.2.2]
    change (forwardFailed (record.log ++ [progress.entry])).getLast? = _
    rw [forwardFailed_snoc, kept, if_pos rfl, List.getLast?_append_of_ne_nil _ (by simp),
      named, logged.1]
    rfl
  · change undoneSteps (record.log ++ [progress.entry]) =
      ((definition.names.take (position + 1)).drop (progress.cursor + 1).toNat).reverse
    have past : (definition.names.take (position + 1)).length ≤ (progress.cursor + 1).toNat := by
      rw [List.length_take]
      omega
    rw [undoneSteps_eq_nil forwardOnly, List.drop_eq_nil_of_le past, List.reverse_nil]

/-- From a row on its way forward, a turn advances it, leaves it where it is, or turns it
around at the step it is at. -/
theorem Ascending.move (formed : definition.WellFormed) {position : Nat}
    (ascending : Ascending definition record position)
    (decided : Decided definition record decision)
    (move : Move definition limit record decision progress) : (∃ position', position ≤ position' ∧
      Ascending definition (record.saved claim progress) position') ∨
      progress.status = .compensating ∧
        Unwinding definition (record.saved claim progress) position := by
  obtain ⟨running, inside⟩ := ascending.running decided.inFlight
  obtain ⟨next, found, rfl⟩ := ascending.decided decided
  have named : definition.names[position]? = some next.name := by
    rw [getElem?_names, found, Option.map_some]
  have cursor := ascending.cursor
  cases move with
  | advanced logged status =>
    refine Or.inl ⟨position + 1, by omega, ?_, ?_, forall_mem_concat ascending.forwardOnly
      logged.2.1, ?_⟩
    · change progress.cursor = _
      omega
    · change progress.status = .running ∧ _ ∨ progress.status = .completed ∧ _ ∨ _
      split at status
      · exact Or.inr (Or.inl ⟨status, by omega⟩)
      · exact Or.inl ⟨status, by omega⟩
    · have kept : isForwardCompleted progress.entry = true := by
        simp [isForwardCompleted, logged.2.1, logged.2.2]
      change forwardCompleted (record.log ++ [progress.entry]) = _
      rw [forwardCompleted_snoc, kept, ascending.completed, if_pos rfl, logged.1, take_snoc named]
  | retried logged status moved =>
    refine Or.inl ⟨position, le_refl _, moved.trans cursor, Or.inl ⟨status, inside⟩,
      forall_mem_concat ascending.forwardOnly logged.2.1, ?_⟩
    exact (forwardCompleted_failed logged).trans ascending.completed
  | halted kind logged status moved =>
    have past := (formed.retriable_iff found).mp kind
    refine Or.inl ⟨position, le_refl _, moved.trans cursor,
      Or.inr (Or.inr ⟨status, inside, past⟩), forall_mem_concat ascending.forwardOnly logged.2.1,
      ?_⟩
    exact (forwardCompleted_failed logged).trans ascending.completed
  | turned kind logged status moved =>
    have before : position ≤ boundary definition.steps :=
      Nat.not_lt.mp (mt (formed.retriable_iff found).mpr kind)
    exact Or.inr ⟨status, ascending.turned claim inside before named logged status
      (moved.trans cursor)⟩
  | undone chosen => rcases chosen with ⟨wrong, _⟩ | ⟨wrong, _⟩ <;> cases wrong

variable (unwinding : Unwinding definition record turn)

include unwinding

theorem Unwinding.forward_kept
    {outcome : SagaStepOutcome} (logged : Logs progress.entry name .backward outcome) :
    forwardCompleted (record.log ++ [progress.entry]) = definition.names.take turn ∧
      (forwardFailed (record.log ++ [progress.entry])).getLast? = definition.names[turn]? := by
  have completed : isForwardCompleted progress.entry = false := by
    simp [isForwardCompleted, logged.2.1]
  have failed : isForwardFailed progress.entry = false := by
    simp [isForwardFailed, logged.2.1]
  rw [forwardCompleted_snoc, forwardFailed_snoc, completed, failed, ← unwinding.completed,
    ← unwinding.failed]
  simp

theorem Unwinding.stays (logged : Logs progress.entry name .backward .failed)
    (status : progress.status = .compensating ∨ progress.status = .stuck)
    (cursor : progress.cursor = record.cursor) (low : 0 ≤ record.cursor) :
    Unwinding definition (record.saved claim progress) turn := by
  have high := unwinding.high
  have forward := unwinding.forward_kept logged
  refine ⟨unwinding.inside, unwinding.pivot, ?_, ?_, forward.1, forward.2, ?_⟩
  · have here : 0 ≤ progress.cursor := by omega
    exact status.imp (fun back => ⟨back, here⟩) (fun halted => Or.inr ⟨halted, here⟩)
  · change progress.cursor ≤ turn
    omega
  · have kept : isUndone progress.entry = false := by simp [isUndone, logged.2.2]
    change undoneSteps (record.log ++ [progress.entry]) =
      ((definition.names.take (turn + 1)).drop (progress.cursor + 1).toNat).reverse
    rw [undoneSteps_snoc, kept, unwinding.undone, cursor]
    simp

/-- From a row on its way back, a turn undoes the step at the cursor or leaves the row
where it is. -/
theorem Unwinding.move (decided : Decided definition record decision)
    (move : Move definition limit record decision progress) :
    Unwinding definition (record.saved claim progress) turn ∧ progress.cursor ≤ record.cursor := by
  obtain ⟨index, next, here, below, found, chosen⟩ := unwinding.decided decided
  have named : definition.names[index]? = some next.name := by
    rw [getElem?_names, found, Option.map_some]
  have high := unwinding.high
  cases move with
  | undone chosen' logged status cursor attempts =>
    rename_i step _ _
    have same : step = next := by
      rcases chosen' with ⟨shape, _⟩ | ⟨shape, _⟩ <;>
        · rw [shape] at chosen
          rcases chosen with ⟨_, same⟩ | ⟨_, same⟩ <;> cases same
          rfl
    subst same
    have forward := unwinding.forward_kept logged
    refine ⟨⟨unwinding.inside, unwinding.pivot, ?_, ?_, forward.1, forward.2, ?_⟩, by omega⟩
    · change progress.status = .compensating ∧ 0 ≤ progress.cursor ∨
        progress.status = .compensated ∧ progress.cursor = -1 ∨ _
      split at status
      · exact Or.inr (Or.inl ⟨status, by omega⟩)
      · exact Or.inl ⟨status, by omega⟩
    · change progress.cursor ≤ turn
      omega
    · have kept : isUndone progress.entry = true := by
        rcases chosen' with ⟨_, done⟩ | ⟨_, done⟩ <;>
          simp [isUndone, logged.2.1, logged.2.2, done]
      change undoneSteps (record.log ++ [progress.entry]) =
        ((definition.names.take (turn + 1)).drop (progress.cursor + 1).toNat).reverse
      rw [undoneSteps_snoc, kept, unwinding.undone, if_pos rfl, logged.1, cursor, here,
        show ((index : Int) + 1).toNat = index + 1 by omega,
        show ((index : Int) - 1 + 1).toNat = index by omega]
      exact drop_reverse_snoc (by omega) named
  | undoRetried logged status cursor attempts left =>
    exact ⟨unwinding.stays claim logged (Or.inl status) cursor (by omega), by omega⟩
  | undoHalted logged status cursor =>
    exact ⟨unwinding.stays claim logged (Or.inr status) cursor (by omega), by omega⟩
  | advanced | retried | halted
  | turned => rcases chosen with ⟨_, wrong⟩ | ⟨_, wrong⟩ <;> cases wrong

end Move

variable {definition : SagaDefinition} {limit : Nat} {record : SagaInstanceRecord}

/-- A row in flight that satisfies the invariant can always be resumed. -/
theorem RowInvariant.step_ok (invariant : RowInvariant definition limit record)
    (inFlight : isTerminal record.status = false) :
    ∃ decision, step definition record = .ok decision := by
  have resumes : ∀ (prefixLength index : Nat),
      forwardCompleted record.log = definition.names.take prefixLength →
      record.cursor = index → index < definition.size →
      ∃ decision, step definition record = .ok decision := by
    intro prefixLength index completed here bound
    refine ⟨_, (step_eq_ok_iff _ _ _).mpr ⟨?_, definition.steps[index], ?_, rfl⟩⟩
    · rw [completed]
      exact List.take_prefix _ _
    · rw [here, stepAt_natCast]
      exact List.getElem?_eq_getElem bound
  rcases invariant.standing with ⟨position, ascending⟩ | ⟨turn, unwinding⟩
  · exact resumes position position ascending.completed ascending.cursor
      (ascending.running inFlight).2
  · obtain ⟨_, index, here⟩ := unwinding.compensating inFlight
    have high := unwinding.high
    have inside := unwinding.inside
    exact resumes turn index unwinding.completed here (by omega)

theorem RowInvariant.not_refused (invariant : RowInvariant definition limit record)
    (inFlight : isTerminal record.status = false) {problem : SagaResumeError}
    (refused : step definition record = .error problem) : False := by
  obtain ⟨decision, decided⟩ := invariant.step_ok inFlight
  cases refused.symm.trans decided

/-- What a saga row and its log say about each other, status by status. -/
structure RowCoherent (definition : SagaDefinition) (maxAttempts : Nat)
    (record : SagaInstanceRecord) : Prop where
  running : record.status = .running →
    0 ≤ record.cursor ∧ record.cursor < definition.size ∧
      (∀ item ∈ record.log, item.direction ≠ .backward) ∧
      forwardCompleted record.log = definition.names.take record.cursor.toNat
  compensating : record.status = .compensating →
    ∃ turn : Nat, 0 ≤ record.cursor ∧ record.cursor ≤ turn ∧ turn < definition.size ∧
      forwardCompleted record.log = definition.names.take turn ∧
      (forwardFailed record.log).getLast? = definition.names[turn]? ∧
      undoneSteps record.log =
        ((definition.names.take (turn + 1)).drop (record.cursor.toNat + 1)).reverse
  completed : record.status = .completed →
    record.cursor = definition.size ∧ forwardCompleted record.log = definition.names
  compensated : record.status = .compensated →
    record.cursor = -1 ∧ ∃ turn, turn < definition.size ∧
      forwardCompleted record.log = definition.names.take turn ∧
      (forwardFailed record.log).getLast? = definition.names[turn]? ∧
      ∀ (index : Nat) (name : String), index ≤ turn → definition.names[index]? = some name →
        (undoneSteps record.log).count name = 1
  ladder : isTerminal record.status = false → record.attempts < maxAttempts

theorem Ascending.coherent {position : Nat} (ascending : Ascending definition record position)
    (ladder : isTerminal record.status = false → record.attempts < limit) :
    RowCoherent definition limit record := by
  have cursor := ascending.cursor
  refine ⟨?_, ?_, ?_, ?_, ladder⟩
  · intro status
    obtain ⟨_, inside⟩ := ascending.running (by rw [status]; rfl)
    refine ⟨by omega, by omega, ?_, ?_⟩
    · intro item member
      rw [ascending.forwardOnly item member]
      decide
    · rw [ascending.completed, cursor, Int.toNat_natCast]
  · intro status
    exact absurd status ascending.not_undone.1
  · intro status
    have last := ascending.last status
    rw [ascending.completed, cursor, last, ← names_length, List.take_length]
    exact ⟨rfl, rfl⟩
  · intro status
    exact absurd status ascending.not_undone.2

theorem Unwinding.coherent {turn : Nat} (distinct : definition.names.Nodup)
    (unwinding : Unwinding definition record turn)
    (ladder : isTerminal record.status = false → record.attempts < limit) :
    RowCoherent definition limit record := by
  have inside := unwinding.inside
  refine ⟨?_, ?_, ?_, ?_, ladder⟩
  · intro status
    exact absurd status unwinding.not_forward.1
  · intro status
    obtain ⟨_, index, here⟩ := unwinding.compensating (by rw [status]; rfl)
    refine ⟨turn, by omega, unwinding.high, inside, unwinding.completed, unwinding.failed, ?_⟩
    rw [unwinding.undone, show (record.cursor + 1).toNat = record.cursor.toNat + 1 by omega]
  · intro status
    exact absurd status unwinding.not_forward.2
  · intro status
    have low := unwinding.low status
    refine ⟨low, turn, inside, unwinding.completed, unwinding.failed, ?_⟩
    intro index name below found
    rw [unwinding.undone, low, show ((-1 : Int) + 1).toNat = 0 by omega, List.drop_zero,
      List.count_reverse]
    apply List.count_eq_one_of_mem
    · exact distinct.sublist (List.take_sublist _ _)
    · refine List.mem_of_getElem? (i := index) ?_
      rw [List.getElem?_take_of_lt (by omega), found]

theorem RowInvariant.coherent (distinct : definition.names.Nodup)
    (invariant : RowInvariant definition limit record) : RowCoherent definition limit record := by
  rcases invariant.standing with ⟨position, ascending⟩ | ⟨turn, unwinding⟩
  · exact ascending.coherent invariant.ladder
  · exact unwinding.coherent distinct invariant.ladder

end NestApi.Saga
