import NestApi.SagaHistory

namespace NestApi.Saga

/-- The log has a forward-completed entry for the pivot step. -/
def PivotCompleted (definition : SagaDefinition) (record : SagaInstanceRecord) : Prop :=
  ∃ pivot ∈ definition.steps, pivot.kind = .pivot ∧ pivot.name ∈ forwardCompleted record.log

variable {definition : SagaDefinition} {record : SagaInstanceRecord}

theorem SagaDefinition.WellFormed.pivot_index (formed : definition.WellFormed) {index : Nat}
    {pivot : SagaStep} (found : definition.steps[index]? = some pivot) (kind : pivot.kind = .pivot)
    : index = boundary definition.steps := by
  rcases Nat.lt_trichotomy index (boundary definition.steps) with below | same | above
  · rw [formed.before index pivot found below] at kind
    cases kind
  · exact same
  · rw [formed.after index pivot found above] at kind
    cases kind

theorem SagaDefinition.boundary_of_no_pivot
    (none : ∀ step ∈ definition.steps, step.kind ≠ .pivot) :
    boundary definition.steps = definition.size := by
  have absent : definition.steps.findIdx? isPivot = Option.none := by
    rw [List.findIdx?_eq_none_iff]
    intro step member
    simp [isPivot, none step member]
  rw [boundary, absent, Option.getD_none, size]

theorem Unwinding.not_pivotCompleted {turn : Nat}
    (formed : definition.WellFormed) (unwinding : Unwinding definition record turn) :
    ¬ PivotCompleted definition record := by
  intro done
  obtain ⟨pivot, member, kind, completed⟩ := done
  obtain ⟨index, found⟩ := List.mem_iff_getElem?.mp member
  have atBoundary := formed.pivot_index found kind
  have before := unwinding.pivot
  rw [unwinding.completed] at completed
  obtain ⟨other, taken⟩ := List.mem_iff_getElem?.mp completed
  obtain ⟨bound, same⟩ := List.getElem?_eq_some_iff.mp taken
  rw [List.length_take] at bound
  have named : definition.names[index]? = some pivot.name := by
    rw [SagaDefinition.getElem?_names, found, Option.map_some]
  obtain ⟨inside, here⟩ := List.getElem?_eq_some_iff.mp named
  rw [List.getElem_take] at same
  have unique := formed.distinct.getElem_inj_iff.mp (here.trans same.symm)
  omega

section Run

variable {W O : Type} {config : SagaConfig} {participants : Participants W O}

variable {s t : RunState W} {action : RunAction O} {limit : Nat} {actions : List (RunAction O)}
  {made : Call}

theorem act_log_grows (taken : s.act config definition participants action = some t) :
    s.record.log <+: t.record.log := by
  cases acted taken with
  | claimed | refused | stopped | crashed => exact List.prefix_rfl
  | saved => exact List.prefix_append _ _

theorem run_log_grows
    (run : Runs config definition participants s actions t) : s.record.log <+: t.record.log := by
  refine Steps.invariant (fun u : RunState W => s.record.log <+: u.record.log) ?_ run
    List.prefix_rfl
  intro u action v grown taken
  exact grown.trans (act_log_grows taken)

theorem PivotCompleted.run (done : PivotCompleted definition s.record)
    (run : Runs config definition participants s actions t) :
    PivotCompleted definition t.record := by
  obtain ⟨pivot, member, kind, completed⟩ := done
  have grown : forwardCompleted s.record.log <+: forwardCompleted t.record.log :=
    ((run_log_grows run).filter _).map _
  exact ⟨pivot, member, kind, grown.subset completed⟩

/-- What a run promises about its pivot and about the order of its compensations. -/
structure PointOfNoReturn (config : SagaConfig) (definition : SagaDefinition)
    (participants : Participants W O) (s : RunState W) : Prop where
  committed : PivotCompleted definition s.record → ∀ later t,
    Runs config definition participants s later t →
      t.record.status ≠ .compensating ∧ t.record.status ≠ .compensated ∧
        ∀ made ∈ t.calls, made.direction ≠ .backward
  /-- A compensation starts only below the turning step, past which nothing was started, after every
  step above it is undone, and never again for a step that is. -/
  compensation : ∀ action t made, s.act config definition participants action = some t →
    t.calls = s.calls ++ [made] → made.direction = .backward →
      ∃ turn : Nat, (forwardFailed s.record.log).getLast? = definition.names[turn]? ∧
        made.index ≤ (turn : Int) ∧
        (∀ other ∈ s.calls, other.direction = .forward → other.index ≤ (turn : Int)) ∧
        (∀ (index : Nat) (name : String), made.index < (index : Int) → index ≤ turn →
          definition.names[index]? = some name → name ∈ undoneSteps s.record.log) ∧
        made.step ∉ undoneSteps s.record.log
  /-- Repeated calls for one step aside, compensations go strictly downwards. -/
  order : ((compensated s.calls).destutter (· ≠ ·)).Pairwise (· > ·)
  noPivot : (∀ step ∈ definition.steps, step.kind ≠ .pivot) → s.record.status = .running →
    ∀ action t, s.act config definition participants action = some t → t.record.status ≠ .stuck

theorem RunInvariant.committed (formed : definition.WellFormed)
    (invariant : RunInvariant definition limit s) (done : PivotCompleted definition s.record) :
    s.record.status ≠ .compensating ∧ s.record.status ≠ .compensated ∧
      ∀ made ∈ s.calls, made.direction ≠ .backward := by
  rcases invariant.standing with ⟨position, ascending⟩ | ⟨turn, unwinding⟩
  · have onward : s.record.status ≠ .compensating ∧ s.record.status ≠ .compensated := by
      rcases ascending.row.status with ⟨other, _⟩ | ⟨other, _⟩ | ⟨other, _⟩ <;> simp [other]
    refine ⟨onward.1, onward.2, ?_⟩
    intro made member
    rw [ascending.forward made member]
    decide
  · exact absurd done (unwinding.row.not_pivotCompleted formed)

theorem Unwinding.mem_undoneSteps_iff {turn cursor index : Nat}
    {name : String} (formed : definition.WellFormed)
    (unwinding : Unwinding definition record turn) (here : record.cursor = cursor)
    (named : definition.names[index]? = some name) :
    name ∈ undoneSteps record.log ↔ cursor < index ∧ index ≤ turn := by
  rw [unwinding.undone, List.mem_reverse, here,
    show ((cursor : Int) + 1).toNat = cursor + 1 by omega,
    List.mem_iff_getElem?]
  constructor
  · intro found
    obtain ⟨offset, taken⟩ := found
    rw [List.getElem?_drop] at taken
    obtain ⟨bound, same⟩ := List.getElem?_eq_some_iff.mp taken
    rw [List.length_take] at bound
    rw [List.getElem_take] at same
    obtain ⟨inside, other⟩ := List.getElem?_eq_some_iff.mp named
    have unique := formed.distinct.getElem_inj_iff.mp (other.trans same.symm)
    omega
  · intro between
    refine ⟨index - (cursor + 1), ?_⟩
    rw [List.getElem?_drop, show cursor + 1 + (index - (cursor + 1)) = index by omega,
      List.getElem?_take_of_lt (by omega), named]

theorem act_calls (taken : s.act config definition participants action = some t)
    (called : t.calls = s.calls ++ [made]) :
    ∃ decision, Decided definition s.record decision ∧ callOf s.record decision = some made := by
  rcases (act_appends taken).2 with same | ⟨decision, decided, calls⟩
  · rw [same] at called
    simp at called
  · refine ⟨decision, decided, ?_⟩
    have tail := List.append_cancel_left (calls.symm.trans called)
    cases chosen : callOf s.record decision with
    | none => simp [chosen] at tail
    | some => simpa [chosen] using tail

theorem RunInvariant.compensation (formed : definition.WellFormed)
    (invariant : RunInvariant definition limit s)
    (taken : s.act config definition participants action = some t)
    (called : t.calls = s.calls ++ [made]) (backward : made.direction = .backward) :
    ∃ turn : Nat, (forwardFailed s.record.log).getLast? = definition.names[turn]? ∧
      made.index ≤ turn ∧
      (∀ other ∈ s.calls, other.direction = .forward → other.index ≤ turn) ∧
      (∀ (index : Nat) (name : String), made.index < (index : Int) → index ≤ turn →
        definition.names[index]? = some name → name ∈ undoneSteps s.record.log) ∧
      made.step ∉ undoneSteps s.record.log := by
  obtain ⟨decision, decided, chosen⟩ := act_calls taken called
  have member : made ∈ (callOf s.record decision).toList := by simp [chosen]
  rcases invariant.standing with ⟨position, ascending⟩ | ⟨turn, unwinding⟩
  · have running := (ascending.row.running decided.inFlight).1
    cases (callOf_forward running decided member).symm.trans backward
  · obtain ⟨back, cursor, here⟩ := unwinding.row.compensating decided.inFlight
    have high := unwinding.row.high
    obtain ⟨atCursor, index, atIndex, named, _⟩ := callOf_named decided member
    refine ⟨turn, unwinding.row.failed, by omega, fun other old _ => unwinding.reached other old,
      ?_, ?_⟩
    · intro other name above below found
      exact (unwinding.row.mem_undoneSteps_iff formed here found).mpr (by omega)
    · rw [unwinding.row.mem_undoneSteps_iff formed here named]
      omega

theorem strict_of_isChain_ne {indices : List Int} (weak : indices.Pairwise (· ≥ ·))
    (apart : indices.IsChain (· ≠ ·)) : indices.Pairwise (· > ·) := by
  induction indices with
  | nil => exact List.Pairwise.nil
  | cons first rest ih =>
    rw [List.pairwise_cons] at weak ⊢
    refine ⟨?_, ih weak.2 apart.tail⟩
    intro index member
    cases rest with
    | nil => cases member
    | cons second =>
      have other := (List.isChain_cons_cons.mp apart).1
      have below := weak.1 second List.mem_cons_self
      rcases List.mem_cons.mp member with same | later
      · omega
      · have further := (List.pairwise_cons.mp weak.2).1 index later
        omega

theorem RunInvariant.order (invariant : RunInvariant definition limit s) :
    ((compensated s.calls).destutter (· ≠ ·)).Pairwise (· > ·) := by
  rcases invariant.standing with ⟨position, ascending⟩ | ⟨turn, unwinding⟩
  · rw [compensated_eq_nil ascending.forward]
    exact List.Pairwise.nil
  · exact strict_of_isChain_ne (unwinding.ordered.sublist (List.destutter_sublist _ _))
      (List.isChain_destutter _ _)

/-- Without a pivot every step is compensatable, so a forward failure turns the saga around
rather than leaving it stuck. -/
theorem RunInvariant.noPivot (formed : definition.WellFormed)
    (invariant : RunInvariant definition config.policy.maxAttempts s)
    (none : ∀ step ∈ definition.steps, step.kind ≠ .pivot) (running : s.record.status = .running)
    (taken : s.act config definition participants action = some t) : t.record.status ≠ .stuck := by
  have edge := SagaDefinition.boundary_of_no_pivot none
  cases acted taken with
  | claimed | stopped | crashed =>
    change s.record.status ≠ .stuck
    simp [running]
  | refused inFlight refused => exact (invariant.rowInvariant.not_refused inFlight refused).elim
  | saved decided performed =>
    intro stuck
    rcases invariant.standing with ⟨position, ascending⟩ | ⟨turn, unwinding⟩
    · rcases ascending.row.move _ formed decided (perform_move performed) with
        ⟨position', _, next⟩ | ⟨status, _⟩
      · rcases next.status with ⟨other, _⟩ | ⟨other, _⟩ | ⟨_, inside, past⟩
        · rw [stuck] at other
          cases other
        · rw [stuck] at other
          cases other
        · omega
      · cases status.symm.trans stuck
    · exact absurd running unwinding.row.not_forward.1

end Run

/-- The point of no return holds in every state of every run of an accepted definition. -/
theorem point_of_no_return {W O : Type} (config : SagaConfig) (participants : Participants W O)
    {name : String} {steps : List SagaStep} {definition : SagaDefinition}
    (accepted : defineSaga name steps = .ok definition)
    (positive : 1 ≤ config.policy.maxAttempts) (input : NewSagaInstance) (now : Date)
    (world : W) {actions : List (RunAction O)} {s : RunState W}
    (run : Runs config definition participants (.started input now world) actions s) :
    PointOfNoReturn config definition participants s := by
  have formed := ((defineSaga_eq_ok_iff _ _ _).mp accepted).2
  have invariant := RunInvariant.run formed positive run
  refine ⟨?_, ?_, invariant.order, ?_⟩
  · intro done later t continued
    exact (RunInvariant.run formed positive (run.append continued)).committed formed
      (done.run continued)
  · intro action t made taken called backward
    exact invariant.compensation formed taken called backward
  · intro none running action t taken
    exact invariant.noPivot formed none running taken

theorem point_of_no_return_refused_pivot :
    ∃ t, Runs defaultConfig shipping .free (.started shippingInput 0 ()) refusedPivot t ∧
      PointOfNoReturn defaultConfig shipping .free t :=
  ⟨_, steps_iff_execute.mpr rfl,
    point_of_no_return defaultConfig .free
      (show defineSaga "shipping" shippingSteps = .ok shipping from rfl)
      (by decide) shippingInput 0 ()
      (show Runs _ _ _ _ refusedPivot _ from steps_iff_execute.mpr rfl)⟩

end NestApi.Saga
