import NestApi.SagaCoherence
import Mathlib.Data.List.Destutter

namespace NestApi.Saga

def isBackward (made : Call) : Bool := made.direction = .backward

/-- The steps `compensate` was called on, earliest call first. -/
def compensated (calls : List Call) : List Int :=
  (calls.filter isBackward).map Call.index

/-- A run on its way forward: no step past the cursor was ever started, and nothing was
compensated. -/
structure AscendingRun {W : Type} (definition : SagaDefinition) (s : RunState W)
    (position : Nat) : Prop where
  row : Ascending definition s.record position
  forward : ∀ made ∈ s.calls, made.direction = .forward
  reached : ∀ made ∈ s.calls, made.index ≤ position

/-- A run on its way back: no step past the turning step was started, and compensations went down
from it to the cursor. -/
structure UnwindingRun {W : Type} (definition : SagaDefinition) (s : RunState W)
    (turn : Nat) : Prop where
  row : Unwinding definition s.record turn
  reached : ∀ made ∈ s.calls, made.index ≤ turn
  above : ∀ index ∈ compensated s.calls, s.record.cursor ≤ index
  ordered : (compensated s.calls).Pairwise (· ≥ ·)

def Named (definition : SagaDefinition) (id : String) (made : Call) : Prop :=
  ∃ index : Nat, made.index = index ∧ definition.names[index]? = some made.step ∧
    made.key = id ++ ":" ++ made.step

/-- The invariant of a run: where the row stands, and what was called to get there. -/
structure RunInvariant {W : Type} (definition : SagaDefinition) (limit : Nat)
    (s : RunState W) : Prop where
  standing : (∃ position, AscendingRun definition s position) ∨
    ∃ turn, UnwindingRun definition s turn
  ladder : isTerminal s.record.status = false → s.record.attempts < limit
  named : ∀ made ∈ s.calls, Named definition s.record.id made

section Calls

variable {W O : Type} {config : SagaConfig} {definition : SagaDefinition} {limit : Nat}
  {participants : Participants W O}

variable {s : RunState W} {record : SagaInstanceRecord} {decision : Decision} {calls : List Call}
  {made : Call} {t : RunState W}

theorem RunInvariant.rowInvariant (invariant : RunInvariant definition limit s) :
    RowInvariant definition limit s.record := by
  refine ⟨?_, invariant.ladder⟩
  rcases invariant.standing with ⟨position, ascending⟩ | ⟨turn, unwinding⟩
  · exact Or.inl ⟨position, ascending.row⟩
  · exact Or.inr ⟨turn, unwinding.row⟩

theorem compensated_append (first second : List Call) :
    compensated (first ++ second) = compensated first ++ compensated second := by
  simp [compensated]

theorem compensated_eq_nil (forward : ∀ made ∈ calls, made.direction = .forward) :
    compensated calls = [] := by
  simp only [compensated, List.map_eq_nil_iff, List.filter_eq_nil_iff]
  intro made member
  simp [isBackward, forward made member]

theorem callOf_named (decided : Decided definition record decision)
    (called : made ∈ (callOf record decision).toList) :
    made.index = record.cursor ∧ Named definition record.id made := by
  have named {next : SagaStep} (found : definition.stepAt record.cursor = some next) :
      ∃ index : Nat, record.cursor = index ∧ definition.names[index]? = some next.name := by
    obtain ⟨index, here, found⟩ := stepAt_eq_some found
    exact ⟨index, here, by rw [SagaDefinition.getElem?_names, found, Option.map_some]⟩
  cases decided with
  | execute found | compensate found =>
    rw [callOf, Option.toList_some, List.mem_singleton] at called
    subst called
    obtain ⟨index, here, named⟩ := named found
    exact ⟨rfl, index, here, named, rfl⟩
  | skip => cases called

theorem callOf_forward (running : record.status = .running)
    (decided : Decided definition record decision)
    (called : made ∈ (callOf record decision).toList) : made.direction = .forward := by
  cases decided with
  | execute =>
    rw [callOf, Option.toList_some, List.mem_singleton] at called
    rw [called]
  | compensate _ back | skip _ back => cases running.symm.trans back

theorem mem_compensated {index : Int} : index ∈ compensated calls ↔
      ∃ made ∈ calls, made.direction = .backward ∧ made.index = index := by
  simp [compensated, isBackward, and_assoc]

/-- The calls of a run on its way forward after one more turn, saved or not. -/
theorem AscendingRun.called {position : Nat} (ascending : AscendingRun definition s position)
    (decided : Decided definition s.record decision) :
    (∀ made ∈ s.calls ++ (callOf s.record decision).toList, made.direction = .forward) ∧
      ∀ made ∈ s.calls ++ (callOf s.record decision).toList, made.index ≤ position := by
  have running := (ascending.row.running decided.inFlight).1
  have cursor := ascending.row.cursor
  constructor
  · exact List.forall_mem_append.mpr
      ⟨ascending.forward, fun _ new => callOf_forward running decided new⟩
  · refine List.forall_mem_append.mpr ⟨ascending.reached, fun made new => ?_⟩
    have here := (callOf_named decided new).1
    omega

/-- The calls of a run on its way back after one more turn, saved or not. -/
theorem UnwindingRun.called {turn : Nat} (unwinding : UnwindingRun definition s turn)
    (decided : Decided definition s.record decision) :
    (∀ made ∈ s.calls ++ (callOf s.record decision).toList, made.index ≤ turn) ∧
      (∀ index ∈ compensated (s.calls ++ (callOf s.record decision).toList),
        s.record.cursor ≤ index) ∧
      (compensated (s.calls ++ (callOf s.record decision).toList)).Pairwise (· ≥ ·) := by
  have high := unwinding.row.high
  have new : ∀ index ∈ compensated (callOf s.record decision).toList, index = s.record.cursor := by
    intro index member
    obtain ⟨made, called, _, rfl⟩ := mem_compensated.mp member
    exact (callOf_named decided called).1
  refine ⟨?_, ?_, ?_⟩
  · refine List.forall_mem_append.mpr ⟨unwinding.reached, fun made called => ?_⟩
    have here := (callOf_named decided called).1
    omega
  · rw [compensated_append, List.forall_mem_append]
    exact ⟨unwinding.above, fun index called => (new index called).ge⟩
  · rw [compensated_append, List.pairwise_append]
    refine ⟨unwinding.ordered, ?_, ?_⟩
    · cases decision with
      | execute | compensate => simp [compensated, callOf, isBackward]
      | skip => simp [compensated, callOf]
    · intro earlier old later called
      rw [new later called]
      exact unwinding.above earlier old

namespace RunInvariant

theorem crashed (invariant : RunInvariant definition limit s)
    (decided : Decided definition s.record decision) (world : W) : RunInvariant definition limit
      { s with world := world, calls := s.calls ++ (callOf s.record decision).toList } := by
  refine ⟨?_, invariant.ladder, ?_⟩
  · rcases invariant.standing with ⟨position, ascending⟩ | ⟨turn, unwinding⟩
    · obtain ⟨forward, reached⟩ := ascending.called decided
      exact Or.inl ⟨position, ascending.row, forward, reached⟩
    · obtain ⟨reached, above, ordered⟩ := unwinding.called decided
      exact Or.inr ⟨turn, unwinding.row, reached, above, ordered⟩
  · exact List.forall_mem_append.mpr ⟨invariant.named, fun _ new => (callOf_named decided new).2⟩

theorem saved {progress : SagaProgress} (formed : definition.WellFormed)
    (positive : 1 ≤ limit) (invariant : RunInvariant definition limit s)
    (decided : Decided definition s.record decision)
    (move : Move definition limit s.record decision progress) (claim : SagaClaim) (world : W) :
    RunInvariant definition limit
      { record := s.record.saved claim progress
        world := world
        calls := s.calls ++ (callOf s.record decision).toList } := by
  have named := (invariant.crashed decided world).named
  refine ⟨?_, move.ladder positive, named⟩
  rcases invariant.standing with ⟨position, ascending⟩ | ⟨turn, unwinding⟩
  · obtain ⟨forward, reached⟩ := ascending.called decided
    rcases ascending.row.move claim formed decided move with
      ⟨position', further, row⟩ | ⟨_, row⟩
    · refine Or.inl ⟨position', row, forward, ?_⟩
      intro made member
      have := reached made member
      omega
    · have none := compensated_eq_nil forward
      refine Or.inr ⟨position, row, reached, ?_, ?_⟩
      · intro index member
        rw [none] at member
        cases member
      · rw [none]
        exact List.Pairwise.nil
  · obtain ⟨reached, above, ordered⟩ := unwinding.called decided
    obtain ⟨row, lower⟩ := unwinding.row.move claim decided move
    refine Or.inr ⟨turn, row, reached, ?_, ordered⟩
    intro index member
    have := above index member
    change progress.cursor ≤ index
    omega

theorem leased (invariant : RunInvariant definition limit s) (claim : SagaClaim) :
    RunInvariant definition limit { s with record := s.record.leased claim } := by
  refine ⟨?_, invariant.ladder, invariant.named⟩
  rcases invariant.standing with ⟨position, ascending⟩ | ⟨turn, unwinding⟩
  · exact Or.inl ⟨position, ascending.row.congr rfl rfl rfl, ascending.forward, ascending.reached⟩
  · exact Or.inr ⟨turn, unwinding.row.congr rfl rfl rfl, unwinding.reached, unwinding.above,
      unwinding.ordered⟩

theorem act {action : RunAction O} (formed : definition.WellFormed)
    (positive : 1 ≤ config.policy.maxAttempts)
    (invariant : RunInvariant definition config.policy.maxAttempts s)
    (taken : s.act config definition participants action = some t) :
    RunInvariant definition config.policy.maxAttempts t := by
  cases acted taken with
  | claimed => exact invariant.leased _
  | refused inFlight refused => exact (invariant.rowInvariant.not_refused inFlight refused).elim
  | saved decided performed =>
    exact invariant.saved formed positive decided (perform_move performed) _ _
  | stopped => exact invariant
  | crashed decided => exact invariant.crashed decided _

theorem started (formed : definition.WellFormed) (positive : 1 ≤ limit)
    (input : NewSagaInstance) (now : Date) (world : W) :
    RunInvariant definition limit (RunState.started input now world) := by
  refine ⟨Or.inl ⟨0, Ascending.created formed input now, ?_, ?_⟩, fun _ => positive, ?_⟩ <;>
    · intro made member
      cases member

theorem run (formed : definition.WellFormed)
    (positive : 1 ≤ config.policy.maxAttempts) {input : NewSagaInstance} {now : Date}
    {world : W} {actions : List (RunAction O)}
    (run : Runs config definition participants (.started input now world) actions t) :
    RunInvariant definition config.policy.maxAttempts t := by
  refine Steps.invariant (RunInvariant definition config.policy.maxAttempts) ?_ run
    (RunInvariant.started formed positive input now world)
  intro s action u invariant taken
  exact invariant.act formed positive taken

end RunInvariant

end Calls

/-- In every run of an accepted definition, whatever its steps do and wherever its runners
die, the row and its log agree. -/
theorem saga_row_coherent {W O : Type} (config : SagaConfig) (participants : Participants W O)
    {name : String} {steps : List SagaStep} {definition : SagaDefinition}
    (accepted : defineSaga name steps = .ok definition)
    (positive : 1 ≤ config.policy.maxAttempts) (input : NewSagaInstance) (now : Date)
    (world : W) {actions : List (RunAction O)} {t : RunState W}
    (run : Runs config definition participants (.started input now world) actions t) :
    RowCoherent definition config.policy.maxAttempts t.record := by
  have formed := ((defineSaga_eq_ok_iff _ _ _).mp accepted).2
  exact (RunInvariant.run formed positive run).rowInvariant.coherent formed.distinct

def shippingSteps : List SagaStep :=
  [⟨"one", .compensatable⟩, ⟨"ship", .pivot⟩, ⟨"confirm", .retriable⟩]

def shipping : SagaDefinition := ⟨"shipping", shippingSteps⟩

def shippingRegistry : SagaRegistry := OrderedMap.empty.set "shipping" shipping

def shippingInput : NewSagaInstance := ⟨"saga-1", "shipping", [], none⟩

/-- The pivot is refused, so the saga turns around at it and skips it on the way back. -/
def refusedPivot : List (RunAction Settlement) :=
  [.claim "a" 0, .turn "a" 0 10 0 (.returned none),
    .turn "a" 10 20 0 (.threw ⟨Utf16.ofString "refused", true⟩), .turn "a" 20 20 0 .timedOut]

theorem saga_row_coherent_refused_pivot :
    ∃ t, Runs defaultConfig shipping .free (.started shippingInput 0 ()) refusedPivot t ∧
      t.record.status = .compensating ∧ t.record.cursor = 0 ∧ RowCoherent shipping 6 t.record :=
  ⟨_, steps_iff_execute.mpr rfl, rfl, rfl,
    saga_row_coherent defaultConfig .free
      (show defineSaga "shipping" shippingSteps = .ok shipping from rfl)
      (by decide) shippingInput 0 ()
      (show Runs _ _ _ _ refusedPivot _ from steps_iff_execute.mpr rfl)⟩

end NestApi.Saga
