import Mathlib.Tactic

namespace NestApi.Saga

/-- Where a step sits relative to the point of no return. -/
inductive SagaStepKind where
  | compensatable
  | pivot
  | retriable
  deriving DecidableEq

def SagaStepKind.text : SagaStepKind → String
  | .compensatable => "compensatable"
  | .pivot => "pivot"
  | .retriable => "retriable"

/-- A step as the orchestrator reads one. What `execute` and `compensate` do is up to the
participants of a run, see `SagaRun`. -/
structure SagaStep where
  name : String
  kind : SagaStepKind
  deriving DecidableEq

structure SagaDefinition where
  name : String
  steps : List SagaStep
  deriving DecidableEq

structure SagaDefinitionError where
  saga : String
  problem : String
  deriving DecidableEq

def SagaDefinitionError.message (error : SagaDefinitionError) : String :=
  "Saga \"" ++ error.saga ++ "\" " ++ error.problem ++ "."

/-- The name the loop over `seen` stops at. -/
def duplicateName (seen : List String) : List SagaStep → Option String
  | [] => none
  | step :: rest =>
    if step.name ∈ seen then some step.name else duplicateName (step.name :: seen) rest

def isPivot (step : SagaStep) : Bool := step.kind = .pivot

/-- The pivot's index, or the end for a definition without one. -/
def boundary (steps : List SagaStep) : Nat :=
  (steps.findIdx? isPivot).getD steps.length

/-- What is wrong with a step at an index, in the words of the error. -/
def misplaced (bound index : Nat) (step : SagaStep) : Option String :=
  if index < bound ∧ step.kind ≠ .compensatable then
    some ("step \"" ++ step.name ++ "\" is \"" ++ step.kind.text ++ "\" but runs before the " ++
      "pivot, where every step must be compensatable")
  else if bound < index ∧ step.kind ≠ .retriable then
    some ("step \"" ++ step.name ++ "\" is \"" ++ step.kind.text ++ "\" but runs after the " ++
      "pivot, where nothing may be rolled back and every step must be retriable")
  else none

def firstMisplaced (bound : Nat) : Nat → List SagaStep → Option String
  | _, [] => none
  | index, step :: rest => (misplaced bound index step).or (firstMisplaced bound (index + 1) rest)

/-- Builds a definition and refuses an incoherent one at construction. -/
def defineSaga (name : String) (steps : List SagaStep) :
    Except SagaDefinitionError SagaDefinition :=
  if steps.length = 0 then .error ⟨name, "has no steps"⟩
  else
    match duplicateName [] steps with
    | some repeated => .error ⟨name, "declares the step \"" ++ repeated ++ "\" twice"⟩
    | none =>
      if 1 < (steps.filter isPivot).length then
        .error ⟨name, "declares more than one pivot step"⟩
      else
        match firstMisplaced (boundary steps) 0 steps with
        | some problem => .error ⟨name, problem⟩
        | none => .ok ⟨name, steps⟩

namespace SagaDefinition

def size (definition : SagaDefinition) : Nat := definition.steps.length

def names (definition : SagaDefinition) : List String := definition.steps.map SagaStep.name

/-- The shape `compensatable* pivot? retriable*`, with distinct names and at least one step. -/
structure WellFormed (definition : SagaDefinition) : Prop where
  nonempty : 0 < definition.size
  distinct : definition.names.Nodup
  before : ∀ index step, definition.steps[index]? = some step →
    index < boundary definition.steps → step.kind = .compensatable
  after : ∀ index step, definition.steps[index]? = some step →
    boundary definition.steps < index → step.kind = .retriable

variable {definition : SagaDefinition}

theorem kind_boundary {step : SagaStep}
    (found : definition.steps[boundary definition.steps]? = some step) : step.kind = .pivot := by
  unfold boundary at found
  cases index : definition.steps.findIdx? isPivot with
  | none => simp [index] at found
  | some =>
    obtain ⟨bound, isP, _⟩ := List.findIdx?_eq_some_iff_getElem.mp index
    rw [index, Option.getD_some, List.getElem?_eq_getElem bound] at found
    cases found
    simpa [isPivot] using isP

theorem WellFormed.retriable_iff (formed : definition.WellFormed)
    {index : Nat} {step : SagaStep} (found : definition.steps[index]? = some step) :
    step.kind = .retriable ↔ boundary definition.steps < index := by
  constructor
  · intro kind
    by_contra past
    rcases Nat.lt_or_eq_of_le (Nat.not_lt.mp past) with below | atPivot
    · rw [formed.before index step found below] at kind
      cases kind
    · rw [kind_boundary (atPivot ▸ found)] at kind
      cases kind
  · exact formed.after index step found

@[simp] theorem names_length (definition : SagaDefinition) :
    definition.names.length = definition.size := by
  simp [names, size]

theorem getElem?_names (definition : SagaDefinition) (index : Nat) :
    definition.names[index]? = definition.steps[index]?.map SagaStep.name := by
  simp [names]

end SagaDefinition

theorem duplicateName_eq_none_iff (seen : List String) (steps : List SagaStep) :
    duplicateName seen steps = none ↔
      (steps.map SagaStep.name).Nodup ∧ ∀ step ∈ steps, step.name ∉ seen := by
  induction steps generalizing seen with
  | nil => simp [duplicateName]
  | cons step rest ih =>
    unfold duplicateName
    split
    · rename_i repeated
      simp [repeated]
    · rename_i fresh
      simp only [ih, List.mem_cons, List.map_cons, List.nodup_cons, List.mem_map]
      constructor
      · rintro ⟨distinct, apart⟩
        refine ⟨⟨?_, distinct⟩, ?_⟩
        · rintro ⟨other, member, same⟩
          exact apart other member (Or.inl same)
        · rintro other (rfl | member)
          · exact fresh
          · exact fun seenOther => apart other member (Or.inr seenOther)
      · rintro ⟨⟨headApart, distinct⟩, apart⟩
        refine ⟨distinct, ?_⟩
        rintro other member (same | seenOther)
        · exact headApart ⟨other, member, same⟩
        · exact apart other (Or.inr member) seenOther

theorem misplaced_eq_none_iff (bound index : Nat) (step : SagaStep) :
    misplaced bound index step = none ↔
      (index < bound → step.kind = .compensatable) ∧ (bound < index → step.kind = .retriable) := by
  unfold misplaced
  split
  · rename_i wrong
    simp only [reduceCtorEq, false_iff, not_and]
    exact fun right => absurd (right wrong.1) wrong.2
  · split
    · rename_i wrong
      simp only [reduceCtorEq, false_iff, not_and]
      exact fun _ right => wrong.2 (right wrong.1)
    · rename_i notBefore notAfter
      push Not at notBefore notAfter
      simp only [true_iff]
      exact ⟨notBefore, notAfter⟩

theorem firstMisplaced_eq_none_iff (bound start : Nat) (steps : List SagaStep) :
    firstMisplaced bound start steps = none ↔
      ∀ index step, steps[index]? = some step → misplaced bound (start + index) step = none := by
  induction steps generalizing start with
  | nil => simp [firstMisplaced]
  | cons step rest ih =>
    simp only [firstMisplaced, Option.or_eq_none_iff, ih]
    constructor
    · rintro ⟨head, tail⟩ index other found
      cases index with
      | zero =>
        cases found
        exact head
      | succ index =>
        have placed := tail index other found
        rwa [show start + 1 + index = start + (index + 1) by omega] at placed
    · intro all
      refine ⟨all 0 step rfl, ?_⟩
      intro index other found
      have placed := all (index + 1) other found
      rwa [show start + (index + 1) = start + 1 + index by omega] at placed

/-- A pivot beyond the boundary would be misplaced, so the placement check already
implies that there is at most one. -/
theorem pivots_le_one (steps : List SagaStep)
    (after : ∀ index step, steps[index]? = some step →
      boundary steps < index → step.kind = .retriable) : (steps.filter isPivot).length ≤ 1 := by
  cases found : steps.findIdx? isPivot with
  | none =>
    have none := List.findIdx?_eq_none_iff.mp found
    rw [List.filter_eq_nil_iff.mpr (by simpa using none)]
    simp
  | some pivot =>
    obtain ⟨bound, isP, notBefore⟩ := List.findIdx?_eq_some_iff_getElem.mp found
    have edge : boundary steps = pivot := by simp [boundary, found]
    have split : steps = steps.take pivot ++ steps[pivot] :: steps.drop (pivot + 1) := by
      rw [List.getElem_cons_drop, List.take_append_drop]
    have front : (steps.take pivot).filter isPivot = [] := by
      rw [List.filter_eq_nil_iff]
      intro step member
      obtain ⟨index, inside, rfl⟩ := List.mem_iff_getElem.mp member
      rw [List.length_take] at inside
      rw [List.getElem_take]
      exact notBefore index (by omega)
    have back : (steps.drop (pivot + 1)).filter isPivot = [] := by
      rw [List.filter_eq_nil_iff]
      intro step member
      obtain ⟨index, inside, rfl⟩ := List.mem_iff_getElem.mp member
      rw [List.length_drop] at inside
      rw [List.getElem_drop]
      have kind := after (pivot + 1 + index) _ (List.getElem?_eq_getElem (by omega)) (by omega)
      simp [isPivot, kind]
    rw [split, List.filter_append, front, List.filter_cons, back]
    split <;> simp

/-- `defineSaga` accepts exactly the well-formed definitions, and changes nothing. -/
theorem defineSaga_eq_ok_iff (name : String) (steps : List SagaStep) (definition : SagaDefinition) :
    defineSaga name steps = .ok definition ↔
      definition = ⟨name, steps⟩ ∧ definition.WellFormed := by
  constructor
  · intro accepted
    unfold defineSaga at accepted
    split at accepted
    · cases accepted
    · rename_i some
      split at accepted
      · cases accepted
      · rename_i unique
        split at accepted
        · cases accepted
        · split at accepted
          · cases accepted
          · rename_i placed
            cases accepted
            have distinct := (duplicateName_eq_none_iff [] steps).mp unique
            have kinds := (firstMisplaced_eq_none_iff _ 0 steps).mp placed
            simp only [Nat.zero_add, misplaced_eq_none_iff] at kinds
            exact ⟨rfl, ⟨Nat.pos_of_ne_zero some, distinct.1,
              fun index step found => (kinds index step found).1,
              fun index step found => (kinds index step found).2⟩⟩
  · rintro ⟨rfl, formed⟩
    have some : ¬ steps.length = 0 := Nat.pos_iff_ne_zero.mp formed.nonempty
    have unique : duplicateName [] steps = none :=
      (duplicateName_eq_none_iff [] steps).mpr ⟨formed.distinct, by simp⟩
    have single : ¬ 1 < (steps.filter isPivot).length :=
      Nat.not_lt.mpr (pivots_le_one steps formed.after)
    have placed : firstMisplaced (boundary steps) 0 steps = none := by
      rw [firstMisplaced_eq_none_iff]
      intro index step found
      rw [Nat.zero_add, misplaced_eq_none_iff]
      exact ⟨formed.before index step found, formed.after index step found⟩
    simp [defineSaga, some, unique, single, placed]

end NestApi.Saga
