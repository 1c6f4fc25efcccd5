import Mathlib.Data.List.Basic

namespace NestApi

variable {σ α : Type}

/-- Finite runs of a labelled step relation, earliest action first. -/
inductive Steps (step : σ → α → σ → Prop) : σ → List α → σ → Prop where
  | nil (s : σ) : Steps step s [] s
  | cons {s t u a rest} (head : step s a t)
      (tail : Steps step t rest u) : Steps step s (a :: rest) u

/-- The runs of a step relation whose every action is allowed where it is taken. -/
def Guarded (allowed : σ → α → Prop) (step : σ → α → σ → Prop) (s : σ) (a : α) (t : σ) : Prop :=
  allowed s a ∧ step s a t

/-- The step relation of a partial transition function. -/
def Executes (act : σ → α → Option σ) (s : σ) (a : α) (t : σ) : Prop :=
  act s a = some t

def execute (act : σ → α → Option σ) : σ → List α → Option σ
  | s, [] => some s
  | s, a :: rest => (act s a).bind fun t => execute act t rest

variable {step : σ → α → σ → Prop} {s t u : σ} {actions : List α} {allowed : σ → α → Prop}
  {act : σ → α → Option σ} {first second : List α}

theorem Steps.single {a : α} (taken : step s a t) : Steps step s [a] t :=
  .cons taken (.nil t)

theorem Steps.append (left : Steps step s first t)
    (right : Steps step t second u) : Steps step s (first ++ second) u := by
  induction left with
  | nil => exact right
  | cons head _ ih => exact .cons head (ih right)

theorem Steps.snoc {a : α} (run : Steps step s actions t) (last : step t a u) :
    Steps step s (actions ++ [a]) u :=
  run.append (.single last)

theorem Steps.split (run : Steps step s (first ++ second) u) :
    ∃ t, Steps step s first t ∧ Steps step t second u := by
  induction first generalizing s with
  | nil => exact ⟨s, .nil s, run⟩
  | cons a first ih =>
    cases run with
    | cons head tail =>
      obtain ⟨t, left, right⟩ := ih tail
      exact ⟨t, .cons head left, right⟩

/-- A state predicate kept by every step holds at the end of every run. -/
theorem Steps.invariant (holds : σ → Prop) (kept : ∀ s a t, holds s → step s a t → holds t)
    (run : Steps step s actions t) (start : holds s) : holds t := by
  induction run with
  | nil => exact start
  | cons head _ ih => exact ih (kept _ _ _ start head)

/-- The same for a predicate that also speaks of the actions taken so far. -/
theorem Steps.recall (holds : List α → σ → Prop) (run : Steps step s actions t) (start : holds [] s)
    (kept : ∀ past u a v, Steps step s past u → holds past u → step u a v →
      holds (past ++ [a]) v) : holds actions t := by
  have onward : ∀ {u v rest}, Steps step u rest v → ∀ past, Steps step s past u →
      holds past u → holds (past ++ rest) v := by
    intro u v rest tail
    induction tail with
    | nil =>
      intro past _ here
      rwa [List.append_nil]
    | cons head _ ih =>
      intro past before here
      rw [List.append_cons]
      exact ih _ (before.snoc head) (kept _ _ _ _ before here head)
  exact onward run [] (.nil s) start

/-- A goal can be reached from wherever an invariant holds if the way to it can always be
made shorter. -/
theorem Steps.reach (rank : σ → Nat) {holds goal : σ → Prop} (closer : ∀ s, holds s → ¬ goal s →
      ∃ actions t, Steps step s actions t ∧ holds t ∧ rank t < rank s) (start : holds s) :
    ∃ actions t, Steps step s actions t ∧ holds t ∧ goal t := by
  induction measured : rank s using Nat.strongRecOn generalizing s with
  | ind left ih =>
    by_cases there : goal s
    · exact ⟨[], s, .nil s, start, there⟩
    · obtain ⟨first, t, run, kept, less⟩ := closer s start there
      obtain ⟨rest, u, onward, ends⟩ := ih (rank t) (measured ▸ less) kept rfl
      exact ⟨first ++ rest, u, run.append onward, ends⟩

/-- A run of one relation is a run of any relation that allows its steps, given an invariant of the
run. -/
theorem Steps.mono {step' : σ → α → σ → Prop} (holds : σ → Prop)
    (kept : ∀ s a t, holds s → step s a t → holds t)
    (weaker : ∀ s a t, holds s → step s a t → step' s a t) (run : Steps step s actions t)
    (start : holds s) : Steps step' s actions t := by
  induction run with
  | nil => exact .nil _
  | cons head _ ih => exact .cons (weaker _ _ _ start head) (ih (kept _ _ _ start head))

theorem Steps.of_guarded (run : Steps (Guarded allowed step) s actions t) :
    Steps step s actions t :=
  run.mono (fun _ => True) (fun _ _ _ _ _ => trivial) (fun _ _ _ _ taken => taken.2) trivial

/-- A property that a step keeps exactly when it is allowed holds at the end of a run exactly when
every step was allowed. -/
theorem Steps.guarded_iff (inv holds : σ → Prop) (kept : ∀ s a t, inv s → act s a = some t → inv t)
    (exact' : ∀ s a t, inv s → act s a = some t → (holds t ↔ holds s ∧ allowed s a))
    (run : Steps (Executes act) s actions t) (start : inv s) :
    holds t ↔ holds s ∧ Steps (Guarded allowed (Executes act)) s actions t := by
  induction run with
  | nil s => exact ⟨fun here => ⟨here, .nil s⟩, fun both => both.1⟩
  | cons head _ ih =>
    rw [ih (kept _ _ _ start head), exact' _ _ _ start head]
    constructor
    · rintro ⟨⟨before, here⟩, rest⟩
      exact ⟨before, .cons ⟨here, head⟩ rest⟩
    · rintro ⟨before, run⟩
      cases run with
      | cons taken rest =>
        have same := Option.some.inj (taken.2.symm.trans head)
        exact ⟨⟨before, taken.1⟩, same ▸ rest⟩

/-- Everything a run logs is good exactly when every step is allowed, if a step logs only good
things exactly when it is allowed. -/
theorem Steps.log_iff {β : Type} (log : σ → List β) (emits : σ → α → List β) (good : β → Prop)
    (logged : ∀ s a t, act s a = some t → log t = log s ++ emits s a)
    (emitted : ∀ s a, (∀ x ∈ emits s a, good x) ↔ allowed s a)
    (run : Steps (Executes act) s actions t) : (∀ x ∈ log t, good x) ↔
      (∀ x ∈ log s, good x) ∧ Steps (Guarded allowed (Executes act)) s actions t := by
  refine run.guarded_iff (fun _ => True) (fun u => ∀ x ∈ log u, good x)
    (fun _ _ _ _ _ => trivial) ?_ trivial
  intro u a v _ taken
  rw [logged u a v taken, ← emitted]
  simp only [List.mem_append, or_imp, forall_and]

/-- A step that has a condition was taken under it. -/
theorem of_ite_some {p : Prop} [Decidable p] (taken : (if p then some s else none) = some t) :
    p ∧ s = t :=
  (Option.ite_none_right_eq_some.mp taken).imp_right Option.some.inj

theorem of_ite_none {p : Prop} [Decidable p] (taken : (if p then none else some s) = some t) :
    ¬ p ∧ s = t :=
  (Option.ite_none_left_eq_some.mp taken).imp_right Option.some.inj

/-- Running the actions of a transition function one after another is a run of its
step relation. -/
theorem steps_iff_execute : Steps (Executes act) s actions t ↔ execute act s actions = some t := by
  induction actions generalizing s with
  | nil =>
    constructor
    · intro run
      cases run
      rfl
    · intro same
      cases same
      exact .nil _
  | cons a rest ih =>
    constructor
    · intro run
      cases run with
      | cons head tail =>
        rw [execute, show act s a = some _ from head]
        exact ih.mp tail
    · intro ran
      simp only [execute, Option.bind_eq_some_iff] at ran
      obtain ⟨middle, head, tail⟩ := ran
      exact .cons head (ih.mpr tail)

/-- A guarded run is one with the guard checked. -/
theorem steps_guarded_iff_execute [∀ s a, Decidable (allowed s a)] :
    Steps (Guarded allowed (Executes act)) s actions t ↔
      execute (fun s a => if allowed s a then act s a else none) s actions = some t := by
  have same : Guarded allowed (Executes act) =
      Executes (fun s a => if allowed s a then act s a else none) := by
    funext s a t
    simp [Guarded, Executes]
  rw [same, steps_iff_execute]

section Found

variable {β : Type} {found : Option β} {p : β → Prop} [DecidablePred p] {ends : σ → Prop}
  [DecidablePred ends]

instance Option.decidableExists : Decidable (∃ x, found = some x ∧ p x) :=
  decidable_of_iff (found.any fun x => decide (p x)) (by simp [Option.any_eq_true])

/-- Where a run ends is found by carrying it out. -/
instance Steps.decidableExists : Decidable (∃ t, Steps (Executes act) s actions t ∧ ends t) :=
  decidable_of_iff (∃ t, execute act s actions = some t ∧ ends t) (by simp only [steps_iff_execute])

instance Steps.decidableExistsGuarded [∀ s a, Decidable (allowed s a)] :
    Decidable (∃ t, Steps (Guarded allowed (Executes act)) s actions t ∧ ends t) :=
  decidable_of_iff (∃ t, execute (fun s a => if allowed s a then act s a else none) s actions =
    some t ∧ ends t) (by simp only [steps_guarded_iff_execute])

end Found

/-- What follows from a run that is found by carrying it out. -/
theorem exists_and_of {p q r : σ → Prop} (found : ∃ t, p t ∧ q t)
    (more : ∀ t, p t → q t → r t) : ∃ t, p t ∧ q t ∧ r t := by
  obtain ⟨t, ran, ended⟩ := found
  exact ⟨t, ran, ended, more t ran ended⟩

theorem exists_and_of_and {p q q' r : σ → Prop} (found : ∃ t, p t ∧ q t ∧ q' t)
    (more : ∀ t, p t → q t → q' t → r t) : ∃ t, p t ∧ q t ∧ q' t ∧ r t := by
  obtain ⟨t, ran, ended, ended'⟩ := found
  exact ⟨t, ran, ended, ended', more t ran ended ended'⟩

end NestApi
