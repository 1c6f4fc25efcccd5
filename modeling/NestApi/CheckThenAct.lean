import Mathlib.Data.List.Basic
import Mathlib.Data.Nat.Basic

namespace NestApi.CheckThenAct

variable {ι : Type}

/-- Where an execution stands: before its check, between a check that found nothing done and its
act, or behind both. -/
inductive Phase where
  | ready
  | armed
  | done
  deriving DecidableEq

/-- Executions that each check a flag and, if it was not set, set it in a later step. -/
structure Race (ι : Type) where
  phase : ι → Phase
  settled : Bool
  acts : Nat

def Race.start (settled : Bool) : Race ι := ⟨fun _ => .ready, settled, 0⟩

variable [DecidableEq ι]

def Race.turn (race : Race ι) (i : ι) : Race ι :=
  match race.phase i with
  | .ready =>
    { race with phase := Function.update race.phase i (if race.settled then .done else .armed) }
  | .armed => ⟨Function.update race.phase i .done, true, race.acts + 1⟩
  | .done => race

/-- Whether, when the first execution acts, another one that has checked is still to act. -/
def overlaps (checked : List ι) : List ι → Bool
  | [] => false
  | i :: rest =>
    if i ∈ checked then checked.any fun j => j ≠ i ∧ j ∈ rest else overlaps (i :: checked) rest

section Turn

variable {race : Race ι} {i : ι}

theorem turn_of_ready (phase : race.phase i = .ready) : race.turn i =
    { race with
      phase := Function.update race.phase i (if race.settled then .done else .armed) } := by
  simp only [Race.turn, phase]

theorem turn_of_armed (phase : race.phase i = .armed) :
    race.turn i = ⟨Function.update race.phase i .done, true, race.acts + 1⟩ := by
  simp only [Race.turn, phase]

theorem turn_of_done (phase : race.phase i = .done) : race.turn i = race := by
  simp only [Race.turn, phase]

end Turn

theorem acts_le_run (race : Race ι) (schedule : List ι) :
    race.acts ≤ (schedule.foldl Race.turn race).acts := by
  induction schedule generalizing race with
  | nil => exact Nat.le_refl _
  | cons i rest ih =>
    refine Nat.le_trans ?_ (ih (race.turn i))
    cases phase : race.phase i with
    | ready => rw [turn_of_ready phase]
    | armed =>
      rw [turn_of_armed phase]
      exact Nat.le_succ _
    | done => rw [turn_of_done phase]

/-- Once the flag is set, only executions that have checked before still act. -/
theorem acts_of_settled (race : Race ι) (settled : race.settled = true) (schedule : List ι) :
    (schedule.foldl Race.turn race).acts ≤ race.acts ↔ ∀ i ∈ schedule, race.phase i ≠ .armed := by
  induction schedule generalizing race with
  | nil => simp
  | cons i rest ih =>
    rw [List.foldl_cons, List.forall_mem_cons]
    cases phase : race.phase i with
    | ready =>
      have others : ∀ j, Function.update race.phase i .done j ≠ .armed ↔ race.phase j ≠ .armed := by
        intro j
        by_cases same : j = i
        · simp [same, phase]
        · simp [same]
      rw [turn_of_ready phase, if_pos settled,
        ih { race with phase := Function.update race.phase i .done } settled]
      simp [others]
    | armed =>
      rw [turn_of_armed phase]
      have more : race.acts + 1 ≤ _ :=
        acts_le_run ⟨Function.update race.phase i .done, true, race.acts + 1⟩ rest
      constructor
      · intro few
        omega
      · intro wrong
        exact absurd rfl wrong.1
    | done =>
      rw [turn_of_done phase, ih race settled]
      simp

theorem acts_of_unsettled {race : Race ι} {checked : List ι} (unsettled : race.settled = false)
    (none : race.acts = 0)
    (phases : ∀ i, race.phase i = if i ∈ checked then .armed else .ready) (schedule : List ι) :
    (schedule.foldl Race.turn race).acts ≤ 1 ↔ overlaps checked schedule = false := by
  induction schedule generalizing race checked with
  | nil => simp [none, overlaps]
  | cons i rest ih =>
    rw [List.foldl_cons, overlaps]
    have phase := phases i
    by_cases member : i ∈ checked
    · rw [if_pos member] at phase
      rw [if_pos member, turn_of_armed phase, none]
      refine (acts_of_settled ⟨Function.update race.phase i .done, true, 0 + 1⟩ rfl rest).trans ?_
      simp only [List.any_eq_false, Bool.decide_and, Bool.and_eq_true, decide_eq_true_eq, not_and]
      constructor
      · intro gone j there apart later
        apply gone j later
        rw [Function.update_of_ne apart, phases j, if_pos there]
      · intro gone j later
        by_cases same : j = i
        · simp [same]
        · rw [Function.update_of_ne same, phases j]
          by_cases there : j ∈ checked
          · exact absurd later (gone j there same)
          · simp [there]
    · rw [if_neg member] at phase
      rw [if_neg member, turn_of_ready phase, unsettled]
      refine ih rfl none ?_
      intro j
      by_cases same : j = i
      · simp [same]
      · simp [same, phases j]

/-- At most one execution acts exactly if there was nothing to do, or no other that had checked was
left when the first one acted. -/
theorem acts_le_one_iff (settled : Bool) (schedule : List ι) :
    (schedule.foldl Race.turn (Race.start settled)).acts ≤ 1 ↔
      settled = true ∨ overlaps [] schedule = false := by
  cases settled with
  | false =>
    have unsettled : (schedule.foldl Race.turn (Race.start false)).acts ≤ 1 ↔
        overlaps [] schedule = false :=
      acts_of_unsettled rfl rfl (fun _ => rfl) schedule
    simpa using unsettled
  | true =>
    have none := (acts_of_settled (Race.start true) rfl schedule).mpr fun i _ => by
      simp [Race.start]
    have some : (schedule.foldl Race.turn (Race.start true)).acts ≤ 1 :=
      Nat.le_trans none (Nat.zero_le 1)
    simpa using some

end NestApi.CheckThenAct
