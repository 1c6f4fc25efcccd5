import NestApi.SagaFleetInvariant
import NestApi.SagaHistory

namespace NestApi.Saga

open Saga.System

variable {ι : Type} [DecidableEq ι] {row : SagaInstanceRecord}

def TerminalUnlocked (s : System ι) : Prop :=
  ∀ id row, s.store.find id = some row → isTerminal row.status = true → row.lockedBy = none

/-- A runner that gives a saga up still holds it. -/
def Fenced (registry : ι → SagaRegistry) (s : System ι) : FleetAction ι → Prop
  | .resume runner => ∀ work ∈ s.work runner, work.call = none →
      (pass (registry runner) work.current work.iteration).abandons = true →
      ∀ row ∈ s.store.find work.current.id, row.lockedBy = some work.owner
  | _ => True

instance (registry : ι → SagaRegistry) (s : System ι) (action : FleetAction ι) :
    Decidable (Fenced registry s action) :=
  match action with
  | .resume runner => inferInstanceAs (Decidable (∀ work ∈ s.work runner, work.call = none →
      (pass (registry runner) work.current work.iteration).abandons = true →
      ∀ row ∈ s.store.find work.current.id, row.lockedBy = some work.owner))
  | .create _ | .advance .. | .runOnce .. | .settle .. | .fault _ | .crash _ | .tick _ =>
    inferInstanceAs (Decidable True)

theorem not_claimable_of_terminal {now : Date}
    (terminal : isTerminal row.status = true) : ¬ row.claimable now = true := by
  intro free
  rcases ((SagaInstanceRecord.claimable_iff _ _).mp free).1 with status | status <;>
    simp [status, isTerminal] at terminal

section Step

variable {config : SagaConfig} {registry : ι → SagaRegistry} {s t : System ι}
  {action : FleetAction ι}

theorem TerminalUnlocked.act (unlocked : TerminalUnlocked s)
    (taken : s.act config registry action = some t) : TerminalUnlocked t := by
  intro id row found terminal
  cases act_effect taken with
  | created inserted =>
    rw [Table.find_insert inserted] at found
    rcases Option.or_eq_some_iff.mp found with old | ⟨_, new⟩
    · exact unlocked id row old terminal
    · obtain ⟨-, rfl⟩ := of_ite_some new
      rfl
  | claimed idle fresh free =>
    simp only [assign_store, SagaStore.find_leased] at found
    obtain ⟨old, before, rfl⟩ := Option.map_eq_some_iff.mp found
    split at terminal
    · rename_i matched
      exact absurd (free old (Table.mem_of_find before) matched)
        (not_claimable_of_terminal terminal)
    · rename_i unmatched
      rw [if_neg unmatched]
      exact unlocked id old before terminal
  | moved | ticked => exact unlocked id row found terminal
  | saved busy writes =>
    simp only [save, assign_store, SagaStore.find_save] at found
    obtain ⟨old, before, rfl⟩ := Option.map_eq_some_iff.mp found
    split at terminal
    · rename_i mine
      rw [if_pos mine]
      exact SagaInstanceRecord.saved_lockedBy_of_release _ _ _ (writes.release terminal)
    · rename_i other
      rw [if_neg other]
      exact unlocked id old before terminal
  | abandoned =>
    simp only [assign_store, SagaStore.find_abandon] at found
    obtain ⟨old, before, rfl⟩ := Option.map_eq_some_iff.mp found
    split
    · rfl
    · rename_i other
      rw [if_neg other] at terminal
      exact unlocked id old before terminal

/-- A terminal row that nobody holds is left alone by claims and saves, and by an abandon of a
runner that holds its row. -/
theorem act_keeps_terminal {id : String}
    (found : s.store.find id = some row) (terminal : isTerminal row.status = true)
    (free : row.lockedBy = none) (fenced : Fenced registry s action)
    (taken : s.act config registry action = some t) : t.store.find id = some row := by
  cases act_effect taken with
  | created inserted => exact Table.find_insert_of_find inserted found
  | claimed idle fresh claimable =>
    have unmatched := fun matched =>
      not_claimable_of_terminal terminal (claimable row (Table.mem_of_find found) matched)
    rw [assign_store, SagaStore.find_leased, found, Option.map_some, if_neg unmatched]
  | moved | ticked => exact found
  | saved =>
    rw [save, assign_store, SagaStore.find_save, found, Option.map_some, if_neg]
    simp [SagaStore.saves, free]
  | @abandoned runner work reason busy waiting gone =>
    rw [assign_store, SagaStore.find_abandon, found, Option.map_some, if_neg]
    intro same
    rw [Table.find_key found] at same
    have held := fenced work busy waiting (by rw [gone]; rfl) row (same ▸ found)
    rw [free] at held
    cases held

/-- A runner saves over no row but the one it made its progress from, whatever the others do. -/
theorem holder_has_its_row {clock : Date} {actions : List (FleetAction ι)}
    (run : Steps (Executes (act config registry)) (booted clock) actions s)
    (runner : ι) {work : Work} (busy : s.work runner = some work)
    (found : s.store.find work.current.id = some row) (held : row.lockedBy = some work.owner) :
    row = work.current := by
  have invariant := Steps.invariant FleetInvariant (fun _ _ _ kept taken => kept.act taken) run
    (.booted clock)
  obtain ⟨stored, there, same⟩ := invariant.faithful runner work busy _ (.head _)
  cases there.symm.trans found
  exact same held

end Step

/-- Over the whole life of a fleet whose runners only give up sagas they hold, a finished
saga stays as it is. -/
theorem terminal_absorbing (config : SagaConfig) (registry : ι → SagaRegistry) (clock : Date)
    {earlier later : List (FleetAction ι)} {s t : System ι}
    (run : Steps (Guarded (Fenced registry) (Executes (act config registry)))
      (booted clock) earlier s)
    (continued : Steps (Guarded (Fenced registry) (Executes (act config registry)))
      s later t) {id : String} {row : SagaInstanceRecord} (found : s.store.find id = some row)
    (finished : row.status = .completed ∨ row.status = .compensated) :
    ∃ row', t.store.find id = some row' ∧ row'.status = row.status ∧
      row'.cursor = row.cursor ∧ row'.log = row.log := by
  have terminal : isTerminal row.status = true := by
    rcases finished with status | status <;> rw [status] <;> rfl
  have unlocked : TerminalUnlocked s := by
    refine Steps.invariant TerminalUnlocked (fun _ _ _ kept taken => kept.act taken.2) run ?_
    intro id row none
    cases none
  have free := unlocked id row found terminal
  have kept := Steps.invariant (fun u : System ι => u.store.find id = some row)
    (fun _ _ _ here taken => act_keeps_terminal here terminal free taken.1 taken.2) continued found
  exact ⟨row, kept, rfl, rfl, rfl⟩

/-- One runner claims the saga and stalls until its lease is over; another takes it through. -/
def stalledRunner : List (FleetAction Bool) :=
  [.create shippingInput, .advance false "a" "saga-1", .tick 30000, .advance true "b" "saga-1",
    .resume true, .settle true (.returned none) 0, .resume true, .settle true (.returned none) 0,
    .resume true, .settle true (.returned none) 0]

theorem terminal_absorbing_stalled_runner :
    ∃ s t row, Steps (Guarded (Fenced fun _ => shippingRegistry)
        (Executes (act defaultConfig fun _ => shippingRegistry)))
        (booted 0) stalledRunner s ∧
      Steps (Guarded (Fenced fun _ => shippingRegistry)
        (Executes (act defaultConfig fun _ => shippingRegistry)))
        s [.resume false, .settle false (.returned none) 0] t ∧
      s.store.find "saga-1" = some row ∧ row.status = .completed ∧
      ∃ row', t.store.find "saga-1" = some row' ∧ row'.status = row.status ∧
        row'.cursor = row.cursor ∧ row'.log = row.log :=
  ⟨_, _, _, steps_guarded_iff_execute.mpr rfl, steps_guarded_iff_execute.mpr rfl, rfl, rfl,
    terminal_absorbing defaultConfig (fun _ : Bool => shippingRegistry) 0
      (show Steps _ _ stalledRunner _ from steps_guarded_iff_execute.mpr rfl)
      (show Steps _ _ [.resume false, .settle false (.returned none) 0] _ from
        steps_guarded_iff_execute.mpr rfl) rfl (Or.inl rfl)⟩

/-- The second runner has saved a step; the first still has the row from before. -/
theorem holder_has_its_row_claimed : ∃ s stalled work row,
    Steps (Executes (act defaultConfig fun _ => shippingRegistry)) (booted 0)
      (stalledRunner.take 6) s ∧ s.work false = some stalled ∧ s.work true = some work ∧
    s.store.find work.current.id = some row ∧ row.lockedBy = some work.owner ∧
    row = work.current ∧ row.cursor = 1 ∧ stalled.current.cursor = 0 :=
  have run := steps_iff_execute.mpr rfl
  ⟨_, _, _, _, run, rfl, rfl, rfl, rfl, holder_has_its_row run true rfl rfl rfl, rfl, rfl⟩

/-- The same interleaving, but the stalled runner is of a build without the definition. -/
theorem terminal_moved_by_older_build :
    ∃ s t row row', Steps (Executes (act defaultConfig fun runner =>
        if runner then shippingRegistry else OrderedMap.empty)) (booted 0) stalledRunner s ∧
      Steps (Executes (act defaultConfig fun runner =>
        if runner then shippingRegistry else OrderedMap.empty)) s [.resume false] t ∧
      s.store.find "saga-1" = some row ∧ row.status = .completed ∧
      t.store.find "saga-1" = some row' ∧ row'.status = .stuck :=
  ⟨_, _, _, _, steps_iff_execute.mpr rfl, steps_iff_execute.mpr rfl, rfl, rfl, rfl, rfl⟩

end NestApi.Saga
