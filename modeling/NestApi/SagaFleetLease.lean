import NestApi.SagaFleetInvariant
import NestApi.SagaHistory

namespace NestApi.Saga

open SagaStore Saga.System

variable {ι : Type} [DecidableEq ι] {after : Work} {config : SagaConfig}
  {registry : ι → SagaRegistry} {s t : System ι} {runner : ι} {work : Work}

/-- Store calls and the code between them take no time, and a step call is over within the step
timeout. -/
def Timely (config : SagaConfig) (s : System ι) : FleetAction ι → Prop
  | .tick elapsed => ∀ runner, ∀ work ∈ s.work runner, ∃ started ∈ work.call,
      s.clock + elapsed ≤ started.startedAt + config.stepTimeoutMs
  | _ => True

/-- A runner turns to a record of its batch while the lease it claimed it under still runs. -/
def InLease (s : System ι) : FleetAction ι → Prop
  | .resume runner => ∀ work ∈ s.work runner, work.iteration = 0 →
      ∀ expiry ∈ work.current.lockedUntil, s.clock < expiry
  | _ => True

instance [Fintype ι] (config : SagaConfig) (s : System ι) (action : FleetAction ι) :
    Decidable (Timely config s action) :=
  match action with
  | .tick elapsed => inferInstanceAs (Decidable (∀ runner, ∀ work ∈ s.work runner,
      ∃ started ∈ work.call, s.clock + elapsed ≤ started.startedAt + config.stepTimeoutMs))
  | .create _ | .advance .. | .runOnce .. | .resume _ | .settle .. | .fault _ | .crash _ =>
    inferInstanceAs (Decidable True)

instance (s : System ι) (action : FleetAction ι) : Decidable (InLease s action) :=
  match action with
  | .resume runner => inferInstanceAs (Decidable (∀ work ∈ s.work runner, work.iteration = 0 →
      ∀ expiry ∈ work.current.lockedUntil, s.clock < expiry))
  | .create _ | .advance .. | .runOnce .. | .settle .. | .fault _ | .crash _ | .tick _ =>
    inferInstanceAs (Decidable True)

/-- A runner starts a step call on its copy `work.current`. -/
structure Starts (config : SagaConfig) (registry : ι → SagaRegistry) (s : System ι) (runner : ι)
    (work : Work) (decision : Decision) (t : System ι) : Prop where
  busy : s.work runner = some work
  taken : s.act config registry (.resume runner) = some t
  calling : ∃ definition, t.work runner =
    some { work with call := some ⟨definition, decision, s.clock⟩ }

/-- The persisted row is the runner's and says what its copy says. -/
def Held (s : System ι) (work : Work) (decision : Decision) : Prop :=
  ∃ row expiry, s.store.find work.current.id = some row ∧ row.lockedBy = some work.owner ∧
    row.lockedUntil = some expiry ∧ s.clock < expiry ∧ row.status = work.current.status ∧
    row.cursor = work.current.cursor ∧ ((∃ step, decision = .execute step) → row.status = .running)

/-- A copy whose lease still runs is the row, and a runner that goes on after a save is within its
lease. -/
structure LeaseInvariant (s : System ι) : Prop extends FleetInvariant s where
  leased : ∀ runner work, s.work runner = some work → ∀ copy ∈ work.copies,
    ∃ expiry, copy.lockedUntil = some expiry ∧ (s.clock < expiry →
      ∀ row, s.store.find copy.id = some row → row.lockedBy = some work.owner)
  renewed : ∀ runner work, s.work runner = some work → work.call = none → 0 < work.iteration →
    ∀ expiry, work.current.lockedUntil = some expiry → s.clock < expiry

section Kept

variable {store : SagaStore} {rest : Option Work}

/-- A write under the runner's own token does not concern the leases of the others. -/
theorem LeaseInvariant.written (invariant : LeaseInvariant s) (busy : s.work runner = some work)
    (base : FleetInvariant ({ s with store := store }.assign runner rest))
    (rows : ∀ id row', store.find id = some row' → ∃ row, s.store.find id = some row ∧
      (row' = row ∨ row.lockedBy = some work.owner))
    (left : ∀ after, rest = some after → ∀ copy ∈ after.copies,
      ∃ expiry, copy.lockedUntil = some expiry ∧ (s.clock < expiry →
        ∀ row, store.find copy.id = some row → row.lockedBy = some after.owner))
    (again : ∀ after, rest = some after → after.call = none → 0 < after.iteration →
      ∀ expiry, after.current.lockedUntil = some expiry → s.clock < expiry) :
    LeaseInvariant ({ s with store := store }.assign runner rest) := by
  refine ⟨base, ?_, ?_⟩
  · intro other after found copy member
    by_cases same : other = runner
    · subst same
      rw [assign_self] at found
      exact left after found copy member
    · rw [assign_of_ne _ _ same] at found
      obtain ⟨expiry, expires, held⟩ := invariant.leased other after found copy member
      refine ⟨expiry, expires, ?_⟩
      intro running row' found'
      obtain ⟨row, old, kept⟩ := rows copy.id row' found'
      have theirs := held running row old
      rcases kept with rfl | mine
      · exact theirs
      · rw [mine] at theirs
        exact absurd (invariant.apart runner other work after busy found
          (Option.some.inj theirs)).symm same
  · intro other after found
    by_cases same : other = runner
    · subst same
      rw [assign_self] at found
      exact again after found
    · rw [assign_of_ne _ _ same] at found
      exact invariant.renewed other after found

omit [DecidableEq ι] in
theorem LeaseInvariant.next (invariant : LeaseInvariant s) (busy : s.work runner = some work)
    (others : ∀ id, id ≠ work.current.id → store.find id = s.store.find id)
    (taken : work.next = some after) :
    ∀ copy ∈ after.copies, ∃ expiry, copy.lockedUntil = some expiry ∧ (s.clock < expiry →
      ∀ row, store.find copy.id = some row → row.lockedBy = some after.owner) := by
  obtain ⟨owner, copies, _⟩ := Work.begin_eq_some taken
  intro copy member
  rw [copies] at member
  rw [others copy.id (invariant.queue_ne busy member), owner]
  exact invariant.leased runner work busy copy (List.mem_cons_of_mem _ member)

theorem Work.next_idle (taken : work.next = some after)
    (further : 0 < after.iteration) : False := by
  have := (Work.begin_eq_some taken).2.2.1
  omega

section

variable (invariant : LeaseInvariant s) (busy : s.work runner = some work)

include invariant busy

theorem LeaseInvariant.moved (left : ∀ other, rest = some other → other.owner = work.owner ∧
      other.copies.Sublist work.copies ∧ (other.iteration = 0 ∨ other.call ≠ none)) :
    LeaseInvariant (s.assign runner rest) := by
  refine invariant.written busy (invariant.toFleetInvariant.moved busy left)
    (fun id row found => ⟨row, found, Or.inl rfl⟩) ?_ ?_
  · intro after taken copy member
    obtain ⟨owner, fewer, _⟩ := left after taken
    rw [owner]
    exact invariant.leased runner work busy copy (fewer.subset member)
  · intro after taken waiting further
    rcases (left after taken).2.2 with first | calling
    · omega
    · exact absurd waiting calling

theorem LeaseInvariant.saved
    (config : SagaConfig) (positive : 0 < config.leaseMs) (progress : SagaProgress) :
    LeaseInvariant (s.save config runner work progress) := by
  refine invariant.written busy (invariant.toFleetInvariant.saved busy config progress) ?_ ?_ ?_
  · intro id row' found
    rw [find_save] at found
    obtain ⟨row, old, rfl⟩ := Option.map_eq_some_iff.mp found
    refine ⟨row, old, ?_⟩
    split
    · rename_i mine
      simp only [saves, decide_eq_true_eq] at mine
      exact Or.inr mine.2
    · exact Or.inl rfl
  · intro after taken
    split at taken
    · exact invariant.next busy (fun id other => find_save_of_ne other) taken
    · rename_i row answered
      split at taken
      · exact invariant.next busy (fun id other => find_save_of_ne other) taken
      · rename_i kept
        cases taken
        rw [save_fst] at answered
        obtain ⟨old, found, rfl⟩ := Option.map_eq_some_iff.mp answered
        obtain ⟨found, held⟩ := Option.filter_eq_some_iff.mp found
        have key := Table.find_key found
        intro copy member
        rcases List.mem_cons.mp member with rfl | later
        · refine ⟨s.clock + config.leaseMs, ?_, ?_⟩
          · simp [SagaInstanceRecord.saved, kept, SagaClaim.expiry]
          · intro _ row here
            rw [SagaInstanceRecord.saved_id, key, find_save, found, Option.map_some,
              if_pos (by simpa [saves, key] using held)] at here
            cases here
            simp [SagaInstanceRecord.saved, kept]
        · rw [find_save_of_ne (invariant.queue_ne busy later)]
          exact invariant.leased runner work busy copy (List.mem_cons_of_mem _ later)
  · intro after taken waiting further expiry expires
    split at taken
    · exact (Work.next_idle taken further).elim
    · rename_i row answered
      split at taken
      · exact (Work.next_idle taken further).elim
      · rename_i kept
        cases taken
        rw [save_fst] at answered
        obtain ⟨old, found, rfl⟩ := Option.map_eq_some_iff.mp answered
        simp only [SagaInstanceRecord.saved, kept, SagaClaim.expiry] at expires
        cases expires
        exact Int.lt_add_of_pos_right _ (Int.natCast_pos.mpr positive)

theorem LeaseInvariant.abandoned
    (running : ∀ expiry, work.current.lockedUntil = some expiry → s.clock < expiry)
    (reason : Utf16) :
    LeaseInvariant ({ s with store := s.store.abandon work.current.id reason }.assign runner
      work.next) := by
  obtain ⟨expiry, expires, held⟩ := invariant.leased runner work busy work.current
    List.mem_cons_self
  have mine := held (running expiry expires)
  refine invariant.written busy (invariant.toFleetInvariant.abandoned busy reason) ?_ ?_ ?_
  · intro id row' found
    rw [find_abandon] at found
    obtain ⟨row, old, rfl⟩ := Option.map_eq_some_iff.mp found
    refine ⟨row, old, ?_⟩
    split
    · rename_i same
      rw [Table.find_key old] at same
      exact Or.inr (mine row (same ▸ old))
    · exact Or.inl rfl
  · intro after taken
    exact invariant.next busy (fun id other => find_abandon_of_ne other) taken
  · intro after taken waiting further
    exact (Work.next_idle taken further).elim

end

omit [DecidableEq ι] in
theorem LeaseInvariant.created (invariant : LeaseInvariant s) {input : NewSagaInstance}
    (inserted : s.store.create input s.clock = some store) :
    LeaseInvariant { s with store := store } := by
  refine ⟨invariant.toFleetInvariant.created inserted, ?_, invariant.renewed⟩
  intro other after atWork copy member
  obtain ⟨expiry, expires, held⟩ := invariant.leased other after atWork copy member
  obtain ⟨row, old, _⟩ := invariant.faithful other after atWork copy member
  refine ⟨expiry, expires, ?_⟩
  intro running row' found
  rw [show store.find copy.id = some row from Table.find_insert_of_find inserted old] at found
  cases found
  exact held running row old

/-- A claim takes a row only once every lease on a copy of it is over. -/
theorem LeaseInvariant.claimed (invariant : LeaseInvariant s)
    {owner : String} {matching : SagaInstanceRecord → Bool} {batch : List SagaInstanceRecord}
    (fresh : owner ∉ s.owners)
    (free : ∀ row ∈ s.store.rows, matching row = true → row.claimable s.clock = true)
    (returned : ∀ copy ∈ batch, copy ∈ s.store.returning matching
      (SagaInstanceRecord.leased ⟨owner, s.clock, config.leaseMs⟩))
    (distinct : (batch.map SagaInstanceRecord.id).Nodup) : LeaseInvariant ({ s with
      store := s.store.update matching
        (SagaInstanceRecord.leased ⟨owner, s.clock, config.leaseMs⟩)
        (SagaInstanceRecord.leased_id _)
      owners := owner :: s.owners }.assign runner (Work.begin owner batch)) := by
  refine ⟨invariant.toFleetInvariant.claimed fresh returned distinct, ?_, ?_⟩
  · intro other after found copy member
    simp only [assign_store, find_leased]
    rw [assign_work] at found
    split at found
    · obtain ⟨holder, copies, _⟩ := Work.begin_eq_some found
      obtain ⟨old, inside, matched, rfl⟩ := Table.mem_returning.mp (returned copy (copies ▸ member))
      refine ⟨_, rfl, ?_⟩
      intro _ row here
      rw [SagaInstanceRecord.leased_id, Table.find_of_mem inside, Option.map_some,
        if_pos matched] at here
      cases here
      rw [holder]
      rfl
    · obtain ⟨expiry, expires, held⟩ := invariant.leased other after found copy member
      refine ⟨expiry, expires, ?_⟩
      intro running row' here
      obtain ⟨row, before, rfl⟩ := Option.map_eq_some_iff.mp here
      have theirs := held running row before
      obtain ⟨same, before', faithful⟩ := invariant.faithful other after found copy member
      rw [before] at before'
      cases before'
      -- The row is the copy, so its lease has not run out either.
      have unmatched : ¬ matching row = true := by
        intro matched
        have over' := ((SagaInstanceRecord.claimable_iff _ _).mp
          (free row (Table.mem_of_find before) matched)).2.2 expiry
          (by rw [faithful theirs]; exact expires)
        exact absurd running (Int.not_lt.mpr over')
      rw [if_neg unmatched]
      exact theirs
  · intro other after found waiting further
    rw [assign_work] at found
    split at found
    · have := (Work.begin_eq_some found).2.2.1
      omega
    · exact invariant.renewed other after found waiting further

end Kept

theorem LeaseInvariant.act (positive : 0 < config.leaseMs) {action : FleetAction ι}
    (invariant : LeaseInvariant s) (timely : Timely config s action) (inLease : InLease s action)
    (taken : s.act config registry action = some t) : LeaseInvariant t := by
  cases act_effect taken with
  | created inserted => exact invariant.created inserted
  | claimed idle fresh free returned distinct =>
    exact invariant.claimed fresh free returned distinct
  | moved busy left => exact invariant.moved busy left
  | saved busy => exact invariant.saved busy config positive _
  | @abandoned runner work reason busy waiting gone =>
    apply invariant.abandoned busy
    by_cases first : work.iteration = 0
    · exact inLease work busy first
    · exact invariant.renewed runner work busy waiting (by omega)
  | ticked elapsed =>
    refine ⟨?_, ?_, ?_⟩
    · exact invariant.toFleetInvariant.act taken
    · intro runner work busy copy member
      obtain ⟨expiry, expires, held⟩ := invariant.leased runner work busy copy member
      refine ⟨expiry, expires, fun running => held (lt_of_le_of_lt ?_ running)⟩
      exact Int.le_add_of_nonneg_right (Int.natCast_nonneg elapsed)
    · intro runner work busy waiting
      obtain ⟨started, calling, _⟩ := timely runner work busy
      rw [waiting] at calling
      cases calling

theorem System.save_not_calling {s : System ι} {progress : SagaProgress}
    (found : (s.save config runner work progress).work runner = some after) :
    after.call = none := by
  rw [save, assign_self] at found
  split at found
  · exact (Work.begin_eq_some found).2.2.2
  · split at found
    · exact (Work.begin_eq_some found).2.2.2
    · cases found
      rfl

theorem Starts.decided {decision : Decision}
    (starts : Starts config registry s runner work decision t) :
    work.call = none ∧ isTerminal work.current.status = false ∧
      ∃ definition, step definition work.current = .ok decision := by
  obtain ⟨busy, taken, definition, calling⟩ := starts
  simp only [act, busy] at taken
  split at taken
  · rename_i owner current iteration queue found
    cases found
    cases taken
    refine ⟨rfl, ?_⟩
    unfold resume at calling
    split at calling
    · rw [assign_self] at calling
      cases (Work.begin_eq_some calling).2.2.2
    · rw [assign_self] at calling
      cases (Work.begin_eq_some calling).2.2.2
    · cases save_not_calling calling
    · rename_i called
      rw [assign_self] at calling
      cases calling
      exact ⟨(pass_eq_call called).2.1, definition, (pass_eq_call called).2.2⟩
  · cases taken

/-- Runs of the fleet under the clock's discipline in which runners turn only to records
whose lease still runs. -/
def LeasedRun (config : SagaConfig) (registry : ι → SagaRegistry) :
    System ι → List (FleetAction ι) → System ι → Prop :=
  Steps (Guarded (fun s action => Timely config s action ∧ InLease s action)
    (Executes (act config registry)))

/-- At every start of a step in such a run, the row is the runner's if and only if the
runner did not turn to it too late. -/
theorem lease_exclusion_iff (config : SagaConfig) (boot : config.Booted)
    (registry : ι → SagaRegistry) (clock : Date) {actions : List (FleetAction ι)}
    {s t : System ι} (run : LeasedRun config registry (booted clock) actions s)
    {runner : ι} {work : Work} {decision : Decision}
    (starts : Starts config registry s runner work decision t) :
    Held s work decision ↔ InLease s (.resume runner) := by
  have positive : 0 < config.leaseMs := by
    have := boot
    rw [SagaConfig.Booted] at this
    omega
  have invariant : LeaseInvariant s := by
    refine Steps.invariant LeaseInvariant
      (fun _ _ _ kept taken => kept.act positive taken.1.1 taken.1.2 taken.2) run ?_
    refine ⟨FleetInvariant.booted clock, ?_, ?_⟩ <;> simp [booted]
  obtain ⟨waiting, inFlight, definition, decided⟩ := starts.decided
  have busy := starts.busy
  obtain ⟨row, found, faithful⟩ := invariant.faithful runner work busy work.current
    List.mem_cons_self
  constructor
  · intro held after busy' first expiry expires
    obtain ⟨row', expiry', found', mine, expires', running, _⟩ := held
    rw [found] at found'
    cases found'
    rw [busy] at busy'
    cases busy'
    rw [faithful mine] at expires'
    cases Option.some.inj (expires.symm.trans expires')
    exact running
  · intro inLease
    obtain ⟨expiry, expires, held⟩ := invariant.leased runner work busy work.current
      List.mem_cons_self
    have running : s.clock < expiry := by
      by_cases first : work.iteration = 0
      · exact inLease work busy first expiry expires
      · exact invariant.renewed runner work busy waiting (by omega) expiry expires
    have mine := held running row found
    have same := faithful mine
    refine ⟨row, expiry, found, mine, same ▸ expires, running, congrArg _ same, congrArg _ same, ?_⟩
    intro forward
    obtain ⟨next, rfl⟩ := forward
    rw [same]
    cases decided_of_step inFlight decided with
    | execute _ running => exact running

/-- A lease just over two step timeouts, which the boot check accepts. -/
def tightConfig : SagaConfig := ⟨21, 10, ⟨500, 60000, 6⟩⟩

def secondInput : NewSagaInstance := ⟨"saga-2", "shipping", [], none⟩

/-- One pass claims two sagas and takes slow steps over the first. -/
def slowBatch : List (FleetAction Bool) :=
  [.create shippingInput, .create secondInput, .runOnce false "a" 10 ["saga-1", "saga-2"],
    .resume false, .tick 10, .settle false (.returned none) 0,
    .resume false, .tick 10, .settle false (.returned none) 0, .resume false, .tick 5]

/-- Meanwhile the second saga's lease runs out, and another runner undoes that saga. -/
def takenOver : List (FleetAction Bool) :=
  [.advance true "b" "saga-2", .resume true, .settle true (.threw ⟨[], true⟩) 0, .resume true,
    .settle true (.returned none) 0, .tick 5, .settle false (.returned none) 0]

theorem lease_exclusion_slow_batch : ∃ s t work decision,
      LeasedRun tightConfig (fun _ : Bool => shippingRegistry) (booted 0)
        (slowBatch ++ [.advance true "b" "saga-2"]) s ∧
      Starts tightConfig (fun _ : Bool => shippingRegistry) s true work decision t ∧
      Held s work decision :=
  ⟨_, _, _, .execute ⟨"one", .compensatable⟩, steps_guarded_iff_execute.mpr rfl,
    ⟨rfl, rfl, shipping, rfl⟩,
    (lease_exclusion_iff tightConfig (by decide) (fun _ : Bool => shippingRegistry) 0
      (show LeasedRun _ _ _ (slowBatch ++ [.advance true "b" "saga-2"]) _ from
        steps_guarded_iff_execute.mpr rfl)
      (show Starts _ _ _ true _ (.execute ⟨"one", .compensatable⟩) _ from
        ⟨rfl, rfl, shipping, rfl⟩)).mpr (by decide)⟩

theorem late_turn_starts_undone_saga : tightConfig.Booted ∧ ∃ s t work row,
      Steps (Guarded (Timely tightConfig)
        (Executes (act tightConfig fun _ : Bool => shippingRegistry)))
        (booted 0) (slowBatch ++ takenOver) s ∧
      Starts tightConfig (fun _ : Bool => shippingRegistry) s false work
        (.execute ⟨"one", .compensatable⟩) t ∧
      s.store.find work.current.id = some row ∧ row.lockedBy ≠ some work.owner ∧
      row.status = .compensated ∧ work.current.status = .running :=
  ⟨by decide, _, _, _, _, steps_guarded_iff_execute.mpr rfl, ⟨rfl, rfl, shipping, rfl⟩, rfl,
    by decide, rfl, rfl⟩

end NestApi.Saga
