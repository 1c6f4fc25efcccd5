import NestApi.SagaFleet

namespace NestApi.Saga

open SagaStore Table SagaInstanceRecord

section Store

variable (store : SagaStore) (id other : String) (claim : SagaClaim)

theorem SagaStore.find_save (progress : SagaProgress) :
    find (save store id claim progress).2 other =
      (store.find other).map fun row =>
        if saves id claim.owner row then row.saved claim progress else row :=
  find_update _ _ _ (saved_id claim progress) _

theorem SagaStore.save_fst (progress : SagaProgress) : (save store id claim progress).1 =
      ((store.find id).filter fun row => row.lockedBy = some claim.owner).map
        (saved claim progress) := by
  rw [← head?_returning_key]
  simp only [decide_eq_true_eq]
  rfl

theorem SagaStore.find_leased (matching : SagaInstanceRecord → Bool) :
    find (update store matching (leased claim)
      (leased_id claim)) other =
      (store.find other).map fun row => if matching row then row.leased claim else row :=
  find_update _ _ _ (leased_id claim) _

theorem SagaStore.find_abandon (reason : Utf16) : find (abandon store id reason) other =
      (store.find other).map fun row => if row.id = id then row.abandoned reason else row := by
  rw [abandon, find_update]
  simp

end Store

variable {store : SagaStore}

theorem SagaStore.find_abandon_of_ne {id other : String} {reason : Utf16} (apart : other ≠ id) :
    find (abandon store id reason) other = store.find other := by
  rw [find_abandon]
  cases old : store.find other with
  | none => rfl
  | some =>
    rw [Option.map_some, if_neg]
    rw [find_key old]
    exact apart

variable {ι : Type} [DecidableEq ι] {config : SagaConfig}

/-- What holds whatever the clock does: tokens are not shared, and a copy is the row while the row
carries its token. -/
structure FleetInvariant (s : System ι) : Prop where
  issued : ∀ runner work, s.work runner = some work → work.owner ∈ s.owners
  apart : ∀ runner other work work', s.work runner = some work → s.work other = some work' →
    work.owner = work'.owner → runner = other
  locked : ∀ id row owner, s.store.find id = some row → row.lockedBy = some owner → owner ∈ s.owners
  distinct : ∀ runner work, s.work runner = some work →
    (work.copies.map SagaInstanceRecord.id).Nodup
  faithful : ∀ runner work, s.work runner = some work → ∀ copy ∈ work.copies,
    ∃ row, s.store.find copy.id = some row ∧ (row.lockedBy = some work.owner → row = copy)

omit [DecidableEq ι] in
theorem FleetInvariant.booted (clock : Date) : FleetInvariant (System.booted clock : System ι) := by
  constructor <;> simp [System.booted, Table.find, Table.empty]

namespace System

theorem assign_store (s : System ι) (runner : ι) (work : Option Work) :
    (s.assign runner work).store = s.store := rfl

theorem assign_work (s : System ι) (runner other : ι) (work : Option Work) :
    (s.assign runner work).work other = if other = runner then work else s.work other := by
  exact Function.update_apply ..

theorem assign_self (s : System ι) (runner : ι) (work : Option Work) :
    (s.assign runner work).work runner = work := by
  rw [assign_work, if_pos rfl]

theorem assign_of_ne (s : System ι) {runner other : ι} (work : Option Work)
    (apart : other ≠ runner) : (s.assign runner work).work other = s.work other := by
  rw [assign_work, if_neg apart]

end System

section Kept

variable {s : System ι} {runner : ι} {work : Work} {rest : Option Work}

/-- A write by the runner that holds `work` keeps the invariant if it touches rows under other
tokens only to free them. -/
theorem FleetInvariant.written (invariant : FleetInvariant s) (busy : s.work runner = some work)
    (rows : ∀ id row, s.store.find id = some row → ∃ row', store.find id = some row' ∧
      (row' = row ∨ row'.lockedBy = none ∨ row'.lockedBy = some work.owner))
    (absent : ∀ id, s.store.find id = none → store.find id = none)
    (left : ∀ after, rest = some after → after.owner = work.owner ∧
      (after.copies.map SagaInstanceRecord.id).Sublist (work.copies.map SagaInstanceRecord.id) ∧
      ∀ copy ∈ after.copies, ∃ row, store.find copy.id = some row ∧
        (row.lockedBy = some work.owner → row = copy)) :
    FleetInvariant ({ s with store := store }.assign runner rest) := by
  -- Whoever is at work afterwards was at work before, under the same token.
  have before : ∀ other after,
      ({ s with store := store }.assign runner rest).work other = some after →
      ∃ earlier, s.work other = some earlier ∧ after.owner = earlier.owner ∧
        (other = runner ∧ rest = some after ∨ other ≠ runner ∧ after = earlier) := by
    intro other after found
    by_cases same : other = runner
    · subst same
      rw [System.assign_self] at found
      exact ⟨work, busy, (left after found).1, Or.inl ⟨rfl, found⟩⟩
    · rw [System.assign_of_ne _ _ same] at found
      exact ⟨after, found, rfl, Or.inr ⟨same, rfl⟩⟩
  refine ⟨?_, ?_, ?_, ?_, ?_⟩
  · intro other after found
    obtain ⟨earlier, atWork, owner, _⟩ := before other after found
    rw [owner]
    exact invariant.issued other earlier atWork
  · intro other other' after after' found found' same
    obtain ⟨earlier, atWork, owner, _⟩ := before other after found
    obtain ⟨earlier', atWork', owner', _⟩ := before other' after' found'
    exact invariant.apart other other' earlier earlier' atWork atWork'
      (by rw [← owner, same, owner'])
  · intro id row' owner found locked
    cases old : s.store.find id with
    | none =>
      have gone := absent id old
      rw [show store.find id = some row' from found] at gone
      cases gone
    | some row =>
      obtain ⟨other, found', kept⟩ := rows id row old
      rw [show store.find id = some row' from found] at found'
      cases found'
      rcases kept with rfl | free | mine
      · exact invariant.locked id row' owner old locked
      · rw [free] at locked
        cases locked
      · rw [mine] at locked
        cases locked
        exact invariant.issued runner work busy
  · intro other after found
    obtain ⟨earlier, atWork, owner, ⟨rfl, taken⟩ | ⟨_, rfl⟩⟩ := before other after found
    · exact (invariant.distinct other work busy).sublist (left after taken).2.1
    · exact invariant.distinct other after atWork
  · intro other after found copy member
    obtain ⟨earlier, atWork, owner, ⟨rfl, taken⟩ | ⟨apart, rfl⟩⟩ := before other after found
    · rw [(left after taken).1]
      exact (left after taken).2.2 copy member
    · obtain ⟨row, old, same⟩ := invariant.faithful other after atWork copy member
      obtain ⟨row', found', kept⟩ := rows copy.id row old
      refine ⟨row', found', ?_⟩
      intro locked
      rcases kept with rfl | free | mine
      · exact same locked
      · rw [free] at locked
        cases locked
      · rw [mine] at locked
        have owner := invariant.apart runner other work after busy atWork (Option.some.inj locked)
        exact absurd owner.symm apart

theorem FleetInvariant.moved (invariant : FleetInvariant s) (busy : s.work runner = some work)
    (left : ∀ other, rest = some other → other.owner = work.owner ∧
      other.copies.Sublist work.copies ∧ (other.iteration = 0 ∨ other.call ≠ none)) :
    FleetInvariant (s.assign runner rest) := by
  refine invariant.written busy (fun id row old => ⟨row, old, Or.inl rfl⟩) (fun _ none => none) ?_
  intro after taken
  obtain ⟨owner, fewer, _⟩ := left after taken
  exact ⟨owner, fewer.map _, fun copy member =>
    invariant.faithful runner work busy copy (fewer.subset member)⟩

omit [DecidableEq ι] in
theorem FleetInvariant.queue_ne (invariant : FleetInvariant s) (busy : s.work runner = some work)
    {copy : SagaInstanceRecord} (member : copy ∈ work.queue) : copy.id ≠ work.current.id := by
  have distinct := invariant.distinct runner work busy
  rw [Work.copies, List.map_cons, List.nodup_cons] at distinct
  intro same
  exact distinct.1 (List.mem_map.mpr ⟨copy, member, same⟩)

omit [DecidableEq ι] in
theorem FleetInvariant.next (invariant : FleetInvariant s) (busy : s.work runner = some work)
    (others : ∀ id, id ≠ work.current.id → store.find id = s.store.find id) {after : Work}
    (taken : work.next = some after) :
    after.owner = work.owner ∧ (after.copies.map SagaInstanceRecord.id).Sublist
        (work.copies.map SagaInstanceRecord.id) ∧
      ∀ copy ∈ after.copies, ∃ row, store.find copy.id = some row ∧
        (row.lockedBy = some work.owner → row = copy) := by
  obtain ⟨owner, copies, _⟩ := Work.begin_eq_some taken
  refine ⟨owner, (Work.next_left taken).2.1.map _, ?_⟩
  intro copy member
  rw [copies] at member
  rw [others copy.id (invariant.queue_ne busy member)]
  exact invariant.faithful runner work busy copy (List.mem_cons_of_mem _ member)

theorem FleetInvariant.abandoned (invariant : FleetInvariant s)
    (busy : s.work runner = some work) (reason : Utf16) :
    FleetInvariant ({ s with store := s.store.abandon work.current.id reason }.assign runner
      work.next) := by
  refine invariant.written busy ?_ ?_ ?_
  · intro id row old
    rw [find_abandon, old]
    refine ⟨_, rfl, ?_⟩
    dsimp only
    split
    · exact Or.inr (Or.inl rfl)
    · exact Or.inl rfl
  · intro id none
    rw [find_abandon, none, Option.map_none]
  · intro after taken
    exact invariant.next busy (fun id other => find_abandon_of_ne other) taken

omit [DecidableEq ι] in
/-- A save writes the row of the current copy, and only under the runner's own token. -/
theorem find_save_of_ne {progress : SagaProgress} {id : String} (other : id ≠ work.current.id) :
    find (save s.store work.current.id ⟨work.owner, s.clock, config.leaseMs⟩
      progress).2 id = s.store.find id := by
  rw [find_save]
  cases old : s.store.find id with
  | none => rfl
  | some =>
    have key := find_key old
    rw [Option.map_some, if_neg]
    simp [saves, key, other]

theorem FleetInvariant.saved (invariant : FleetInvariant s) (busy : s.work runner = some work)
    (config : SagaConfig) (progress : SagaProgress) :
    FleetInvariant (s.save config runner work progress) := by
  refine invariant.written busy ?_ ?_ ?_
  · intro id row old
    rw [find_save, old]
    refine ⟨_, rfl, ?_⟩
    dsimp only
    split
    · cases release : progress.release with
      | true => exact Or.inr (Or.inl (by simp [SagaInstanceRecord.saved, release]))
      | false => exact Or.inr (Or.inr (by simp [SagaInstanceRecord.saved, release]))
    · exact Or.inl rfl
  · intro id none
    rw [find_save, none, Option.map_none]
  · intro after taken
    split at taken
    · exact invariant.next busy (fun id other => find_save_of_ne other) taken
    · rename_i row answered
      split at taken
      · exact invariant.next busy (fun id other => find_save_of_ne other) taken
      · cases taken
        rw [save_fst] at answered
        obtain ⟨old, found, rfl⟩ := Option.map_eq_some_iff.mp answered
        obtain ⟨found, held⟩ := Option.filter_eq_some_iff.mp found
        have key := find_key found
        refine ⟨rfl, ?_, ?_⟩
        · rw [Work.copies, Work.copies, List.map_cons, List.map_cons, saved_id, key]
        · intro copy member
          rcases List.mem_cons.mp member with rfl | later
          · refine ⟨_, ?_, fun _ => rfl⟩
            rw [saved_id, key, find_save, found, Option.map_some, if_pos]
            simpa [saves, key] using held
          · rw [find_save_of_ne (invariant.queue_ne busy later)]
            exact invariant.faithful runner work busy copy (List.mem_cons_of_mem _ later)

omit [DecidableEq ι] in
theorem FleetInvariant.created (invariant : FleetInvariant s) {input : NewSagaInstance}
    (inserted : s.store.create input s.clock = some store) :
    FleetInvariant { s with store := store } := by
  refine ⟨invariant.issued, invariant.apart, ?_, invariant.distinct, ?_⟩
  · intro id row owner found locked
    rw [find_insert inserted] at found
    rcases Option.or_eq_some_iff.mp found with old | ⟨_, new⟩
    · exact invariant.locked id row owner old locked
    · obtain ⟨-, rfl⟩ := of_ite_some new
      cases locked
  · intro other after atWork copy member
    obtain ⟨row, old, same⟩ := invariant.faithful other after atWork copy member
    exact ⟨row, find_insert_of_find inserted old, same⟩

theorem FleetInvariant.claimed (invariant : FleetInvariant s)
    {owner : String} {matching : SagaInstanceRecord → Bool} {batch : List SagaInstanceRecord}
    (fresh : owner ∉ s.owners) (returned : ∀ copy ∈ batch, copy ∈ s.store.returning matching
      (SagaInstanceRecord.leased ⟨owner, s.clock, config.leaseMs⟩))
    (distinct : (batch.map SagaInstanceRecord.id).Nodup) : FleetInvariant ({ s with
      store := s.store.update matching
        (SagaInstanceRecord.leased ⟨owner, s.clock, config.leaseMs⟩)
        (SagaInstanceRecord.leased_id _)
      owners := owner :: s.owners }.assign runner (Work.begin owner batch)) := by
  refine ⟨?_, ?_, ?_, ?_, ?_⟩
  · intro other after found
    rw [System.assign_work] at found
    split at found
    · rw [(Work.begin_eq_some found).1]
      exact List.mem_cons_self
    · exact List.mem_cons_of_mem _ (invariant.issued other after found)
  · intro other other' after after' found found' same
    rw [System.assign_work] at found found'
    split at found
    · rename_i here
      split at found'
      · rename_i here'
        rw [here, here']
      · rw [(Work.begin_eq_some found).1] at same
        exact absurd (same ▸ invariant.issued other' after' found') fresh
    · split at found'
      · rw [(Work.begin_eq_some found').1] at same
        exact absurd (same ▸ invariant.issued other after found) fresh
      · exact invariant.apart other other' after after' found found' same
  · intro id row held found locked
    simp only [System.assign_store, find_leased] at found
    obtain ⟨old, before, rfl⟩ := Option.map_eq_some_iff.mp found
    split at locked
    · cases locked
      exact List.mem_cons_self
    · exact List.mem_cons_of_mem _ (invariant.locked id old held before locked)
  · intro other after found
    rw [System.assign_work] at found
    split at found
    · rw [(Work.begin_eq_some found).2.1]
      exact distinct
    · exact invariant.distinct other after found
  · intro other after found copy member
    simp only [System.assign_store, find_leased]
    rw [System.assign_work] at found
    split at found
    · obtain ⟨_, copies, _⟩ := Work.begin_eq_some found
      obtain ⟨old, inside, matched, rfl⟩ := mem_returning.mp (returned copy (copies ▸ member))
      have before := find_of_mem inside
      refine ⟨_, by rw [leased_id, before]; rfl, ?_⟩
      intro _
      exact if_pos matched
    · obtain ⟨row, before, same⟩ := invariant.faithful other after found copy member
      refine ⟨_, by rw [before]; rfl, ?_⟩
      intro locked
      dsimp only at locked ⊢
      split at locked
      · cases locked
        exact absurd (invariant.issued other after found) fresh
      · rename_i unmatched
        rw [if_neg unmatched]
        exact same locked

end Kept

theorem FleetInvariant.act {registry : ι → SagaRegistry} {s t : System ι}
    {action : FleetAction ι} (invariant : FleetInvariant s)
    (taken : s.act config registry action = some t) : FleetInvariant t := by
  cases act_effect taken with
  | created inserted => exact invariant.created inserted
  | claimed idle fresh free returned distinct => exact invariant.claimed fresh returned distinct
  | moved busy left => exact invariant.moved busy left
  | saved busy => exact invariant.saved busy config _
  | abandoned busy => exact invariant.abandoned busy _
  | ticked =>
    exact ⟨invariant.issued, invariant.apart, invariant.locked, invariant.distinct,
      invariant.faithful⟩

end NestApi.Saga
