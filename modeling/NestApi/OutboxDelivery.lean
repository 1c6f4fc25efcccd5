import NestApi.Indexed
import NestApi.OutboxRelay

namespace NestApi.Outbox

open DrainPass OutboxWorld

variable {config : RelayConfig} {world world' : OutboxWorld}

/-- What entitles a pass to an update of a row. -/
def Justified (config : RelayConfig) (delivered : List String) (row : OutboxRow) :
    OutboxWrite → Prop
  | .published .. => row.id ∈ delivered
  | .retry attempts .. =>
    row.known = true ∧ attempts = row.attempts + 1 ∧ attempts < config.policy.maxAttempts
  | .dead attempts _ =>
    row.known = false ∨
      row.known = true ∧ attempts = row.attempts + 1 ∧ config.policy.maxAttempts ≤ attempts

variable {delivered delivered' : List String} {row : OutboxRow} {pass : DrainPass}
  {write : OutboxWrite} {clock index : Nat} {action : OutboxAction} {id : String}

theorem Justified.mono (entitled : Justified config delivered row write)
    (recorded : delivered ⊆ delivered') : Justified config delivered' row write := by
  cases write with
  | published => exact recorded entitled
  | retry | dead => exact entitled

theorem justified_decideRow {delivery : Delivery} {now : Date} {random : ℚ}
    (known : row.known = true) (accepted : delivery = .accepted → row.id ∈ delivered) :
    Justified config delivered row (decideRow config now random row delivery) := by
  unfold decideRow
  cases failure : delivery.error config row with
  | none =>
    cases delivery with
    | accepted => exact accepted rfl
    | refused | timedOut => cases failure
  | some =>
    cases scheduled : Backoff.nextAttemptAt now (row.attempts + 1) config.policy random with
    | none =>
      exact .inr ⟨known, rfl, (Backoff.nextAttemptAt_eq_none_iff now _ _ random).mp scheduled⟩
    | some => exact ⟨known, rfl, Backoff.attempts_lt_of_nextAttemptAt scheduled⟩

structure Shaped (config : RelayConfig) (delivered : List String) (pass : DrainPass) : Prop where
  ordered : pass.claimed.Pairwise fun first second => Before first second ∧ first.id ≠ second.id
  bounded : pass.claimed.length ≤ config.batchSize
  sent : pass.sent.Sublist pass.claimed
  justified : ∀ write ∈ pass.writes, Justified config delivered write.1 write.2
  flying : ∀ flight ∈ pass.flight, flight.1.known = true
  parts : pass.state = .running →
    pass.writes.map Prod.fst ++ (pass.flight.toList.map Prod.fst ++ pass.queue) = pass.claimed
  called : pass.state = .running →
    pass.sent = (pass.writes.map Prod.fst).filter OutboxRow.known ++ pass.flight.toList.map Prod.fst

theorem Shaped.opened (delivered : List String) (now : Date) (clock : Nat) (table : OutboxTable)
    (locked : String → Bool) :
    Shaped config delivered (.opened now clock (claim config table now locked)) := by
  refine ⟨claim_ordered, claim_length, ?_, ?_, ?_, ?_, ?_⟩ <;> simp [DrainPass.opened]

theorem Shaped.mono (shaped : Shaped config delivered pass) (recorded : delivered ⊆ delivered') :
    Shaped config delivered' pass :=
  { shaped with justified := fun write member => (shaped.justified write member).mono recorded }

theorem Shaped.step {delivered delivered' : List String}
    {pass pass' : DrainPass} (shaped : Shaped config delivered pass)
    (running : pass.state = .running)
    (moved : PassStep config clock delivered index pass action pass' delivered') :
    Shaped config delivered' pass' := by
  have parts := shaped.parts running
  have called := shaped.called running
  cases moved with
  | deliver idle first known =>
    rename_i row rest
    rw [idle, first] at parts
    rw [idle] at called
    have whole : pass.writes.map Prod.fst ++ row :: rest = pass.claimed := parts
    refine { shaped with sent := ?_, flying := ?_, parts := ?_, called := ?_ }
    · rw [called, ← whole]
      simp only [Option.toList_none, List.map_nil, List.append_nil]
      exact List.filter_sublist.append (List.Sublist.cons_cons row (List.nil_sublist rest))
    · simp [known]
    · simpa using fun _ => whole
    · simp [called]
  | refuse idle first unknown =>
    rename_i row rest
    rw [idle, first] at parts
    rw [idle] at called
    refine { shaped with justified := ?_, flying := ?_, parts := ?_, called := ?_ }
    · exact forall_mem_concat shaped.justified (.inl unknown)
    · simp
    · simpa using fun _ => parts
    · simp [called, unknown]
  | settle flying holds recorded accepted =>
    rename_i row since delivery random
    rw [flying] at parts called
    have known : row.known = true := shaped.flying (row, since) flying
    refine { shaped with justified := ?_, flying := ?_, parts := ?_, called := ?_ }
    · apply forall_mem_concat
      · exact fun write earlier => (shaped.justified write earlier).mono recorded
      · exact justified_decideRow known accepted
    · simp
    · simpa using fun _ => parts
    · simp [called, known]
  | abandon recorded =>
    refine { shaped.mono recorded with parts := ?_, called := ?_ }
    · intro same
      cases same
    · intro same
      cases same
  | lose => exact { shaped with }

/-- What the table says about an event agrees with what happened to it. -/
def Settled (config : RelayConfig) (world : OutboxWorld) (row : OutboxRow) : Prop :=
  match row.status with
  | .pending =>
    row.attempts = world.failures.count row.id ∧ row.attempts < config.policy.maxAttempts
  | .published => row.id ∈ world.delivered
  | .dead => row.known = false ∨ world.failures.count row.id = config.policy.maxAttempts

/-- The claims of two transactions are about different rows. -/
def Apart (first second : DrainPass) : Prop :=
  ∀ row ∈ first.claimed, ∀ other ∈ second.claimed, row.id ≠ other.id

structure Consistent (config : RelayConfig) (world : OutboxWorld) : Prop where
  settled : ∀ row ∈ world.rows.rows, Settled config world row
  present : world.rows.rows.map OutboxRow.id = world.committed
  failures : ∀ id ∈ world.failures, id ∈ world.committed
  distinct : (world.committed ++ world.rolledBack ++
    world.staging.map fun staged => staged.2.id).Nodup
  staged : ∀ staged ∈ world.staging, staged.2.status = .pending ∧ staged.2.attempts = 0
  shaped : ∀ pass ∈ world.passes, Shaped config world.delivered pass
  claimed : ∀ pass ∈ world.passes, ∀ row ∈ pass.claimed, row.id ∈ world.committed
  held : ∀ pass ∈ world.passes, pass.holds world.clock = true →
    ∀ row ∈ pass.claimed, row ∈ world.rows.rows ∧ row.status = .pending
  apart : ∀ (i j : Nat) (first second : DrainPass), world.passes[i]? = some first →
    world.passes[j]? = some second → i ≠ j → first.holds world.clock = true →
      second.holds world.clock = true → Apart first second

theorem Consistent.booted (config : RelayConfig) (clock : Nat) :
    Consistent config (.booted clock) := by
  constructor <;> simp [OutboxWorld.booted, Table.empty]

section Transactions

variable {pass' : DrainPass}

section

variable (moved : PassStep config clock delivered index pass action pass' delivered')

include moved

theorem PassStep.claimed_eq : pass'.claimed = pass.claimed := by
  cases moved <;> rfl

theorem PassStep.delivered_subset : delivered ⊆ delivered' := by
  cases moved with
  | settle _ _ recorded | abandon recorded => exact recorded
  | _ => exact List.Subset.refl _

/-- A pass never gets a transaction back. -/
theorem PassStep.held_before (holds : pass'.holds clock = true) : pass.holds clock = true := by
  cases moved with
  | abandon | lose => simp [DrainPass.holds] at holds
  | _ => exact holds

end

theorem DrainPass.held_before {elapsed : Nat} (holds : pass.holds (clock + elapsed) = true) :
    pass.holds clock = true := by
  simp only [DrainPass.holds, Bool.and_eq_true, decide_eq_true_eq] at holds ⊢
  exact ⟨holds.1, by omega⟩

theorem DrainPass.running_of_holds (holds : pass.holds clock = true) : pass.state = .running := by
  simp only [DrainPass.holds, Bool.and_eq_true, decide_eq_true_eq] at holds
  exact holds.1.1

theorem not_locked (free : world.locked id = false)
    (member : pass ∈ world.passes) (holds : pass.holds world.clock = true) :
    ∀ row ∈ pass.claimed, row.id ≠ id := by
  rintro row claimed rfl
  have none := List.any_eq_false.mp free pass member
  simp only [locks, holds, Bool.true_and, List.contains_iff_mem] at none
  exact none (List.mem_map_of_mem claimed)

end Transactions

section Commit

variable (wrote : pass.writes.map Prod.fst = pass.claimed)
  (distinct : (pass.claimed.map OutboxRow.id).Nodup)

include wrote

theorem written_of_unclaimed (free : ∀ other ∈ pass.claimed, other.id ≠ row.id) :
    pass.written row = row := by
  unfold written
  split
  · rfl
  · rename_i write found
    have member : write.1 ∈ pass.claimed :=
      wrote ▸ List.mem_map_of_mem (List.mem_of_find?_eq_some found)
    exact absurd (by simpa using List.find?_some found) (free write.1 member)

theorem failed_of_unclaimed (free : ∀ other ∈ pass.claimed, other.id ≠ row.id) :
    pass.failed.count row.id = 0 := by
  rw [List.count_eq_zero]
  intro member
  obtain ⟨write, kept, same⟩ := List.mem_map.mp member
  exact free write.1 (wrote ▸ List.mem_map_of_mem (List.mem_filter.mp kept).1) same

include distinct

theorem writes_distinct : (pass.writes.map fun write => write.1.id).Nodup := by
  have ids : (pass.writes.map fun write => write.1.id) = pass.claimed.map OutboxRow.id := by
    rw [← wrote, List.map_map]
    rfl
  rw [ids]
  exact distinct

theorem written_of_claimed (claimed : row ∈ pass.claimed) :
    ∃ write, (row, write) ∈ pass.writes ∧ pass.written row = write.apply row := by
  rw [← wrote] at claimed
  obtain ⟨⟨first, write⟩, member, same⟩ := List.mem_map.mp claimed
  have first_eq : row = first := same.symm
  subst first_eq
  refine ⟨write, member, ?_⟩
  unfold written
  split
  · rename_i found
    have absent := List.find?_eq_none.mp found _ member
    simp at absent
  · rename_i other found
    have level : other.1.id = row.id := by simpa using List.find?_some found
    have only := List.inj_on_of_nodup_map (writes_distinct wrote distinct)
      (List.mem_of_find?_eq_some found) member level
    rw [only]

theorem failed_of_claimed (member : (row, write) ∈ pass.writes) :
    pass.failed.count row.id = if row.known && write.isFailure then 1 else 0 := by
  have ids := writes_distinct wrote distinct
  have once : pass.failed.Nodup := ids.sublist (List.filter_sublist.map _)
  have counted : row.id ∈ pass.failed ↔ (row.known && write.isFailure) = true := by
    constructor
    · intro failed
      obtain ⟨other, kept, same⟩ := List.mem_map.mp failed
      obtain ⟨present, fails⟩ := List.mem_filter.mp kept
      have only := List.inj_on_of_nodup_map ids present member same
      simpa [only] using fails
    · intro fails
      exact List.mem_map.mpr ⟨(row, write), List.mem_filter.mpr ⟨member, fails⟩, rfl⟩
  rw [once.count]
  simp only [counted]

end Commit

theorem Settled.mono (settled : Settled config world row)
    (failures : world'.failures.count row.id = world.failures.count row.id)
    (delivered : world.delivered ⊆ world'.delivered) : Settled config world' row := by
  unfold Settled at settled ⊢
  rw [failures]
  cases status : row.status <;> simp only [status] at settled ⊢
  · exact settled
  · exact delivered settled
  · exact settled

/-- An update of a pending row leaves it settled, one failed attempt more included. -/
theorem Settled.apply (settled : Settled config world row)
    (pending : row.status = .pending) (justified : Justified config world.delivered row write)
    (failures : world'.failures.count row.id =
      world.failures.count row.id + if row.known && write.isFailure then 1 else 0)
    (delivered : world.delivered ⊆ world'.delivered) : Settled config world' (write.apply row) := by
  unfold Settled at settled ⊢
  rw [pending] at settled
  cases write with
  | published => exact delivered justified
  | retry =>
    obtain ⟨known, counted, left⟩ := justified
    simp only [OutboxWrite.apply, pending, failures, known, OutboxWrite.isFailure,
      Bool.and_self, ↓reduceIte, left, and_true]
    omega
  | dead =>
    rcases justified with unknown | ⟨known, counted, spent⟩
    · exact .inl unknown
    · simp only [OutboxWrite.apply, failures, known, OutboxWrite.isFailure, Bool.and_self,
        ↓reduceIte]
      exact .inr (by omega)

section Step

structure Through (world : OutboxWorld) (index : Nat) (pass : DrainPass) : Prop where
  here : world.passes[index]? = some pass
  idle : pass.flight = none
  done : pass.queue = []
  holds : pass.holds world.clock = true

theorem Consistent.done (consistent : Consistent config world)
    (through : Through world index pass) : pass.writes.map Prod.fst = pass.claimed := by
  have parts := (consistent.shaped pass (List.mem_of_getElem? through.here)).parts
    (running_of_holds through.holds)
  simpa [through.idle, through.done] using parts

theorem Shaped.distinct (shaped : Shaped config delivered pass) :
    (pass.claimed.map OutboxRow.id).Nodup :=
  List.pairwise_map.mpr (shaped.ordered.imp fun both => both.2)

theorem Consistent.written_cases (consistent : Consistent config world)
    (through : Through world index pass) (member : row ∈ world.rows.rows) :
    (row ∈ pass.claimed ∧ row.status = .pending ∧
      ∃ write, (row, write) ∈ pass.writes ∧ pass.written row = write.apply row) ∨
    ((∀ other ∈ pass.claimed, other.id ≠ row.id) ∧ pass.written row = row) := by
  have inPasses := List.mem_of_getElem? through.here
  have wrote := consistent.done through
  by_cases claimed : ∃ other ∈ pass.claimed, other.id = row.id
  · obtain ⟨other, claimed, same⟩ := claimed
    obtain ⟨present, pending⟩ := consistent.held pass inPasses through.holds other claimed
    have only : other = row := Table.eq_of_key_eq present member same
    subst only
    exact .inl ⟨claimed, pending,
      written_of_claimed wrote (consistent.shaped pass inPasses).distinct claimed⟩
  · have free : ∀ other ∈ pass.claimed, other.id ≠ row.id := by
      intro other taken same
      exact claimed ⟨other, taken, same⟩
    exact .inr ⟨free, written_of_unclaimed wrote free⟩

end Step

section Staging

variable {transaction : Nat}

theorem staging_perm (world : OutboxWorld) (transaction : Nat) :
    ((world.stagedBy transaction).map OutboxRow.id ++
      (world.stagedElsewhere transaction).map fun staged => staged.2.id).Perm
        (world.staging.map fun staged => staged.2.id) := by
  have split := List.filter_append_perm (fun staged : Nat × OutboxRow => staged.1 = transaction)
    world.staging
  have mapped := split.map fun staged : Nat × OutboxRow => staged.2.id
  simpa [stagedBy, stagedElsewhere, List.map_map, Function.comp_def] using mapped

theorem mem_stagedBy (member : row ∈ world.stagedBy transaction) :
    ∃ staged ∈ world.staging, staged.2 = row := by
  obtain ⟨staged, kept, same⟩ := List.mem_map.mp member
  exact ⟨staged, (List.mem_filter.mp kept).1, same⟩

variable (consistent : Consistent config world)

include consistent

theorem Consistent.stagedBy_unused
    (member : row ∈ world.stagedBy transaction) : row.id ∉ world.committed := by
  obtain ⟨staged, present, rfl⟩ := mem_stagedBy member
  intro used
  have apart := (List.nodup_append.mp consistent.distinct).2.2
  exact apart _ (List.mem_append_left _ used) _ (List.mem_map_of_mem present) rfl

theorem Consistent.stage
    {event : NewOutboxEvent} {createdAt : Date} (fresh : world.fresh id = true) :
    Consistent config { world with
      staging := world.staging ++ [(transaction, OutboxRow.staged id event createdAt)] } := by
  refine { consistent with distinct := ?_, staged := ?_, settled := consistent.settled }
  · have unused : id ∉ world.committed ++ world.rolledBack ++
        world.staging.map fun staged => staged.2.id := by
      simpa only [OutboxWorld.fresh, Bool.not_eq_true', Bool.eq_false_iff, ne_eq,
        List.contains_iff_mem] using fresh
    rw [List.map_append, ← List.append_assoc]
    refine List.nodup_append.mpr ⟨consistent.distinct, List.nodup_singleton _, ?_⟩
    intro used member other last same
    have last_eq : other = id := List.mem_singleton.mp last
    exact unused (last_eq ▸ same ▸ member)
  · exact forall_mem_concat consistent.staged ⟨rfl, rfl⟩

theorem Consistent.staged_elsewhere : ∀ staged ∈ world.stagedElsewhere transaction,
      staged.2.status = .pending ∧ staged.2.attempts = 0 :=
  fun staged member => consistent.staged staged (List.mem_filter.mp member).1

theorem Consistent.rollbackStaging : Consistent config { world with
      staging := world.stagedElsewhere transaction
      rolledBack := world.rolledBack ++ (world.stagedBy transaction).map OutboxRow.id } := by
  refine { consistent with
    distinct := ?_
    staged := consistent.staged_elsewhere
    settled := consistent.settled }
  have moved := (staging_perm world transaction).append_left (world.committed ++ world.rolledBack)
  rw [← List.append_assoc, List.append_assoc world.committed] at moved
  exact moved.nodup_iff.mpr consistent.distinct

theorem Consistent.commitStaging {rows : OutboxTable}
    (inserted : rows.rows = world.rows.rows ++ world.stagedBy transaction) :
    Consistent config { world with
      rows
      staging := world.stagedElsewhere transaction
      committed := world.committed ++ (world.stagedBy transaction).map OutboxRow.id } := by
  refine { consistent with
    settled := ?_
    present := ?_
    failures := ?_
    distinct := ?_
    staged := consistent.staged_elsewhere
    claimed := ?_
    held := ?_ }
  · intro row member
    rw [inserted] at member
    rcases List.mem_append.mp member with old | new
    · exact consistent.settled row old
    · obtain ⟨staged, present, rfl⟩ := mem_stagedBy new
      obtain ⟨pending, unspent⟩ := consistent.staged staged present
      have none : world.failures.count staged.2.id = 0 :=
        List.count_eq_zero.mpr fun failed =>
          consistent.stagedBy_unused new (consistent.failures _ failed)
      simp only [Settled, pending, unspent, none, true_and]
      exact config.attemptsPositive
  · rw [inserted, List.map_append, consistent.present]
  · intro id failed
    exact List.mem_append_left _ (consistent.failures id failed)
  · have moved := (staging_perm world transaction).append_left (world.committed ++ world.rolledBack)
    refine (List.Perm.trans ?_ moved).nodup_iff.mpr consistent.distinct
    rw [← List.append_assoc]
    apply List.Perm.append_right
    rw [List.append_assoc, List.append_assoc]
    exact List.perm_append_comm.append_left world.committed
  · intro pass member row claimed
    exact List.mem_append_left _ (consistent.claimed pass member row claimed)
  · intro pass member holds row claimed
    obtain ⟨present, pending⟩ := consistent.held pass member holds row claimed
    exact ⟨inserted ▸ List.mem_append_left _ present, pending⟩

end Staging

theorem Consistent.drain (consistent : Consistent config world) (now : Date) :
    Consistent config { world with
      passes := world.passes ++
        [.opened now world.clock (claim config world.rows now world.locked)] } := by
  have free : ∀ pass ∈ world.passes, pass.holds world.clock = true →
      Apart pass (.opened now world.clock (claim config world.rows now world.locked)) := by
    intro pass member holds row claimed other taken
    exact not_locked (mem_claim taken).2.2 member holds row claimed
  refine { consistent with
    shaped := ?_
    claimed := ?_
    held := ?_
    apart := ?_
    settled := consistent.settled }
  · exact forall_mem_concat consistent.shaped
      (Shaped.opened world.delivered now world.clock world.rows world.locked)
  · apply forall_mem_concat consistent.claimed
    intro row claimed
    exact consistent.present ▸ List.mem_map_of_mem (mem_claim claimed).1
  · apply forall_mem_concat consistent.held
    intro holds row claimed
    obtain ⟨present, pending, _⟩ := mem_claim claimed
    exact ⟨present, pending⟩
  · intro i j first second left right different holds holds'
    rcases getElem?_concat_eq_some left with before | ⟨last, rfl⟩ <;>
      rcases getElem?_concat_eq_some right with before' | ⟨last', rfl⟩
    · exact consistent.apart i j first second before before' different holds holds'
    · exact free first (List.mem_of_getElem? before) holds
    · intro row claimed other taken same
      exact free second (List.mem_of_getElem? before') holds' other taken row claimed same.symm
    · exact absurd (last.trans last'.symm) different

section Replace

variable {pass' : DrainPass}

theorem getElem?_assign (here : world.passes[index]? = some pass)
    (claims : pass'.claimed = pass.claimed)
    (held : pass'.holds world.clock = true → pass.holds world.clock = true) {i : Nat}
    {found : DrainPass} (at_i : (world.passes.set index pass')[i]? = some found) :
    ∃ old, world.passes[i]? = some old ∧ found.claimed = old.claimed ∧
      (found.holds world.clock = true → old.holds world.clock = true) := by
  rcases getElem?_set_eq_some at_i with ⟨rfl, rfl⟩ | ⟨_, old⟩
  · exact ⟨pass, here, claims, held⟩
  · exact ⟨found, old, rfl, id⟩

variable (consistent : Consistent config world) (here : world.passes[index]? = some pass)

include consistent here

theorem Consistent.apart_assign (claims : pass'.claimed = pass.claimed)
    (held : pass'.holds world.clock = true → pass.holds world.clock = true) (i j : Nat)
    (first second : DrainPass) (left : (world.passes.set index pass')[i]? = some first)
    (right : (world.passes.set index pass')[j]? = some second) (different : i ≠ j)
    (holds : first.holds world.clock = true) (holds' : second.holds world.clock = true) :
    Apart first second := by
  obtain ⟨old, at_i, same, before⟩ := getElem?_assign here claims held left
  obtain ⟨old', at_j, same', before'⟩ := getElem?_assign here claims held right
  unfold Apart
  rw [same, same']
  exact consistent.apart i j old old' at_i at_j different (before holds) (before' holds')

theorem Consistent.move (running : pass.state = .running)
    (moved : PassStep config world.clock world.delivered index pass action pass' delivered) :
    Consistent config { world.assign index pass' with delivered } := by
  have inPasses := List.mem_of_getElem? here
  have recorded := moved.delivered_subset
  refine { consistent with
    settled := ?_
    shaped := ?_
    claimed := ?_
    held := ?_
    apart := consistent.apart_assign here moved.claimed_eq moved.held_before }
  · intro row member
    exact (consistent.settled row member).mono rfl recorded
  · apply forall_mem_set
    · exact fun other before => (consistent.shaped other before).mono recorded
    · exact (consistent.shaped pass inPasses).step running moved
  · apply forall_mem_set consistent.claimed
    rw [moved.claimed_eq]
    exact consistent.claimed pass inPasses
  · apply forall_mem_set consistent.held
    rw [moved.claimed_eq]
    exact fun holds => consistent.held pass inPasses (moved.held_before holds)

end Replace

section

variable (consistent : Consistent config world) (through : Through world index pass)

include consistent through

/-- What a pass wrote about a row is settled once its failures are counted. -/
theorem Consistent.settled_written
    (failures : world'.failures = world.failures ++ pass.failed)
    (delivered : world'.delivered = world.delivered)
    (present : row ∈ world.rows.rows) : Settled config world' (pass.written row) := by
  have shaped := consistent.shaped pass (List.mem_of_getElem? through.here)
  have wrote := consistent.done through
  have settled := consistent.settled row present
  rcases consistent.written_cases through present with
    ⟨claimed, pending, write, made, same⟩ | ⟨free, same⟩
  · rw [same]
    refine settled.apply pending (shaped.justified _ made) ?_ (by simp [delivered])
    rw [failures, List.count_append, failed_of_claimed wrote shaped.distinct made]
  · rw [same]
    refine settled.mono ?_ (by simp [delivered])
    rw [failures, List.count_append, failed_of_unclaimed wrote free, Nat.add_zero]

theorem Consistent.commit :
    Consistent config { world.assign index { pass with state := .committed } with
      rows := world.rows.update (fun _ => true) pass.written pass.written_id
      failures := world.failures ++ pass.failed } := by
  have inPasses := List.mem_of_getElem? through.here
  have shaped := consistent.shaped pass inPasses
  have wrote := consistent.done through
  refine { consistent with
    settled := ?_
    present := ?_
    failures := ?_
    shaped := ?_
    claimed := ?_
    held := ?_
    apart := consistent.apart_assign through.here rfl (by simp [holds]) }
  · intro row member
    obtain ⟨old, present, rfl⟩ := List.mem_map.mp member
    apply consistent.settled_written through _ _ present
    · rfl
    · rfl
  · have ids : (world.rows.update (fun _ => true) pass.written pass.written_id).rows.map
        OutboxRow.id = world.rows.rows.map OutboxRow.id := by
      simp [Table.update, written_id]
    exact ids.trans consistent.present
  · intro id failed
    rcases List.mem_append.mp failed with old | new
    · exact consistent.failures id old
    · obtain ⟨write, kept, rfl⟩ := List.mem_map.mp new
      exact consistent.claimed pass inPasses write.1
        (wrote ▸ List.mem_map_of_mem (List.mem_filter.mp kept).1)
  · apply forall_mem_set consistent.shaped
    refine { shaped with parts := ?_, called := ?_ }
    · intro same
      cases same
    · intro same
      cases same
  · exact forall_mem_set consistent.claimed (consistent.claimed pass inPasses)
  · intro other member holding row claimed
    obtain ⟨at_other, found⟩ := List.mem_iff_getElem?.mp member
    rcases getElem?_set_eq_some found with ⟨_, rfl⟩ | ⟨different, old⟩
    · simp [holds] at holding
    · obtain ⟨present, pending⟩ :=
        consistent.held other (List.mem_of_getElem? old) holding row claimed
      have free : ∀ mine ∈ pass.claimed, mine.id ≠ row.id := fun mine taken =>
        consistent.apart index at_other pass other through.here old different through.holds
          holding mine taken row claimed
      have same := written_of_unclaimed wrote free
      exact ⟨List.mem_map.mpr ⟨row, present, by simpa using same⟩, pending⟩

end

section

variable (consistent : Consistent config world) (taken : OutboxStep config world action world')

include consistent taken

theorem Consistent.step : Consistent config world' := by
  cases taken with
  | stage fresh => exact consistent.stage fresh
  | commitStaging inserted => exact consistent.commitStaging inserted
  | rollbackStaging => exact consistent.rollbackStaging
  | drain => exact consistent.drain _
  | pass here running moved => exact consistent.move here running moved
  | commit here idle done holds => exact consistent.commit ⟨here, idle, done, holds⟩
  | tick =>
    refine { consistent with held := ?_, apart := ?_, settled := consistent.settled }
    · intro pass member holds
      exact consistent.held pass member (held_before holds)
    · intro i j first second left right different holds holds'
      exact consistent.apart i j first second left right different
        (held_before holds) (held_before holds')

/-- An event that is published or dead is never touched again. -/
theorem Consistent.final_kept (member : row ∈ world.rows.rows)
    (final : row.status ≠ .pending) : row ∈ world'.rows.rows := by
  cases taken with
  | commitStaging inserted => exact inserted ▸ List.mem_append_left _ member
  | commit here idle done holds =>
    rcases consistent.written_cases ⟨here, idle, done, holds⟩ member with
      ⟨_, pending, _⟩ | ⟨_, same⟩
    · exact absurd pending final
    · exact List.mem_map.mpr ⟨row, member, by simpa using same⟩
  | _ => exact member

end

/-- No transaction outlives its timeout while time passes. -/
def InTime (world : OutboxWorld) : OutboxAction → Prop
  | .tick elapsed => ∀ pass ∈ world.passes, pass.state = .running → pass.connected = true →
      world.clock + elapsed - pass.startedAt ≤ drainTimeoutMs
  | _ => True

instance (world : OutboxWorld) : DecidablePred (InTime world)
  | .tick elapsed => inferInstanceAs (Decidable (∀ pass ∈ world.passes, pass.state = .running →
      pass.connected = true → world.clock + elapsed - pass.startedAt ≤ drainTimeoutMs))
  | .stage .. | .commitStaging _ | .rollbackStaging _ | .drain _ | .next _ | .settle .. |
    .commit _ | .lose _ | .crash _ => isTrue trivial

/-- Nor does the database roll one back under a pass that has rows left to deliver. -/
def Sheltered (world : OutboxWorld) : OutboxAction → Prop
  | .lose index => ∀ pass ∈ world.running index, pass.flight = none ∧ pass.queue = []
  | action => InTime world action

/-- A pass with rows left to deliver has its transaction. -/
def Covered (world : OutboxWorld) : Prop :=
  ∀ pass ∈ world.passes, pass.state = .running → pass.flight ≠ none ∨ pass.queue ≠ [] →
    pass.holds world.clock = true

theorem PassStep.covered {pass' : DrainPass}
    (moved : PassStep config clock delivered index pass action pass' delivered')
    (before : pass.flight ≠ none ∨ pass.queue ≠ [] → pass.holds clock = true)
    (sheltered : action = .lose index → pass.flight = none ∧ pass.queue = [])
    (running : pass'.state = .running) (left : pass'.flight ≠ none ∨ pass'.queue ≠ []) :
    pass'.holds clock = true := by
  cases moved with
  | deliver idle first => exact before (.inr (by simp [first]))
  | refuse idle first unknown holds | settle flying holds => exact holds
  | abandon => cases running
  | lose =>
    obtain ⟨idle, done⟩ := sheltered rfl
    rcases left with flying | queued
    · exact absurd idle flying
    · exact absurd done queued

theorem Covered.step (covered : Covered world)
    (sheltered : Sheltered world action) (taken : OutboxStep config world action world') :
    Covered world' := by
  intro other member running left
  cases taken with
  | drain =>
    rcases List.mem_append.mp member with old | new
    · exact covered other old running left
    · cases List.mem_singleton.mp new
      simp [holds, opened]
  | pass here runs moved =>
    rename_i index pass pass' delivered
    rcases List.mem_or_eq_of_mem_set member with old | rfl
    · exact covered other old running left
    · refine moved.covered (covered pass (List.mem_of_getElem? here) runs) ?_ running left
      rintro rfl
      exact sheltered pass (world.running_eq_some.mpr ⟨here, runs⟩)
  | commit =>
    rcases List.mem_or_eq_of_mem_set member with old | rfl
    · exact covered other old running left
    · cases running
  | tick =>
    have before := covered other member running left
    simp only [holds, Bool.and_eq_true, decide_eq_true_eq] at before ⊢
    exact ⟨before.1, sheltered other member running before.1.2⟩
  | _ => exact covered other member running left

/-- A pass is waiting for the `deliver` call of a row. -/
def DrainPass.delivers (pass : DrainPass) (id : String) : Prop :=
  pass.state = .running ∧ ∃ flight ∈ pass.flight, flight.1.id = id

theorem Consistent.delivers_claimed (consistent : Consistent config world)
    (member : pass ∈ world.passes) (delivers : pass.delivers id) :
    ∃ row ∈ pass.claimed, row.id = id := by
  obtain ⟨running, flight, flying, same⟩ := delivers
  have parts := (consistent.shaped pass member).parts running
  rw [Option.mem_def.mp flying] at parts
  refine ⟨flight.1, ?_, same⟩
  rw [← parts]
  simp

/-- While nobody delivers without its transaction, nobody delivers what another does. -/
theorem Consistent.delivers_apart (consistent : Consistent config world) (covered : Covered world)
    {i j : Nat} {first second : DrainPass} (left : world.passes[i]? = some first)
    (right : world.passes[j]? = some second) (different : i ≠ j) (delivers : first.delivers id) :
    ¬ second.delivers id := by
  intro delivers'
  have holds : ∀ pass ∈ world.passes, pass.delivers id → pass.holds world.clock = true := by
    rintro pass member ⟨running, flight, flying, _⟩
    exact covered pass member running (.inl (by simp [Option.mem_def.mp flying]))
  have member := List.mem_of_getElem? left
  have member' := List.mem_of_getElem? right
  obtain ⟨row, claimed, same⟩ := consistent.delivers_claimed member delivers
  obtain ⟨row', claimed', same'⟩ := consistent.delivers_claimed member' delivers'
  exact consistent.apart i j first second left right different (holds first member delivers)
    (holds second member' delivers') row claimed row' claimed' (same.trans same'.symm)

/-- Every committed event has its row, settled as the attempts on it say; a decided row stays as it
is; what was rolled back is never sent; a pass sends at most a batch, in order; and while locks last
as long as their passes, no two passes have one row in delivery. -/
theorem outbox_delivery (config : RelayConfig) (clock : Nat) (actions : List OutboxAction)
    (world : OutboxWorld)
    (run : Steps (Executes (act config)) (.booted clock) actions world) :
    (∀ id ∈ world.committed, ∃ row ∈ world.rows.rows, row.id = id ∧ Settled config world row) ∧
    (∀ rest later, Steps (Executes (act config)) world rest later →
      ∀ row ∈ world.rows.rows, row.status ≠ .pending → row ∈ later.rows.rows) ∧
    (∀ pass ∈ world.passes, ∀ row ∈ pass.sent, row.id ∉ world.rolledBack) ∧
    (∀ pass ∈ world.passes, pass.sent.length ≤ config.batchSize ∧
      pass.sent.Pairwise fun first second => Before first second ∧ first.id ≠ second.id) ∧
    (Steps (Guarded Sheltered (Executes (act config))) (.booted clock) actions world →
      ∀ (i j : Nat) (first second : DrainPass) (id : String), world.passes[i]? = some first →
        world.passes[j]? = some second → i ≠ j → first.delivers id → ¬ second.delivers id) := by
  have kept : ∀ s a t, Consistent config s → Executes (act config) s a t →
      Consistent config t := fun s a t here taken => here.step (step_of_act taken)
  have consistent := run.invariant (Consistent config) kept (.booted config clock)
  refine ⟨?_, ?_, ?_, ?_, ?_⟩
  · intro id committed
    rw [← consistent.present] at committed
    obtain ⟨row, member, same⟩ := List.mem_map.mp committed
    exact ⟨row, member, same, consistent.settled row member⟩
  · intro rest later onward row member final
    have both := onward.invariant
      (fun world => Consistent config world ∧ row ∈ world.rows.rows) ?_ ⟨consistent, member⟩
    · exact both.2
    · intro s a t here taken
      exact ⟨kept s a t here.1 taken, here.1.final_kept (step_of_act taken) here.2 final⟩
  · intro pass member row sent undone
    have claimed := (consistent.shaped pass member).sent.subset sent
    have committed := consistent.claimed pass member row claimed
    have apart := (List.nodup_append.mp (List.nodup_append.mp consistent.distinct).1).2.2
    exact apart _ committed _ undone rfl
  · intro pass member
    have shaped := consistent.shaped pass member
    exact ⟨shaped.sent.length_le.trans shaped.bounded, shaped.ordered.sublist shaped.sent⟩
  · intro sheltered i j first second id left right different delivers
    have covered : Covered world := by
      refine sheltered.invariant Covered ?_ (by simp [Covered, booted])
      intro s a t here taken
      exact here.step taken.1 (step_of_act taken.2)
    exact consistent.delivers_apart covered left right different delivers

section Example

def exampleConfig (batchSize : Nat) (positive : 1 ≤ batchSize) : RelayConfig where
  batchSize
  publishTimeoutMs := 5000
  policy := { baseMs := 500, maxMs := 300000, maxAttempts := 8 }
  batchPositive := positive
  timeoutPositive := by decide
  attemptsPositive := by decide

def exampleEvent (eventId name : String) : NewOutboxEvent where
  eventId
  name
  payload := .obj []
  correlationId := none
  occurredAt := 0
  trace := ⟨none, none⟩

def OutboxWorld.summary (world : OutboxWorld) :
    List (String × OutboxStatus × Nat) × List (PassState × Option String) :=
  (world.rows.rows.map fun row => (row.id, row.status, row.attempts),
    world.passes.map fun pass => (pass.state, pass.flight.map fun flight => flight.1.id))

/-- Two passes share three events, one of them of an unknown name, while a fourth is rolled
back. -/
def twoPasses : List OutboxAction :=
  [.stage 0 "a" (exampleEvent "1" "user.registered") 0,
    .stage 1 "b" (exampleEvent "2" "user.deleted") 0,
    .stage 0 "c" (exampleEvent "3" "order.placed") 0,
    .stage 0 "d" (exampleEvent "4" "order.forgotten") 0, .commitStaging 0, .rollbackStaging 1,
    .drain 0, .next 0, .drain 0, .next 1, .tick 5000, .settle 0 .accepted 0, .next 0,
    .settle 0 .timedOut 0, .commit 0, .commit 1]

theorem outbox_delivery_two_passes :
    ∃ world, Steps (Executes (act (exampleConfig 2 (by decide)))) (.booted 0) twoPasses world ∧
      world.summary = ([("a", .published, 1), ("c", .pending, 1), ("d", .dead, 1)],
        [(.committed, none), (.committed, none)]) ∧
      ∀ id ∈ world.committed, ∃ row ∈ world.rows.rows, row.id = id ∧
        Settled (exampleConfig 2 (by decide)) world row := by
  refine exists_and_of (by decide +kernel) ?_
  intro world run _
  exact (outbox_delivery _ 0 twoPasses world run).1

/-- The connection of a pass is lost during its `deliver` call, and a second pass claims the row
whose lock went with it. -/
def lostConnection : List OutboxAction :=
  [.stage 0 "a" (exampleEvent "1" "user.registered") 0, .commitStaging 0, .drain 0, .next 0,
    .lose 0, .drain 0, .next 1]

/-- No transaction outlives its timeout, and yet two passes deliver one row at the same time. -/
theorem delivered_by_two_passes :
    ∃ world, Steps (Guarded InTime (Executes (act (exampleConfig 50 (by decide)))))
        (.booted 0) lostConnection world ∧
      world.summary = ([("a", .pending, 0)], [(.running, some "a"), (.running, some "a")]) ∧
      ∃ first second, world.passes[0]? = some first ∧ world.passes[1]? = some second ∧
        first.delivers "a" ∧ second.delivers "a" := by
  refine exists_and_of (by decide +kernel) ?_
  intro world run told
  have passes := congrArg Prod.snd told
  simp only [summary] at passes
  obtain ⟨first, rest, split, one, others⟩ := List.map_eq_cons_iff.mp passes
  obtain ⟨second, none, split', two, _⟩ := List.map_eq_cons_iff.mp others
  have flying : ∀ pass : DrainPass,
      (pass.state, pass.flight.map fun flight => flight.1.id) = (.running, some "a") →
        pass.delivers "a" := by
    intro pass same
    obtain ⟨running, flying⟩ := Prod.mk.inj same
    exact ⟨running, Option.map_eq_some_iff.mp flying⟩
  exact ⟨first, second, by simp [split], by simp [split, split'], flying first one,
    flying second two⟩

end Example

end NestApi.Outbox
