import NestApi.OutboxDelivery

namespace NestApi.Outbox

open OutboxWorld

variable {config : RelayConfig} {world world' : OutboxWorld} {delivered : List String}
  {pass' : DrainPass} {row : OutboxRow} {rest : List OutboxRow}

/-- Time passes only in `deliver` calls, each of which ends within its timeout, and only age rolls a
transaction back. -/
def Timely (config : RelayConfig) (world : OutboxWorld) : OutboxAction → Prop
  | .tick elapsed => ∀ pass ∈ world.passes, pass.state = .running →
      pass.flight.any fun flight => world.clock + elapsed ≤ flight.2 + config.publishTimeoutMs
  | .lose _ | .crash _ => False
  | _ => True

instance (config : RelayConfig) (world : OutboxWorld) : DecidablePred (Timely config world)
  | .tick elapsed => inferInstanceAs (Decidable (∀ pass ∈ world.passes, pass.state = .running →
      pass.flight.any fun flight => world.clock + elapsed ≤ flight.2 + config.publishTimeoutMs))
  | .lose _ | .crash _ => isFalse id
  | .stage .. | .commitStaging _ | .rollbackStaging _ | .drain _ | .next _ | .settle .. |
    .commit _ => isTrue trivial

def DrainPass.claims (pass : DrainPass) (id : String) : Bool :=
  (pass.claimed.map OutboxRow.id).contains id

def OutboxWorld.claims (world : OutboxWorld) (id : String) : Nat :=
  world.passes.countP fun pass => pass.claims id

/-- Whether a pass that is under way has claimed a row. -/
def OutboxWorld.busy (world : OutboxWorld) (id : String) : Bool :=
  world.passes.any fun pass => pass.state = .running && pass.claims id

/-- What is left to do for a pass when the publisher answers each row as it is told to. -/
def DrainPass.remainder (pass : DrainPass) (index : Nat) (answer : OutboxRow → Delivery × ℚ) :
    List OutboxAction :=
  let settle := fun row => OutboxAction.settle index (answer row).1 (answer row).2
  (pass.flight.toList.map fun flight => settle flight.1) ++
    (pass.queue.flatMap fun row =>
      if row.known then [.next index, settle row] else [.next index]) ++
      [.commit index]

structure Progress (config : RelayConfig) (world : OutboxWorld) : Prop where
  upheld : ∀ pass ∈ world.passes, pass.state ≠ .rolledBack
  decided : ∀ pass ∈ world.passes, pass.state = .committed → pass.writes.map Prod.fst = pass.claimed
  bounded : ∀ row ∈ world.rows.rows, world.claims row.id ≤ config.policy.maxAttempts ∧
    (row.status = .pending → world.busy row.id = false →
      world.claims row.id < config.policy.maxAttempts)
  commits : ∀ index pass, world.running index = some pass →
    ∀ answer, ∃ later pass',
      Steps (Guarded (Timely config) (Executes (act config))) world
        (pass.remainder index answer) later ∧
      later.passes[index]? = some pass' ∧ pass'.state = .committed ∧ pass'.claimed = pass.claimed

/-- How far a pass can be behind the time it began at: one publish timeout for each row. -/
structure Paced (config : RelayConfig) (clock : Nat) (pass : DrainPass) : Prop where
  upheld : pass.state ≠ .rolledBack
  connected : pass.connected = true
  idle : pass.state = .running → pass.flight = none →
    clock ≤ pass.startedAt + pass.writes.length * config.publishTimeoutMs
  flying : pass.state = .running → ∀ flight ∈ pass.flight,
    flight.2 ≤ pass.startedAt + pass.writes.length * config.publishTimeoutMs ∧
      clock ≤ flight.2 + config.publishTimeoutMs
  decided : pass.state = .committed → pass.writes.map Prod.fst = pass.claimed

section Pace

variable {clock : Nat} {pass : DrainPass}

/-- A pass that is under way and connected has its transaction for as long as that may take. -/
theorem DrainPass.holds_iff (running : pass.state = .running) (connected : pass.connected = true) :
    pass.holds clock = true ↔ clock - pass.startedAt ≤ drainTimeoutMs := by
  simp [DrainPass.holds, running, connected]

theorem Paced.wrote (paced : Paced config clock pass) (running : pass.state = .running)
    (due : clock ≤ pass.startedAt + pass.writes.length * config.publishTimeoutMs +
      config.publishTimeoutMs) (queue : List OutboxRow) (write : OutboxRow × OutboxWrite) :
    Paced config clock { pass with queue, flight := none, writes := pass.writes ++ [write] } := by
  refine { paced with idle := ?_, flying := ?_, decided := ?_ }
  · intro _ _
    simp only [List.length_append, List.length_singleton, Nat.add_mul, Nat.one_mul]
    omega
  · intro _ flight flying
    cases flying
  · intro committed
    exact absurd (running.symm.trans committed) (by decide)

variable (fits : config.batchSize * config.publishTimeoutMs ≤ drainTimeoutMs)

include fits

theorem Paced.holds (paced : Paced config clock pass)
    (shaped : Shaped config delivered pass) (running : pass.state = .running) :
    pass.holds clock = true := by
  have parts := congrArg List.length (shaped.parts running)
  have bounded := shaped.bounded
  simp only [List.length_append, List.length_map] at parts
  have age : clock ≤ pass.startedAt + config.batchSize * config.publishTimeoutMs := by
    cases flight : pass.flight with
    | none =>
      have idle := paced.idle running flight
      have rows : pass.writes.length * config.publishTimeoutMs ≤
          config.batchSize * config.publishTimeoutMs := Nat.mul_le_mul_right _ (by omega)
      omega
    | some since =>
      obtain ⟨began, within⟩ := paced.flying running since flight
      rw [flight] at parts
      have rows : (pass.writes.length + 1) * config.publishTimeoutMs ≤
          config.batchSize * config.publishTimeoutMs :=
        Nat.mul_le_mul_right _ (by simp at parts; omega)
      rw [Nat.add_mul, Nat.one_mul] at rows
      omega
  rw [DrainPass.holds_iff running paced.connected]
  omega

variable {delivered' : List String} {index : Nat} {action : OutboxAction}
  (paced : Paced config clock pass) (shaped : Shaped config delivered pass)
  (running : pass.state = .running) (timely : Timely config world action)
  (moved : PassStep config clock delivered index pass action pass' delivered')

include paced shaped running timely moved

theorem Paced.step : Paced config clock pass' := by
  cases moved with
  | deliver idle =>
    have began := paced.idle running idle
    refine { paced with idle := ?_, flying := ?_ }
    · intro _ none
      cases none
    · intro _ flight flying
      cases flying
      exact ⟨began, by omega⟩
  | refuse idle =>
    have began := paced.idle running idle
    exact paced.wrote running (by omega) _ _
  | settle flying =>
    obtain ⟨began, within⟩ := paced.flying running _ flying
    exact paced.wrote running (by omega) _ _
  | abandon recorded why =>
    rcases why with gone | rfl
    · rw [paced.holds fits shaped running] at gone
      cases gone
    · exact absurd timely id
  | lose => exact absurd timely id

theorem Paced.state_eq : pass'.state = pass.state := by
  have upheld := (paced.step fits shaped running timely moved).upheld
  cases moved with
  | abandon => exact absurd rfl upheld
  | _ => rfl

end Pace

section Count

variable {index : Nat} {pass : DrainPass} {id : String}

theorem DrainPass.claims_iff : pass.claims id = true ↔ ∃ row ∈ pass.claimed, row.id = id := by
  simp [DrainPass.claims]

theorem claims_assign (here : world.passes[index]? = some pass)
    (same : pass'.claimed = pass.claimed) :
    (world.assign index pass').claims id = world.claims id := by
  have mapped := map_set_of_eq DrainPass.claimed here same
  have counted := congrArg
    (List.countP fun claimed : List OutboxRow => (claimed.map OutboxRow.id).contains id) mapped
  rwa [List.countP_map, List.countP_map] at counted

theorem busy_assign (here : world.passes[index]? = some pass)
    (same : (pass'.state = .running && pass'.claims id) =
      (pass.state = .running && pass.claims id)) :
    (world.assign index pass').busy id = world.busy id := by
  have mapped := map_set_of_eq
    (fun pass : DrainPass => decide (pass.state = .running) && pass.claims id) here same
  have found := congrArg (List.any · fun busy => busy) mapped
  rwa [List.any_map, List.any_map] at found

theorem Consistent.unclaimed (consistent : Consistent config world)
    (unused : id ∉ world.committed) : world.claims id = 0 ∧ world.busy id = false := by
  have none : ∀ pass ∈ world.passes, pass.claims id = false := by
    intro pass member
    rw [Bool.eq_false_iff]
    intro claims
    obtain ⟨row, claimed, rfl⟩ := DrainPass.claims_iff.mp claims
    exact unused (consistent.claimed pass member row claimed)
  constructor
  · rw [claims, List.countP_eq_zero]
    intro pass member
    simp [none pass member]
  · rw [busy, List.any_eq_false]
    intro pass member
    simp [none pass member]

end Count

/-- A pending event has been claimed once for each attempt, and once more while a pass is at it. -/
def Tallied (config : RelayConfig) (world : OutboxWorld) (row : OutboxRow) : Prop :=
  if row.status = .pending then
    world.claims row.id = row.attempts + if world.busy row.id then 1 else 0
  else world.claims row.id ≤ config.policy.maxAttempts

structure OnTrack (config : RelayConfig) (world : OutboxWorld) : Prop where
  consistent : Consistent config world
  paced : ∀ pass ∈ world.passes, Paced config world.clock pass
  tallied : ∀ row ∈ world.rows.rows, Tallied config world row

theorem OnTrack.booted (config : RelayConfig) (clock : Nat) : OnTrack config (.booted clock) := by
  refine ⟨.booted config clock, ?_, ?_⟩ <;> simp [OutboxWorld.booted, Table.empty]

theorem OnTrack.commitStaging (track : OnTrack config world) {transaction : Nat}
    {rows : OutboxTable} (inserted : rows.rows = world.rows.rows ++ world.stagedBy transaction) :
    OnTrack config { world with
      rows
      staging := world.stagedElsewhere transaction
      committed := world.committed ++ (world.stagedBy transaction).map OutboxRow.id } := by
  have news : ∀ row ∈ rows.rows, row ∈ world.rows.rows ∨
      row.status = .pending ∧ row.attempts = 0 ∧ world.claims row.id = 0 ∧
        world.busy row.id = false := by
    intro row member
    rw [inserted] at member
    rcases List.mem_append.mp member with old | new
    · exact .inl old
    · have unclaimed := track.consistent.unclaimed (track.consistent.stagedBy_unused new)
      obtain ⟨staged, present, rfl⟩ := mem_stagedBy new
      obtain ⟨pending, unspent⟩ := track.consistent.staged staged present
      exact .inr ⟨pending, unspent, unclaimed⟩
  refine ⟨track.consistent.commitStaging inserted, track.paced, ?_⟩
  intro row member
  rcases news row member with old | ⟨pending, unspent, none, free⟩
  · exact track.tallied row old
  · change Tallied config world row
    simp [Tallied, pending, none, unspent, free]

section Step

variable (fits : config.batchSize * config.publishTimeoutMs ≤ drainTimeoutMs) {id : String}

include fits

theorem OnTrack.not_busy (track : OnTrack config world)
    (free : world.locked id = false) : world.busy id = false := by
  rw [busy, List.any_eq_false]
  intro pass member
  simp only [Bool.and_eq_true, decide_eq_true_eq, not_and]
  intro running claims
  obtain ⟨row, claimed, same⟩ := DrainPass.claims_iff.mp claims
  have holds := (track.paced pass member).holds fits (track.consistent.shaped pass member) running
  exact not_locked free member holds row claimed same

theorem OnTrack.drain (track : OnTrack config world) (now : Date) : OnTrack config { world with
      passes := world.passes ++
        [.opened now world.clock (claim config world.rows now world.locked)] } := by
  generalize opened : DrainPass.opened now world.clock
    (claim config world.rows now world.locked) = pass
  have claims : ∀ id, claims { world with passes := world.passes ++ [pass] } id =
      world.claims id + if pass.claims id then 1 else 0 := by
    intro id
    simp [claims, List.countP_append, List.countP_singleton]
  have busy : ∀ id, busy { world with passes := world.passes ++ [pass] } id =
      (world.busy id || pass.claims id) := by
    intro id
    simp [busy, ← opened, DrainPass.opened]
  have taken : ∀ row ∈ world.rows.rows, pass.claims row.id = true →
      row.status = .pending ∧ world.busy row.id = false := by
    intro row member claimed
    rw [← opened] at claimed
    obtain ⟨other, claimed, same⟩ := DrainPass.claims_iff.mp claimed
    obtain ⟨present, pending, free⟩ := mem_claim claimed
    have only : other = row := Table.eq_of_key_eq present member same
    exact only ▸ ⟨pending, track.not_busy fits free⟩
  refine ⟨opened ▸ track.consistent.drain now, ?_, ?_⟩
  · apply forall_mem_concat track.paced
    subst opened
    constructor <;> simp [DrainPass.opened]
  · intro row member
    have before := track.tallied row member
    rw [Tallied] at before ⊢
    rw [claims, busy]
    by_cases claimed : pass.claims row.id = true
    · obtain ⟨pending, free⟩ := taken row member claimed
      simpa [claimed, pending, free] using before
    · simpa [claimed] using before

variable {index : Nat} {pass : DrainPass} {action : OutboxAction}

section

variable (track : OnTrack config world) (here : world.passes[index]? = some pass)
  (running : pass.state = .running)

include track here running

theorem OnTrack.move (timely : Timely config world action)
    (moved : PassStep config world.clock world.delivered index pass action pass' delivered) :
    OnTrack config { world.assign index pass' with delivered } := by
  have shaped := track.consistent.shaped pass (List.mem_of_getElem? here)
  have paced := track.paced pass (List.mem_of_getElem? here)
  have claims : ∀ id, (world.assign index pass').claims id = world.claims id :=
    fun id => claims_assign here moved.claimed_eq
  have busy : ∀ id, (world.assign index pass').busy id = world.busy id := by
    intro id
    apply busy_assign here
    rw [DrainPass.claims, DrainPass.claims, moved.claimed_eq,
      paced.state_eq fits shaped running timely moved]
  refine ⟨track.consistent.move here running moved, ?_, ?_⟩
  · exact forall_mem_set track.paced (paced.step fits shaped running timely moved)
  · intro row member
    have before := track.tallied row member
    rw [Tallied, ← claims, ← busy] at before
    exact before

/-- A row a pass is at is no longer one once the pass commits: no other pass has it. -/
theorem OnTrack.busy_committed (claimed : row ∈ pass.claimed) : world.busy row.id = true ∧
      (world.assign index { pass with state := .committed }).busy row.id = false := by
  have holding : ∀ other ∈ world.passes, other.state = .running →
      other.holds world.clock = true := fun other member runs =>
    (track.paced other member).holds fits (track.consistent.shaped other member) runs
  constructor
  · rw [busy, List.any_eq_true]
    exact ⟨pass, List.mem_of_getElem? here, by
      simp [running, DrainPass.claims_iff.mpr ⟨row, claimed, rfl⟩]⟩
  · rw [busy, List.any_eq_false]
    intro other member
    simp only [Bool.and_eq_true, decide_eq_true_eq, not_and]
    intro runs claims
    obtain ⟨other_row, taken, same⟩ := DrainPass.claims_iff.mp claims
    obtain ⟨i, found⟩ := List.mem_iff_getElem?.mp member
    rcases getElem?_set_eq_some found with ⟨_, rfl⟩ | ⟨different, old⟩
    · cases runs
    · exact track.consistent.apart index i pass other here old different
        (holding pass (List.mem_of_getElem? here) running)
        (holding other (List.mem_of_getElem? old) runs) row claimed other_row taken same.symm

end

omit fits in
theorem busy_committed_of_unclaimed (here : world.passes[index]? = some pass)
    (free : ∀ row ∈ pass.claimed, row.id ≠ id) :
    (world.assign index { pass with state := .committed }).busy id = world.busy id := by
  have unclaimed : pass.claims id = false := by
    rw [Bool.eq_false_iff]
    intro claimed
    obtain ⟨row, taken, same⟩ := DrainPass.claims_iff.mp claimed
    exact free row taken same
  apply busy_assign here
  change (_ && pass.claims id) = (_ && pass.claims id)
  rw [unclaimed, Bool.and_false, Bool.and_false]

section Commit

variable (track : OnTrack config world) (through : Through world index pass)
  (present : row ∈ world.rows.rows)

include track through present

/-- A row its pass leaves pending has been attempted once more. -/
theorem OnTrack.tallied_written :
    Tallied config (world.assign index { pass with state := .committed }) (pass.written row) := by
  have here := through.here
  have before := track.tallied row present
  have claims : (world.assign index { pass with state := .committed }).claims row.id =
      world.claims row.id := claims_assign here rfl
  rw [Tallied] at before ⊢
  rw [pass.written_id, claims]
  rcases track.consistent.written_cases through present with
    ⟨claimed, waiting, write, made, same⟩ | ⟨free, same⟩
  · have entitled := (track.consistent.shaped pass (List.mem_of_getElem? here)).justified _ made
    have settled := track.consistent.settled row present
    simp only [Settled, waiting] at settled
    obtain ⟨was, now⟩ :=
      track.busy_committed fits here (DrainPass.running_of_holds through.holds) claimed
    simp only [waiting, was, ↓reduceIte] at before
    rw [same, now, before]
    cases write with
    | retry =>
      rw [if_pos (by exact waiting)]
      exact entitled.2.1.symm
    | published | dead =>
      rw [if_neg (by simp [OutboxWrite.apply])]
      exact settled.2
  · rwa [same, busy_committed_of_unclaimed here free]

end Commit

theorem OnTrack.commit {index : Nat} {pass : DrainPass} (track : OnTrack config world)
    (through : Through world index pass) :
    OnTrack config { world.assign index { pass with state := .committed } with
      rows := world.rows.update (fun _ => true) pass.written pass.written_id
      failures := world.failures ++ pass.failed } := by
  refine ⟨track.consistent.commit through, ?_, ?_⟩
  · apply forall_mem_set track.paced
    have connected := (track.paced pass (List.mem_of_getElem? through.here)).connected
    have wrote := track.consistent.done through
    exact ⟨by simp, connected, by simp, by simp, fun _ => wrote⟩
  · intro row member
    obtain ⟨old, present, rfl⟩ := List.mem_map.mp member
    rw [if_pos rfl]
    exact track.tallied_written fits through present

theorem OnTrack.step (track : OnTrack config world)
    (timely : Timely config world action) (taken : OutboxStep config world action world') :
    OnTrack config world' := by
  cases taken with
  | stage fresh => exact { track with consistent := track.consistent.stage fresh }
  | commitStaging inserted => exact track.commitStaging inserted
  | rollbackStaging => exact { track with consistent := track.consistent.rollbackStaging }
  | drain => exact track.drain fits _
  | pass here running moved => exact track.move fits here running timely moved
  | commit here idle done holds => exact track.commit fits ⟨here, idle, done, holds⟩
  | tick =>
    refine { track with consistent := track.consistent.step .tick, paced := ?_ }
    intro pass member
    have paced := track.paced pass member
    refine { paced with idle := ?_, flying := ?_ }
    · intro running none
      have flying := timely pass member running
      rw [none] at flying
      cases flying
    · intro running flight flying
      have within := timely pass member running
      rw [Option.mem_def.mp flying] at within
      exact ⟨(paced.flying running flight flying).1, by simpa using within⟩

theorem OnTrack.act (track : OnTrack config world)
    (taken : world.act config action = some world') (timely : Timely config world action) :
    OnTrack config world' :=
  track.step fits timely (step_of_act taken)

theorem OnTrack.run {clock : Nat} {actions : List OutboxAction}
    (run : Steps (Guarded (Timely config) (Executes (OutboxWorld.act config))) (.booted clock)
      actions world) : OnTrack config world := by
  refine run.invariant (OnTrack config) ?_ (.booted config clock)
  intro s a t track taken
  exact track.act fits taken.2 taken.1

end Step

section Commits

variable (fits : config.batchSize * config.publishTimeoutMs ≤ drainTimeoutMs) {index : Nat}
  {pass : DrainPass}

theorem running_assign (here : world.passes[index]? = some pass)
    (running : pass'.state = .running) : (world.assign index pass').running index = some pass' := by
  obtain ⟨inside, _⟩ := List.getElem?_eq_some_iff.mp here
  rw [running_eq_some]
  exact ⟨by simp [assign, inside], running⟩

/-- The pass that an own action leaves in the place of another: still under way, with the same
claims. -/
def Follows (world : OutboxWorld) (index : Nat) (pass : DrainPass)
    (flight : Option (OutboxRow × Nat)) (queue : List OutboxRow) : Prop :=
  ∃ pass', world.running index = some pass' ∧ pass'.flight = flight ∧ pass'.queue = queue ∧
    pass'.claimed = pass.claimed

theorem deliver_follows (found : world.running index = some pass) (idle : pass.flight = none)
    (first : pass.queue = row :: rest) (known : row.known = true) :
    ∃ later, world.act config (.next index) = some later ∧
      Follows later index pass (some (row, world.clock)) rest := by
  obtain ⟨here, running⟩ := world.running_eq_some.mp found
  refine ⟨world.next index pass row rest, by simp only [act, found, idle, first], ?_⟩
  rw [next, if_pos known]
  exact ⟨_, running_assign here running, rfl, rfl, rfl⟩

include fits

section

variable (track : OnTrack config world) (found : world.running index = some pass)

include track found

theorem OnTrack.holds : pass.holds world.clock = true := by
  obtain ⟨here, running⟩ := world.running_eq_some.mp found
  have member := List.mem_of_getElem? here
  exact (track.paced pass member).holds fits (track.consistent.shaped pass member) running

theorem OnTrack.refuse_follows (idle : pass.flight = none)
    (first : pass.queue = row :: rest) (unknown : row.known = false) :
    ∃ later, world.act config (.next index) = some later ∧ Follows later index pass none rest := by
  obtain ⟨here, running⟩ := world.running_eq_some.mp found
  have holds := track.holds fits found
  refine ⟨world.next index pass row rest, by simp only [OutboxWorld.act, found, idle, first], ?_⟩
  rw [OutboxWorld.next, if_neg (by simp [unknown]), OutboxWorld.statement, if_pos (by exact holds)]
  exact ⟨_, running_assign here running, rfl, rfl, rfl⟩

theorem OnTrack.settle_follows {since : Nat}
    (flying : pass.flight = some (row, since)) (delivery : Delivery) (random : ℚ) :
    ∃ later, world.act config (.settle index delivery random) = some later ∧
      Follows later index pass none pass.queue := by
  obtain ⟨here, running⟩ := world.running_eq_some.mp found
  have holds := track.holds fits found
  refine ⟨world.settle config index pass row delivery random,
    by simp only [OutboxWorld.act, found, flying, Option.map_some], ?_⟩
  unfold OutboxWorld.settle OutboxWorld.statement
  dsimp only
  rw [if_pos (by exact holds)]
  exact ⟨_, running_assign here running, rfl, rfl, rfl⟩

end

/-- Whatever the publisher answers, a pass between two rows gets to its commit. -/
theorem OnTrack.commits_queue (answer : OutboxRow → Delivery × ℚ) (queue : List OutboxRow)
    (track : OnTrack config world) (found : world.running index = some pass)
    (idle : pass.flight = none) (left : pass.queue = queue) :
    ∃ later pass', Steps (Guarded (Timely config) (Executes (OutboxWorld.act config))) world
        (queue.flatMap (fun row => if row.known then
          [.next index, .settle index (answer row).1 (answer row).2] else [.next index]) ++
            [.commit index]) later ∧
      later.passes[index]? = some pass' ∧ pass'.state = .committed ∧
        pass'.claimed = pass.claimed := by
  induction queue generalizing world pass with
  | nil =>
    obtain ⟨here, running⟩ := world.running_eq_some.mp found
    obtain ⟨inside, _⟩ := List.getElem?_eq_some_iff.mp here
    refine ⟨world.commit index pass, { pass with state := .committed }, .single ⟨trivial, ?_⟩, ?_,
      rfl, rfl⟩
    · simp only [Executes, OutboxWorld.act, found, idle, left]
    · simp [OutboxWorld.commit, track.holds fits found, OutboxWorld.assign, inside]
  | cons row rest ih =>
    by_cases known : row.known = true
    · obtain ⟨middle, called, pass₁, found₁, flying, queued, claims⟩ :=
        deliver_follows found idle left known
      have track₁ := track.act fits called trivial
      obtain ⟨settled, answered, pass₂, found₂, idle₂, queued₂, claims₂⟩ :=
        track₁.settle_follows fits found₁ flying (answer row).1 (answer row).2
      have track₂ := track₁.act fits answered trivial
      obtain ⟨later, pass', run, committed⟩ := ih track₂ found₂ idle₂ (queued₂.trans queued)
      refine ⟨later, pass', ?_, committed.1, committed.2.1, ?_⟩
      · simp only [List.flatMap_cons, known, ↓reduceIte]
        exact .cons ⟨trivial, called⟩ (.cons ⟨trivial, answered⟩ run)
      · rw [committed.2.2, claims₂, claims]
    · obtain ⟨middle, refused, pass₁, found₁, idle₁, queued, claims⟩ :=
        track.refuse_follows fits found idle left (Bool.eq_false_iff.mpr known)
      have track₁ := track.act fits refused trivial
      obtain ⟨later, pass', run, committed⟩ := ih track₁ found₁ idle₁ queued
      refine ⟨later, pass', ?_, committed.1, committed.2.1, ?_⟩
      · simp only [List.flatMap_cons, known, Bool.false_eq_true, ↓reduceIte]
        exact .cons ⟨trivial, refused⟩ run
      · rw [committed.2.2, claims]

theorem OnTrack.progress (track : OnTrack config world) : Progress config world where
  upheld := fun pass member => (track.paced pass member).upheld
  decided := fun pass member => (track.paced pass member).decided
  bounded := by
    intro row member
    have claims := track.tallied row member
    by_cases pending : row.status = .pending
    · rw [Tallied, if_pos pending] at claims
      have settled := track.consistent.settled row member
      simp only [Settled, pending] at settled
      constructor
      · split at claims <;> omega
      · intro _ free
        rw [free] at claims
        simp only [Bool.false_eq_true, ↓reduceIte] at claims
        omega
    · rw [Tallied, if_neg pending] at claims
      exact ⟨claims, fun waiting => absurd waiting pending⟩
  commits := by
    intro index pass found answer
    cases flying : pass.flight with
    | none =>
      obtain ⟨later, pass', run, committed⟩ :=
        track.commits_queue fits answer pass.queue found flying rfl
      exact ⟨later, pass', by simpa [DrainPass.remainder, flying] using run, committed⟩
    | some flight =>
      obtain ⟨settled, answered, pass₁, found₁, idle₁, queued, claims⟩ :=
        track.settle_follows fits found flying (answer flight.1).1 (answer flight.1).2
      have track₁ := track.act fits answered trivial
      obtain ⟨later, pass', run, committed, done, same⟩ :=
        track₁.commits_queue fits answer pass.queue found₁ idle₁ queued
      refine ⟨later, pass', ?_, committed, done, same.trans claims⟩
      simp only [DrainPass.remainder, flying, Option.toList_some, List.map_cons, List.map_nil,
        List.cons_append]
      exact .cons ⟨trivial, answered⟩ run

end Commits

section Outage

variable (config)

structure Alone (world : OutboxWorld) (pass : DrainPass) (queue : List OutboxRow) : Prop where
  only : world.passes = [pass]
  running : pass.state = .running
  connected : pass.connected = true
  idle : pass.flight = none
  left : pass.queue = queue

variable {pass : DrainPass}

omit config in
theorem Alone.found {queue : List OutboxRow} (alone : Alone world pass queue) :
    world.running 0 = some pass := by
  rw [running_eq_some, alone.only]
  exact ⟨rfl, alone.running⟩

omit config in
theorem passes_assign_zero (only : world.passes = [pass]) (pass' : DrainPass) :
    (world.assign 0 pass').passes = [pass'] := by
  rw [assign, only]
  rfl

/-- One row times out: its pass has lost its transaction over it, or goes on. -/
theorem Alone.row_times_out (alone : Alone world pass (row :: rest)) (known : row.known = true) :
    ∃ later pass', Steps (Guarded (Timely config) (Executes (act config))) world
        [.next 0, .tick config.publishTimeoutMs, .settle 0 .timedOut 0] later ∧
      later.clock = world.clock + config.publishTimeoutMs ∧ pass'.startedAt = pass.startedAt ∧
      if later.clock - pass.startedAt ≤ drainTimeoutMs then Alone later pass' rest
      else later.passes = [pass'] ∧ pass'.state = .rolledBack := by
  let flying : DrainPass :=
    { pass with queue := rest, flight := some (row, world.clock), sent := pass.sent ++ [row] }
  let waited : OutboxWorld :=
    { world.assign 0 flying with clock := world.clock + config.publishTimeoutMs }
  have only : waited.passes = [flying] := passes_assign_zero alone.only flying
  have calling : world.act config (.next 0) = some (world.assign 0 flying) := by
    simp only [act, alone.found, alone.idle, alone.left, next, known, ↓reduceIte]
    rfl
  have timely : Timely config (world.assign 0 flying) (.tick config.publishTimeoutMs) := by
    intro other member _
    rw [passes_assign_zero alone.only, List.mem_singleton] at member
    subst member
    simp [flying, assign]
  have answering : waited.act config (.settle 0 .timedOut 0) =
      some (waited.settle config 0 flying row .timedOut 0) := by
    have found : waited.running 0 = some flying := by
      rw [running_eq_some, only]
      exact ⟨rfl, alone.running⟩
    simp only [act, found]
    rfl
  have holds : flying.holds waited.clock = true ↔ waited.clock - pass.startedAt ≤ drainTimeoutMs :=
    DrainPass.holds_iff alone.running alone.connected
  have run : Steps (Guarded (Timely config) (Executes (act config))) world
      [.next 0, .tick config.publishTimeoutMs, .settle 0 .timedOut 0]
      (waited.settle config 0 flying row .timedOut 0) :=
    .cons ⟨trivial, calling⟩ (.cons ⟨timely, rfl⟩ (.single ⟨trivial, answering⟩))
  unfold settle statement at run
  dsimp only at run
  by_cases young : waited.clock - pass.startedAt ≤ drainTimeoutMs
  · rw [if_pos (by exact holds.mpr young)] at run
    let written : DrainPass :=
      { flying with
          flight := none
          writes := flying.writes ++ [(row, decideRow config flying.now 0 row .timedOut)] }
    refine ⟨waited.assign 0 written, written, run, rfl, rfl, ?_⟩
    rw [if_pos (by exact young)]
    exact ⟨passes_assign_zero only written, alone.running, alone.connected, rfl, rfl⟩
  · rw [if_neg (by exact mt holds.mp young)] at run
    refine ⟨waited.abandon 0 flying, { flying with state := .rolledBack }, run, rfl, rfl, ?_⟩
    rw [if_neg (by exact young)]
    exact ⟨passes_assign_zero only _, rfl⟩

/-- A pass whose rows all time out loses its transaction if they take longer than it may. -/
theorem Alone.outlasts (queue : List OutboxRow) (alone : Alone world pass queue)
    (known : ∀ row ∈ queue, row.known = true) (began : pass.startedAt ≤ world.clock)
    (long : drainTimeoutMs < world.clock - pass.startedAt + queue.length * config.publishTimeoutMs)
    (young : world.clock - pass.startedAt ≤ drainTimeoutMs) :
    ∃ actions later, Steps (Guarded (Timely config) (Executes (act config))) world
        actions later ∧ ∃ pass ∈ later.passes, pass.state = .rolledBack := by
  induction queue generalizing world pass with
  | nil =>
    simp only [List.length_nil, Nat.zero_mul, Nat.add_zero] at long
    omega
  | cons row rest ih =>
    obtain ⟨later, pass', run, clock, same, outcome⟩ :=
      alone.row_times_out config (known row List.mem_cons_self)
    split at outcome
    · rename_i young'
      rw [List.length_cons, Nat.add_mul, Nat.one_mul] at long
      obtain ⟨actions, last, onward, lost⟩ := ih outcome
        (fun row member => known row (List.mem_cons_of_mem _ member)) (by omega) (by omega)
        (by omega)
      exact ⟨_, last, run.append onward, lost⟩
    · exact ⟨_, later, run, pass', by simp [outcome.1], outcome.2⟩

def mark (n : Nat) : String := String.ofList (List.replicate n 'x')

theorem mark_injective : Function.Injective mark := by
  intro first second same
  have lengths := congrArg (fun text => text.toList.length) same
  simpa [mark] using lengths

def outageEvent (n : Nat) : NewOutboxEvent := exampleEvent (mark n) "user.registered"

def outageRow (n : Nat) : OutboxRow := .staged (mark n) (outageEvent n) 0

theorem outageRow_known (n : Nat) : (outageRow n).known = true := by
  change (Events.domainEventNamed "user.registered").isSome = true
  decide

def outageStaging (n : Nat) : OutboxWorld :=
  { booted 0 with staging := (List.range n).map fun k => (0, outageRow k) }

theorem outageStaging_run (n : Nat) :
    Steps (Guarded (Timely config) (Executes (act config))) (.booted 0)
      ((List.range n).map fun k => .stage 0 (mark k) (outageEvent k) 0) (outageStaging n) := by
  induction n with
  | zero => exact .nil _
  | succ n ih =>
    rw [List.range_succ, List.map_append]
    refine ih.snoc ⟨trivial, ?_⟩
    have fresh : (outageStaging n).fresh (mark n) = true := by
      simp only [fresh, Bool.not_eq_true', Bool.eq_false_iff, ne_eq, List.contains_iff_mem]
      simp only [outageStaging, booted, List.nil_append, List.map_map, List.mem_map,
        List.mem_range, Function.comp_apply, not_exists, not_and]
      intro k less same
      have level : mark k = mark n := same
      have := mark_injective level
      omega
    simp only [Executes, act, fresh, ↓reduceIte]
    simp only [outageStaging, List.range_succ, List.map_append]
    rfl

theorem outageStaging_commits (n : Nat) :
    ∃ world, (outageStaging n).act config (.commitStaging 0) = some world ∧ world.passes = [] ∧
      world.rows.rows = (List.range n).map outageRow := by
  have staged : (outageStaging n).stagedBy 0 = (List.range n).map outageRow := by
    simp [stagedBy, outageStaging, List.filter_map, Function.comp_def]
  have distinct : (((outageStaging n).rows.rows ++ (List.range n).map outageRow).map
      OutboxRow.id).Nodup := by
    change (([] ++ (List.range n).map outageRow).map OutboxRow.id).Nodup
    rw [List.nil_append, List.map_map]
    exact List.nodup_range.map mark_injective
  obtain ⟨rows, inserted⟩ := Table.insertAll_of_nodup distinct
  refine ⟨_, Option.map_eq_some_iff.mpr ⟨rows, staged ▸ inserted, rfl⟩, rfl, ?_⟩
  rw [Table.insertAll_rows inserted]
  rfl

theorem outage (long : drainTimeoutMs < config.batchSize * config.publishTimeoutMs) :
    ∃ actions world, Steps (Guarded (Timely config) (Executes (act config)))
        (.booted 0) actions world ∧ ∃ pass ∈ world.passes, pass.state = .rolledBack := by
  obtain ⟨staged, committing, none, rows⟩ :=
    outageStaging_commits config config.batchSize
  have free : staged.locked = fun _ => false := by
    funext id
    simp [locked, none]
  have batch : (claim config staged.rows 0 staged.locked).length = config.batchSize := by
    have all : staged.rows.rows.filter (claimable 0 fun _ => false) = staged.rows.rows := by
      rw [List.filter_eq_self, rows]
      intro row member
      obtain ⟨n, _, rfl⟩ := List.mem_map.mp member
      rfl
    rw [claim, free, all, List.length_take, List.length_insertionSort, rows, List.length_map,
      List.length_range, Nat.min_self]
  let pass := DrainPass.opened 0 staged.clock (claim config staged.rows 0 staged.locked)
  have known : ∀ row ∈ pass.claimed, row.known = true := by
    intro row claimed
    have present := (mem_claim claimed).1
    rw [rows] at present
    obtain ⟨n, _, rfl⟩ := List.mem_map.mp present
    exact outageRow_known n
  have alone : Alone { staged with passes := staged.passes ++ [pass] } pass pass.claimed :=
    ⟨by rw [none]; rfl, rfl, rfl, rfl, rfl⟩
  obtain ⟨actions, world, onward, lost⟩ := alone.outlasts config pass.claimed known
    (Nat.le_refl _) (by simpa [pass, DrainPass.opened, batch] using long)
    (by simp [pass, DrainPass.opened])
  have committed : Guarded (Timely config) (Executes (act config))
      (outageStaging config.batchSize) (.commitStaging 0) staged := ⟨trivial, committing⟩
  have drained : Guarded (Timely config) (Executes (act config)) staged (.drain 0)
      { staged with passes := staged.passes ++ [pass] } := ⟨trivial, rfl⟩
  exact ⟨_, world, (((outageStaging_run config config.batchSize).snoc committed).snoc
    drained).append onward, lost⟩

end Outage

/-- The relay makes progress in every run that keeps to its timeouts exactly if a batch of publish
timeouts fits into that of a pass. -/
theorem outbox_progress_iff (config : RelayConfig) :
    (∀ clock actions world, Steps (Guarded (Timely config) (Executes (act config)))
      (.booted clock) actions world → Progress config world) ↔
    config.batchSize * config.publishTimeoutMs ≤ drainTimeoutMs := by
  constructor
  · intro progress
    by_contra long
    obtain ⟨actions, world, run, pass, member, lost⟩ := outage config (by omega)
    exact (progress 0 actions world run).upheld pass member lost
  · intro fits clock actions world run
    exact (OnTrack.run fits run).progress fits

/-- The batch size, the publish timeout and the retry ladder of a deployment that sets none. -/
def defaultConfig : RelayConfig := exampleConfig 50 (by decide)

/-- Seven events, a broker that never answers, and the pass that claims them all. -/
def silentBroker : List OutboxAction :=
  ((List.range 7).map fun n => .stage 0 (mark n) (outageEvent n) 0) ++
    [.commitStaging 0, .drain 0] ++
      (List.range 7).flatMap fun _ => [.next 0, .tick 5000, .settle 0 .timedOut 0]

/-- With the defaults the seventh timeout is one too many: the pass is rolled back, and with it
every attempt it made. -/
theorem attempts_rolled_back_by_default :
    ∃ world, Steps (Guarded (Timely defaultConfig) (Executes (act defaultConfig)))
        (.booted 0) silentBroker world ∧
      world.passes.map DrainPass.state = [.rolledBack] ∧
      (world.rows.rows.map fun row => (row.status, row.attempts)) = List.replicate 7 (.pending, 0) ∧
      ¬ Progress defaultConfig world := by
  refine exists_and_of_and (by decide +kernel) ?_
  intro world _ states _ progress
  have lost : PassState.rolledBack ∈ world.passes.map DrainPass.state := by simp [states]
  obtain ⟨pass, member, state⟩ := List.mem_map.mp lost
  exact progress.upheld pass member state

end NestApi.Outbox
