import NestApi.OutboxStore
import NestApi.Transition

namespace NestApi.Outbox

def drainTimeoutMs : Nat := 30000

inductive PassState where
  | running
  | committed
  | rolledBack
  deriving DecidableEq

/-- One call of `drain`: its transaction, the rows it has still to handle and the `deliver` call
it is waiting for. -/
structure DrainPass where
  now : Date
  startedAt : Nat
  claimed : List OutboxRow
  queue : List OutboxRow
  /-- The row being delivered, and since when. -/
  flight : Option (OutboxRow × Nat)
  /-- The rows `deliver` was called for, in order. -/
  sent : List OutboxRow
  /-- The updates made so far, in the order of their rows. -/
  writes : List (OutboxRow × OutboxWrite)
  /-- The database has not rolled the transaction back on its own. -/
  connected : Bool
  state : PassState

namespace DrainPass

def opened (now : Date) (clock : Nat) (claimed : List OutboxRow) : DrainPass where
  now
  startedAt := clock
  claimed
  queue := claimed
  flight := none
  sent := []
  writes := []
  connected := true
  state := .running

/-- Whether the transaction, and its locks with it, is still there. One that is older than its
timeout has been rolled back. -/
def holds (pass : DrainPass) (clock : Nat) : Bool :=
  pass.state = .running && pass.connected && clock - pass.startedAt ≤ drainTimeoutMs

def locks (pass : DrainPass) (clock : Nat) (id : String) : Bool :=
  pass.holds clock && (pass.claimed.map OutboxRow.id).contains id

def written (pass : DrainPass) (row : OutboxRow) : OutboxRow :=
  match pass.writes.find? fun write => write.1.id = row.id with
  | none => row
  | some write => write.2.apply row

theorem written_id (pass : DrainPass) (row : OutboxRow) : (pass.written row).id = row.id := by
  unfold written
  split
  · rfl
  · exact OutboxWrite.apply_id _ _

def failed (pass : DrainPass) : List String :=
  (pass.writes.filter fun write => write.1.known && write.2.isFailure).map fun write => write.1.id

end DrainPass

/-- Any number of passes over one table, and of transactions that stage events. The last four fields
record what happened. -/
structure OutboxWorld where
  clock : Nat
  rows : OutboxTable
  /-- The rows of open transactions, under the number of the transaction. -/
  staging : List (Nat × OutboxRow)
  passes : List DrainPass
  committed : List String
  rolledBack : List String
  /-- The rows a `deliver` call resolved for. -/
  delivered : List String
  /-- The rows a failed attempt was committed for. -/
  failures : List String

inductive OutboxAction where
  | stage (transaction : Nat) (id : String) (event : NewOutboxEvent) (createdAt : Date)
  | commitStaging (transaction : Nat)
  | rollbackStaging (transaction : Nat)
  | drain (now : Date)
  | next (index : Nat)
  | settle (index : Nat) (delivery : Delivery) (random : ℚ)
  | commit (index : Nat)
  /-- The database rolls back a transaction under its pass. -/
  | lose (index : Nat)
  | crash (index : Nat)
  | tick (elapsed : Nat)

namespace OutboxWorld

variable (config : RelayConfig) (world : OutboxWorld)

def booted (clock : Nat) : OutboxWorld where
  clock
  rows := Table.empty
  staging := []
  passes := []
  committed := []
  rolledBack := []
  delivered := []
  failures := []

def assign (index : Nat) (pass : DrainPass) : OutboxWorld :=
  { world with passes := world.passes.set index pass }

def running (index : Nat) : Option DrainPass :=
  (world.passes[index]?).filter fun pass => pass.state = .running

def locked (id : String) : Bool := world.passes.any fun pass => pass.locks world.clock id

def fresh (id : String) : Bool :=
  !(world.committed ++ world.rolledBack ++ world.staging.map fun staged => staged.2.id).contains id

def stagedBy (transaction : Nat) : List OutboxRow :=
  (world.staging.filter fun staged => staged.1 = transaction).map Prod.snd

def stagedElsewhere (transaction : Nat) : List (Nat × OutboxRow) :=
  world.staging.filter fun staged => staged.1 ≠ transaction

def abandon (index : Nat) (pass : DrainPass) : OutboxWorld :=
  world.assign index { pass with state := .rolledBack }

/-- An update of a pass. One sent to a transaction that is gone throws, which ends the pass. -/
def statement (index : Nat) (pass : DrainPass) (write : OutboxRow × OutboxWrite) : OutboxWorld :=
  if pass.holds world.clock then
    world.assign index { pass with flight := none, writes := pass.writes ++ [write] }
  else world.abandon index pass

/-- `deliverOne` up to the `deliver` call, or up to its update for a row outside the catalogue. -/
def next (index : Nat) (pass : DrainPass) (row : OutboxRow) (rest : List OutboxRow) :
    OutboxWorld :=
  if row.known then
    world.assign index { pass with
      queue := rest, flight := some (row, world.clock), sent := pass.sent ++ [row] }
  else world.statement index { pass with queue := rest } (row, undeliverable row)

/-- The rest of `deliverOne`, once the `deliver` call is over. A timeout ends the call, not the
publish behind it. -/
def settle (index : Nat) (pass : DrainPass) (row : OutboxRow) (delivery : Delivery) (random : ℚ) :
    OutboxWorld :=
  let delivered := match delivery with
    | .accepted => world.delivered ++ [row.id]
    | .refused _ | .timedOut => world.delivered
  { world with delivered }.statement index pass (row, decideRow config pass.now random row delivery)

def commit (index : Nat) (pass : DrainPass) : OutboxWorld :=
  if pass.holds world.clock then
    { world.assign index { pass with state := .committed } with
        rows := world.rows.update (fun _ => true) pass.written pass.written_id
        failures := world.failures ++ pass.failed }
  else world.abandon index pass

def act : OutboxAction → Option OutboxWorld
  | .stage transaction id event createdAt =>
    if world.fresh id then
      some { world with
        staging := world.staging ++ [(transaction, OutboxRow.staged id event createdAt)] }
    else none
  | .commitStaging transaction =>
    (world.rows.insertAll (world.stagedBy transaction)).map fun rows =>
      { world with
          rows
          staging := world.stagedElsewhere transaction
          committed := world.committed ++ (world.stagedBy transaction).map OutboxRow.id }
  | .rollbackStaging transaction =>
    some { world with
      staging := world.stagedElsewhere transaction
      rolledBack := world.rolledBack ++ (world.stagedBy transaction).map OutboxRow.id }
  | .drain now =>
    some { world with
      passes := world.passes ++
        [.opened now world.clock (claim config world.rows now world.locked)] }
  | .next index =>
    match world.running index with
    | some pass =>
      match pass.flight, pass.queue with
      | none, row :: rest => some (world.next index pass row rest)
      | _, _ => none
    | none => none
  | .settle index delivery random =>
    match world.running index with
    | some pass => pass.flight.map fun flight =>
      world.settle config index pass flight.1 delivery random
    | none => none
  | .commit index =>
    match world.running index with
    | some pass =>
      match pass.flight, pass.queue with
      | none, [] => some (world.commit index pass)
      | _, _ => none
    | none => none
  | .lose index => (world.running index).map fun pass =>
    world.assign index { pass with connected := false }
  | .crash index => (world.running index).map fun pass => world.abandon index pass
  | .tick elapsed => some { world with clock := world.clock + elapsed }

theorem running_eq_some {index : Nat} {pass : DrainPass} : world.running index = some pass ↔
      world.passes[index]? = some pass ∧ pass.state = .running := by
  simp [running, Option.filter_eq_some_iff]

end OutboxWorld

/-- What an action makes of the pass it belongs to, and of the record of deliveries. -/
inductive PassStep (config : RelayConfig) (clock : Nat) (delivered : List String) (index : Nat)
    (pass : DrainPass) : OutboxAction → DrainPass → List String → Prop where
  | deliver {row rest} (idle : pass.flight = none)
      (first : pass.queue = row :: rest) (known : row.known = true) :
      PassStep config clock delivered index pass (.next index)
        { pass with queue := rest, flight := some (row, clock), sent := pass.sent ++ [row] }
        delivered
  | refuse {row rest} (idle : pass.flight = none)
      (first : pass.queue = row :: rest) (unknown : row.known = false)
      (holds : pass.holds clock = true) :
      PassStep config clock delivered index pass (.next index)
        { pass with
            queue := rest, flight := none, writes := pass.writes ++ [(row, undeliverable row)] }
        delivered
  | settle {row since delivery random delivered'} (flying : pass.flight = some (row, since))
      (holds : pass.holds clock = true) (recorded : delivered ⊆ delivered')
      (accepted : delivery = .accepted → row.id ∈ delivered') :
      PassStep config clock delivered index pass (.settle index delivery random)
        { pass with
            flight := none
            writes := pass.writes ++ [(row, decideRow config pass.now random row delivery)] }
        delivered'
  | abandon {action queue delivered'} (recorded : delivered ⊆ delivered')
      (why : pass.holds clock = false ∨ action = .crash index) :
      PassStep config clock delivered index pass action { pass with queue, state := .rolledBack }
        delivered'
  | lose :
      PassStep config clock delivered index pass (.lose index) { pass with connected := false }
        delivered

inductive OutboxStep (config : RelayConfig) (world : OutboxWorld) :
    OutboxAction → OutboxWorld → Prop where
  | stage {transaction id event createdAt} (fresh : world.fresh id = true) :
      OutboxStep config world (.stage transaction id event createdAt)
        { world with
            staging := world.staging ++ [(transaction, OutboxRow.staged id event createdAt)] }
  | commitStaging {transaction rows}
      (inserted : rows.rows = world.rows.rows ++ world.stagedBy transaction) :
      OutboxStep config world (.commitStaging transaction)
        { world with
            rows
            staging := world.stagedElsewhere transaction
            committed := world.committed ++ (world.stagedBy transaction).map OutboxRow.id }
  | rollbackStaging {transaction} :
      OutboxStep config world (.rollbackStaging transaction)
        { world with
            staging := world.stagedElsewhere transaction
            rolledBack := world.rolledBack ++ (world.stagedBy transaction).map OutboxRow.id }
  | drain {now} :
      OutboxStep config world (.drain now)
        { world with
            passes := world.passes ++
              [.opened now world.clock (claim config world.rows now world.locked)] }
  | pass {action index pass pass' delivered}
      (here : world.passes[index]? = some pass) (running : pass.state = .running)
      (moved : PassStep config world.clock world.delivered index pass action pass' delivered) :
      OutboxStep config world action { world.assign index pass' with delivered }
  | commit {index pass} (here : world.passes[index]? = some pass)
      (idle : pass.flight = none) (done : pass.queue = []) (holds : pass.holds world.clock = true) :
      OutboxStep config world (.commit index)
        { world.assign index { pass with state := .committed } with
            rows := world.rows.update (fun _ => true) pass.written pass.written_id
            failures := world.failures ++ pass.failed }
  | tick {elapsed} :
      OutboxStep config world (.tick elapsed) { world with clock := world.clock + elapsed }

section Act

variable {config : RelayConfig} {world world' : OutboxWorld} {index : Nat} {pass : DrainPass}

section

variable (here : world.passes[index]? = some pass) (running : pass.state = .running)
  {row : OutboxRow}

include here running

theorem step_of_next {rest : List OutboxRow}
    (idle : pass.flight = none) (first : pass.queue = row :: rest) :
    OutboxStep config world (.next index) (world.next index pass row rest) := by
  unfold OutboxWorld.next
  split
  · rename_i known
    exact .pass here running (.deliver idle first known)
  · rename_i unknown
    simp only [OutboxWorld.statement]
    split
    · rename_i holds
      exact .pass here running (.refuse idle first (by simpa using unknown) holds)
    · rename_i gone
      have shut : pass.holds world.clock = false := Bool.eq_false_iff.mpr gone
      exact .pass here running (.abandon (List.Subset.refl _) (.inl shut))

theorem step_of_settle {since : Nat} {delivery : Delivery} {random : ℚ}
    (flying : pass.flight = some (row, since)) :
    OutboxStep config world (.settle index delivery random)
      (world.settle config index pass row delivery random) := by
  unfold OutboxWorld.settle OutboxWorld.statement
  dsimp only
  split
  · rename_i holds
    refine .pass here running (.settle flying holds ?_ ?_)
    · cases delivery <;> simp
    · rintro rfl
      simp
  · rename_i gone
    refine .pass here running (.abandon ?_ (.inl (by simpa using gone)))
    cases delivery <;> simp

theorem step_of_commit (idle : pass.flight = none) (done : pass.queue = []) :
    OutboxStep config world (.commit index) (world.commit index pass) := by
  unfold OutboxWorld.commit
  split
  · rename_i holds
    exact .commit here idle done holds
  · rename_i gone
    exact .pass here running (.abandon (List.Subset.refl _) (.inl (by simpa using gone)))

end

theorem step_of_act {action : OutboxAction} (taken : world.act config action = some world') :
    OutboxStep config world action world' := by
  cases action with
  | stage =>
    obtain ⟨fresh, rfl⟩ := of_ite_some taken
    exact .stage fresh
  | commitStaging =>
    obtain ⟨rows, inserted, rfl⟩ := Option.map_eq_some_iff.mp taken
    exact .commitStaging (Table.insertAll_rows inserted)
  | rollbackStaging =>
    cases taken
    exact .rollbackStaging
  | drain =>
    cases taken
    exact .drain
  | next =>
    simp only [OutboxWorld.act] at taken
    split at taken
    · rename_i pass found
      obtain ⟨here, running⟩ := world.running_eq_some.mp found
      split at taken
      · rename_i row rest idle first
        cases taken
        exact step_of_next here running idle first
      · cases taken
    · cases taken
  | settle =>
    simp only [OutboxWorld.act] at taken
    split at taken
    · rename_i pass found
      obtain ⟨here, running⟩ := world.running_eq_some.mp found
      obtain ⟨⟨row, since⟩, flying, rfl⟩ := Option.map_eq_some_iff.mp taken
      exact step_of_settle here running flying
    · cases taken
  | commit =>
    simp only [OutboxWorld.act] at taken
    split at taken
    · rename_i pass found
      obtain ⟨here, running⟩ := world.running_eq_some.mp found
      split at taken
      · rename_i idle done
        cases taken
        exact step_of_commit here running idle done
      · cases taken
    · cases taken
  | lose =>
    obtain ⟨pass, found, rfl⟩ := Option.map_eq_some_iff.mp taken
    obtain ⟨here, running⟩ := world.running_eq_some.mp found
    exact .pass here running .lose
  | crash =>
    obtain ⟨pass, found, rfl⟩ := Option.map_eq_some_iff.mp taken
    obtain ⟨here, running⟩ := world.running_eq_some.mp found
    exact .pass here running (.abandon (List.Subset.refl _) (.inr rfl))
  | tick =>
    cases taken
    exact .tick

end Act

end NestApi.Outbox
