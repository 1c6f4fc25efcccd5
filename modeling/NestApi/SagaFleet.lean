import NestApi.SagaRun

namespace NestApi.Saga

structure Started where
  definition : SagaDefinition
  decision : Decision
  startedAt : Date

/-- A runner inside `drive`: the copy it drives, the loop counter, the rest of its batch,
and the call it waits for. -/
structure Work where
  owner : String
  current : SagaInstanceRecord
  iteration : Nat
  queue : List SagaInstanceRecord
  call : Option Started

def Work.copies (work : Work) : List SagaInstanceRecord := work.current :: work.queue

def Work.begin (owner : String) : List SagaInstanceRecord → Option Work
  | [] => none
  | current :: queue => some ⟨owner, current, 0, queue, none⟩

def Work.next (work : Work) : Option Work := Work.begin work.owner work.queue

/-- What one pass of the loop in `drive` comes to before anything is called or written. -/
inductive Pass where
  | abandon (reason : Utf16)
  | stop
  | skip (step : SagaStep)
  | call (definition : SagaDefinition) (decision : Decision)

def Pass.abandons : Pass → Bool
  | .abandon _ => true
  | _ => false

def pass (registry : SagaRegistry) (current : SagaInstanceRecord) (iteration : Nat) : Pass :=
  match registry.find current.name with
  | none => .abandon (truncate (unregistered current))
  | some definition =>
    if maxIterations definition ≤ iteration then .stop
    else if isTerminal current.status then .stop
    else
      match step definition current with
      | .error problem => .abandon (truncate problem.message)
      | .ok (.skip step) => .skip step
      | .ok decision => .call definition decision

/-- Any number of runners over one store, each one call of `advance` or `runOnce` after another;
`owners` are the fencing tokens handed out so far. -/
structure System (ι : Type) where
  clock : Date
  store : SagaStore
  work : ι → Option Work
  owners : List String

inductive FleetAction (ι : Type) where
  | create (input : NewSagaInstance)
  | advance (runner : ι) (owner id : String)
  | runOnce (runner : ι) (owner : String) (limit : Nat) (order : List String)
  | resume (runner : ι)
  | settle (runner : ι) (settlement : Settlement) (random : ℚ)
  | fault (runner : ι)
  | crash (runner : ι)
  | tick (elapsed : Nat)

/-- The claimed rows in the order in which the database returned them. -/
def arranged (rows : List SagaInstanceRecord) (order : List String) : List SagaInstanceRecord :=
  order.filterMap fun id => rows.find? fun row => row.id = id

namespace System

variable {ι : Type} [DecidableEq ι]

def booted (clock : Date) : System ι := ⟨clock, Table.empty, fun _ => none, []⟩

def assign (s : System ι) (runner : ι) (work : Option Work) : System ι :=
  { s with work := Function.update s.work runner work }

/-- The writing half of a pass: save, and go on only under a lease that still holds. -/
def save (config : SagaConfig) (s : System ι) (runner : ι) (work : Work)
    (progress : SagaProgress) : System ι :=
  let answer := s.store.save work.current.id ⟨work.owner, s.clock, config.leaseMs⟩ progress
  { s with store := answer.2 }.assign runner
    (match answer.1 with
      | none => work.next
      | some row =>
        if progress.release then work.next
        else some { work with current := row, iteration := work.iteration + 1, call := none })

/-- Runs `drive` up to its next call or its next write. -/
def resume (config : SagaConfig) (registry : SagaRegistry) (s : System ι) (runner : ι)
    (work : Work) : System ι :=
  match pass registry work.current work.iteration with
  | .abandon reason =>
    { s with store := s.store.abandon work.current.id reason }.assign runner work.next
  | .stop => s.assign runner work.next
  | .skip step => s.save config runner work (skipStep work.current step s.clock)
  | .call definition decision =>
    s.assign runner (some { work with call := some ⟨definition, decision, s.clock⟩ })

/-- One atomic action of one runner, of a client that starts a saga, or of the clock. -/
def act (config : SagaConfig) (registry : ι → SagaRegistry) (s : System ι) :
    FleetAction ι → Option (System ι)
  | .create input => (s.store.create input s.clock).map fun store => { s with store := store }
  | .advance runner owner id =>
    if s.work runner = none ∧ owner ∉ s.owners then
      let answer := s.store.claim id ⟨owner, s.clock, config.leaseMs⟩
      some ({ s with store := answer.2, owners := owner :: s.owners }.assign runner
        (Work.begin owner answer.1.toList))
    else none
  | .runOnce runner owner limit order =>
    let answer := s.store.claimDue ⟨owner, s.clock, config.leaseMs⟩ limit
    if s.work runner = none ∧ owner ∉ s.owners ∧ order.Perm (answer.1.map (·.id)) then
      some ({ s with store := answer.2, owners := owner :: s.owners }.assign runner
        (Work.begin owner (arranged answer.1 order)))
    else none
  | .resume runner =>
    match s.work runner with
    | some ⟨owner, current, iteration, queue, none⟩ =>
      some (s.resume config (registry runner) runner ⟨owner, current, iteration, queue, none⟩)
    | _ => none
  | .settle runner settlement random =>
    match s.work runner with
    | some ⟨owner, current, iteration, queue, some started⟩ =>
      some (s.save config runner ⟨owner, current, iteration, queue, some started⟩
        (perform config started.definition .free current () started.startedAt random settlement
          started.decision).progress)
    | _ => none
  -- The store failed under the runner: `advanceOne` goes on with the rest of the batch.
  | .fault runner => (s.work runner).map fun work => s.assign runner work.next
  | .crash runner => (s.work runner).map fun _ => s.assign runner none
  | .tick elapsed => some { s with clock := s.clock + elapsed }

end System

section Effect

variable {ι : Type} [DecidableEq ι] {definition : SagaDefinition}
  {record : SagaInstanceRecord} {now : Date} {config : SagaConfig}
  {outcome : Except StepError (Option SagaStatePatch)} {row : SagaInstanceRecord}
  {registry : ι → SagaRegistry} {work other : Work} {random : ℚ}

/-- What a runner has to save: a skip it decided on just now, or the outcome of its call. -/
inductive Writes (config : SagaConfig) (registry : SagaRegistry) (now : Date) (work : Work) :
    SagaProgress → Prop where
  | skipped {step} (waiting : work.call = none)
      (decided : pass registry work.current work.iteration = .skip step) :
      Writes config registry now work (skipStep work.current step now)
  | settled {started} (settlement : Settlement) (random : ℚ) (calling : work.call = some started) :
      Writes config registry now work
        (perform config started.definition .free work.current () started.startedAt random settlement
          started.decision).progress

inductive Effect (config : SagaConfig) (registry : ι → SagaRegistry) (s : System ι) :
    FleetAction ι → System ι → Prop where
  | created {input store} (inserted : s.store.create input s.clock = some store) :
      Effect config registry s (.create input) { s with store := store }
  /-- Some claimable rows are leased under a new token, and the runner holds copies of them. -/
  | claimed {action runner owner matching batch}
      (idle : s.work runner = none) (fresh : owner ∉ s.owners)
      (free : ∀ row ∈ s.store.rows, matching row = true → row.claimable s.clock = true)
      (returned : ∀ copy ∈ batch, copy ∈ s.store.returning matching
        (SagaInstanceRecord.leased ⟨owner, s.clock, config.leaseMs⟩))
      (distinct : (batch.map SagaInstanceRecord.id).Nodup) :
      Effect config registry s action
        ({ s with
            store := s.store.update matching
              (SagaInstanceRecord.leased ⟨owner, s.clock, config.leaseMs⟩)
              (SagaInstanceRecord.leased_id _)
            owners := owner :: s.owners }.assign runner (Work.begin owner batch))
  /-- The runner starts a call, drops some of its copies, or dies. -/
  | moved {action runner work rest} (busy : s.work runner = some work)
      (left : ∀ other, rest = some other → other.owner = work.owner ∧
        other.copies.Sublist work.copies ∧ (other.iteration = 0 ∨ other.call ≠ none))
      (calls : ∀ other started, rest = some other → other.call = some started →
        pass (registry runner) other.current other.iteration =
          .call started.definition started.decision) :
      Effect config registry s action (s.assign runner rest)
  | saved {action runner work progress} (busy : s.work runner = some work)
      (writes : Writes config (registry runner) s.clock work progress) :
      Effect config registry s action (s.save config runner work progress)
  | abandoned {runner work reason} (busy : s.work runner = some work) (waiting : work.call = none)
      (gone : pass (registry runner) work.current work.iteration = .abandon reason) :
      Effect config registry s (.resume runner)
        ({ s with store := s.store.abandon work.current.id reason }.assign runner work.next)
  | ticked (elapsed : Nat) :
      Effect config registry s (.tick elapsed) { s with clock := s.clock + elapsed }

theorem Work.begin_eq_some {owner : String} {batch : List SagaInstanceRecord}
    (begun : Work.begin owner batch = some work) :
    work.owner = owner ∧ work.copies = batch ∧ work.iteration = 0 ∧ work.call = none := by
  cases batch with
  | nil => cases begun
  | cons =>
    cases begun
    exact ⟨rfl, rfl, rfl, rfl⟩

theorem Work.next_left (next : work.next = some other) :
    other.owner = work.owner ∧ other.copies.Sublist work.copies ∧
      (other.iteration = 0 ∨ other.call ≠ none) := by
  obtain ⟨owner, copies, iteration, _⟩ := Work.begin_eq_some next
  refine ⟨owner, ?_, Or.inl iteration⟩
  rw [copies, Work.copies]
  exact List.sublist_cons_self _ _

theorem Work.next_calls {started : Started}
    (next : work.next = some other) (calling : other.call = some started) : False := by
  rw [(Work.begin_eq_some next).2.2.2] at calling
  cases calling

theorem pass_eq_call {registry : SagaRegistry} {current : SagaInstanceRecord} {iteration : Nat}
    {decision : Decision} (called : pass registry current iteration = .call definition decision) :
    registry.find current.name = some definition ∧ isTerminal current.status = false ∧
      step definition current = .ok decision := by
  unfold pass at called
  split at called
  · cases called
  · rename_i found
    split at called
    · cases called
    · split at called
      · cases called
      · rename_i inFlight
        split at called
        · cases called
        · cases called
        · rename_i decided
          cases called
          exact ⟨found, by simpa using inFlight, decided⟩

theorem Writes.release {registry : SagaRegistry}
    {progress : SagaProgress} (writes : Writes config registry now work progress)
    (terminal : isTerminal progress.status = true) : progress.release = true := by
  cases writes with
  | @skipped step =>
    have move := undoneStep_move ⟨work.current.name, []⟩ 0 work.current step now (.inr ⟨rfl, rfl⟩)
    exact move.release terminal
  | settled => exact (perform_move rfl).release terminal

theorem SagaStore.claimable_of_mem_dueIds {store : SagaStore} {limit : Nat}
    (member : row ∈ store.rows) (due : row.id ∈ SagaStore.dueIds store now limit) :
    row.claimable now = true := by
  obtain ⟨other, taken, same⟩ := List.mem_map.mp due
  have sorted := List.mem_of_mem_take taken
  rw [List.mem_insertionSort, List.mem_filter] at sorted
  rw [← Table.eq_of_key_eq sorted.1 member same]
  exact sorted.2

theorem mem_of_mem_arranged {rows : List SagaInstanceRecord} {order : List String}
    (member : row ∈ arranged rows order) : row ∈ rows := by
  obtain ⟨id, _, found⟩ := List.mem_filterMap.mp member
  exact List.mem_of_find?_eq_some found

theorem arranged_ids_sublist (rows : List SagaInstanceRecord) (order : List String) :
    ((arranged rows order).map SagaInstanceRecord.id).Sublist order := by
  induction order with
  | nil => exact List.Sublist.refl []
  | cons id rest ih =>
    unfold arranged at ih ⊢
    rw [List.filterMap_cons]
    split
    · exact ih.cons id
    · rename_i row found
      have key : row.id = id := by simpa using List.find?_some found
      rw [List.map_cons, key]
      exact ih.cons_cons id

theorem resume_effect {s : System ι}
    {runner : ι} (busy : s.work runner = some work) (waiting : work.call = none) :
    Effect config registry s (.resume runner) (s.resume config (registry runner) runner work) := by
  unfold System.resume
  split
  · rename_i reason gone
    exact Effect.abandoned busy waiting gone
  · exact Effect.moved busy (fun other next => Work.next_left next)
      fun other started next calling => (Work.next_calls next calling).elim
  · rename_i step decided
    exact Effect.saved busy (Writes.skipped waiting decided)
  · rename_i called
    refine Effect.moved busy ?_ ?_
    · intro other started
      cases started
      exact ⟨rfl, List.Sublist.refl _, Or.inr (by simp)⟩
    · intro other started next calling
      cases next
      cases calling
      exact called

theorem act_effect {s t : System ι}
    {action : FleetAction ι} (taken : s.act config registry action = some t) :
    Effect config registry s action t := by
  cases action with
  | create =>
    obtain ⟨store, inserted, rfl⟩ := Option.map_eq_some_iff.mp taken
    exact Effect.created inserted
  | advance runner owner id =>
    obtain ⟨ready, rfl⟩ := of_ite_some taken
    refine Effect.claimed ready.1 ready.2 ?_ ?_ ?_
    · intro row _ matched
      simp only [SagaStore.claims, decide_eq_true_eq] at matched
      exact matched.2
    · intro copy member
      exact List.mem_of_mem_head? (Option.mem_toList.mp member)
    · cases (SagaStore.claim s.store id ⟨owner, s.clock, config.leaseMs⟩).1 <;> simp
  | runOnce runner owner limit =>
    obtain ⟨ready, rfl⟩ := of_ite_some taken
    refine Effect.claimed ready.1 ready.2.1 ?_ ?_ ?_
    · intro row member due
      exact SagaStore.claimable_of_mem_dueIds member (of_decide_eq_true due)
    · intro copy member
      exact mem_of_mem_arranged member
    · have distinct := Table.returning_keys_nodup s.store
        (fun row => row.id ∈ SagaStore.dueIds s.store s.clock limit)
        (SagaInstanceRecord.leased ⟨owner, s.clock, config.leaseMs⟩)
        (SagaInstanceRecord.leased_id _)
      exact (ready.2.2.nodup_iff.mpr distinct).sublist (arranged_ids_sublist _ _)
  | resume =>
    simp only [System.act] at taken
    split at taken
    · rename_i busy
      cases taken
      exact resume_effect busy rfl
    · cases taken
  | settle runner settlement random =>
    simp only [System.act] at taken
    split at taken
    · rename_i busy
      cases taken
      exact Effect.saved busy (Writes.settled settlement random rfl)
    · cases taken
  | fault =>
    obtain ⟨work, busy, rfl⟩ := Option.map_eq_some_iff.mp taken
    exact Effect.moved busy (fun other next => Work.next_left next)
      fun other started next calling => (Work.next_calls next calling).elim
  | crash =>
    obtain ⟨work, busy, rfl⟩ := Option.map_eq_some_iff.mp taken
    exact Effect.moved busy (fun other none => by cases none)
      fun other started none => by cases none
  | tick elapsed =>
    cases taken
    exact Effect.ticked elapsed

end Effect

end NestApi.Saga
