import NestApi.UsersWrites

namespace NestApi.UserWrites

open Users Writes

/-- The statements that matched one user's row, in the order they ran. -/
def Writes.commitsTo (s : Writes) (id : String) : List Commit :=
  s.commits.filter fun commit => commit.before.id = id

def Writes.updatesTo (s : Writes) (id : String) : List User :=
  ((s.commitsTo id).map Commit.toPut).filterMap Put.after

/-- A refusal that says which version the row is at. -/
def IsConflict (expected : ExpectedVersion) (version : Nat) (error : HttpException) : Prop :=
  error = .preconditionFailed (describeMismatch expected version) ∨
    error = .preconditionFailed
      ("Version conflict — the resource is at version " ++ toString version)

structure WriteCall.Honest (call : WriteCall) : Prop where
  parsed : (∀ error, call.stage ≠ .refused error none) →
    resolveIfMatch call.header = .ok call.expected
  conditional : (∀ error read, call.stage ≠ .refused error read) → call.expected ≠ .unconditional
  met : ∀ ⦃before after answer⦄, call.stage = .written before after answer →
    before.id = call.id ∧ isSatisfiedBy call.expected before.version = true
  conflict : ∀ ⦃error user⦄, call.stage = .refused error (some user) →
    call.expected ≠ .unconditional → isSatisfiedBy call.expected user.version = false →
    IsConflict call.expected user.version error

section Calls

variable {s s' : Writes} {action : WriteAction}

theorem Opened.honest {rows : Table User.id} {id : String} {change : Change}
    {header : Option String} {call : WriteCall} (new : Opened rows id change header call) :
    call.Honest := by
  cases new with
  | malformed =>
    refine ⟨fun absent => absurd rfl (absent _), fun absent => absurd rfl (absent _ _), ?_, ?_⟩
    · rintro _ _ _ ⟨⟩
    · rintro _ _ ⟨⟩
  | refused parsed conflict =>
    refine ⟨fun _ => parsed, fun absent => absurd rfl (absent _ _), by rintro _ _ _ ⟨⟩, ?_⟩
    intro error user stage conditional stale
    injection stage with same row
    subst same
    exact .inl (conflict user row conditional).2
  | checked parsed conditional =>
    refine ⟨fun _ => parsed, fun _ => conditional, ?_, ?_⟩
    · rintro _ _ _ ⟨⟩
    · rintro _ _ ⟨⟩

theorem WriteCall.Honest.advance {call : WriteCall} (honest : call.Honest)
    (open' : ∀ error read, call.stage ≠ .refused error read) {stage : Stage}
    (met : ∀ before after answer, stage = .written before after answer →
      before.id = call.id ∧ isSatisfiedBy call.expected before.version = true)
    (conflict : ∀ error user, stage = .refused error (some user) →
      isSatisfiedBy call.expected user.version = false →
      IsConflict call.expected user.version error) : { call with stage }.Honest :=
  ⟨fun _ => honest.parsed fun error => open' error none, fun _ => honest.conditional open',
    fun _ _ _ => met _ _ _, fun _ _ here _ => conflict _ _ here⟩

theorem Moved.honest (step : Moved s action s') (before : ∀ call ∈ s.calls, call.Honest) :
    ∀ call ∈ s'.calls, call.Honest := by
  have known {i : Nat} {call : WriteCall} (found : s.calls[i]? = some call) : call.Honest :=
    before call (List.mem_of_getElem? found)
  cases step with
  | begun new => exact List.forall_mem_append.mpr ⟨before, List.forall_mem_singleton.mpr new.honest⟩
  | merged found stage =>
    refine forall_mem_set before ((known found).advance ?_ ?_ ?_)
    · simp [stage]
    · rintro _ _ _ ⟨⟩
    · rintro _ _ ⟨⟩
  | failed found stage =>
    refine forall_mem_set before ((known found).advance ?_ ?_ ?_)
    · rcases stage with stage | ⟨user, stage⟩ <;> simp [stage]
    · rintro _ _ _ ⟨⟩
    · rintro _ _ ⟨⟩
  | explained found stage =>
    refine forall_mem_set before ((known found).advance ?_ ?_ ?_)
    · simp [stage]
    · rintro _ _ _ ⟨⟩
    · intro reported user is stale
      injection is with same row
      rw [← same, row, explained_conflict stale]
      exact .inr rfl
  | written found next row met =>
    refine forall_mem_set before ((known found).advance ?_ ?_ ?_)
    · rcases (statement_eq_some next).2.2 with stage | ⟨user, stage⟩ <;> simp [stage]
    · rintro _ _ _ ⟨⟩
      exact ⟨Table.find_key row, (isSatisfiedBy_of_admits next met).2⟩
    · rintro _ _ ⟨⟩

end Calls

/-- The statement of a write took its row from one state to the next. -/
def Writes.WrittenAt (s : Writes) (i : Nat) (put : Put User) : Prop :=
  ∃ call answer, s.calls[i]? = some call ∧ call.stage = .written put.before put.after answer

/-- What a step does to the rows: nothing, or it is the commit of one write. -/
inductive Writes.Commits (s s' : Writes) : Prop where
  | quiet (rows : s'.rows = s.rows) (commits : s'.commits = s.commits)
      (same : ∀ i put, s'.WrittenAt i put ↔ s.WrittenAt i put)
  | commit {i put} (row : s.rows.find put.before.id = some put.before)
      (rows : ∀ id, s'.rows.find id = if id = put.before.id then put.after else s.rows.find id)
      (raises : put.Raises User.version) (commits : s'.commits = s.commits ++ [⟨put, i⟩])
      (first : ∀ other, ¬ s.WrittenAt i other)
      (same : ∀ j other, s'.WrittenAt j other ↔ s.WrittenAt j other ∨ j = i ∧ other = put)

section Commits

variable {s s' : Writes} {action : WriteAction}

theorem Opened.not_written {rows : Table User.id} {id : String} {change : Change}
    {header : Option String} {call : WriteCall} (new : Opened rows id change header call)
    {before : User} {after : Option User} {answer : Body} :
    call.stage ≠ .written before after answer := by
  cases new <;> simp

section

variable {i : Nat} {call : WriteCall} (found : s.calls[i]? = some call)
  (pending : ∀ before after answer, call.stage ≠ .written before after answer)

include found pending

theorem writtenAt_setStage {stage : Stage} (j : Nat) (put : Put User) :
    (s.setStage i call stage).WrittenAt j put ↔
      s.WrittenAt j put ∨ j = i ∧ ∃ answer, stage = .written put.before put.after answer := by
  have inside := lt_of_getElem? found
  simp only [WrittenAt, setStage, List.getElem?_set]
  by_cases here : i = j
  · subst here
    simp only [if_true, inside, found, Option.some.injEq, exists_and_left, exists_eq_left',
      true_and]
    constructor
    · exact .inr
    · rintro (⟨answer, is⟩ | is)
      · exact absurd is (pending _ _ _)
      · exact is
  · simp [if_neg here, Ne.symm here]

theorem quiet_setStage {stage : Stage}
    (quiet : ∀ before after answer, stage ≠ .written before after answer) :
    s.Commits (s.setStage i call stage) := by
  refine .quiet rfl rfl ?_
  intro j put
  rw [writtenAt_setStage found pending]
  constructor
  · rintro (written | ⟨_, answer, is⟩)
    · exact written
    · exact absurd is (quiet _ _ _)
  · exact .inl

end

theorem Moved.commits (step : Moved s action s') : s.Commits s' := by
  cases step with
  | @begun _ _ _ call new =>
    refine .quiet rfl rfl ?_
    intro i put
    constructor
    · rintro ⟨other, answer, there, is⟩
      rcases getElem?_concat_eq_some there with old | ⟨_, rfl⟩
      · exact ⟨other, answer, old, is⟩
      · exact absurd is new.not_written
    · rintro ⟨other, answer, there, is⟩
      exact ⟨other, answer, getElem?_concat_of_some there call, is⟩
  | merged found stage
  | explained found stage => exact quiet_setStage found (by simp [stage]) (by simp)
  | failed found stage =>
    refine quiet_setStage found ?_ (by simp)
    rcases stage with stage | ⟨user, stage⟩ <;> simp [stage]
  | @written i now call statement before rows found next row met after =>
    have pending : ∀ before after answer, call.stage ≠ .written before after answer := by
      rcases (statement_eq_some next).2.2 with stage | ⟨user, stage⟩ <;> simp [stage]
    have own : before.id = call.id := Table.find_key row
    rw [← own] at row after
    refine .commit row after (fun _ assigned => UserStatement.assign_version assigned) rfl ?_ ?_
    · rintro other ⟨call', answer, there, is⟩
      rw [found] at there
      cases there
      exact pending _ _ _ is
    · intro j other
      refine (writtenAt_setStage found pending j other).trans (or_congr_right ?_)
      simp only [Stage.written.injEq, exists_and_left, exists_eq', and_true]
      refine and_congr_right fun _ => ⟨?_, ?_⟩
      · rintro ⟨found', left⟩
        rw [left, found']
      · rintro rfl
        exact ⟨rfl, rfl⟩

end Commits

/-- What the list of commits says of the rows and of the writes. -/
structure Recorded (start : Table User.id) (s : Writes) : Prop where
  life : ∀ id, Steps Overwrites (start.find id) ((s.commitsTo id).map Commit.toPut) (s.rows.find id)
  raises : ∀ commit ∈ s.commits, commit.Raises User.version
  written : ∀ i put, ⟨put, i⟩ ∈ s.commits ↔ s.WrittenAt i put
  once : (s.commits.map Commit.call).Nodup

theorem recorded_start (rows : Table User.id) : Recorded rows (.start rows) where
  life id := .nil _
  raises commit mem := absurd mem List.not_mem_nil
  written i put := by simp [WrittenAt, start]
  once := List.nodup_nil

variable {start : Table User.id}

theorem Recorded.step {s s' : Writes} (known : Recorded start s)
    (step : s.Commits s') : Recorded start s' := by
  cases step with
  | quiet rows commits same =>
    refine ⟨?_, ?_, ?_, ?_⟩
    · intro id
      have before := known.life id
      rwa [commitsTo, commits, rows]
    · rw [commits]
      exact known.raises
    · intro i put
      rw [commits, same, known.written]
    · rw [commits]
      exact known.once
  | @commit i put row rows raises commits first same =>
    refine ⟨?_, ?_, ?_, ?_⟩
    · intro id
      rw [commitsTo, commits, List.filter_append, rows]
      by_cases here : id = put.before.id
      · subst here
        rw [if_pos rfl, List.filter_cons_of_pos (by simp), List.filter_nil, List.map_append]
        exact (known.life _).snoc ⟨row, rfl⟩
      · rw [if_neg here, List.filter_cons_of_neg (by simp [Ne.symm here]), List.filter_nil,
          List.append_nil]
        exact known.life id
    · rw [commits]
      exact List.forall_mem_append.mpr ⟨known.raises, List.forall_mem_singleton.mpr raises⟩
    · intro j other
      rw [commits, List.mem_append, List.mem_singleton, known.written, same]
      simp only [Commit.mk.injEq, and_comm]
    · rw [commits, List.map_append, List.nodup_append]
      refine ⟨known.once, List.nodup_singleton _, ?_⟩
      intro j mem k single same'
      obtain ⟨⟨other, j'⟩, there, rfl⟩ := List.mem_map.mp mem
      cases List.mem_singleton.mp single
      subst same'
      exact first other ((known.written _ _).mp there)

structure Reached (start : Table User.id) (s : Writes) : Prop where
  recorded : Recorded start s
  honest : ∀ call ∈ s.calls, call.Honest

theorem reached {s : Writes} {actions : List WriteAction}
    (run : Steps (Executes act) (.start start) actions s) : Reached start s := by
  refine run.invariant (Reached start) ?_ ⟨recorded_start start, ?_⟩
  · intro t action t' known taken
    have step := moved taken
    exact ⟨known.recorded.step step.commits, step.honest known.honest⟩
  · intro call mem
    exact absurd mem List.not_mem_nil

namespace Recorded

variable {s : Writes}

theorem raises_to (known : Recorded start s) (id : String) :
    ∀ put ∈ (s.commitsTo id).map Commit.toPut, put.Raises User.version := by
  intro put mem
  obtain ⟨commit, there, rfl⟩ := List.mem_map.mp mem
  exact known.raises commit (List.mem_filter.mp there).1

theorem exists_first (known : Recorded start s) {id : String} {commit : Commit}
    (mem : commit ∈ s.commitsTo id) : ∃ first, start.find id = some first := by
  cases there : start.find id with
  | some first => exact ⟨first, rfl⟩
  | none =>
    have life := known.life id
    rw [there] at life
    have empty := (nil_of_overwrites_none life).1
    rw [List.map_eq_nil_iff] at empty
    rw [empty] at mem
    cases mem

theorem commit_unique (known : Recorded start s) {commit other : Commit}
    (mem : commit ∈ s.commits) (mem' : other ∈ s.commits) (id : commit.before.id = other.before.id)
    (version : commit.before.version = other.before.version) : commit = other := by
  have here : commit ∈ s.commitsTo other.before.id := List.mem_filter.mpr ⟨mem, by simp [id]⟩
  have there : other ∈ s.commitsTo other.before.id := List.mem_filter.mpr ⟨mem', by simp⟩
  obtain ⟨first, found⟩ := known.exists_first there
  have life := known.life other.before.id
  rw [found] at life
  have grow := ((history_of_overwrites life).increasing (known.raises_to _)).1
  have apart : ((s.commitsTo other.before.id).map fun commit => commit.before.version).Nodup := by
    rw [List.Nodup, List.pairwise_map]
    exact (List.pairwise_map.mp grow).imp fun less => Nat.ne_of_lt less
  exact List.inj_on_of_nodup_map apart here there version

end Recorded

/-- What optimistic concurrency promises of the writes to a table. -/
structure Optimistic (start : Table User.id) (s : Writes) : Prop where
  /-- A write succeeds once, over its row as the last one left it, and every row is what the
  successful writes made of it. -/
  life : ∀ id, Steps Overwrites (start.find id) ((s.commitsTo id).map Commit.toPut) (s.rows.find id)
  written : ∀ i put, ⟨put, i⟩ ∈ s.commits ↔ s.WrittenAt i put
  once : (s.commits.map Commit.call).Nodup
  /-- A successful update raises the version by one, -/
  raises : ∀ i put, s.WrittenAt i put → put.Raises User.version
  /-- so versions number the successful updates. -/
  numbered : ∀ id first, start.find id = some first →
    (s.updatesTo id).map User.version = List.range' (first.version + 1) (s.updatesTo id).length ∧
      ∀ user, s.rows.find id = some user → user.version = first.version + (s.updatesTo id).length
  /-- A write succeeds only over a version that its header names. -/
  named : ∀ i call put, s.calls[i]? = some call →
    s.WrittenAt i put → put.before.id = call.id ∧
      ∃ raw, call.header = some raw ∧ Names raw put.before.version
  /-- Of the writes to a user that carry the same single tag at most one succeeds. -/
  single : ∀ i j call call' raw raw' tag put put', s.calls[i]? = some call →
    s.calls[j]? = some call' →
    call.id = call'.id → call.header = some raw → call'.header = some raw' →
    TagList (JsString.trim raw).toList [tag] → TagList (JsString.trim raw').toList [tag] →
    s.WrittenAt i put → s.WrittenAt j put' → i = j
  /-- Where no write succeeds no row changes. -/
  unchanged : ∀ action s', s.act action = some s' →
    (∀ i put, s'.WrittenAt i put → s.WrittenAt i put) → s'.rows = s.rows
  /-- A write whose statement failed can be reported, -/
  explained : ∀ i call error, s.calls[i]? = some call →
    call.stage = .failed error → (s.act (.explain i)).isSome
  /-- as a conflict when the row that was read is at a version the header does not name. -/
  reported : ∀ call error user raw,
    call ∈ s.calls → call.stage = .refused error (some user) → call.header = some raw →
    ¬ Names raw user.version → IsConflict call.expected user.version error

namespace Reached

variable {s : Writes}

theorem named (known : Reached start s) {i : Nat} {call : WriteCall} {put : Put User}
    (found : s.calls[i]? = some call) (written : s.WrittenAt i put) :
    put.before.id = call.id ∧ ∃ raw, call.header = some raw ∧ Names raw put.before.version := by
  obtain ⟨other, answer, there, is⟩ := written
  cases Option.some.inj (found.symm.trans there)
  have honest := known.honest call (List.mem_of_getElem? found)
  obtain ⟨id, met⟩ := honest.met is
  have parsed := honest.parsed (by simp [is])
  have conditional := honest.conditional (by simp [is])
  cases header : call.header with
  | none =>
    rw [header] at parsed
    exact absurd (Except.ok.inj parsed).symm conditional
  | some raw =>
    rw [header] at parsed
    exact ⟨id, raw, rfl, names_of_isSatisfiedBy parsed met⟩

theorem reported (known : Reached start s) {call : WriteCall} {error : HttpException} {user : User}
    {raw : String} (mem : call ∈ s.calls) (stage : call.stage = .refused error (some user))
    (header : call.header = some raw) (unnamed : ¬ Names raw user.version) :
    IsConflict call.expected user.version error := by
  have honest := known.honest call mem
  have parsed := honest.parsed (by simp [stage])
  rw [header] at parsed
  refine honest.conflict stage (ne_unconditional_of_parseIfMatch parsed) ?_
  rw [← Bool.not_eq_true]
  exact fun met => unnamed (names_of_isSatisfiedBy parsed met)

theorem numbered (known : Reached start s) {id : String} {first : User}
    (there : start.find id = some first) : (s.updatesTo id).map User.version =
        List.range' (first.version + 1) (s.updatesTo id).length ∧
      ∀ user, s.rows.find id = some user →
        user.version = first.version + (s.updatesTo id).length := by
  have life := known.recorded.life id
  rw [there] at life
  exact (history_of_overwrites life).versions (known.recorded.raises_to id)

theorem single (known : Reached start s) {i j : Nat} {call call' : WriteCall} {raw raw' : String}
    {tag : Bool × List Char} {put put' : Put User} (found : s.calls[i]? = some call)
    (found' : s.calls[j]? = some call') (same : call.id = call'.id)
    (header : call.header = some raw) (header' : call'.header = some raw')
    (one : TagList (JsString.trim raw).toList [tag])
    (one' : TagList (JsString.trim raw').toList [tag])
    (written : s.WrittenAt i put) (written' : s.WrittenAt j put') : i = j := by
  obtain ⟨id, text, is, names⟩ := known.named found written
  obtain ⟨id', text', is', names'⟩ := known.named found' written'
  cases Option.some.inj (header.symm.trans is)
  cases Option.some.inj (header'.symm.trans is')
  have decimal := (names.single one).symm.trans (names'.single one')
  have version : put.before.version = put'.before.version :=
    JsString.decimal_injective (String.toList_injective (Prod.mk.inj decimal).2)
  have unique := known.recorded.commit_unique ((known.recorded.written i put).mpr written)
    ((known.recorded.written j put').mpr written') (by rw [id, id', same]) version
  exact congrArg Commit.call unique

theorem unchanged {action : WriteAction} {s' : Writes} (taken : s.act action = some s')
    (none : ∀ i put, s'.WrittenAt i put → s.WrittenAt i put) : s'.rows = s.rows := by
  cases (moved taken).commits with
  | quiet rows => exact rows
  | commit _ _ _ _ first same =>
    exact absurd (none _ _ ((same _ _).mpr (.inr ⟨rfl, rfl⟩))) (first _)

end Reached

/-- Over any interleaving of conditional writes; the header and the check agree on a version, and so
does the filter of the statement exactly when no strong tag names one past the column. -/
theorem optimistic_concurrency {start : Table User.id} {s : Writes} {actions : List WriteAction}
    (run : Steps (Executes act) (.start start) actions s) : Optimistic start s ∧
      (∀ raw, ∀ version ≤ maxSafeInteger, Names raw version ↔
        ∃ expected, parseIfMatch raw = .ok expected ∧ isSatisfiedBy expected version = true) ∧
      ∀ expected, (∀ version, finds expected version = isSatisfiedBy expected version) ↔
        fitsColumn expected = true := by
  have known := reached run
  refine ⟨?_, fun raw version safe => names_iff safe, fun _ => finds_eq_isSatisfiedBy_iff⟩
  exact {
    life := known.recorded.life
    written := known.recorded.written
    once := known.recorded.once
    raises := fun i put written => known.recorded.raises ⟨put, i⟩
      ((known.recorded.written i put).mpr written)
    numbered := fun id first there => known.numbered there
    named := fun i call put found written => known.named found written
    single := fun i j call call' raw raw' tag put put' found found' same header header' one one' =>
      known.single found found' same header header' one one'
    unchanged := fun action s' taken none => Reached.unchanged taken none
    explained := fun i call error found stage => by
      simp [act, found, explain, stage]
    reported := fun call error user raw mem stage header unnamed =>
      known.reported mem stage header unnamed }

/-- Two updates carry the validator of version 0: both clear their precondition, the second to run
is refused, and the row is left at version 1. -/
theorem optimistic_concurrency_race :
    ∃ s, Steps (Executes act) (.start ⟨[member "u"], by decide⟩)
        [.begin "u" (.update { name := some "Ada" }) (some "\"0\""),
          .begin "u" (.update { name := some "Eve" }) (some " W/\"7\",\"0\""),
          .write 1 5, .write 0 6, .explain 0] s ∧
      (s.updatesTo "u").map User.name = [some "Eve"] ∧
      (s.calls.map WriteCall.stage).head? = some (.refused
        (.preconditionFailed "Version conflict — the resource is at version 1")
        (s.rows.find "u")) ∧
      Optimistic ⟨[member "u"], by decide⟩ s := by
  refine exists_and_of_and (by decide +kernel) ?_
  intro s steps _ _
  exact (optimistic_concurrency steps).1

/-- The second tag does not fit the column, so the statement fails although the check is passed, and
no conflict is reported. -/
theorem tag_past_column_fails :
    ∃ s, Steps (Executes act) (.start ⟨[{ member "u" with version := 5 }], by decide⟩)
        [.begin "u" (.update { name := some "Ada" }) (some "\"5\", \"2147483648\""),
          .write 0 6, .explain 0] s ∧
      s.calls.map WriteCall.stage = [.refused .internal (some { member "u" with version := 5 })] ∧
      s.updatesTo "u" = [] ∧
      ∃ expected, parseIfMatch "\"5\", \"2147483648\"" = .ok expected ∧
        isSatisfiedBy expected 5 = true ∧ finds expected 5 = false := by
  refine exists_and_of_and (by decide +kernel) ?_
  intro s _ _ _
  exact ⟨_, rfl, by decide +kernel, by decide +kernel⟩

end NestApi.UserWrites
