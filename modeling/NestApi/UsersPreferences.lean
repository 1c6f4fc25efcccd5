import NestApi.UsersOptimistic

namespace NestApi.UserWrites

open Users Writes UserStatement

/-- The successful patches of one user's preferences, in the order of the versions they made. -/
def Writes.patchesTo (s : Writes) (id : String) : List PreferencesPatch :=
  (s.commitsTo id).filterMap fun commit =>
    s.calls[commit.call]?.bind fun call => call.change.patch?

/-- No patch is lost: the stored preferences are the first ones with the successful patches in the
order of their versions, and a patch answers with what it stored. -/
structure Preserved (start : Table User.id) (s : Writes) : Prop where
  numbered : ∀ id first, start.find id = some first →
    (s.updatesTo id).map User.version = List.range' (first.version + 1) (s.updatesTo id).length
  patched : ∀ id first user, start.find id = some first → s.rows.find id = some user →
    user.storedPreferences = (s.patchesTo id).foldl mergePreferences first.storedPreferences
  answered : ∀ call changes before after answer, call ∈ s.calls → call.change = .patch changes →
    call.stage = .written before after answer →
    ∃ user, after = some user ∧ answer = .preferences ⟨user.version, user.storedPreferences⟩

/-- A write that expects this goes through at a row of this version, which it raises. -/
def Writable (expected : ExpectedVersion) (version : Nat) : Prop :=
  finds expected version = true ∧ version < maxVersion

theorem admits_setPreferences {id : String} {preferences : UserPreferences}
    {expected : ExpectedVersion} {now : Nat} {user : User} :
    (setPreferences id preferences expected now).admits user = true ↔
      Writable expected user.version := by
  simp only [UserStatement.admits, UserStatement.assign, UserStatement.expected, Writable,
    Option.all_some, Bool.and_eq_true, decide_eq_true_eq]
  exact Iff.rfl

/-- A header with which no two versions can be written over. -/
def NamesOneVersion (raw : String) : Prop :=
  ∀ expected, parseIfMatch raw = .ok expected → ∀ version version',
    Writable expected version → Writable expected version' → version = version'

/-- Runs of patches to one user, each with the given header or with one that names at most one
version. -/
def Carries (id raw : String) (_ : Writes) : WriteAction → Prop
  | .begin target change header => target = id ∧ (∃ changes, change = .patch changes) ∧
      ∃ sent, header = some sent ∧ (sent = raw ∨ NamesOneVersion sent)
  | _ => True

section Rows

variable {s s' : Writes} {action : WriteAction}

/-- A row that is there after a step was there before, at an earlier version if it changed. -/
theorem Writes.Commits.earlier (step : s.Commits s') {id : String} {user' : User}
    (there : s'.rows.find id = some user') :
    ∃ user, s.rows.find id = some user ∧ (user' = user ∨ user.version < user'.version) := by
  cases step with
  | quiet rows =>
    rw [rows] at there
    exact ⟨user', there, .inl rfl⟩
  | @commit i put row rows raises _ _ _ =>
    rw [rows] at there
    split_ifs at there with here
    · subst here
      have := raises user' there
      exact ⟨put.before, row, .inr (by omega)⟩
    · exact ⟨user', there, .inl rfl⟩

def Continues (calls calls' : List WriteCall) : Prop :=
  ∀ ⦃i : Nat⦄ ⦃call : WriteCall⦄, calls[i]? = some call →
    ∃ call', calls'[i]? = some call' ∧ call'.change = call.change

theorem continues_set {calls : List WriteCall} {i : Nat} {call : WriteCall}
    (found : calls[i]? = some call) (stage : Stage) :
    Continues calls (calls.set i { call with stage }) := by
  intro j other there
  rw [List.getElem?_set]
  split
  · rename_i here
    subst here
    cases Option.some.inj (found.symm.trans there)
    rw [if_pos (lt_of_getElem? found)]
    exact ⟨_, rfl, rfl⟩
  · exact ⟨other, there, rfl⟩

theorem continues_concat (calls : List WriteCall) (new : WriteCall) :
    Continues calls (calls ++ [new]) :=
  fun _ call there => ⟨call, getElem?_concat_of_some there new, rfl⟩

def patchOf (calls : List WriteCall) (commit : Commit) : Option PreferencesPatch :=
  calls[commit.call]?.bind fun call => call.change.patch?

theorem patchOf_eq {start : Table User.id} (known : Recorded start s) {calls : List WriteCall}
    (onward : Continues s.calls calls) (id : String) :
    (s.commitsTo id).filterMap (patchOf calls) = s.patchesTo id := by
  apply List.filterMap_congr
  intro commit mem
  obtain ⟨call, answer, found, _⟩ :=
    (known.written commit.call commit.toPut).mp (List.mem_filter.mp mem).1
  obtain ⟨call', found', same⟩ := onward found
  rw [patchOf, found, found', Option.bind_some, Option.bind_some, same]

/-- A write that succeeds adds its patch, if it is one, to those of its user. -/
theorem patchesTo_commit {start : Table User.id} (known : Recorded start s) {i : Nat}
    {call : WriteCall} (found : s.calls[i]? = some call) {before : User}
    (own : before.id = call.id) (after : Option User) (stage : Stage) (rows : Table User.id)
    (id : String) : patchesTo ⟨rows, s.calls.set i { call with stage },
        s.commits ++ [⟨⟨before, after⟩, i⟩]⟩ id =
      s.patchesTo id ++ if id = call.id then call.change.patch?.toList else [] := by
  have inside := lt_of_getElem? found
  change (List.filter _ (s.commits ++ _)).filterMap (patchOf _) = _
  rw [List.filter_append, List.filterMap_append]
  refine congrArg₂ _ (patchOf_eq known (continues_set found stage) id) ?_
  by_cases here : id = call.id
  · rw [if_pos here, List.filter_cons_of_pos (by simp [own, here]), List.filter_nil]
    have is : patchOf (s.calls.set i { call with stage }) ⟨⟨before, after⟩, i⟩ =
        call.change.patch? := by
      simp [patchOf, inside]
    cases change : call.change.patch? with
    | none => rw [List.filterMap_cons_none (is.trans change), List.filterMap_nil]; rfl
    | some => rw [List.filterMap_cons_some (is.trans change), List.filterMap_nil]; rfl
  · rw [if_neg here, List.filter_cons_of_neg (by simp [own, Ne.symm here]), List.filter_nil,
      List.filterMap_nil]

end Rows

/-- What a write under way knows of its row: the version it was checked at and the one its
preferences were read at are not ahead of it, and it is the row that was read while its version has
not moved. -/
structure Timely (rows : Table User.id) (call : WriteCall) : Prop where
  checked : call.stage = .checked → ∃ version, isSatisfiedBy call.expected version = true ∧
    ∀ user, rows.find call.id = some user → version ≤ user.version
  merged : ∀ read, call.stage = .merged read →
    (∃ version ≤ read.version, isSatisfiedBy call.expected version = true) ∧
    ∀ user, rows.find call.id = some user →
      read.version ≤ user.version ∧ (user.version = read.version → user = read)

section Timely

variable {s s' : Writes} {action : WriteAction}

theorem Timely.later {call : WriteCall} (timely : Timely s.rows call) (step : s.Commits s') :
    Timely s'.rows call := by
  refine ⟨?_, ?_⟩
  · intro stage
    obtain ⟨version, met, under⟩ := timely.checked stage
    refine ⟨version, met, ?_⟩
    intro user' there'
    obtain ⟨user, there, rfl | less⟩ := step.earlier there'
    · exact under user' there
    · have := under user there
      omega
  · intro read stage
    obtain ⟨met, under⟩ := timely.merged read stage
    refine ⟨met, ?_⟩
    intro user' there'
    obtain ⟨user, there, rfl | less⟩ := step.earlier there'
    · exact under user' there
    · have := (under user there).1
      exact ⟨by omega, by omega⟩

theorem timely_of_done {rows : Table User.id} {call : WriteCall} (checked : call.stage ≠ .checked)
    (merged : ∀ read, call.stage ≠ .merged read) : Timely rows call :=
  ⟨fun stage => absurd stage checked, fun read stage => absurd stage (merged read)⟩

theorem Moved.timely (step : Moved s action s') (before : ∀ call ∈ s.calls, Timely s.rows call) :
    ∀ call ∈ s'.calls, Timely s'.rows call := by
  have commits := step.commits
  have old : ∀ call ∈ s.calls, Timely s'.rows call :=
    fun call mem => (before call mem).later commits
  cases step with
  | begun new =>
    refine List.forall_mem_append.mpr ⟨old, List.forall_mem_singleton.mpr ?_⟩
    cases new with
    | malformed | refused => exact timely_of_done (by simp) (by simp)
    | @checked expected user parsed conditional row met =>
      refine ⟨fun _ => ⟨user.version, met, ?_⟩, by simp⟩
      intro other there
      cases Option.some.inj (row.symm.trans there)
      exact le_rfl
  | @merged i call user found stage row =>
    refine forall_mem_set old ⟨by simp, ?_⟩
    intro read is
    injection is with is
    subst is
    obtain ⟨version, met, under⟩ := (before call (List.mem_of_getElem? found)).checked stage
    refine ⟨⟨version, under user row, met⟩, ?_⟩
    intro other there
    cases Option.some.inj (row.symm.trans there)
    exact ⟨le_rfl, fun _ => rfl⟩
  | failed | explained => exact forall_mem_set old (timely_of_done (by simp) (by simp))
  | written =>
    exact forall_mem_set old (timely_of_done (by simp) (by simp))

end Timely

section Patches

variable {start : Table User.id} {s s' : Writes} {action : WriteAction}

variable {call : WriteCall} {changes : PreferencesPatch}

section

variable {now : Nat} {statement : UserStatement} (next : call.statement now = some statement)

include next

theorem stored_assign {before after : User} (assigned : statement.assign before = some after) :
    (∃ changes read, call.change = .patch changes ∧ call.stage = .merged read ∧
      after.storedPreferences = mergePreferences read.storedPreferences changes) ∨
    call.change.patch? = none ∧ after.storedPreferences = before.storedPreferences := by
  obtain ⟨id, change, header, expected, stage⟩ := call
  cases change with
  | update =>
    cases stage <;> cases next
    cases assigned
    exact .inr ⟨rfl, rfl⟩
  | patch changes =>
    cases stage <;> cases next
    cases assigned
    exact .inl ⟨changes, _, rfl, rfl, rfl⟩
  | delete =>
    cases stage <;> cases next
    cases assigned

theorem writable_of_admits (change : call.change = .patch changes) {before : User}
    (met : statement.admits before = true) : Writable call.expected before.version := by
  obtain ⟨id, _, header, expected, stage⟩ := call
  cases change
  cases stage <;> cases next
  exact admits_setPreferences.mp met

theorem answer_of_patch (change : call.change = .patch changes) (before : User) :
    ∃ user, statement.assign before = some user ∧
      call.answer ((statement.assign before).getD before) =
        .preferences ⟨user.version, user.storedPreferences⟩ := by
  obtain ⟨id, _, header, expected, stage⟩ := call
  cases change
  cases stage <;> cases next
  exact ⟨_, rfl, rfl⟩

end

def Answered (call : WriteCall) : Prop :=
  ∀ changes before after answer,
    call.change = .patch changes → call.stage = .written before after answer →
    ∃ user, after = some user ∧ answer = .preferences ⟨user.version, user.storedPreferences⟩

theorem answered_of_pending
    (pending : ∀ before after answer, call.stage ≠ .written before after answer) : Answered call :=
  fun _ before after answer _ stage => absurd stage (pending before after answer)

theorem Moved.answered (step : Moved s action s') (before : ∀ call ∈ s.calls, Answered call) :
    ∀ call ∈ s'.calls, Answered call := by
  cases step with
  | begun new =>
    refine List.forall_mem_append.mpr ⟨before, List.forall_mem_singleton.mpr ?_⟩
    exact answered_of_pending fun _ _ _ => new.not_written
  | merged | failed | explained => exact forall_mem_set before (answered_of_pending (by simp))
  | @written i now call statement row rows found next there met after =>
    refine forall_mem_set before ?_
    intro changes before' after' answer change stage
    injection stage with same same' same''
    subst same same' same''
    exact answer_of_patch next change row

/-- A write that patches preferences expects one version at most. -/
def Single (call : WriteCall) : Prop :=
  ∀ changes, call.change = .patch changes → (∀ error read, call.stage ≠ .refused error read) →
    ∀ version version', Writable call.expected version → Writable call.expected version' →
      version = version'

theorem Opened.single {rows : Table User.id} {id : String} {change : Change}
    {header : Option String} (new : Opened rows id change header call)
    (one : ∀ sent, header = some sent → NamesOneVersion sent) : Single call := by
  intro changes _ pending
  cases new with
  | malformed | refused => exact absurd rfl (pending _ _)
  | checked parsed conditional =>
    cases header with
    | none => exact absurd (Except.ok.inj parsed).symm conditional
    | some sent => exact one sent rfl _ parsed

/-- The headers of the requests name at most one version each. -/
def SingleHeaders (_ : Writes) : WriteAction → Prop
  | .begin _ _ header => ∀ sent, header = some sent → NamesOneVersion sent
  | _ => True

theorem Single.advance (single : Single call)
    (pending : ∀ error read, call.stage ≠ .refused error read) (stage : Stage) :
    Single { call with stage } :=
  fun changes change _ => single changes change pending

theorem Moved.single (step : Moved s action s') (one : SingleHeaders s action)
    (before : ∀ call ∈ s.calls, Single call) : ∀ call ∈ s'.calls, Single call := by
  have known {i : Nat} {call : WriteCall} (found : s.calls[i]? = some call) : Single call :=
    before call (List.mem_of_getElem? found)
  cases step with
  | begun new =>
    exact List.forall_mem_append.mpr ⟨before, List.forall_mem_singleton.mpr (new.single one)⟩
  | merged found stage | explained found stage =>
    exact forall_mem_set before ((known found).advance (by simp [stage]) _)
  | failed found stage =>
    refine forall_mem_set before ((known found).advance ?_ _)
    rcases stage with stage | ⟨user, stage⟩ <;> simp [stage]
  | written found next =>
    refine forall_mem_set before ((known found).advance ?_ _)
    rcases (statement_eq_some next).2.2 with stage | ⟨user, stage⟩ <;> simp [stage]

/-- A patch that may expect one version only is written over the row its preferences were read
from. -/
theorem before_eq_read {rows : Table User.id} {read before : User}
    (timely : Timely rows call) (single : Single call) (change : call.change = .patch changes)
    (stage : call.stage = .merged read) (row : rows.find call.id = some before)
    (met : Writable call.expected before.version) : before = read := by
  obtain ⟨⟨version, under, met'⟩, above⟩ := timely.merged read stage
  obtain ⟨over', same⟩ := above before row
  have earlier : Writable call.expected version :=
    ⟨finds_eq_true.mpr ⟨(finds_eq_true.mp met.1).1, met'⟩, by have := met.2; omega⟩
  have equal := single changes change (by simp [stage]) _ _ met earlier
  exact same (by omega)

/-- The stored preferences of every row are the first ones with the patches on record applied. -/
def Patched (start : Table User.id) (s : Writes) : Prop :=
  ∀ id first user, start.find id = some first → s.rows.find id = some user →
    user.storedPreferences = (s.patchesTo id).foldl mergePreferences first.storedPreferences

theorem patched_of_quiet (known : Recorded start s) (before : Patched start s)
    {calls : List WriteCall} (onward : Continues s.calls calls) :
    Patched start { s with calls } := by
  intro id first user there here
  change _ = ((s.commitsTo id).filterMap (patchOf calls)).foldl _ _
  rw [patchOf_eq known onward]
  exact before id first user there here

theorem Moved.patched (step : Moved s action s') (known : Recorded start s)
    (timely : ∀ call ∈ s.calls, Timely s.rows call) (single : ∀ call ∈ s.calls, Single call)
    (before : Patched start s) : Patched start s' := by
  cases step with
  | begun => exact patched_of_quiet known before (continues_concat _ _)
  | merged found | failed found
  | explained found => exact patched_of_quiet known before (continues_set found _)
  | @written i now call statement row rows found next there met after =>
    have mem := List.mem_of_getElem? found
    intro id first user started here
    rw [patchesTo_commit known found (Table.find_key there)]
    change rows.find id = some user at here
    rw [after] at here
    split_ifs at here ⊢ with own
    · subst own
      rw [List.foldl_append, ← before call.id first row started there]
      rcases stored_assign next here with ⟨changes, read, change, stage, stored⟩ | ⟨none', stored⟩
      · have equal := before_eq_read (timely call mem) (single call mem) change stage there
          (writable_of_admits next change met)
        rw [stored, change, equal]
        rfl
      · rw [stored, none']
        rfl
    · rw [List.append_nil]
      exact before id first user started here

end Patches

/-- Everything that holds in every state of a run whose headers name one version each. -/
structure Kept (start : Table User.id) (s : Writes) : Prop where
  recorded : Recorded start s
  timely : ∀ call ∈ s.calls, Timely s.rows call
  single : ∀ call ∈ s.calls, Single call
  answered : ∀ call ∈ s.calls, Answered call
  patched : Patched start s

theorem kept_start (start : Table User.id) : Kept start (.start start) := by
  have none {p : WriteCall → Prop} : ∀ call ∈ (Writes.start start).calls, p call :=
    fun call mem => absurd mem List.not_mem_nil
  refine ⟨recorded_start start, none, none, none, ?_⟩
  intro id first user there here
  cases Option.some.inj (there.symm.trans here)
  rfl

theorem preserved_of_single {start : Table User.id} {s : Writes} {actions : List WriteAction}
    (run : Steps (Guarded SingleHeaders (Executes act)) (.start start) actions s) :
    Preserved start s := by
  have kept : Kept start s := by
    refine run.invariant (Kept start) ?_ (kept_start start)
    rintro t action t' known ⟨one, taken⟩
    have step := moved taken
    exact ⟨known.recorded.step step.commits, step.timely known.timely,
      step.single one known.single, step.answered known.answered,
      step.patched known.recorded known.timely known.single known.patched⟩
  refine ⟨fun id first there => ((reached run.of_guarded).numbered there).1, kept.patched, ?_⟩
  exact fun call changes before after answer mem =>
    kept.answered call mem changes before after answer

section Progress

variable {s : Writes} {id : String} {user : User} {expected : ExpectedVersion}

theorem opened_of_met {header : Option String} (change : Change)
    (parsed : resolveIfMatch header = .ok expected) (conditional : expected ≠ .unconditional)
    (row : s.rows.find id = some user) (met : isSatisfiedBy expected user.version = true) :
    s.opened id change header = ⟨id, change, header, expected, .checked⟩ := by
  simp only [opened, parsed, assertPrecondition_eq_ok.mpr ⟨row, conditional, met⟩]

def patchedRow (user : User) (preferences : UserPreferences) (now : Nat) : User :=
  { user with
    preferences := some preferences.stored
    updatedAt := now
    version := user.version + 1 }

section

variable {i : Nat} {call : WriteCall} {changes : PreferencesPatch}
  (found : s.calls[i]? = some call) (change : call.change = .patch changes)

include found change

theorem read_of_checked (stage : call.stage = .checked) (row : s.rows.find call.id = some user) :
    s.act (.read i) = some (s.setStage i call (.merged user)) := by
  simp [Writes.act, found, Writes.read, change, stage, row]

theorem write_of_merged {read : User}
    (stage : call.stage = .merged read) (row : s.rows.find call.id = some user)
    (met : Writable call.expected user.version) (now : Nat) :
    ∃ rows stage', s.act (.write i now) = some
        ⟨rows, s.calls.set i { call with stage := stage' }, s.commits ++ [⟨⟨user,
          some (patchedRow user (mergePreferences read.storedPreferences changes) now)⟩, i⟩]⟩ ∧
      rows.find call.id =
        some (patchedRow user (mergePreferences read.storedPreferences changes) now) := by
  let statement : UserStatement := .setPreferences call.id
    (mergePreferences read.storedPreferences changes) call.expected now
  have next : call.statement now = some statement := by
    simp only [WriteCall.statement, change, stage]
    rfl
  have touched := touches_eq_some.mpr
    (show _ ∧ statement.admits user = true from ⟨row, admits_setPreferences.mpr met⟩)
  obtain ⟨rows, ran, after⟩ := executePlain_of_touches touched
  refine ⟨rows, .written user (statement.assign user)
    (call.answer ((statement.assign user).getD user)), ?_, (after call.id).trans (if_pos rfl)⟩
  simp only [act, found, Option.bind_some, write, next, Option.map_some, ran, touched]
  rfl

end

theorem exists_validator {version : Nat} (safe : version < maxVersion) :
    ∃ sent expected, parseIfMatch sent = .ok expected ∧ expected ≠ .unconditional ∧
      Writable expected version ∧ NamesOneVersion sent := by
  have parsed := parseIfMatch_formatEntityTag (safe.le.trans (by decide : maxVersion ≤ _))
  refine ⟨_, _, parsed, by simp, ⟨?_, safe⟩, ?_⟩
  · rw [finds_eq_true]
    simp [fitsColumn, versionPredicate, isSatisfiedBy, safe.le]
  · intro expected parsed' first second met met'
    cases Except.ok.inj (parsed'.symm.trans parsed)
    have here : version = first := by simpa [isSatisfiedBy] using (finds_eq_true.mp met.1).2
    have there : version = second := by simpa [isSatisfiedBy] using (finds_eq_true.mp met'.1).2
    omega

/-- A patch that is not interrupted and carries the validator of the row is applied. -/
theorem patch_alone {start : Table User.id} (known : Recorded start s) (raw : String)
    (row : s.rows.find id = some user) (safe : user.version < maxVersion)
    (changes : PreferencesPatch) : ∃ (actions : List WriteAction) (s' : Writes) (user' : User),
      Steps (Guarded (Carries id raw) (Executes act)) s actions s' ∧
      (∀ (i : Nat) (call : WriteCall), s.calls[i]? = some call → s'.calls[i]? = some call) ∧
      s'.rows.find id = some user' ∧ user'.version = user.version + 1 ∧
      s'.patchesTo id = s.patchesTo id ++ [changes] := by
  obtain ⟨sent, expected, parsed, conditional, met, one⟩ := exists_validator safe
  let i := s.calls.length
  let checked : WriteCall := ⟨id, .patch changes, some sent, expected, .checked⟩
  let merged : WriteCall := { checked with stage := .merged user }
  let s₁ : Writes := { s with calls := s.calls ++ [checked] }
  let s₂ : Writes := s₁.setStage i checked (.merged user)
  have begun : s.act (.begin id (.patch changes) (some sent)) = some s₁ := by
    rw [act, opened_of_met _ (show resolveIfMatch (some sent) = .ok expected from parsed)
      conditional row (finds_eq_true.mp met.1).2]
  have found₁ : s₁.calls[i]? = some checked := List.getElem?_concat_length
  have read : s₁.act (.read i) = some s₂ := read_of_checked found₁ rfl rfl row
  have found₂ : s₂.calls[i]? = some merged :=
    getElem?_set_of_some found₁ _
  obtain ⟨rows, stage, wrote, after⟩ := write_of_merged found₂ rfl rfl
    (show s₂.rows.find merged.id = some user from row) met 0
  have known₁ := known.step (moved begun).commits
  have known₂ := known₁.step (moved read).commits
  have begins : Carries id raw s (.begin id (.patch changes) (some sent)) :=
    ⟨rfl, ⟨changes, rfl⟩, sent, rfl, .inr one⟩
  have reads : Carries id raw s₁ (.read i) := trivial
  have writes : Carries id raw s₂ (.write i 0) := trivial
  refine ⟨_, _, _, .cons ⟨begins, begun⟩ (.cons ⟨reads, read⟩ (.single ⟨writes, wrote⟩)), ?_,
    after, rfl, ?_⟩
  · intro j call there
    have inside := lt_of_getElem? there
    have apart : i ≠ j := Nat.ne_of_gt inside
    change ((s₂.calls.set i _)[j]?) = _
    rw [List.getElem?_set_ne apart]
    change (((s.calls ++ [checked]).set i merged)[j]?) = _
    rw [List.getElem?_set_ne apart, getElem?_concat_of_some there]
  · rw [patchesTo_commit known₂ found₂ (Table.find_key row), if_pos rfl]
    have first := patchOf_eq known (continues_concat s.calls checked) id
    have second := patchOf_eq known₁ (continues_set found₁ (.merged user)) id
    change s₂.patchesTo id ++ [changes] = _
    rw [← first]
    exact congrArg (· ++ [changes]) second

end Progress

def texting : PreferencesPatch := { smsNotifications := some true }

/-- While one patch waits with what it read at the first version, others move the row on. -/
theorem wait_for_version {start : Table User.id} {s : Writes} (known : Recorded start s)
    {id : String} (raw : String) {user : User} (row : s.rows.find id = some user) (turns : Nat)
    (safe : user.version + turns ≤ maxVersion) :
    ∃ (actions : List WriteAction) (s' : Writes) (user' : User),
      Steps (Guarded (Carries id raw) (Executes act)) s actions s' ∧
      (∀ (i : Nat) (call : WriteCall), s.calls[i]? = some call → s'.calls[i]? = some call) ∧
      s'.rows.find id = some user' ∧ user'.version = user.version + turns ∧
      s'.patchesTo id = s.patchesTo id ++ List.replicate turns texting := by
  induction turns generalizing s user with
  | zero => exact ⟨[], s, user, .nil s, fun _ _ there => there, row, rfl, (List.append_nil _).symm⟩
  | succ turns ih =>
    obtain ⟨first, t, user₁, run, kept, row₁, version, patches⟩ :=
      patch_alone known raw row (by omega) texting
    have known₁ : Recorded start t := run.of_guarded.invariant (Recorded start)
      (fun _ _ _ before taken => before.step (moved taken).commits) known
    obtain ⟨rest, s', user', later, kept', row', version', patches'⟩ :=
      ih known₁ row₁ (by omega)
    refine ⟨first ++ rest, s', user', run.append later, ?_, row', by omega, ?_⟩
    · intro i call there
      exact kept' i call (kept i call there)
    · rw [patches', patches, List.append_assoc, List.replicate_succ, List.singleton_append]

variable {raw : String}

/-- A header that names two versions: one that a row can be read at, and a later one. -/
theorem two_versions (several : ¬ NamesOneVersion raw) :
    ∃ expected first later, parseIfMatch raw = .ok expected ∧ Writable expected first ∧
      Writable expected later ∧ first < later := by
  simp only [NamesOneVersion, not_forall] at several
  obtain ⟨expected, parsed, version, version', met, met', apart⟩ := several
  rcases Nat.lt_or_gt_of_ne apart with less | less
  · exact ⟨expected, version, version', parsed, met, met', less⟩
  · exact ⟨expected, version', version, parsed, met', met, less⟩

theorem sms_foldl_texting (turns : Nat) (preferences : UserPreferences) (on : 0 < turns) :
    ((List.replicate turns texting).foldl mergePreferences preferences).smsNotifications =
      true := by
  obtain ⟨turns, rfl⟩ := Nat.exists_eq_succ_of_ne_zero (Nat.ne_of_gt on)
  rw [List.replicate_succ', List.foldl_append]
  rfl

/-- With a header that names two versions, the patches made between the two are lost. -/
theorem lost_of_two_versions (id : String) (several : ¬ NamesOneVersion raw) :
    ∃ start actions s, Steps (Guarded (Carries id raw) (Executes act)) (.start start)
      actions s ∧ ¬ Preserved start s := by
  obtain ⟨expected, first, later, parsed, met, met', less⟩ := two_versions several
  let user : User := { member id with version := first }
  let start : Table User.id := ⟨[user], List.nodup_singleton _⟩
  have row : start.find id = some user := by simp [Table.find, start, user, member, User.created]
  let checked : WriteCall := ⟨id, .patch { theme := some .dark }, some raw, expected, .checked⟩
  let waiting : WriteCall := { checked with stage := .merged user }
  have opened : (Writes.start start).opened id checked.change checked.header = checked :=
    opened_of_met _ parsed (ne_unconditional_of_parseIfMatch parsed) row (finds_eq_true.mp met.1).2
  let s₁ : Writes := ⟨start, [checked], []⟩
  let s₂ : Writes := ⟨start, [waiting], []⟩
  have begun : (Writes.start start).act (.begin id checked.change checked.header) = some s₁ := by
    rw [act, opened]
    rfl
  have read : s₁.act (.read 0) = some s₂ := read_of_checked rfl rfl rfl row
  have known := ((recorded_start start).step (moved begun).commits).step (moved read).commits
  obtain ⟨actions, s, current, run, kept, there, version, patches⟩ :=
    wait_for_version known raw (show s₂.rows.find id = some user from row) (later - first)
      (by have := met'.2; change first + _ ≤ _; omega)
  have reaches : current.version = later := by
    change _ = first + _ at version
    omega
  have found := kept 0 waiting rfl
  obtain ⟨rows, stage, wrote, after⟩ := write_of_merged found rfl rfl there
    (show Writable expected current.version from reaches.symm ▸ met') 0
  have known' : Recorded start s := run.of_guarded.invariant (Recorded start)
    (fun _ _ _ before taken => before.step (moved taken).commits) known
  have begins : Carries id raw (.start start) (.begin id checked.change checked.header) :=
    ⟨rfl, ⟨_, rfl⟩, raw, rfl, .inl rfl⟩
  have reads : Carries id raw s₁ (.read 0) := trivial
  have writes : Carries id raw s (.write 0 0) := trivial
  refine ⟨start, _, _, .cons ⟨begins, begun⟩ (.cons ⟨reads, read⟩ (run.snoc ⟨writes, wrote⟩)), ?_⟩
  intro preserved
  have stored := preserved.patched id user _ row after
  rw [patchesTo_commit known' found (Table.find_key there), if_pos rfl, patches,
    List.foldl_append] at stored
  have texts := congrArg UserPreferences.smsNotifications stored
  have on := sms_foldl_texting (later - first)
    ((s₂.patchesTo id).foldl mergePreferences user.storedPreferences) (by omega)
  rw [← List.foldl_append] at on
  have off : false = true := texts.trans on
  cases off

theorem carries_single {id : String} (one : NamesOneVersion raw) (s : Writes) (action : WriteAction)
    (carries : Carries id raw s action) : SingleHeaders s action := by
  cases action with
  | begin =>
    obtain ⟨_, _, sent, rfl, is⟩ := carries
    intro other same
    cases same
    rcases is with rfl | single
    · exact one
    · exact single
  | _ => trivial

/-- Patches to a user are all kept, however they interleave, exactly when no header names two
versions that can be written over: the filter compares with what the client named, not with what was
read. -/
theorem preferences_preserved_iff (id raw : String) :
    (∀ start actions s, Steps (Guarded (Carries id raw) (Executes act)) (.start start)
      actions s → Preserved start s) ↔ NamesOneVersion raw := by
  constructor
  · intro always
    by_contra several
    obtain ⟨start, actions, s, run, lost⟩ := lost_of_two_versions id several
    exact lost (always start actions s run)
  · intro one start actions s run
    refine preserved_of_single (run.mono (fun _ => True) (fun _ _ _ _ _ => trivial) ?_ trivial)
    intro t action t' _ taken
    exact ⟨carries_single one t action taken.1, taken.2⟩

/-- A patch with two tags reads version 0; another makes version 1; the first is written over it,
and the second one's change is gone. -/
theorem preferences_lost_two_tags :
    ∃ s, Steps (Executes act) (.start ⟨[member "u"], by decide⟩)
        [.begin "u" (.patch { theme := some .dark }) (some "\"0\", \"1\""), .read 0,
          .begin "u" (.patch texting) (some "\"0\""), .read 1, .write 1 5, .write 0 6] s ∧
      s.patchesTo "u" = [texting, { theme := some .dark }] ∧
      (s.rows.find "u").map User.storedPreferences =
        some (mergePreferences defaultUserPreferences { theme := some .dark }) ∧
      ¬ Preserved ⟨[member "u"], by decide⟩ s := by
  refine exists_and_of_and (by decide +kernel) ?_
  intro s _ patches stored preserved
  obtain ⟨user, there, is⟩ := Option.map_eq_some_iff.mp stored
  have kept := preserved.patched "u" (member "u") user rfl there
  rw [is, patches] at kept
  revert kept
  decide

end NestApi.UserWrites
