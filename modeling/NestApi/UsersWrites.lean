import NestApi.UsersApi
import NestApi.IfMatch
import NestApi.Indexed
import NestApi.VersionedCell

namespace NestApi.UserWrites

open Users

def resolveIfMatch : Option String → Except HttpException ExpectedVersion
  | none => .ok .unconditional
  | some raw => parseIfMatch raw

/-- Where a write stands: its precondition was cleared; the preferences it patches were read; its
statement failed and the row is not read back yet; it was refused, with the row as last read; or its
statement took the row to its next state, where `none` is removed. -/
inductive Stage where
  | checked
  | merged (read : User)
  | failed (error : HttpException)
  | refused (error : HttpException) (read : Option User)
  | written (before : User) (after : Option User) (answer : Body)
  deriving DecidableEq

structure WriteCall where
  id : String
  change : Change
  header : Option String
  expected : ExpectedVersion
  stage : Stage
  deriving DecidableEq

def WriteCall.statement (call : WriteCall) (now : Nat) : Option UserStatement :=
  match call.change, call.stage with
  | .update data, .checked => some (.update call.id data call.expected now)
  | .delete, .checked => some (.delete call.id call.expected)
  | .patch changes, .merged read => some (.setPreferences call.id
      (mergePreferences read.storedPreferences changes) call.expected now)
  | _, _ => none

def WriteCall.answer (call : WriteCall) (written : User) : Body :=
  match call.change, call.stage with
  | .patch changes, .merged read =>
    .preferences ⟨written.version, mergePreferences read.storedPreferences changes⟩
  | .delete, _ => .empty
  | _, _ => versionedUser written

/-- A statement that matched its row, and the write that ran it. -/
structure Commit extends Put User where
  call : Nat
  deriving DecidableEq

/-- The users of a tenant and the writes to them, in the order they arrived, with the statements
that matched. -/
structure Writes where
  rows : Table User.id
  calls : List WriteCall
  commits : List Commit

inductive WriteAction where
  | begin (id : String) (change : Change) (header : Option String)
  | read (call : Nat)
  | write (call : Nat) (now : Nat)
  | breakDown (call : Nat) (now : Nat) (error : HttpException)
  | explain (call : Nat)
  deriving DecidableEq

namespace Writes

def start (rows : Table User.id) : Writes := ⟨rows, [], []⟩

def setStage (s : Writes) (i : Nat) (call : WriteCall) (stage : Stage) : Writes :=
  { s with calls := s.calls.set i { call with stage } }

/-- A request parses its header and checks its precondition against the row. -/
def opened (s : Writes) (id : String) (change : Change) (header : Option String) : WriteCall :=
  match resolveIfMatch header with
  | .error error => ⟨id, change, header, .unconditional, .refused error none⟩
  | .ok expected =>
    match assertPrecondition s.rows id expected with
    | .error error => ⟨id, change, header, expected, .refused error (s.rows.find id)⟩
    | .ok _ => ⟨id, change, header, expected, .checked⟩

/-- `setPreferences` reads the preferences it is going to patch. -/
def read (s : Writes) (i : Nat) (call : WriteCall) : Option Writes :=
  match call.change, call.stage with
  | .patch _, .checked =>
    match s.rows.find call.id with
    | some user => some (s.setStage i call (.merged user))
    | none => some (s.setStage i call (.failed .internal))
  | _, _ => none

/-- The conditional statement matches the row and changes it, or matches none. -/
def write (s : Writes) (i : Nat) (call : WriteCall) (now : Nat) : Option Writes :=
  (call.statement now).map fun statement =>
    match statement.touches s.rows, statement.executePlain s.rows with
    | some before, some (user, rows) =>
      { rows
        calls := s.calls.set i { call with
          stage := .written before (statement.assign before) (call.answer user) }
        commits := s.commits ++ [⟨⟨before, statement.assign before⟩, i⟩] }
    | _, _ => s.setStage i call (.failed .internal)

def explain (s : Writes) (i : Nat) (call : WriteCall) : Option Writes :=
  match call.stage with
  | .failed error => some (s.setStage i call
      (.refused (explainWriteFailure (s.rows.find call.id) call.expected error)
        (s.rows.find call.id)))
  | _ => none

def act (s : Writes) : WriteAction → Option Writes
  | .begin id change header => some { s with calls := s.calls ++ [s.opened id change header] }
  | .read i => s.calls[i]?.bind (s.read i)
  | .write i now => s.calls[i]?.bind fun call => s.write i call now
  -- the statement fails for a reason of the database's own
  | .breakDown i now error => s.calls[i]?.bind fun call =>
    (call.statement now).map fun _ => s.setStage i call (.failed error)
  | .explain i => s.calls[i]?.bind (s.explain i)

end Writes

inductive Opened (rows : Table User.id) (id : String) (change : Change) (header : Option String) :
    WriteCall → Prop where
  | malformed {error} (malformed : resolveIfMatch header = .error error) :
      Opened rows id change header ⟨id, change, header, .unconditional, .refused error none⟩
  | refused {expected error} (parsed : resolveIfMatch header = .ok expected)
      (conflict : ∀ user, rows.find id = some user → expected ≠ .unconditional →
        isSatisfiedBy expected user.version = false ∧
          error = .preconditionFailed (describeMismatch expected user.version)) :
      Opened rows id change header ⟨id, change, header, expected, .refused error (rows.find id)⟩
  | checked {expected user}
      (parsed : resolveIfMatch header = .ok expected) (conditional : expected ≠ .unconditional)
      (row : rows.find id = some user) (met : isSatisfiedBy expected user.version = true) :
      Opened rows id change header ⟨id, change, header, expected, .checked⟩

/-- What an action can do: a write arrives; a write moves on and no row changes; or its statement
takes its row to the next state. -/
inductive Moved (s : Writes) : WriteAction → Writes → Prop where
  | begun {id change header call} (new : Opened s.rows id change header call) :
      Moved s (.begin id change header) { s with calls := s.calls ++ [call] }
  | merged {i call user} (found : s.calls[i]? = some call)
      (stage : call.stage = .checked) (row : s.rows.find call.id = some user) :
      Moved s (.read i) (s.setStage i call (.merged user))
  | failed {action i call error} (found : s.calls[i]? = some call)
      (stage : call.stage = .checked ∨ ∃ user, call.stage = .merged user) :
      Moved s action (s.setStage i call (.failed error))
  | explained {i call error}
      (found : s.calls[i]? = some call) (stage : call.stage = .failed error) :
      Moved s (.explain i) (s.setStage i call
        (.refused (explainWriteFailure (s.rows.find call.id) call.expected error)
          (s.rows.find call.id)))
  | written {i now call statement before rows} (found : s.calls[i]? = some call)
      (next : call.statement now = some statement) (row : s.rows.find call.id = some before)
      (met : statement.admits before = true) (after : ∀ id, rows.find id =
        if id = call.id then statement.assign before else s.rows.find id) :
      Moved s (.write i now)
        { rows
          calls := s.calls.set i { call with
            stage := .written before (statement.assign before)
              (call.answer ((statement.assign before).getD before)) }
          commits := s.commits ++ [⟨⟨before, statement.assign before⟩, i⟩] }

section Moves

variable {s s' : Writes} {call : WriteCall}

theorem explained_conflict {user : User} {expected : ExpectedVersion} {error : HttpException}
    (stale : isSatisfiedBy expected user.version = false) :
    explainWriteFailure (some user) expected error = .preconditionFailed
      ("Version conflict — the resource is at version " ++ toString user.version) := by
  simp [explainWriteFailure, stale]

theorem opened_opened (s : Writes) (id : String) (change : Change) (header : Option String) :
    Opened s.rows id change header (s.opened id change header) := by
  unfold Writes.opened
  split
  · rename_i malformed
    exact .malformed malformed
  · rename_i expected parsed
    split
    · rename_i error refused
      refine .refused parsed fun user row conditional => ?_
      rw [assertPrecondition_of_conditional row conditional] at refused
      split_ifs at refused with met
      exact ⟨Bool.eq_false_iff.mpr met, (Except.error.inj refused).symm⟩
    · rename_i user passed
      obtain ⟨row, conditional, met⟩ := assertPrecondition_eq_ok.mp passed
      exact .checked parsed conditional row met

theorem statement_eq_some {now : Nat} {statement : UserStatement}
    (next : call.statement now = some statement) :
    statement.target = call.id ∧ statement.expected = call.expected ∧
      (call.stage = .checked ∨ ∃ user, call.stage = .merged user) := by
  obtain ⟨id, change, header, expected, stage⟩ := call
  cases change <;> cases stage <;> cases next <;> simp [UserStatement.target,
    UserStatement.expected]

theorem isSatisfiedBy_of_admits {now : Nat} {statement : UserStatement} {user : User}
    (next : call.statement now = some statement) (met : statement.admits user = true) :
    fitsColumn call.expected = true ∧ isSatisfiedBy call.expected user.version = true := by
  rw [← (statement_eq_some next).2.1]
  exact finds_eq_true.mp (UserStatement.finds_of_admits met)

theorem write_moved {i now : Nat} (found : s.calls[i]? = some call)
    (taken : s.write i call now = some s') : Moved s (.write i now) s' := by
  unfold Writes.write at taken
  obtain ⟨statement, next, rfl⟩ := Option.map_eq_some_iff.mp taken
  obtain ⟨target, _, stage⟩ := statement_eq_some next
  cases touched : statement.touches s.rows with
  | none => exact .failed found stage
  | some =>
    obtain ⟨row, met⟩ := UserStatement.touches_eq_some.mp touched
    obtain ⟨rows, ran, after⟩ := UserStatement.executePlain_of_touches touched
    rw [target] at row after
    simp only [ran]
    exact .written found next row met after

theorem moved {action : WriteAction} (taken : s.act action = some s') : Moved s action s' := by
  cases action with
  | begin id change header =>
    cases taken
    exact .begun (opened_opened s id change header)
  | read =>
    obtain ⟨call, found, taken⟩ := Option.bind_eq_some_iff.mp taken
    unfold Writes.read at taken
    split at taken
    · rename_i changes change stage
      split at taken
      · rename_i user row
        cases taken
        exact .merged found stage row
      · cases taken
        exact .failed found (.inl stage)
    · cases taken
  | write =>
    obtain ⟨call, found, taken⟩ := Option.bind_eq_some_iff.mp taken
    exact write_moved found taken
  | breakDown =>
    obtain ⟨call, found, taken⟩ := Option.bind_eq_some_iff.mp taken
    obtain ⟨statement, next, rfl⟩ := Option.map_eq_some_iff.mp taken
    exact .failed found (statement_eq_some next).2.2
  | explain =>
    obtain ⟨call, found, taken⟩ := Option.bind_eq_some_iff.mp taken
    unfold Writes.explain at taken
    split at taken
    · rename_i error stage
      cases taken
      exact .explained found stage
    · cases taken

end Moves

end NestApi.UserWrites
