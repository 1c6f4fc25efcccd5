import NestApi.EntityTag
import NestApi.JsString
import NestApi.Pagination
import NestApi.RowSecurity

namespace NestApi.Users

inductive Role where
  | user
  | admin
  deriving DecidableEq

def Role.name : Role → String
  | .user => "USER"
  | .admin => "ADMIN"

inductive Theme where
  | light
  | dark
  | system
  deriving DecidableEq

structure UserPreferences where
  theme : Theme
  language : String
  emailNotifications : Bool
  smsNotifications : Bool
  pushNotifications : Bool
  timezone : String
  deriving DecidableEq

/-- Some of the preferences: a patch, and what the column may hold. -/
structure PreferencesPatch where
  theme : Option Theme := none
  language : Option String := none
  emailNotifications : Option Bool := none
  smsNotifications : Option Bool := none
  pushNotifications : Option Bool := none
  timezone : Option String := none
  deriving DecidableEq

def UserPreferences.stored (preferences : UserPreferences) : PreferencesPatch where
  theme := preferences.theme
  language := preferences.language
  emailNotifications := preferences.emailNotifications
  smsNotifications := preferences.smsNotifications
  pushNotifications := preferences.pushNotifications
  timezone := preferences.timezone

def defaultUserPreferences : UserPreferences where
  theme := .system
  language := "en"
  emailNotifications := true
  smsNotifications := false
  pushNotifications := false
  timezone := "UTC"

/-- Only the keys a patch defines are taken from it. -/
def mergePreferences (current : UserPreferences) (changes : PreferencesPatch) :
    UserPreferences where
  theme := changes.theme.getD current.theme
  language := changes.language.getD current.language
  emailNotifications := changes.emailNotifications.getD current.emailNotifications
  smsNotifications := changes.smsNotifications.getD current.smsNotifications
  pushNotifications := changes.pushNotifications.getD current.pushNotifications
  timezone := changes.timezone.getD current.timezone

/-- A row of `users` without its tenant column. Times are milliseconds. -/
structure User where
  id : String
  email : String
  password : Option String
  name : Option String
  role : Role
  provider : Option String
  providerAccountId : Option String
  avatarUrl : Option String
  preferences : Option PreferencesPatch
  createdAt : Nat
  updatedAt : Nat
  version : Nat
  deriving DecidableEq

structure CreateUserData where
  email : String
  password : Option String := none
  name : Option String := none
  provider : Option String := none
  providerAccountId : Option String := none
  deriving DecidableEq

/-- The row an insert makes, with the defaults of its columns. -/
def User.created (data : CreateUserData) (id : String) (now : Nat) : User where
  id
  email := data.email
  password := data.password
  name := data.name
  role := .user
  provider := data.provider
  providerAccountId := data.providerAccountId
  avatarUrl := none
  preferences := none
  createdAt := now
  updatedAt := now
  version := 0

def member (id : String) : User := .created { email := id ++ "@example.com" } id 0

abbrev UsersTable := SecuredTable User.id

/-- The preferences a row holds, defaults filled in. -/
def User.storedPreferences (user : User) : UserPreferences :=
  mergePreferences defaultUserPreferences (user.preferences.getD {})

structure UpdateUserData where
  name : Option String := none
  provider : Option String := none
  providerAccountId : Option String := none
  avatarUrl : Option String := none
  deriving DecidableEq

structure UserListQuery where
  cursor : Option String := none
  limit : Nat := 20
  search : Option String := none
  deriving DecidableEq

/-- What the database answers to the list query from the rows it may show; it invents none. -/
structure ListStatement where
  select : UserListQuery → List User → List User
  subset : ∀ query rows, select query rows ⊆ rows

/-- `contains` in the insensitive mode. -/
def containsInsensitive (text part : String) : Bool :=
  decide ((JsString.toLowerCase part).toList <:+: (JsString.toLowerCase text).toList)

def searched (search : Option String) (rows : List User) : List User :=
  match JsString.given search with
  | none => rows
  | some part => rows.filter fun user =>
    user.name.any (containsInsensitive · part) || containsInsensitive user.email part

theorem searched_subset (search : Option String) (rows : List User) :
    searched search rows ⊆ rows := by
  unfold searched
  split
  · exact List.Subset.refl _
  · exact List.filter_sublist.subset

/-- `ORDER BY "createdAt" ASC`, rows of one time in the order they were inserted. -/
def ListStatement.byCreation : ListStatement where
  select query rows :=
    (rowsAfter User.id query.cursor ((searched query.search rows).insertionSort
      fun first second => first.createdAt ≤ second.createdAt)).take (query.limit + 1)
  subset query rows := by
    intro user member
    have ordered := rowsAfter_subset _ _ _ ((List.take_sublist _ _).subset member)
    exact searched_subset _ _ ((List.perm_insertionSort _ _).mem_iff.mp ordered)

/-- One conditional write to `users`. -/
inductive UserStatement where
  | update (id : String) (data : UpdateUserData) (expected : ExpectedVersion) (now : Nat)
  | setPreferences (id : String) (preferences : UserPreferences) (expected : ExpectedVersion)
      (now : Nat)
  | delete (id : String) (expected : ExpectedVersion)

namespace UserStatement

def target : UserStatement → String
  | .update id .. => id
  | .setPreferences id .. => id
  | .delete id _ => id

def expected : UserStatement → ExpectedVersion
  | .update _ _ expected _ => expected
  | .setPreferences _ _ expected _ => expected
  | .delete _ expected => expected

/-- What the statement makes of the row it matches; `none` when it removes it. -/
def assign : UserStatement → User → Option User
  | .update _ data _ now, user => some { user with
      name := data.name.or user.name
      provider := data.provider.or user.provider
      providerAccountId := data.providerAccountId.or user.providerAccountId
      avatarUrl := data.avatarUrl.or user.avatarUrl
      updatedAt := now
      version := user.version + 1 }
  | .setPreferences _ preferences _ now, user => some { user with
      preferences := some preferences.stored
      updatedAt := now
      version := user.version + 1 }
  | .delete .., _ => none

variable {statement : UserStatement} {user : User} {user' : User} {rows : Table User.id}
  {users users' : UsersTable}

theorem assign_id (assigned : statement.assign user = some user') : user'.id = user.id := by
  cases statement <;> cases assigned <;> rfl

theorem assign_version (assigned : statement.assign user = some user') :
    user'.version = user.version + 1 := by
  cases statement <;> cases assigned <;> rfl

theorem assign_getD_id (statement : UserStatement) (user : User) :
    ((statement.assign user).getD user).id = user.id := by
  cases assigned : statement.assign user with
  | none => rfl
  | some => exact assign_id assigned

/-- The `WHERE` of the statement. -/
def matching (statement : UserStatement) (user : User) : Bool :=
  user.id = statement.target && finds statement.expected user.version

/-- The statement finds the row, and what it makes of it fits the columns. -/
def admits (statement : UserStatement) (user : User) : Bool :=
  finds statement.expected user.version &&
    (statement.assign user).all fun written => written.version ≤ maxVersion

/-- The row the statement goes through at. It fails when there is none. -/
def touches (statement : UserStatement) (rows : Table User.id) : Option User :=
  (rows.find statement.target).filter statement.admits

/-- Runs the statement; the answer is the row it touched, as written or as it was removed. -/
def execute (tenant : Option String) (statement : UserStatement) (users : UsersTable) :
    Option (User × UsersTable) :=
  (statement.touches (users.visible tenant)).map fun user =>
    match statement.assign user with
    | some user' => (user', users.update tenant statement.matching
        (fun user => (statement.assign user).getD user) statement.assign_getD_id)
    | none => (user, users.delete tenant statement.matching)

/-- The same statement where there is one tenant only. -/
def executePlain (statement : UserStatement) (rows : Table User.id) :
    Option (User × Table User.id) :=
  (statement.touches rows).map fun user =>
    match statement.assign user with
    | some user' => (user', rows.update statement.matching
        (fun user => (statement.assign user).getD user) statement.assign_getD_id)
    | none => (user, rows.delete statement.matching)

theorem touches_eq_some :
    statement.touches rows = some user ↔
      rows.find statement.target = some user ∧ statement.admits user = true := by
  simp [touches]

theorem finds_of_admits (admits : statement.admits user = true) :
    finds statement.expected user.version = true :=
  (Bool.and_eq_true_iff.mp admits).1

theorem executePlain_of_touches {before : User} (touched : statement.touches rows = some before) :
    ∃ rows', statement.executePlain rows = some ((statement.assign before).getD before, rows') ∧
      ∀ id, rows'.find id =
        if id = statement.target then statement.assign before else rows.find id := by
  obtain ⟨found, met⟩ := touches_eq_some.mp touched
  have matched : statement.matching before = true := by
    simp [matching, Table.find_key found, finds_of_admits met]
  have unmatched : ∀ {id row}, rows.find id = some row →
      id ≠ statement.target → statement.matching row = false := by
    intro id row here apart
    simp [matching, Table.find_key here, apart]
  cases assigned : statement.assign before with
  | some =>
    refine ⟨_, by rw [executePlain, touched, Option.map_some, assigned, Option.getD_some], ?_⟩
    intro id
    rw [Table.find_update]
    by_cases here : id = statement.target
    · rw [if_pos here, here, found, Option.map_some, if_pos matched, assigned, Option.getD_some]
    · rw [if_neg here]
      cases other : rows.find id with
      | none => rfl
      | some => rw [Option.map_some, unmatched other here, if_neg Bool.false_ne_true]
  | none =>
    refine ⟨_, by rw [executePlain, touched, Option.map_some, assigned, Option.getD_none], ?_⟩
    intro id
    rw [Table.find_delete]
    by_cases here : id = statement.target
    · rw [if_pos here, here, found, Option.filter_some, matched]
      rfl
    · rw [if_neg here]
      cases other : rows.find id with
      | none => rfl
      | some =>
        rw [Option.filter_some, unmatched other here]
        rfl

/-- Within its tenant a statement is the plain one. -/
theorem execute_visible (tenant : Option String) (statement : UserStatement) (users : UsersTable) :
    (statement.execute tenant users).map (Prod.map id (SecuredTable.visible tenant)) =
      statement.executePlain (users.visible tenant) := by
  simp only [execute, executePlain, Option.map_map]
  congr 1
  funext user
  simp only [Function.comp_apply]
  cases statement.assign user with
  | none => simp [SecuredTable.visible_delete]
  | some => simp [SecuredTable.visible_update]

theorem execute_mem {tenant : Option String} (writes : ∀ row, (statement.assign row).isSome)
    (ran : statement.execute tenant users = some (user, users')) :
    user ∈ (users'.visible tenant).rows := by
  simp only [execute, touches, Option.map_eq_some_iff, Option.filter_eq_some_iff] at ran
  obtain ⟨touched, ⟨found, met⟩, result⟩ := ran
  obtain ⟨written, assigned⟩ := Option.isSome_iff_exists.mp (writes touched)
  simp only [assigned, Prod.mk.injEq] at result
  obtain ⟨rfl, rfl⟩ := result
  rw [SecuredTable.visible_update]
  apply Table.mem_of_find (k := statement.target)
  rw [Table.find_update, found, Option.map_some]
  simp [matching, Table.find_key found, finds_of_admits met, assigned]

theorem execute_other {tenant other : Option String} (apart : tenant ≠ other)
    (ran : statement.execute tenant users = some (user, users')) :
    users'.visible other = users.visible other := by
  simp only [execute, Option.map_eq_some_iff] at ran
  obtain ⟨touched, -, result⟩ := ran
  cases assigned : statement.assign touched with
  | none =>
    simp only [assigned, Prod.mk.injEq] at result
    rw [← result.2, SecuredTable.visible_delete_of_ne apart]
  | some =>
    simp only [assigned, Prod.mk.injEq] at result
    rw [← result.2, SecuredTable.visible_update_of_ne apart]

end UserStatement

end NestApi.Users
