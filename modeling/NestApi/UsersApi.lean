import NestApi.Transition
import NestApi.KeyedCache
import NestApi.UsersStore

namespace NestApi.Users

def usersListCacheKey : String := "v1:users:list"

def userCacheKey (id : String) : String := "v1:users:" ++ id

def userPreferencesCacheKey (id : String) : String := userCacheKey id ++ ":prefs"

theorem userCacheKey_injective : Function.Injective userCacheKey := by
  intro first second same
  have chars := congrArg String.toList same
  simp only [userCacheKey, String.toList_append, List.append_cancel_left_eq] at chars
  exact String.toList_injective chars

theorem userCacheKey_eq_list {id : String} : userCacheKey id = usersListCacheKey ↔ id = "list" :=
  userCacheKey_injective.eq_iff (b := "list")

def evictUser (id : String) : List String := [userCacheKey id, usersListCacheKey]

def evictList : List String := [usersListCacheKey]

def evictPreferences (id : String) : List String := [userPreferencesCacheKey id]

/-- What `UsersReadModelProjector` hears of. -/
inductive ReadModelEvent where
  | registered
  | deleted (userId : String)
  deriving DecidableEq

def ReadModelEvent.evicts : ReadModelEvent → List String
  | .registered => evictList
  | .deleted userId => evictUser userId

/-- `HttpCacheInterceptor`: a request with a query is not cached. -/
def httpCacheTrackBy (declaredKey : String) (query : Option UserListQuery) : Option String :=
  match query with
  | none => some declaredKey
  | some _ => none

/-- `UserResourceCacheInterceptor`. -/
def userResourceTrackBy (id : String) : Option String :=
  if id = "" then none else some (userCacheKey id)

structure AuthenticatedUser where
  id : String
  email : String
  role : Role
  tenantId : String
  deriving DecidableEq

structure UserResponse where
  id : String
  email : String
  name : Option String
  role : Role
  provider : Option String
  avatarUrl : Option String
  createdAt : Nat
  updatedAt : Nat
  version : Nat
  deriving DecidableEq

def toUserResponse (user : User) : UserResponse where
  id := user.id
  email := user.email
  name := user.name
  role := user.role
  provider := user.provider
  avatarUrl := user.avatarUrl
  createdAt := user.createdAt
  updatedAt := user.updatedAt
  version := user.version

structure Versioned (α : Type) where
  version : Nat
  body : α
  deriving DecidableEq

inductive Body where
  | page (shown : CursorPage UserResponse)
  | user (resource : Versioned UserResponse)
  | preferences (resource : Versioned UserPreferences)
  | empty
  deriving DecidableEq

def Body.users : Body → List UserResponse
  | .page shown => shown.items
  | .user resource => [resource.body]
  | .preferences _ => []
  | .empty => []

def versionedUser (user : User) : Body := .user ⟨user.version, toUserResponse user⟩

/-- The routes of `UsersController`. The query of the list is `none` when the request has none; its
cursor is a decoded id. -/
inductive Call where
  | listUsers (query : Option UserListQuery)
  | findOne (id : String)
  | update (id : String) (name : Option String) (expected : ExpectedVersion)
  | uploadAvatar (id : String) (originalname : Option String) (expected : ExpectedVersion)
  | remove (id : String) (expected : ExpectedVersion)
  | getPreferences (id : String)
  | updatePreferences (id : String) (dto : PreferencesPatch) (expected : ExpectedVersion)
  deriving DecidableEq

structure Request where
  scope : Option String
  requester : AuthenticatedUser
  now : Nat
  call : Call
  deriving DecidableEq

/-- A stored body, with the request whose handler produced it. -/
structure Entry where
  body : Body
  producer : Request
  deriving DecidableEq

structure World (α : Type) where
  users : α
  cache : Cache String Entry

def tenantGuard (request : Request) : Except HttpException Unit :=
  if some request.requester.tenantId = request.scope then .ok ()
  else .error (.forbidden ("This access token was issued for tenant \"" ++
    request.requester.tenantId ++ "\" and the request names " ++
    (match request.scope with
      | none => "no tenant"
      | some tenantId => "\"" ++ tenantId ++ "\"") ++
    ". Authenticate against the tenant you are addressing."))

def requiredRoles : Call → List Role
  | .listUsers _ => [.admin]
  | .remove .. => [.admin]
  | _ => []

def rolesGuard (request : Request) : Except HttpException Unit :=
  if requiredRoles request.call = [] ∨ request.requester.role ∈ requiredRoles request.call then
    .ok ()
  else .error (.forbidden ("Role '" ++ request.requester.role.name ++
    "' is not permitted for this resource"))

/-- The guards, which run before the interceptors. -/
def authorize (request : Request) : Except HttpException Unit :=
  match tenantGuard request with
  | .error error => .error error
  | .ok () => rolesGuard request

def trackBy : Call → Option String
  | .listUsers query => httpCacheTrackBy usersListCacheKey query
  | .findOne id => userResourceTrackBy id
  | _ => none

def hit (request : Request) (cache : Cache String Entry) : Option Entry :=
  match authorize request with
  | .error _ => none
  | .ok () => (trackBy request.call).bind cache

theorem hit_eq_some {request : Request} {cache : Cache String Entry} {entry : Entry} :
    hit request cache = some entry ↔
      authorize request = .ok () ∧
        ∃ key, trackBy request.call = some key ∧ cache key = some entry := by
  unfold hit
  split
  · rename_i refused
    simp [refused]
  · rename_i admitted
    simp [admitted, Option.bind_eq_some_iff]

inductive UserOwnedAction where
  | updateProfile
  | updateAvatar
  | readPreferences
  | updatePreferences

def denialMessage : UserOwnedAction → String
  | .updateProfile => "Cannot modify another user's profile"
  | .updateAvatar => "Cannot modify another user's avatar"
  | .readPreferences => "Cannot read another user's preferences"
  | .updatePreferences => "Cannot modify another user's preferences"

def canAct (requester : AuthenticatedUser) (targetUserId : String) : Bool :=
  requester.id = targetUserId || requester.role = .admin

def assertCanAct (requester : AuthenticatedUser) (targetUserId : String)
    (action : UserOwnedAction) : Except HttpException Unit :=
  if canAct requester targetUserId then .ok () else .error (.forbidden (denialMessage action))

def requireUser (rows : Table User.id) (id : String) : Except HttpException User :=
  match rows.find id with
  | some user => .ok user
  | none => .error (.notFound ("User " ++ id ++ " not found"))

def assertPrecondition (rows : Table User.id) (id : String) (expected : ExpectedVersion) :
    Except HttpException User := do
  let user ← requireUser rows id
  requireConditional expected
  if isSatisfiedBy expected user.version then return user
  else throw (.preconditionFailed (describeMismatch expected user.version))

variable {expected : ExpectedVersion}

theorem assertPrecondition_of_conditional {rows : Table User.id} {id : String} {user : User}
    (row : rows.find id = some user) (conditional : expected ≠ .unconditional) :
    assertPrecondition rows id expected =
      if isSatisfiedBy expected user.version then .ok user
      else .error (.preconditionFailed (describeMismatch expected user.version)) := by
  have required : requireConditional expected = .ok () := by
    cases expected with
    | unconditional => exact absurd rfl conditional
    | any => rfl
    | list => rfl
  simp only [assertPrecondition, requireUser, row, required]
  rfl

theorem assertPrecondition_eq_ok {rows : Table User.id} {id : String} {user : User} :
    assertPrecondition rows id expected = .ok user ↔
      rows.find id = some user ∧ expected ≠ .unconditional ∧
        isSatisfiedBy expected user.version = true := by
  cases row : rows.find id with
  | none =>
    constructor
    · intro wrong
      simp only [assertPrecondition, requireUser, row] at wrong
      cases wrong
    · rintro ⟨absent, _⟩
      cases absent
  | some =>
    by_cases conditional : expected = .unconditional
    · constructor
      · intro wrong
        simp only [assertPrecondition, requireUser, row, conditional, requireConditional] at wrong
        cases wrong
      · exact fun found => absurd conditional found.2.1
    · rw [assertPrecondition_of_conditional row conditional]
      split_ifs with met
      · constructor
        · intro same
          cases same
          exact ⟨rfl, conditional, met⟩
        · rintro ⟨same, _, _⟩
          cases same
          rfl
      · constructor
        · intro wrong
          cases wrong
        · rintro ⟨same, _, met'⟩
          cases same
          exact absurd met' met

/-- What a write does to the user it names. -/
inductive Change where
  | update (data : UpdateUserData)
  | patch (changes : PreferencesPatch)
  | delete
  deriving DecidableEq

def Change.patch? : Change → Option PreferencesPatch
  | .patch changes => some changes
  | _ => none

/-- What a handler comes to: an answer, or one statement and what it makes of the row. -/
inductive Plan where
  | answer (body : Body)
  | write (statement : UserStatement) (body : User → Body)

def avatarKey (id originalname : String) (now : Nat) : String :=
  "avatars/" ++ id ++ "/" ++ toString now ++ "." ++
    JsString.toLowerCase ((originalname.splitOn ".").getLastD "bin")

def plan (list : ListStatement) (request : Request) (rows : Table User.id) :
    Except HttpException Plan :=
  match request.call with
  | .listUsers query =>
    let criteria := query.getD {}
    .ok (.answer (.page ((buildCursorPage User.id (list.select criteria rows.rows)
      criteria.limit).map toUserResponse)))
  | .findOne id => do
      let user ← requireUser rows id
      return .answer (versionedUser user)
  | .update id name expected => do
      assertCanAct request.requester id .updateProfile
      let _ ← assertPrecondition rows id expected
      return .write (.update id { name } expected request.now) versionedUser
  | .uploadAvatar id originalname expected =>
    match originalname with
    | none => .error (.badRequest "No file uploaded")
    | some originalname => do
        assertCanAct request.requester id .updateAvatar
        let _ ← assertPrecondition rows id expected
        return .write (.update id { avatarUrl := avatarKey id originalname request.now } expected
          request.now) versionedUser
  | .remove id expected => do
      let _ ← assertPrecondition rows id expected
      return .write (.delete id expected) fun _ => .empty
  | .getPreferences id => do
      assertCanAct request.requester id .readPreferences
      let user ← requireUser rows id
      return .answer (.preferences ⟨user.version, user.storedPreferences⟩)
  | .updatePreferences id dto expected => do
      assertCanAct request.requester id .updatePreferences
      let user ← assertPrecondition rows id expected
      let updated := mergePreferences user.storedPreferences dto
      return .write (.setPreferences id updated expected request.now) fun written =>
        .preferences ⟨written.version, updated⟩

def Change.statement (id : String) (expected : ExpectedVersion) (now : Nat) (read : User) :
    Change → UserStatement
  | .update data => .update id data expected now
  | .patch changes =>
    .setPreferences id (mergePreferences read.storedPreferences changes) expected now
  | .delete => .delete id expected

def Request.write (request : Request) : Option (String × Change × ExpectedVersion) :=
  match request.call with
  | .update id name expected => some (id, .update { name }, expected)
  | .uploadAvatar id (some originalname) expected =>
    some (id, .update { avatarUrl := avatarKey id originalname request.now }, expected)
  | .remove id expected => some (id, .delete, expected)
  | .updatePreferences id dto expected => some (id, .patch dto, expected)
  | _ => none

/-- A handler writes once the precondition is met, and only what its request asks for. -/
theorem plan_eq_write {list : ListStatement} {request : Request} {rows : Table User.id}
    {statement : UserStatement} {body : User → Body}
    (planned : plan list request rows = .ok (.write statement body)) :
    ∃ id change expected user, request.write = some (id, change, expected) ∧
      assertPrecondition rows id expected = .ok user ∧
      statement = change.statement id expected request.now user := by
  unfold plan at planned
  cases call : request.call with
  | listUsers =>
    rw [call] at planned
    cases planned
  | findOne =>
    rw [call] at planned
    obtain ⟨_, _, planned⟩ := bind_eq_ok.mp planned
    cases planned
  | getPreferences =>
    rw [call] at planned
    obtain ⟨_, _, planned⟩ := bind_eq_ok.mp planned
    obtain ⟨_, _, planned⟩ := bind_eq_ok.mp planned
    cases planned
  | uploadAvatar id originalname =>
    rw [call] at planned
    cases originalname with
    | none => cases planned
    | some =>
      obtain ⟨_, _, planned⟩ := bind_eq_ok.mp planned
      obtain ⟨user, met, planned⟩ := bind_eq_ok.mp planned
      cases planned
      exact ⟨id, _, _, user, by rw [Request.write, call], met, rfl⟩
  | remove id =>
    rw [call] at planned
    obtain ⟨user, met, planned⟩ := bind_eq_ok.mp planned
    cases planned
    exact ⟨id, _, _, user, by rw [Request.write, call], met, rfl⟩
  | update id | updatePreferences id =>
    rw [call] at planned
    obtain ⟨_, _, planned⟩ := bind_eq_ok.mp planned
    obtain ⟨user, met, planned⟩ := bind_eq_ok.mp planned
    cases planned
    exact ⟨id, _, _, user, by rw [Request.write, call], met, rfl⟩

/-- A store of users: the rows a request can see in it, and its conditional write. -/
structure Store (α : Type) where
  rows : α → Table User.id
  execute : UserStatement → α → Option (User × α)

/-- The shared table, in the transactions of one tenant. -/
def securedStore (tenant : Option String) : Store UsersTable where
  rows := SecuredTable.visible tenant
  execute := UserStatement.execute tenant

/-- A table of one tenant's own. -/
def ownStore : Store (Table User.id) where
  rows := id
  execute := UserStatement.executePlain

variable {α : Type}

/-- What a failed write is reported as, given the row as it is read back: a conflict when it is
there at another version. -/
def explainWriteFailure (current : Option User) (expected : ExpectedVersion)
    (error : HttpException) : HttpException :=
  match current with
  | some user =>
    if isSatisfiedBy expected user.version then error
    else .preconditionFailed ("Version conflict — the resource is at version " ++
      toString user.version)
  | none => error

def perform (store : Store α) (list : ListStatement) (request : Request) (users : α) :
    Except HttpException (Body × α) :=
  match plan list request (store.rows users) with
  | .error error => .error error
  | .ok (.answer body) => .ok (body, users)
  | .ok (.write statement body) =>
    match store.execute statement users with
    | none => .error (explainWriteFailure ((store.rows users).find statement.target)
        statement.expected .internal)
    | some (user, users') => .ok (body user, users')

def evictions : Call → List String
  | .update id .. => evictUser id
  | .uploadAvatar id .. => evictUser id
  | .remove id _ => evictUser id
  | .updatePreferences id .. => evictPreferences id ++ evictUser id
  | _ => []

/-- The interceptor stores what the handler returned, when the route has a key. -/
def keep (request : Request) (body : Body) (cache : Cache String Entry) : Cache String Entry :=
  match trackBy request.call with
  | none => cache
  | some key => cache.store key ⟨body, request⟩

def respond (store : Store α) (list : ListStatement) (request : Request) (world : World α) :
    Except HttpException Body × World α :=
  match authorize request with
  | .error error => (.error error, world)
  | .ok () =>
    match hit request world.cache with
    | some entry => (.ok entry.body, world)
    | none =>
      match perform store list request world.users with
      | .error error => (.error error, world)
      | .ok (body, users) => (.ok body,
          { users, cache := keep request body (world.cache.drop (evictions request.call)) })

inductive Responds (store : Store α) (list : ListStatement) (request : Request) (world : World α) :
    Except HttpException Body × World α → Prop
  | refused {error} (refused : authorize request = .error error) :
      Responds store list request world (.error error, world)
  | cached {entry} (found : hit request world.cache = some entry) :
      Responds store list request world (.ok entry.body, world)
  | failed {error} (missed : hit request world.cache = none)
      (performed : perform store list request world.users = .error error) :
      Responds store list request world (.error error, world)
  | performed {body users} (missed : hit request world.cache = none)
      (performed : perform store list request world.users = .ok (body, users)) :
      Responds store list request world (.ok body,
        { users, cache := keep request body (world.cache.drop (evictions request.call)) })

theorem responds_respond (store : Store α) (list : ListStatement) (request : Request)
    (world : World α) : Responds store list request world (respond store list request world) := by
  unfold respond
  split
  · rename_i refused
    exact .refused refused
  · split
    · rename_i found
      exact .cached found
    · rename_i missed
      split
      · rename_i performed
        exact .failed missed performed
      · rename_i performed
        exact .performed missed performed

/-- What happens to the deployment. A request is listed with whether it was answered from the cache,
and its answer. -/
inductive Event where
  | served (request : Request) (fromCache : Bool) (answer : Except HttpException Body)
  | registered (tenantId : String) (user : User)
  | projected (event : ReadModelEvent)
  | expired (key : String)

def respondIn (list : ListStatement) (request : Request) (world : World UsersTable) :
    Except HttpException Body × World UsersTable :=
  respond (securedStore request.scope) list request world

def step (list : ListStatement) (world : World UsersTable) : Event → Option (World UsersTable)
  | .served request fromCache answer =>
    if (hit request world.cache).isSome = fromCache ∧ (respondIn list request world).1 = answer
    then some (respondIn list request world).2
    else none
  | .registered tenantId user =>
    if user.email ∈ world.users.rows.map fun owned => owned.row.email then none
    else (world.users.insert (some tenantId) user).map fun users => { world with users }
  | .projected event => some { world with cache := world.cache.drop event.evicts }
  | .expired key => some { world with cache := world.cache.drop [key] }

theorem step_served_eq_some {list : ListStatement} {world after : World UsersTable}
    {request : Request} {fromCache : Bool} {answer : Except HttpException Body} :
    step list world (.served request fromCache answer) = some after ↔
      (hit request world.cache).isSome = fromCache ∧
        respondIn list request world = (answer, after) := by
  simp only [step, Option.ite_none_right_eq_some, Option.some.injEq, Prod.ext_iff, and_assoc]

theorem step_served (list : ListStatement) (world : World UsersTable) (request : Request) :
    step list world (.served request (hit request world.cache).isSome
      (respondIn list request world).1) = some (respondIn list request world).2 :=
  if_pos ⟨rfl, rfl⟩

end NestApi.Users
