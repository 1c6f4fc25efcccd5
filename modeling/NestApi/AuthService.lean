import NestApi.AuthTokens

namespace NestApi.Auth

open Users

structure JwtPayload where
  sub : String
  email : String
  role : Role
  tid : String
  deriving DecidableEq

/-- What a sign-in or a refresh returns. The access token is its verified payload. -/
structure TokenPair where
  accessToken : JwtPayload
  refreshToken : String
  expiresIn : Nat
  deriving DecidableEq

structure GoogleProfile where
  googleId : String
  email : String
  name : Option String
  deriving DecidableEq

inductive AuthCall where
  | register (email password : String) (name : Option String)
  | login (email password : String)
  | loginWithGoogle (profile : GoogleProfile)
  | refresh (token : String)
  | logout (token : String)
  deriving DecidableEq

/-- A request with the clock and the identifiers drawn while it runs. -/
structure AuthRequest where
  scope : Option String
  now : Nat
  userId : String
  familyId : String
  token : String
  call : AuthCall
  deriving DecidableEq

/-- What the service is given: the password hash, Prisma's way with a missing relation and the
lifetime of a refresh token. -/
structure AuthConfig where
  hash : String → String
  verify : String → String → Bool
  missing : MissingRelation
  refreshExpiry : Nat

variable (config : AuthConfig) (request : AuthRequest)

/-- A read through the tenant-scoped client. -/
def findUserBy (matching : User → Bool) (world : AuthWorld) : Except HttpException (Option User) :=
  match request.scope with
  | none => .error .internal
  | some tenantId => .ok ((world.users.visible (some tenantId)).rows.find? matching)

def issueTokens (userId email : String) (role : Role) (familyId : Option String)
    (world : AuthWorld) : Except HttpException TokenPair × AuthWorld :=
  match request.scope with
  | none => (.error .internal, world)
  | some tid =>
    let row : RefreshToken := {
      token := request.token
      userId
      familyId := familyId.getD request.familyId
      expiresAt := request.now + config.refreshExpiry
      consumedAt := none }
    match world.issue row (if familyId.isSome then none else some tid) with
    | none => (.error .internal, world)
    | some world' => (.ok ⟨⟨userId, email, role, tid⟩, request.token, 900⟩, world')

/-- `CreateUserCommand` in a transaction of the request's tenant. The address is unique in the
whole deployment. -/
def createUser (data : CreateUserData) (world : AuthWorld) : Option (User × AuthWorld) :=
  let user := User.created data request.userId request.now
  if user.email ∈ world.users.rows.map fun owned => owned.row.email then none
  else (world.users.insert request.scope user).map fun users => (user, { world with users })

def signUp (data : CreateUserData) (world : AuthWorld) :
    Except HttpException TokenPair × AuthWorld :=
  match createUser request data world with
  | none => (.error .internal, world)
  | some (user, world') => issueTokens config request user.id user.email user.role none world'

def register (email password : String) (name : Option String) (world : AuthWorld) :
    Except HttpException TokenPair × AuthWorld :=
  match findUserBy request (fun user => user.email = email) world with
  | .error error => (.error error, world)
  | .ok (some _) => (.error (.conflict "Email already in use"), world)
  | .ok none => signUp config request { email, password := config.hash password, name } world

def login (email password : String) (world : AuthWorld) :
    Except HttpException TokenPair × AuthWorld :=
  match findUserBy request (fun user => user.email = email) world with
  | .error error => (.error error, world)
  | .ok none => (.error (.unauthorized "Invalid credentials"), world)
  | .ok (some user) =>
    match JsString.given user.password with
    | none => (.error (.unauthorized "Invalid credentials"), world)
    | some hash =>
      if config.verify hash password then
        issueTokens config request user.id user.email user.role none world
      else (.error (.unauthorized "Invalid credentials"), world)

/-- `UpdateUserCommand` with the Google identity. -/
def linkGoogle (user : User) (profile : GoogleProfile) (world : AuthWorld) :
    Except HttpException TokenPair × AuthWorld :=
  let statement : UserStatement := .update user.id
    { provider := "google", providerAccountId := profile.googleId } .unconditional request.now
  match statement.execute request.scope world.users with
  | none => (.error .internal, world)
  | some (linked, users) => issueTokens config request linked.id linked.email linked.role none
      { world with users }

def loginWithGoogle (profile : GoogleProfile) (world : AuthWorld) :
    Except HttpException TokenPair × AuthWorld :=
  match findUserBy request (fun user => user.provider = some "google" ∧
      user.providerAccountId = some profile.googleId) world with
  | .error error => (.error error, world)
  | .ok (some user) => issueTokens config request user.id user.email user.role none world
  | .ok none =>
    match findUserBy request (fun user => user.email = profile.email) world with
    | .error error => (.error error, world)
    | .ok (some user) => linkGoogle config request user profile world
    | .ok none => signUp config request {
        email := profile.email
        name := profile.name
        provider := some "google"
        providerAccountId := some profile.googleId } world

def refresh (token : String) (world : AuthWorld) : Except HttpException TokenPair × AuthWorld :=
  match world.consume config.missing token request.now with
  | (.error error, world') => (.error error, world')
  | (.ok .unknown, world') => (.error (.unauthorized "Invalid refresh token"), world')
  | (.ok .revoked, world') => (.error (.unauthorized "Invalid refresh token"), world')
  | (.ok (.reused _), world') => (.error (.unauthorized "Invalid refresh token"), world')
  | (.ok (.claimed claim), world') =>
    if claim.expiresAt < request.now then
      (.error (.unauthorized "Refresh token expired"), world')
    else issueTokens config request claim.userId claim.email claim.role (some claim.familyId) world'

def paired (answer : Except HttpException TokenPair × AuthWorld) :
    Except HttpException (Option TokenPair) × AuthWorld :=
  (answer.1.map some, answer.2)

def serve (world : AuthWorld) : Except HttpException (Option TokenPair) × AuthWorld :=
  match request.call with
  | .register email password name => paired (register config request email password name world)
  | .login email password => paired (login config request email password world)
  | .loginWithGoogle profile => paired (loginWithGoogle config request profile world)
  | .refresh token => paired (refresh config request token world)
  | .logout token => (.ok none, world.revoke token request.now)

/-- The access token names the tenant its user belongs to. -/
def NamesTenant (pair : TokenPair) (world : AuthWorld) : Prop :=
  ∃ user, ⟨pair.accessToken.tid, user⟩ ∈ world.users.rows ∧ user.id = pair.accessToken.sub

section Minted

variable {config request} {world world' : AuthWorld} {pair : TokenPair} {user : User}
  {email password : String}

theorem issue_users {row : RefreshToken} {startedIn : Option String}
    (issued : world.issue row startedIn = some world') : world'.users = world.users := by
  unfold AuthWorld.issue at issued
  split at issued
  · cases startedIn with
    | none =>
      simp only at issued
      split at issued
      · obtain ⟨tokens, -, rfl⟩ := Option.map_eq_some_iff.mp issued
        rfl
      · cases issued
    | some =>
      obtain ⟨families, -, inserted⟩ := Option.bind_eq_some_iff.mp issued
      obtain ⟨tokens, -, rfl⟩ := Option.map_eq_some_iff.mp inserted
      rfl
  · cases issued

theorem issueTokens_names {familyId : Option String} {email : String} {role : Role}
    (seen : user ∈ (world.users.visible request.scope).rows)
    (minted : issueTokens config request user.id email role familyId world = (.ok pair, world')) :
    NamesTenant pair world' := by
  unfold issueTokens at minted
  cases scope : request.scope with
  | none =>
    simp only [scope] at minted
    cases minted
  | some =>
    simp only [scope] at minted seen
    split at minted
    · cases minted
    · rename_i issued
      cases minted
      refine ⟨user, ?_, rfl⟩
      rw [issue_users issued]
      exact SecuredTable.mem_visible.mp seen

theorem findUserBy_mem {matching : User → Bool}
    (found : findUserBy request matching world = .ok (some user)) :
    user ∈ (world.users.visible request.scope).rows := by
  unfold findUserBy at found
  cases scope : request.scope with
  | none =>
    simp only [scope] at found
    cases found
  | some =>
    simp only [scope, Except.ok.injEq] at found
    exact List.mem_of_find?_eq_some found

theorem signUp_names {data : CreateUserData}
    (minted : signUp config request data world = (.ok pair, world')) : NamesTenant pair world' := by
  unfold signUp at minted
  split at minted
  · cases minted
  · rename_i user created made
    refine issueTokens_names ?_ minted
    simp only [createUser] at made
    split at made
    · cases made
    · obtain ⟨users, inserted, same⟩ := Option.map_eq_some_iff.mp made
      cases same
      cases scope : request.scope with
      | none =>
        rw [scope] at inserted
        cases inserted
      | some =>
        rw [scope] at inserted
        exact Table.mem_insert (SecuredTable.visible_insert inserted)

theorem register_names {name : Option String}
    (minted : register config request email password name world = (.ok pair, world')) :
    NamesTenant pair world' := by
  unfold register at minted
  split at minted
  · cases minted
  · cases minted
  · exact signUp_names minted

theorem login_names (minted : login config request email password world = (.ok pair, world')) :
    NamesTenant pair world' := by
  unfold login at minted
  split at minted
  · cases minted
  · cases minted
  · rename_i found
    split at minted
    · cases minted
    · split at minted
      · exact issueTokens_names (findUserBy_mem found) minted
      · cases minted

theorem loginWithGoogle_names {profile : GoogleProfile}
    (minted : loginWithGoogle config request profile world = (.ok pair, world')) :
    NamesTenant pair world' := by
  unfold loginWithGoogle at minted
  split at minted
  · cases minted
  · rename_i found
    exact issueTokens_names (findUserBy_mem found) minted
  · split at minted
    · cases minted
    · simp only [linkGoogle] at minted
      split at minted
      · cases minted
      · rename_i linked
        refine issueTokens_names ?_ minted
        exact UserStatement.execute_mem (fun _ => rfl) linked
    · exact signUp_names minted

theorem refresh_ne_ok (token : String) : (refresh config request token world).1 ≠ .ok pair := by
  have never := world.consume_ne_claimed config.missing token request.now
  unfold refresh
  split
  · simp
  · simp
  · simp
  · simp
  · rename_i claim _ consumed
    rw [consumed] at never
    exact absurd rfl (never claim)

end Minted

/-- The request presents the token of a live session in the tenant the session was started in. -/
def PresentsLive (world : AuthWorld) : Prop :=
  ∃ token startedIn, request.call = .refresh token ∧ world.Live token request.now startedIn ∧
    request.scope = some startedIn

/-- Tokens stay in their tenant and sessions survive in it, as far as this request goes. -/
structure Upheld (world : AuthWorld) : Prop where
  names : ∀ pair, (serve config request world).1 = .ok (some pair) →
    NamesTenant pair (serve config request world).2
  survives : PresentsLive request world → ∃ pair, (serve config request world).1 = .ok (some pair)
  stays : ∀ token startedIn, request.call = .refresh token →
    world.Live token request.now startedIn → request.scope ≠ some startedIn →
    ∀ pair, (serve config request world).1 ≠ .ok (some pair)

variable {config request} {pair : TokenPair} {world : AuthWorld}

theorem paired_eq_ok {answer : Except HttpException TokenPair × AuthWorld} :
    (paired answer).1 = .ok (some pair) ↔ answer = (.ok pair, answer.2) := by
  obtain ⟨result, world⟩ := answer
  cases result <;> simp [paired, Except.map]

theorem serve_refresh_ne_ok {token : String} (call : request.call = .refresh token)
    (world : AuthWorld) (pair : TokenPair) : (serve config request world).1 ≠ .ok (some pair) := by
  intro answered
  simp only [serve, call, paired_eq_ok] at answered
  exact refresh_ne_ok token (congrArg Prod.fst answered)

theorem serve_names (answered : (serve config request world).1 = .ok (some pair)) :
    NamesTenant pair (serve config request world).2 := by
  cases call : request.call with
  | register =>
    simp only [serve, call, paired_eq_ok] at answered ⊢
    exact register_names answered
  | login =>
    simp only [serve, call, paired_eq_ok] at answered ⊢
    exact login_names answered
  | loginWithGoogle =>
    simp only [serve, call, paired_eq_ok] at answered ⊢
    exact loginWithGoogle_names answered
  | refresh => exact absurd answered (serve_refresh_ne_ok call world pair)
  | logout =>
    simp only [serve, call] at answered
    cases answered

theorem upheld_iff : Upheld config request world ↔ ¬ PresentsLive request world := by
  constructor
  · rintro upheld ⟨token, startedIn, call, live⟩
    obtain ⟨pair, answered⟩ := upheld.survives ⟨token, startedIn, call, live⟩
    exact serve_refresh_ne_ok call world pair answered
  · intro none
    refine ⟨fun _ answered => serve_names answered, fun presents => absurd presents none, ?_⟩
    intro token startedIn call _ _ pair
    exact serve_refresh_ne_ok call world pair

def after (config : AuthConfig) (world : AuthWorld) (requests : List AuthRequest) : AuthWorld :=
  requests.foldl (fun world request => (serve config request world).2) world

/-- Tokens stay in their tenant and sessions survive in it exactly when no live refresh token is
presented where it should be honoured. -/
theorem sessions_survive_iff (config : AuthConfig) (world : AuthWorld)
    (requests : List AuthRequest) : (∀ before request rest, requests = before ++ request :: rest →
      Upheld config request (after config world before)) ↔
    ∀ before request rest, requests = before ++ request :: rest →
      ¬ PresentsLive request (after config world before) := by
  simp only [upheld_iff]

def oneMember : AuthWorld where
  users := ⟨[⟨"acme", { member "ada" with password := some "secret" }⟩], by simp⟩
  tokens := .empty
  families := .empty

def inAcme (now : Nat) (call : AuthCall) : AuthRequest where
  scope := some "acme"
  now
  userId := "user" ++ toString now
  familyId := "family" ++ toString now
  token := "token" ++ toString now
  call

def plainPasswords (missing : MissingRelation) : AuthConfig where
  hash := id
  verify hash password := hash = password
  missing
  refreshExpiry := 604800000

/-- The sign-in returns a pair; presenting its refresh token a moment later is answered 500. -/
def RefusedAtHome (missing : MissingRelation) : Prop :=
  let config := plainPasswords missing
  let signIn := inAcme 0 (.login "ada@example.com" "secret")
  let again := inAcme 1 (.refresh "token0")
  let signedIn := (serve config signIn oneMember).2
  (serve config signIn oneMember).1 =
      .ok (some ⟨⟨"ada", "ada@example.com", .user, "acme"⟩, "token0", 900⟩) ∧
    PresentsLive again signedIn ∧ (serve config again signedIn).1 = .error .internal ∧
    ¬ Upheld config again signedIn

theorem refusedAtHome (missing : MissingRelation) : RefusedAtHome missing := by
  unfold RefusedAtHome
  intro config signIn again signedIn
  have presents : PresentsLive again signedIn := by
    refine ⟨"token0", "acme", rfl, ⟨⟨"token0", "ada", "family0", 604800000, none⟩,
      ⟨"family0", "ada", none, none, "acme"⟩, ?_, rfl, by decide, ?_, rfl, rfl⟩, rfl⟩
    · cases missing <;> decide +kernel
    · cases missing <;> decide +kernel
  refine ⟨?_, presents, ?_, fun upheld => upheld_iff.mp upheld presents⟩
  · cases missing <;> decide +kernel
  · cases missing <;> decide +kernel

theorem refresh_refused_at_home : RefusedAtHome .refused ∧ RefusedAtHome .null :=
  ⟨refusedAtHome .refused, refusedAtHome .null⟩

end NestApi.Auth
