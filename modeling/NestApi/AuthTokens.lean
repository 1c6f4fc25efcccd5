import NestApi.Common
import NestApi.UsersStore

namespace NestApi.Auth

open Users

structure RefreshToken where
  token : String
  userId : String
  familyId : String
  expiresAt : Date
  consumedAt : Option Date
  deriving DecidableEq

inductive RefreshTokenRevocation where
  | reuseDetected
  | logout
  deriving DecidableEq

/-- A row of `refresh_token_families`; `startedIn`, the tenant of its sign-in, is no column. -/
structure RefreshTokenFamily where
  id : String
  userId : String
  revokedAt : Option Date
  revokedReason : Option RefreshTokenRevocation
  startedIn : String
  deriving DecidableEq

/-- The tables of `users` and of the refresh tokens. Only `users` has a policy. -/
structure AuthWorld where
  users : UsersTable
  tokens : Table RefreshToken.token
  families : Table RefreshTokenFamily.id

structure Owner where
  userId : String
  email : String
  role : Role
  deriving DecidableEq

structure ConsumedRefreshToken (F : Type) extends Owner where
  expiresAt : Date
  familyId : F
  deriving DecidableEq

structure RefreshTokenReuse (F : Type) where
  familyId : F
  userId : String
  revokedTokens : Nat
  deriving DecidableEq

/-- What `consume` found, over the names of families. -/
inductive RefreshTokenClaim (F : Type) where
  | claimed (token : ConsumedRefreshToken F)
  | reused (reuse : RefreshTokenReuse F)
  | revoked
  | unknown
  deriving DecidableEq

/-- What `consume` does about a token it has read. -/
inductive Verdict where
  | revoked
  | reuse
  | claim

def verdict (spent revoked : Bool) : Verdict :=
  if spent then if revoked then .revoked else .reuse
  else if revoked then .revoked else .claim

section

variable {spent revoked : Bool}

theorem verdict_eq_revoked : verdict spent revoked = .revoked ↔ revoked = true := by
  cases spent <;> cases revoked <;> simp [verdict]

theorem verdict_eq_reuse : verdict spent revoked = .reuse ↔ spent = true ∧ revoked = false := by
  cases spent <;> cases revoked <;> simp [verdict]

theorem verdict_eq_claim : verdict spent revoked = .claim ↔ spent = false ∧ revoked = false := by
  cases spent <;> cases revoked <;> simp [verdict]

end

/-- What `include` does with a required relation that is not visible: it refuses the query as
inconsistent, or returns `null` in its place. -/
inductive MissingRelation where
  | refused
  | null
  deriving DecidableEq

namespace AuthWorld

/-- The account is there, whichever tenant it belongs to: a foreign key sees past the policies. -/
def hasUser (world : AuthWorld) (userId : String) : Bool := (Table.find world.users userId).isSome

/-- `issue`: into a family of its own, or into the one it continues. -/
def issue (world : AuthWorld) (row : RefreshToken) (startedIn : Option String) :
    Option AuthWorld :=
  if world.hasUser row.userId then
    match startedIn with
    | none =>
      if (world.families.find row.familyId).isSome then
        (world.tokens.insert row).map fun tokens => { world with tokens }
      else none
    | some startedIn =>
      (world.families.insert ⟨row.familyId, row.userId, none, none, startedIn⟩).bind
        fun families => (world.tokens.insert row).map fun tokens =>
          { world with tokens, families }
  else none

def spend (world : AuthWorld) (token : String) (now : Date) : AuthWorld :=
  let tokens := world.tokens.update (fun row => row.token = token)
    (fun row => { row with consumedAt := some now }) fun _ => rfl
  { world with tokens }

def revokeFamily (world : AuthWorld) (familyId : String) (reason : RefreshTokenRevocation)
    (now : Date) : AuthWorld :=
  let families := world.families.update
    (fun family => family.id = familyId && family.revokedAt.isNone)
    (fun family => { family with revokedAt := some now, revokedReason := some reason })
    fun _ => rfl
  { world with families }

/-- `consume`. Its transaction sets no tenant, so the policy shows it no user. What is thrown
rolls the transaction back. -/
def consume (missing : MissingRelation) (world : AuthWorld) (token : String) (now : Date) :
    Except HttpException (RefreshTokenClaim String) × AuthWorld :=
  match world.tokens.find token with
  | none => (.ok .unknown, world)
  | some row =>
    let user := (world.users.visible none).find row.userId
    if user = none ∧ missing = .refused then (.error .internal, world)
    else
      match world.families.find row.familyId with
      | none => (.ok .unknown, world)
      | some family =>
        match verdict row.consumedAt.isSome family.revokedAt.isSome with
        | .revoked => (.ok .revoked, world)
        | .reuse => (.ok (.reused ⟨family.id, row.userId, (world.tokens.rows.filter fun other =>
              other.familyId = family.id ∧ other.consumedAt = none).length⟩),
            world.revokeFamily family.id .reuseDetected now)
        | .claim =>
          match user with
          | none => (.error .internal, world)
          | some user => (.ok (.claimed ⟨⟨user.id, user.email, user.role⟩, row.expiresAt,
              row.familyId⟩), world.spend token now)

/-- `revoke`: the family of the token, if it is still live. -/
def revoke (world : AuthWorld) (token : String) (now : Date) : AuthWorld :=
  match world.tokens.find token with
  | none => world
  | some row => world.revokeFamily row.familyId .logout now

/-- The token of a live session: known, unspent and unexpired, in a family not revoked. -/
def Live (world : AuthWorld) (token : String) (now : Date) (startedIn : String) : Prop :=
  ∃ row family, world.tokens.find token = some row ∧ row.consumedAt = none ∧
    ¬ row.expiresAt < now ∧ world.families.find row.familyId = some family ∧
    family.revokedAt = none ∧ family.startedIn = startedIn

theorem user_hidden (world : AuthWorld) (userId : String) :
    (world.users.visible none).find userId = none := by
  simp [SecuredTable.visible_none, Table.find, Table.empty]

theorem consume_ne_claimed (missing : MissingRelation) (world : AuthWorld) (token : String)
    (now : Date) (claim : ConsumedRefreshToken String) :
    (world.consume missing token now).1 ≠ .ok (.claimed claim) := by
  simp only [consume, user_hidden]
  split
  · simp
  · split
    · simp
    · split
      · simp
      · split <;> simp

end AuthWorld

end NestApi.Auth
