import NestApi.AuthTokens
import NestApi.Indexed
import NestApi.Transition

namespace NestApi.TokenFamilies

open Auth (RefreshTokenRevocation Owner verdict)

/-- A row of `refresh_token_families`. -/
structure RefreshTokenFamily where
  user : Owner
  revoked : Option (Date × RefreshTokenRevocation)
  deriving DecidableEq

/-- A row of `refresh_tokens`, with its owner. -/
structure RefreshToken where
  user : Owner
  familyId : Nat
  expiresAt : Date
  consumedAt : Option Date
  deriving DecidableEq

abbrev ConsumedRefreshToken := Auth.ConsumedRefreshToken Nat

abbrev RefreshTokenClaim := Auth.RefreshTokenClaim Nat

/-- What the transaction of a `consume` writes. -/
inductive Write where
  | nothing
  | spend (consumedAt : Date)
  | revoke (revokedAt : Date)
  deriving DecidableEq

/-- How far a `consume`, and the `refresh` around it, has come. -/
inductive Stage where
  | presented
  | tokenLocked
  | tokenRead (row : RefreshToken)
  | familyLocked (row : RefreshToken)
  | familyRead (row : RefreshToken) (family : RefreshTokenFamily)
  | counted (row : RefreshToken) (revokedTokens : Nat)
  | decided (row : RefreshToken) (write : Write) (claim : RefreshTokenClaim)
  | answered (claim : RefreshTokenClaim)
  | issuing (token : ConsumedRefreshToken)
  | finished
  deriving DecidableEq

/-- A call of `consume`, on its own or by `refresh`. -/
structure Call where
  token : Nat
  refresh : Bool
  stage : Stage
  deriving DecidableEq

/-- The row lock on the token is held from the first statement of the transaction to its end. -/
def Stage.locksToken : Stage → Bool
  | .tokenLocked | .tokenRead _ | .familyLocked _ | .familyRead _ _ | .counted _ _
  | .decided _ _ _ => true
  | .presented | .answered _ | .issuing _ | .finished => false

def Stage.lockedFamily : Stage → Option Nat
  | .familyLocked row | .familyRead row _ | .counted row _ | .decided row _ _ => some row.familyId
  | _ => none

/-- The two tables, the calls under way and the answers given so far. Tokens and families are
numbered as they are issued. -/
structure Store where
  families : List (Option RefreshTokenFamily)
  tokens : List (Option RefreshToken)
  calls : List Call
  answers : List (Nat × RefreshTokenClaim)
  deriving DecidableEq

namespace Store

def initial : Store := ⟨[], [], [], []⟩

def family (s : Store) (id : Nat) : Option RefreshTokenFamily := s.families[id]?.join

def token (s : Store) (id : Nat) : Option RefreshToken := s.tokens[id]?.join

def setStage (s : Store) (i : Nat) (call : Call) (stage : Stage) : Store :=
  { s with calls := s.calls.set i { call with stage := stage } }

def answer (s : Store) (i : Nat) (call : Call) (claim : RefreshTokenClaim) : Store :=
  { s.setStage i call (.answered claim) with answers := s.answers ++ [(call.token, claim)] }

def tokenHeld (s : Store) (id : Nat) : Bool :=
  s.calls.any fun call => call.token == id && call.stage.locksToken

def familyHeld (s : Store) (id : Nat) : Bool :=
  s.calls.any fun call => call.stage.lockedFamily == some id

def unspent (s : Store) (family : Nat) : Nat :=
  s.tokens.countP fun row => row.any fun row => row.familyId == family && row.consumedAt.isNone

def create (s : Store) (row : RefreshToken) : Store := { s with tokens := s.tokens ++ [some row] }

/-- A new family with its first token, in one statement. -/
def createFamily (s : Store) (user : Owner) (expiresAt : Date) : Store :=
  { s with
    families := s.families ++ [some ⟨user, none⟩]
    tokens := s.tokens ++ [some ⟨user, s.families.length, expiresAt, none⟩] }

def spend (s : Store) (id : Nat) (row : RefreshToken) (consumedAt : Date) : Store :=
  { s with tokens := s.tokens.set id (some { row with consumedAt := some consumedAt }) }

def markRevoked (s : Store) (id : Nat) (revokedAt : Date) (reason : RefreshTokenRevocation) :
    Store :=
  { s with
    families := s.families.modify id fun family =>
      family.map fun family => { family with revoked := some (revokedAt, reason) } }

/-- What the statements of a decided transaction leave, once it commits. -/
def apply (s : Store) (id : Nat) (row : RefreshToken) : Write → Store
  | .nothing => s
  | .spend consumedAt => s.spend id row consumedAt
  | .revoke revokedAt => s.markRevoked row.familyId revokedAt .reuseDetected

def consumed (row : RefreshToken) : ConsumedRefreshToken :=
  { row.user with expiresAt := row.expiresAt, familyId := row.familyId }

def step (s : Store) (i : Nat) (now expiresAt : Date) : Option Store := do
  let call ← s.calls[i]?
  match call.stage with
  | .presented =>
    if s.tokenHeld call.token then none
    else
      match s.token call.token with
      | none => some (s.answer i call .unknown)
      | some _ => some (s.setStage i call .tokenLocked)
  | .tokenLocked =>
    match s.token call.token with
    | none => some (s.answer i call .unknown)
    | some row => some (s.setStage i call (.tokenRead row))
  | .tokenRead row =>
    if s.familyHeld row.familyId then none else some (s.setStage i call (.familyLocked row))
  | .familyLocked row =>
    match s.family row.familyId with
    | none => some (s.answer i call .unknown)
    | some family => some (s.setStage i call (.familyRead row family))
  | .familyRead row family =>
    match verdict row.consumedAt.isSome family.revoked.isSome with
    | .revoked => some (s.setStage i call (.decided row .nothing .revoked))
    | .reuse => some (s.setStage i call (.counted row (s.unspent row.familyId)))
    | .claim => some (s.setStage i call (.decided row (.spend now) (.claimed (consumed row))))
  | .counted row revokedTokens =>
    some (s.setStage i call (.decided row (.revoke now)
      (.reused ⟨row.familyId, row.user.userId, revokedTokens⟩)))
  | .decided row write claim => some ((s.apply call.token row write).answer i call claim)
  | .answered claim =>
    match call.refresh, claim with
    | true, .claimed token =>
      if token.expiresAt < now then some (s.setStage i call .finished)
      else some (s.setStage i call (.issuing token))
    | _, _ => some (s.setStage i call .finished)
  | .issuing token =>
    match s.family token.familyId with
    | none => some (s.setStage i call .finished)
    | some _ =>
      some ((s.create ⟨token.toOwner, token.familyId, expiresAt, none⟩).setStage i call .finished)
  | .finished => none

/-- The family of a token, if `revoke` would mark it. -/
def revocable (s : Store) (id : Nat) : Option Nat := do
  let row ← s.token id
  let family ← s.family row.familyId
  if family.revoked.isSome then none else some row.familyId

/-- Every token of the family has expired. -/
def prunable (s : Store) (before : Date) (id : Nat) : Bool :=
  s.tokens.all fun row => row.all fun row => row.familyId != id || row.expiresAt < before

/-- What a pruning leaves: the tokens go with their families. -/
def without (s : Store) (before : Date) : Store :=
  { s with
    families := s.families.mapIdx fun id family => if s.prunable before id then none else family
    tokens := s.tokens.map fun row => row.filter fun row => !s.prunable before row.familyId }

/-- Somebody has a row lock that the deletion of this family waits for. -/
def busy (s : Store) (id : Nat) : Bool :=
  s.calls.any fun call => call.stage.lockedFamily == some id ||
    call.stage.locksToken && (s.token call.token).any fun row => row.familyId == id

end Store

/-- What can happen next. A sign-in issues the first token of a family; a call fails when it is
given up: a timeout, a deadlock, a lost connection or a crash. -/
inductive Action where
  | signIn (user : Owner) (expiresAt : Date)
  | present (token : Nat) (refresh : Bool)
  | step (call : Nat) (now expiresAt : Date)
  | fail (call : Nat)
  | revoke (token : Nat) (now : Date)
  | prune (before : Date)

namespace Store

def act (s : Store) : Action → Option Store
  | .signIn user expiresAt => some (s.createFamily user expiresAt)
  | .present token refresh => some { s with calls := s.calls ++ [⟨token, refresh, .presented⟩] }
  | .step i now expiresAt => s.step i now expiresAt
  | .fail i => do
      let call ← s.calls[i]?
      some (s.setStage i call .finished)
  | .revoke token now =>
    match s.revocable token with
    | none => some s
    | some id =>
      if s.familyHeld id then none else some (s.markRevoked id now .logout)
  | .prune before =>
    if (List.range s.families.length).any fun id => s.prunable before id && s.busy id then none
    else some (s.without before)

end Store

/-- A refresh that has claimed a token of this family and has not issued the next. -/
def Call.rotating (family : Nat) (call : Call) : Bool :=
  call.refresh &&
    match call.stage with
    | .answered (.claimed token) | .issuing token => token.familyId == family
    | _ => false

def Store.rotating (s : Store) (family : Nat) : Nat := s.calls.countP (Call.rotating family)

inductive Outcome (s : Store) (t : Nat) (row : RefreshToken) :
    Write → RefreshTokenClaim → Prop where
  | refused {family} (there : s.token t = some row)
      (known : s.family row.familyId = some family) (revoked : family.revoked ≠ none) :
      Outcome s t row .nothing .revoked
  | claimed {family} (consumedAt : Date) (there : s.token t = some row)
      (known : s.family row.familyId = some family) (live : family.revoked = none)
      (unspent : row.consumedAt = none) :
      Outcome s t row (.spend consumedAt) (.claimed (Store.consumed row))
  | reused {family} (revokedAt : Date) (revokedTokens : Nat)
      (there : s.token t = some row) (known : s.family row.familyId = some family)
      (live : family.revoked = none) (spent : row.consumedAt ≠ none) :
      Outcome s t row (.revoke revokedAt) (.reused ⟨row.familyId, row.user.userId, revokedTokens⟩)

/-- What a call has read is still so while it has the locks, and it has decided accordingly. -/
def Call.Fits (s : Store) (call : Call) : Prop :=
  match call.stage with
  | .tokenLocked => ∃ row, s.token call.token = some row
  | .tokenRead row | .familyLocked row => s.token call.token = some row
  | .familyRead row family =>
    s.token call.token = some row ∧ s.family row.familyId = some family
  | .counted row _ => s.token call.token = some row ∧ row.consumedAt ≠ none ∧
      ∃ family, s.family row.familyId = some family ∧ family.revoked = none
  | .decided row write claim => Outcome s call.token row write claim
  | .answered (.claimed token) => token.familyId < s.families.length
  | .issuing token => token.familyId < s.families.length ∧ call.refresh = true
  | _ => True

inductive Moved (s : Store) : Action → Store → Prop where
  | advanced {action i call stage} (found : s.calls[i]? = some call)
      (fits : call.Fits s → { call with stage := stage }.Fits s) (token : stage.locksToken = true →
        call.stage.locksToken = true ∨ s.tokenHeld call.token = false)
      (family : ∀ id, stage.lockedFamily = some id →
        call.stage.lockedFamily = some id ∨ s.familyHeld id = false)
      (rotates : ∀ id, { call with stage := stage }.rotating id = true → call.rotating id = true) :
      Moved s action (s.setStage i call stage)
  | unknown {action i call} (found : s.calls[i]? = some call) (absent : s.token call.token = none ∨
        ∃ row, call.stage = .familyLocked row ∧ s.family row.familyId = none) :
      Moved s action (s.answer i call .unknown)
  | decided {i call row write claim} (now expiresAt : Date) (found : s.calls[i]? = some call)
      (stage : call.stage = .decided row write claim) :
      Moved s (.step i now expiresAt) ((s.apply call.token row write).answer i call claim)
  | issued {i call token family}
      (now expiresAt : Date) (found : s.calls[i]? = some call) (stage : call.stage = .issuing token)
      (known : s.family token.familyId = some family) :
      Moved s (.step i now expiresAt)
        ((s.create ⟨token.toOwner, token.familyId, expiresAt, none⟩).setStage i call .finished)
  | signedIn (user : Owner) (expiresAt : Date) :
      Moved s (.signIn user expiresAt) (s.createFamily user expiresAt)
  | presented (token : Nat) (refresh : Bool) :
      Moved s (.present token refresh) { s with calls := s.calls ++ [⟨token, refresh, .presented⟩] }
  | loggedOut {t row family} (now : Date)
      (there : s.token t = some row) (known : s.family row.familyId = some family)
      (live : family.revoked = none) (free : s.familyHeld row.familyId = false) :
      Moved s (.revoke t now) (s.markRevoked row.familyId now .logout)
  | pruned (before : Date)
      (free : ∀ id < s.families.length, s.prunable before id = true → s.busy id = false) :
      Moved s (.prune before) (s.without before)
  | nothing {action} : Moved s action s

variable {s s' : Store} {i : Nat} {call : Call} {stage : Stage} {action : Action}
  {now expiresAt : Date}

theorem rotating_of_locks (locks : stage.locksToken = true) (id : Nat) :
    { call with stage := stage }.rotating id = false := by
  cases stage <;> first | exact Bool.and_false _ | cases locks

section

variable (found : s.calls[i]? = some call)

include found

/-- A statement of a transaction that has the token's lock. -/
theorem Moved.within (inside : call.stage.locksToken = true)
    (locks : stage.locksToken = true) (fits : call.Fits s → { call with stage := stage }.Fits s)
    (family : ∀ id, stage.lockedFamily = some id →
      call.stage.lockedFamily = some id ∨ s.familyHeld id = false) :
    Moved s action (s.setStage i call stage) := by
  apply Moved.advanced found fits (fun _ => .inl inside) family
  intro id rotates
  rw [rotating_of_locks locks] at rotates
  cases rotates

theorem Moved.finished : Moved s action (s.setStage i call .finished) := by
  refine .advanced found (fun _ => trivial) nofun nofun ?_
  intro id rotates
  simp [Call.rotating] at rotates

theorem moved_presented
    (stage : call.stage = .presented) (taken : s.step i now expiresAt = some s') :
    Moved s (.step i now expiresAt) s' := by
  simp only [Store.step, found, Option.bind_eq_bind, Option.bind_some, stage] at taken
  split at taken
  · cases taken
  · rename_i free
    split at taken
    next absent =>
        cases taken
        exact .unknown found (.inl absent)
    next row known =>
        cases taken
        refine .advanced found (fun _ => ⟨row, known⟩)
          (fun _ => .inr (Bool.eq_false_iff.mpr free)) nofun ?_
        intro id rotates
        rw [rotating_of_locks rfl] at rotates
        cases rotates

theorem moved_familyRead {row : RefreshToken} {family : RefreshTokenFamily}
    (stage : call.stage = .familyRead row family)
    (taken : s.step i now expiresAt = some s') : Moved s (.step i now expiresAt) s' := by
  simp only [Store.step, found, Option.bind_eq_bind, Option.bind_some, stage] at taken
  have inside : call.stage.locksToken = true := by rw [stage]; rfl
  have same : call.stage.lockedFamily = some row.familyId := by rw [stage]; rfl
  have read : call.Fits s →
      s.token call.token = some row ∧ s.family row.familyId = some family := by
    intro fits
    simpa only [Call.Fits, stage] using fits
  split at taken
  all_goals
    rename_i decision
    simp only [Auth.verdict_eq_revoked, Auth.verdict_eq_reuse, Auth.verdict_eq_claim,
      Option.isSome_iff_ne_none, Option.isSome_eq_false_iff, Option.isNone_iff_eq_none]
      at decision
    cases taken
    refine .within found inside rfl ?_ (fun id locked => .inl (same.trans locked))
    intro fits
  · exact .refused (read fits).1 (read fits).2 decision
  · exact ⟨(read fits).1, decision.1, family, (read fits).2, decision.2⟩
  · exact .claimed now (read fits).1 (read fits).2 decision.2 decision.1

theorem moved_answered {claim : RefreshTokenClaim} (stage : call.stage = .answered claim)
    (taken : s.step i now expiresAt = some s') : Moved s (.step i now expiresAt) s' := by
  simp only [Store.step, found, Option.bind_eq_bind, Option.bind_some, stage] at taken
  split at taken
  next token refresh =>
      split at taken
      · cases taken
        exact .finished found
      · cases taken
        refine .advanced found ?_ nofun nofun ?_
        · intro fits
          simp only [Call.Fits, stage] at fits
          exact ⟨fits, refresh⟩
        · intro id rotates
          simpa only [Call.rotating, stage] using rotates
  next =>
      cases taken
      exact .finished found

end

theorem moved_step (taken : s.step i now expiresAt = some s') :
    Moved s (.step i now expiresAt) s' := by
  have begun := taken
  simp only [Store.step, Option.bind_eq_bind, Option.bind_eq_some_iff] at begun
  obtain ⟨call, found, went⟩ := begun
  cases stage : call.stage with
  | presented => exact moved_presented found stage taken
  | familyRead => exact moved_familyRead found stage taken
  | answered => exact moved_answered found stage taken
  | tokenLocked =>
    rw [stage] at went
    dsimp only at went
    split at went
    next absent =>
        cases went
        exact .unknown found (.inl absent)
    next row known =>
        cases went
        exact .within found (by rw [stage]; rfl) rfl (fun _ => known) nofun
  | tokenRead =>
    rw [stage] at went
    obtain ⟨free, rfl⟩ := of_ite_none went
    refine .within found (by rw [stage]; rfl) rfl ?_ ?_
    · intro fits
      simpa only [Call.Fits, stage] using fits
    · intro id locked
      cases locked
      exact .inr (Bool.eq_false_iff.mpr free)
  | familyLocked row =>
    rw [stage] at went
    dsimp only at went
    split at went
    next absent =>
        cases went
        exact .unknown found (.inr ⟨row, stage, absent⟩)
    next family known =>
        cases went
        refine .within found (by rw [stage]; rfl) rfl ?_ ?_
        · intro fits
          simp only [Call.Fits, stage] at fits
          exact ⟨fits, known⟩
        · intro id locked
          rw [stage]
          exact .inl locked
  | counted row revokedTokens =>
    rw [stage] at went
    cases went
    refine .within found (by rw [stage]; rfl) rfl ?_ ?_
    · intro fits
      simp only [Call.Fits, stage] at fits
      obtain ⟨there, spent, family, known, live⟩ := fits
      exact .reused now revokedTokens there known live spent
    · intro id locked
      rw [stage]
      exact .inl locked
  | decided =>
    rw [stage] at went
    cases went
    exact .decided now expiresAt found stage
  | issuing =>
    rw [stage] at went
    dsimp only at went
    split at went
    next =>
        cases went
        exact .finished found
    next family known =>
        cases went
        exact .issued now expiresAt found stage known
  | finished =>
    rw [stage] at went
    cases went

theorem revocable_eq_some {token id : Nat} (found : s.revocable token = some id) :
    ∃ row family, s.token token = some row ∧ row.familyId = id ∧
      s.family row.familyId = some family ∧ family.revoked = none := by
  simp only [Store.revocable, Option.bind_eq_bind, Option.bind_eq_some_iff] at found
  obtain ⟨row, there, family, known, live⟩ := found
  obtain ⟨unrevoked, rfl⟩ := of_ite_none live
  exact ⟨row, family, there, rfl, known, Option.not_isSome_iff_eq_none.mp unrevoked⟩

theorem moved (taken : s.act action = some s') : Moved s action s' := by
  cases action with
  | signIn user expiresAt =>
    cases taken
    exact .signedIn user expiresAt
  | present token refresh =>
    cases taken
    exact .presented token refresh
  | step => exact moved_step taken
  | fail =>
    simp only [Store.act, Option.bind_eq_bind, Option.bind_eq_some_iff] at taken
    obtain ⟨call, found, taken⟩ := taken
    cases taken
    exact .finished found
  | revoke token now =>
    simp only [Store.act] at taken
    split at taken
    next =>
        cases taken
        exact .nothing
    next id found =>
        obtain ⟨free, rfl⟩ := of_ite_none taken
        obtain ⟨row, family, there, rfl, known, live⟩ := revocable_eq_some found
        exact .loggedOut now there known live (Bool.eq_false_iff.mpr free)
  | prune before =>
    obtain ⟨free, rfl⟩ := of_ite_none taken
    apply Moved.pruned before
    intro id inside gone
    rw [Bool.eq_false_iff]
    intro busy
    apply free
    exact List.any_eq_true.mpr ⟨id, List.mem_range.mpr inside, by simp [gone, busy]⟩

end NestApi.TokenFamilies
