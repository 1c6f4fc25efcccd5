import NestApi.RefreshTokens

namespace NestApi.TokenFamilies

open Call
open Auth (Owner)

variable {s s' s'' : Store} {i id t : Nat} {call : Call} {stage : Stage} {action : Action}
  {row : RefreshToken} {family : RefreshTokenFamily} {write : Write} {claim : RefreshTokenClaim}
  {actions : List Action} {other : Call}

section Rows

theorem lt_of_token (found : s.token t = some row) : t < s.tokens.length := by
  rw [Store.token, Option.join_eq_some_iff] at found
  exact lt_of_getElem? found

theorem lt_of_family (found : s.family id = some family) : id < s.families.length := by
  rw [Store.family, Option.join_eq_some_iff] at found
  exact lt_of_getElem? found

theorem token_of_mem (mem : some row ∈ s.tokens) : ∃ t, s.token t = some row := by
  obtain ⟨t, inside, here⟩ := List.getElem_of_mem mem
  exact ⟨t, by rw [Store.token, List.getElem?_eq_getElem inside, here]; rfl⟩

theorem token_create (row : RefreshToken) (t : Nat) :
    (s.create row).token t = if t = s.tokens.length then some row else s.token t :=
  join_concat _ _

theorem token_createFamily (user : Owner) (expiresAt : Date) (t : Nat) :
    (s.createFamily user expiresAt).token t =
      if t = s.tokens.length then some ⟨user, s.families.length, expiresAt, none⟩
      else s.token t :=
  join_concat _ _

theorem family_createFamily (user : Owner) (expiresAt : Date) (id : Nat) :
    (s.createFamily user expiresAt).family id =
      if id = s.families.length then some ⟨user, none⟩ else s.family id :=
  join_concat _ _

theorem token_spend (found : s.token id = some row) (consumedAt : Date) (t : Nat) :
    (s.spend id row consumedAt).token t =
      if t = id then some { row with consumedAt := some consumedAt } else s.token t :=
  join_set (lt_of_token found) _ _

theorem family_markRevoked (f : Nat) (revokedAt : Date) (reason : Auth.RefreshTokenRevocation)
    (id : Nat) : (s.markRevoked f revokedAt reason).family id =
      if id = f then
        (s.family id).map fun family => { family with revoked := some (revokedAt, reason) }
      else s.family id :=
  join_modify _ _

theorem family_without (before : Date) (id : Nat) :
    (s.without before).family id = if s.prunable before id then none else s.family id := by
  simp only [Store.without, Store.family, List.getElem?_mapIdx]
  cases s.families[id]? with
  | none => split <;> rfl
  | some => split <;> simp_all

theorem token_without (before : Date) (t : Nat) : (s.without before).token t =
      (s.token t).filter fun row => !s.prunable before row.familyId := by
  simp only [Store.without, Store.token, List.getElem?_map]
  cases s.tokens[t]? <;> rfl

end Rows

section Later

/-- How a store may differ from an earlier one. -/
structure Later (s s' : Store) : Prop where
  families : s.families.length ≤ s'.families.length
  tokens : s.tokens.length ≤ s'.tokens.length
  family : ∀ ⦃id family'⦄, id < s.families.length → s'.family id = some family' →
    ∃ family, s.family id = some family ∧ ∀ r, family.revoked = some r → family'.revoked = some r
  token : ∀ ⦃t row'⦄, t < s.tokens.length → s'.token t = some row' →
    ∃ row, s.token t = some row ∧ row'.familyId = row.familyId ∧
      (row.consumedAt ≠ none → row'.consumedAt ≠ none)
  kept : ∀ ⦃t row family'⦄, s.token t = some row → s'.family row.familyId = some family' →
    ∃ row', s'.token t = some row'

def Owned (s : Store) : Prop :=
  ∀ ⦃t row⦄, s.token t = some row → ∃ family, s.family row.familyId = some family

theorem Later.refl (s : Store) : Later s s where
  families := le_refl _
  tokens := le_refl _
  family := fun _ family' _ here => ⟨family', here, fun _ same => same⟩
  token := fun _ row' _ here => ⟨row', here, rfl, fun spent => spent⟩
  kept := fun _ row _ here _ => ⟨row, here⟩

theorem Later.tables (later : Later s s') (families : s''.families = s'.families)
    (tokens : s''.tokens = s'.tokens) : Later s s'' := by
  obtain ⟨_, _, _, _⟩ := s'
  obtain ⟨_, _, _, _⟩ := s''
  dsimp only at families tokens
  subst families tokens
  exact ⟨later.families, later.tokens, later.family, later.token, later.kept⟩

theorem Later.trans (first : Later s s') (second : Later s' s'') (owned : Owned s) :
    Later s s'' where
  families := first.families.trans second.families
  tokens := first.tokens.trans second.tokens
  family := by
    intro id family'' inside here
    obtain ⟨family', between, onward⟩ := second.family (inside.trans_le first.families) here
    obtain ⟨family, before, upto⟩ := first.family inside between
    exact ⟨family, before, fun r same => onward r (upto r same)⟩
  token := by
    intro t row'' inside here
    obtain ⟨row', between, same', onward⟩ := second.token (inside.trans_le first.tokens) here
    obtain ⟨row, before, same, upto⟩ := first.token inside between
    exact ⟨row, before, same'.trans same, fun spent => onward (upto spent)⟩
  kept := by
    intro t row family'' here last
    obtain ⟨_, known⟩ := owned here
    obtain ⟨family', between, _⟩ :=
      second.family ((lt_of_family known).trans_le first.families) last
    obtain ⟨row', there⟩ := first.kept here between
    obtain ⟨_, same, unmoved, _⟩ := first.token (lt_of_token here) there
    cases here.symm.trans same
    rw [← unmoved] at last
    exact second.kept there last

/-- The rows that are there stay as they are, and others are added. -/
theorem later_of_grown (families : s.families.length ≤ s'.families.length)
    (tokens : s.tokens.length ≤ s'.tokens.length)
    (family : ∀ id < s.families.length, s'.family id = s.family id)
    (token : ∀ t < s.tokens.length, s'.token t = s.token t) : Later s s' where
  families := families
  tokens := tokens
  family := by
    intro id family' inside here
    exact ⟨family', (family id inside).symm.trans here, fun _ same => same⟩
  token := by
    intro t row' inside here
    exact ⟨row', (token t inside).symm.trans here, rfl, fun spent => spent⟩
  kept := by
    intro t row family' here _
    exact ⟨row, (token t (lt_of_token here)).trans here⟩

theorem later_create (row : RefreshToken) : Later s (s.create row) := by
  refine later_of_grown (le_refl _) (by simp [Store.create]) (fun _ _ => rfl) ?_
  intro t inside
  rw [token_create, if_neg (by omega)]

theorem later_createFamily (user : Owner) (expiresAt : Date) :
    Later s (s.createFamily user expiresAt) := by
  refine later_of_grown (by simp [Store.createFamily]) (by simp [Store.createFamily]) ?_ ?_
  · intro id inside
    rw [family_createFamily, if_neg (by omega)]
  · intro t inside
    rw [token_createFamily, if_neg (by omega)]

theorem later_spend (found : s.token t = some row) (consumedAt : Date) :
    Later s (s.spend t row consumedAt) where
  families := le_refl _
  tokens := by simp [Store.spend]
  family := fun _ family' _ here => ⟨family', here, fun _ same => same⟩
  token := by
    intro t' row' inside here
    rw [token_spend found] at here
    split at here
    · rename_i same
      cases here
      exact ⟨row, same ▸ found, rfl, fun _ => Option.some_ne_none _⟩
    · exact ⟨row', here, rfl, fun spent => spent⟩
  kept := by
    intro t' row' _ here _
    rw [token_spend found]
    split
    · exact ⟨_, rfl⟩
    · exact ⟨row', here⟩

theorem later_markRevoked (known : s.family id = some family) (live : family.revoked = none)
    (revokedAt : Date) (reason : Auth.RefreshTokenRevocation) :
    Later s (s.markRevoked id revokedAt reason) where
  families := by simp [Store.markRevoked]
  tokens := le_refl _
  family := by
    intro f family' inside here
    rw [family_markRevoked] at here
    split at here
    · rename_i same
      subst same
      refine ⟨family, known, ?_⟩
      intro r revoked
      rw [live] at revoked
      cases revoked
    · exact ⟨family', here, fun _ same => same⟩
  token := fun _ row' _ here => ⟨row', here, rfl, fun spent => spent⟩
  kept := fun _ row' _ here _ => ⟨row', here⟩

theorem later_without (before : Date) : Later s (s.without before) where
  families := by simp [Store.without]
  tokens := by simp [Store.without]
  family := by
    intro id family' _ here
    rw [family_without] at here
    split at here
    · cases here
    · exact ⟨family', here, fun _ same => same⟩
  token := by
    intro t row' _ here
    rw [token_without] at here
    exact ⟨row', (Option.filter_eq_some_iff.mp here).1, rfl, fun spent => spent⟩
  kept := by
    intro t row family' here last
    rw [family_without] at last
    split at last
    · cases last
    · rename_i stays
      exact ⟨row, by rw [token_without, here]; simp [Option.filter, stays]⟩

end Later

section Sane

def Call.lockedToken (call : Call) : Option Nat :=
  if call.stage.locksToken then some call.token else none

def Call.lockedFamily (call : Call) : Option Nat := call.stage.lockedFamily

structure Sane (s : Store) : Prop where
  fits : ∀ ⦃i : Nat⦄ ⦃call : Call⦄, s.calls[i]? = some call → call.Fits s
  token : Apart lockedToken s.calls
  family : Apart lockedFamily s.calls
  owned : Owned s
  single : ∀ id, s.unspent id + s.rotating id ≤ 1

theorem lockedToken_eq_some : call.lockedToken = some t ↔
    call.stage.locksToken = true ∧ call.token = t := by
  unfold lockedToken
  split <;> simp_all

/-- What a call relies on is the rows it has locked. -/
theorem Call.Fits.mono (fits : call.Fits s)
    (token : ∀ row, call.stage.locksToken = true → s.token call.token = some row →
      s'.token call.token = some row)
    (family : ∀ id family, call.stage.lockedFamily = some id → s.family id = some family →
      s'.family id = some family)
    (length : s.families.length ≤ s'.families.length) : call.Fits s' := by
  obtain ⟨t, refresh, stage⟩ := call
  cases stage with
  | presented => trivial
  | tokenLocked => exact fits.imp fun row here => token row rfl here
  | tokenRead row | familyLocked row => exact token row rfl fits
  | familyRead row read => exact ⟨token row rfl fits.1, family _ read rfl fits.2⟩
  | counted row =>
    obtain ⟨here, spent, read, known, live⟩ := fits
    exact ⟨token row rfl here, spent, read, family _ read rfl known, live⟩
  | decided row =>
    cases fits with
    | refused there known revoked =>
      exact .refused (token row rfl there) (family _ _ rfl known) revoked
    | claimed consumedAt there known live unspent =>
      exact .claimed consumedAt (token row rfl there) (family _ _ rfl known) live unspent
    | reused revokedAt n there known live spent =>
      exact .reused revokedAt n (token row rfl there) (family _ _ rfl known) live spent
  | answered claim =>
    cases claim with
    | claimed => exact lt_of_lt_of_le fits length
    | reused => trivial
    | revoked => trivial
    | unknown => trivial
  | issuing => exact ⟨lt_of_lt_of_le fits.1 length, fits.2⟩
  | finished => trivial

theorem Call.Fits.tables (fits : call.Fits s) (families : s'.families = s.families)
    (tokens : s'.tokens = s.tokens) : call.Fits s' := by
  refine fits.mono ?_ ?_ (by rw [families])
  · intro row _ there
    rwa [Store.token, tokens]
  · intro id family _ known
    rwa [Store.family, families]

theorem Moved.apart (moved : Moved s action s') (tokens : Apart lockedToken s.calls)
    (families : Apart lockedFamily s.calls) :
    Apart lockedToken s'.calls ∧ Apart lockedFamily s'.calls := by
  cases moved with
  | advanced found _ token family =>
    constructor
    · apply tokens.set found
      intro k takes
      obtain ⟨locks, rfl⟩ := lockedToken_eq_some.mp takes
      rcases token locks with had | free
      · exact .inl (lockedToken_eq_some.mpr ⟨had, rfl⟩)
      · refine .inr fun other mem held => ?_
        obtain ⟨holds, same⟩ := lockedToken_eq_some.mp held
        exact List.any_eq_false.mp free other mem (by simp [holds, same])
    · apply families.set found
      intro k takes
      rcases family k takes with had | free
      · exact .inl had
      · refine .inr fun other mem held => ?_
        exact List.any_eq_false.mp free other mem (beq_iff_eq.mpr held)
  | unknown found | issued _ _ found => exact ⟨tokens.set found nofun, families.set found nofun⟩
  | decided _ _ found =>
    cases ‹Write› <;> exact ⟨tokens.set found nofun, families.set found nofun⟩
  | presented => exact ⟨tokens.concat rfl, families.concat rfl⟩
  | signedIn | loggedOut | pruned | nothing => exact ⟨tokens, families⟩

theorem Owned.create (owned : Owned s) (known : s.family row.familyId = some family) :
    Owned (s.create row) := by
  intro t row' here
  rw [token_create] at here
  split at here
  · cases here
    exact ⟨family, known⟩
  · exact owned here

theorem Owned.createFamily (owned : Owned s) (user : Owner) (expiresAt : Date) :
    Owned (s.createFamily user expiresAt) := by
  intro t row' here
  rw [token_createFamily] at here
  split at here
  · cases here
    exact ⟨_, by rw [family_createFamily, if_pos rfl]⟩
  · obtain ⟨family, known⟩ := owned here
    have older := lt_of_family known
    exact ⟨family, by rw [family_createFamily, if_neg (by omega), known]⟩

theorem Owned.spend (owned : Owned s) (found : s.token t = some row) (consumedAt : Date) :
    Owned (s.spend t row consumedAt) := by
  intro t' row' here
  rw [token_spend found] at here
  split at here
  · cases here
    obtain ⟨family, known⟩ := owned found
    exact ⟨family, known⟩
  · exact owned here

theorem Owned.markRevoked (owned : Owned s) (revokedAt : Date)
    (reason : Auth.RefreshTokenRevocation) : Owned (s.markRevoked id revokedAt reason) := by
  intro t row' here
  obtain ⟨family, known⟩ := owned here
  rw [family_markRevoked]
  split
  · exact ⟨_, by rw [known]; rfl⟩
  · exact ⟨family, known⟩

theorem Owned.without (owned : Owned s) (before : Date) : Owned (s.without before) := by
  intro t row' here
  rw [token_without] at here
  obtain ⟨there, stays⟩ := Option.filter_eq_some_iff.mp here
  obtain ⟨family, known⟩ := owned there
  exact ⟨family, by rw [family_without, if_neg (by simpa using stays), known]⟩

theorem Sane.outcome (sane : Sane s) (found : s.calls[i]? = some call)
    (stage : call.stage = .decided row write claim) : Outcome s call.token row write claim := by
  have fits := sane.fits found
  simpa only [Call.Fits, stage] using fits

theorem Outcome.there (outcome : Outcome s t row write claim) : s.token t = some row := by
  cases outcome <;> assumption

theorem calls_apply (t : Nat) (row : RefreshToken) (write : Write) :
    (s.apply t row write).calls = s.calls := by
  cases write <;> rfl

theorem Moved.owned (moved : Moved s action s') (sane : Sane s) : Owned s' := by
  cases moved with
  | decided _ _ found stage =>
    cases sane.outcome found stage with
    | refused => exact sane.owned
    | claimed consumedAt there => exact sane.owned.spend there consumedAt
    | reused revokedAt => exact sane.owned.markRevoked revokedAt _
  | @issued _ _ token _ _ expiresAt _ _ known =>
    have owned : Owned (s.create ⟨token.toOwner, token.familyId, expiresAt, none⟩) :=
      sane.owned.create known
    exact owned
  | signedIn user expiresAt => exact sane.owned.createFamily user expiresAt
  | loggedOut now => exact sane.owned.markRevoked now _
  | pruned before => exact sane.owned.without before
  | advanced | unknown | presented | nothing => exact sane.owned

/-- Nobody relies on the row that a commit writes but the call that commits. -/
theorem Sane.fits_apply (sane : Sane s) (found : s.calls[i]? = some call)
    (stage : call.stage = .decided row write claim) {j : Nat}
    (there : s.calls[j]? = some other) (apart : i ≠ j) :
    other.Fits (s.apply call.token row write) := by
  have locks : call.stage.locksToken = true := by rw [stage]; rfl
  have mine : call.lockedFamily = some row.familyId := by
    rw [lockedFamily, stage]
    rfl
  cases write with
  | nothing => exact sane.fits there
  | spend consumedAt =>
    refine (sane.fits there).mono ?_ (fun _ _ _ known => known) (le_refl _)
    intro row' holds here
    have different : other.token ≠ call.token := by
      intro same
      exact apart (sane.token found there (lockedToken_eq_some.mpr ⟨locks, rfl⟩)
        (lockedToken_eq_some.mpr ⟨holds, same⟩))
    exact (token_spend (sane.outcome found stage).there consumedAt _).trans
      ((if_neg different).trans here)
  | revoke =>
    refine (sane.fits there).mono (fun _ _ here => here) ?_
      (by simp [Store.apply, Store.markRevoked])
    intro id family holds known
    have different : id ≠ row.familyId := by
      intro same
      exact apart (sane.family found there mine (holds.trans (congrArg some same)))
    exact (family_markRevoked _ _ _ _).trans ((if_neg different).trans known)

theorem Moved.fits (moved : Moved s action s') (sane : Sane s) {j : Nat}
    (there : s'.calls[j]? = some other) : other.Fits s' := by
  cases moved with
  | advanced found fits =>
    rcases getElem?_set_eq_some there with ⟨rfl, rfl⟩ | ⟨_, old⟩
    · exact (fits (sane.fits found)).tables rfl rfl
    · exact (sane.fits old).tables rfl rfl
  | unknown =>
    rcases getElem?_set_eq_some there with ⟨rfl, rfl⟩ | ⟨_, old⟩
    · trivial
    · exact (sane.fits old).tables rfl rfl
  | decided _ _ found stage =>
    rcases getElem?_set_eq_some there with ⟨rfl, rfl⟩ | ⟨apart, old⟩
    · cases sane.outcome found stage with
      | refused => trivial
      | claimed _ _ known => exact lt_of_family known
      | reused => trivial
    · rw [calls_apply] at old
      exact (sane.fits_apply found stage old apart).tables rfl rfl
  | issued =>
    rcases getElem?_set_eq_some there with ⟨rfl, rfl⟩ | ⟨_, old⟩
    · trivial
    · refine (sane.fits old).mono ?_ (fun _ _ _ known => known) (le_refl _)
      intro row' _ here
      have inside := lt_of_token here
      exact (token_create _ _).trans ((if_neg (by omega)).trans here)
  | signedIn =>
    refine (sane.fits there).mono ?_ ?_ (by simp [Store.createFamily])
    · intro row' _ here
      have inside := lt_of_token here
      rw [token_createFamily, if_neg (by omega), here]
    · intro id family _ known
      have inside := lt_of_family known
      rw [family_createFamily, if_neg (by omega), known]
  | presented =>
    rcases getElem?_concat_eq_some there with old | ⟨_, rfl⟩
    · exact (sane.fits old).tables rfl rfl
    · trivial
  | loggedOut now _ _ _ free =>
    refine (sane.fits there).mono (fun _ _ here => here) ?_ (by simp [Store.markRevoked])
    intro id family holds known
    rw [family_markRevoked, if_neg, known]
    rintro rfl
    exact List.any_eq_false.mp free other (List.mem_of_getElem? there) (beq_iff_eq.mpr holds)
  | pruned before free =>
    have busy : ∀ {id : Nat}, id < s.families.length →
        (other.stage.lockedFamily = some id ∨ other.stage.locksToken = true ∧
          ∃ row, s.token other.token = some row ∧ row.familyId = id) →
        s.prunable before id = false := by
      intro id inside held
      rw [Bool.eq_false_iff]
      intro gone
      have idle := List.any_eq_false.mp (free id inside gone) other (List.mem_of_getElem? there)
      rcases held with held | ⟨locks, row, here, rfl⟩
      · exact idle (by simp [held])
      · exact idle (by simp [locks, here])
    refine (sane.fits there).mono ?_ ?_ (by simp [Store.without])
    · intro row locks here
      obtain ⟨family, known⟩ := sane.owned here
      have stays := busy (lt_of_family known) (.inr ⟨locks, row, here, rfl⟩)
      rw [token_without, here]
      simp [Option.filter, stays]
    · intro id family holds known
      rw [family_without, busy (lt_of_family known) (.inl holds), known]
      rfl
  | nothing => exact sane.fits there

theorem rotating_set (found : s.calls[i]? = some call) (stage : Stage) (id : Nat) :
    (s.setStage i call stage).rotating id + (if call.rotating id then 1 else 0) =
      s.rotating id + if { call with stage := stage }.rotating id then 1 else 0 :=
  countP_set_add _ found

theorem single_of_rotates (found : s.calls[i]? = some call)
    (rotates : { call with stage := stage }.rotating id = true → call.rotating id = true) {n : Nat}
    (before : n + s.rotating id ≤ 1) :
    n + (s.setStage i call stage).rotating id ≤ 1 := by
  have count := rotating_set found stage id
  split_ifs at count <;> first | omega | simp_all

theorem unspent_create (row : RefreshToken) (fresh : row.consumedAt = none) (id : Nat) :
    (s.create row).unspent id = s.unspent id + if row.familyId = id then 1 else 0 := by
  simp [Store.unspent, Store.create, List.countP_append, List.countP_singleton, fresh]

theorem unspent_spend (found : s.token t = some row) (unspent : row.consumedAt = none)
    (consumedAt : Date) (id : Nat) :
    (s.spend t row consumedAt).unspent id + (if row.familyId = id then 1 else 0) =
      s.unspent id := by
  rw [Store.token, Option.join_eq_some_iff] at found
  have count := @countP_set_add _ _ _ _ (some { row with consumedAt := some consumedAt })
    (fun row : Option RefreshToken =>
      row.any fun row => row.familyId == id && row.consumedAt.isNone) found
  simp only [Option.any_some, unspent, Option.isNone_none, Option.isNone_some, Bool.and_true,
    Bool.and_false, beq_iff_eq] at count
  exact count

theorem unspent_without (before : Date) (id : Nat) :
    (s.without before).unspent id ≤ s.unspent id := by
  rw [Store.unspent, Store.without, List.countP_map]
  apply List.countP_mono_left
  intro row _ counted
  cases row with
  | none => cases counted
  | some =>
    simp only [Function.comp_apply, Option.filter] at counted
    split at counted
    · exact counted
    · cases counted

theorem Sane.unstarted (sane : Sane s) (new : s.families.length ≤ id) :
    s.unspent id = 0 ∧ s.rotating id = 0 := by
  constructor
  · apply List.countP_eq_zero.mpr
    intro row mem counted
    cases row with
    | none => cases counted
    | some =>
      obtain ⟨t, there⟩ := token_of_mem mem
      obtain ⟨family, known⟩ := sane.owned there
      have older := lt_of_family known
      simp only [Option.any_some, Bool.and_eq_true, beq_iff_eq] at counted
      omega
  · apply List.countP_eq_zero.mpr
    intro call mem counted
    obtain ⟨i, inside, here⟩ := List.getElem_of_mem mem
    have fits := sane.fits (List.getElem?_eq_some_iff.mpr ⟨inside, here⟩)
    simp only [rotating, Bool.and_eq_true] at counted
    obtain ⟨_, counted⟩ := counted
    split at counted
    case h_3 => cases counted
    all_goals
      rename_i token stage
      simp only [Call.Fits, stage] at fits
      have same := beq_iff_eq.mp counted
      omega

/-- A claim takes the family's unspent token for a rotation under way, and the rotation ends in the
next unspent token. -/
theorem Moved.single (moved : Moved s action s') (sane : Sane s) (id : Nat) :
    s'.unspent id + s'.rotating id ≤ 1 := by
  have before := sane.single id
  cases moved with
  | advanced found _ _ _ rotates => exact single_of_rotates found (rotates id) before
  | unknown found => exact single_of_rotates found (by simp [rotating]) before
  | @decided i call row _ _ _ _ found stage =>
    cases sane.outcome found stage with
    | refused | reused => exact single_of_rotates found (by simp [rotating]) before
    | claimed consumedAt there _ _ unspent =>
      have spent := unspent_spend there unspent consumedAt id
      have turned := rotating_set found (.answered (.claimed (Store.consumed row))) id
      have idle : call.rotating id = false := by simp [rotating, stage]
      have rotates :
          { call with stage := .answered (.claimed (Store.consumed row)) }.rotating id = true →
            row.familyId = id := by
        simp [rotating, Store.consumed]
      rw [idle] at turned
      change (s.spend call.token row consumedAt).unspent id +
        (s.setStage i call (.answered (.claimed (Store.consumed row)))).rotating id ≤ 1
      split_ifs at spent turned <;> first | omega | simp_all
  | @issued i call token family _ expiresAt found stage _ =>
    have fits := sane.fits found
    simp only [Call.Fits, stage] at fits
    have counted := unspent_create (s := s) ⟨token.toOwner, token.familyId, expiresAt, none⟩ rfl id
    have turned := rotating_set found .finished id
    have idle : { call with stage := .finished }.rotating id = false := by simp [rotating]
    have rotates : call.rotating id = true ↔ token.familyId = id := by
      simp [rotating, stage, fits.2]
    rw [idle] at turned
    change (s.create ⟨token.toOwner, token.familyId, expiresAt, none⟩).unspent id +
      (s.setStage i call .finished).rotating id ≤ 1
    split_ifs at counted turned <;> first | omega | simp_all
  | signedIn user expiresAt =>
    have counted := unspent_create (s := s) ⟨user, s.families.length, expiresAt, none⟩ rfl id
    change (s.create ⟨user, s.families.length, expiresAt, none⟩).unspent id + s.rotating id ≤ 1
    by_cases new : s.families.length = id
    · obtain ⟨none, idle⟩ := sane.unstarted new.le
      rw [if_pos new] at counted
      omega
    · rw [if_neg new] at counted
      omega
  | presented token refresh =>
    have same : (s.calls ++ [(⟨token, refresh, .presented⟩ : Call)]).countP (rotating id) =
        s.rotating id := by
      simp [List.countP_append, rotating, Store.rotating]
    exact (congrArg (s.unspent id + ·) same).trans_le before
  | loggedOut | nothing => exact before
  | pruned before' =>
    exact (Nat.add_le_add_right (unspent_without before' id) _).trans before

theorem Sane.moved (sane : Sane s) (moved : Moved s action s') : Sane s' where
  fits := fun _ _ there => moved.fits sane there
  token := (moved.apart sane.token sane.family).1
  family := (moved.apart sane.token sane.family).2
  owned := moved.owned sane
  single := moved.single sane

theorem sane_initial : Sane Store.initial := by
  constructor <;>
    simp [Store.initial, Apart, Owned, Store.token, Store.unspent, Store.rotating]

theorem Moved.later (moved : Moved s action s') (sane : Sane s) : Later s s' := by
  cases moved with
  | decided _ _ found stage =>
    cases sane.outcome found stage with
    | refused => exact (Later.refl s).tables rfl rfl
    | claimed consumedAt there => exact (later_spend there consumedAt).tables rfl rfl
    | reused revokedAt _ _ known live =>
      exact (later_markRevoked known live revokedAt .reuseDetected).tables rfl rfl
  | issued => exact (later_create _).tables rfl rfl
  | signedIn user expiresAt => exact later_createFamily user expiresAt
  | loggedOut now _ known live => exact later_markRevoked known live now .logout
  | pruned before => exact later_without before
  | advanced | unknown | presented => exact (Later.refl s).tables rfl rfl
  | nothing => exact Later.refl s

theorem Sane.run (sane : Sane s)
    (run : Steps (Executes Store.act) s actions s') : Sane s' ∧ Later s s' := by
  refine run.invariant (fun (u : Store) => Sane u ∧ Later s u) ?_ ⟨sane, Later.refl s⟩
  rintro u action v ⟨here, later⟩ taken
  have moved := TokenFamilies.moved taken
  exact ⟨here.moved moved, later.trans (moved.later here) sane.owned⟩

end Sane

section Answers

inductive Answered (s s' : Store) (t : Nat) : RefreshTokenClaim → Prop where
  | unknown (absent : s.token t = none) : Answered s s' t .unknown
  | revoked {row : RefreshToken} {family : RefreshTokenFamily} (there : s.token t = some row)
      (known : s.family row.familyId = some family) (finished : family.revoked ≠ none) :
      Answered s s' t .revoked
  | claimed {row row' family} (there : s.token t = some row)
      (known : s.family row.familyId = some family) (live : family.revoked = none)
      (unspent : row.consumedAt = none) (now : s'.token t = some row')
      (spent : row'.consumedAt ≠ none) : Answered s s' t (.claimed (Store.consumed row))
  | reused {row family family' revokedTokens}
      (there : s.token t = some row) (known : s.family row.familyId = some family)
      (live : family.revoked = none) (spent : row.consumedAt ≠ none)
      (now : s'.family row.familyId = some family') (finished : family'.revoked ≠ none) :
      Answered s s' t (.reused ⟨row.familyId, row.user.userId, revokedTokens⟩)

theorem Sane.absent (sane : Sane s) (found : s.calls[i]? = some call)
    (absent : s.token call.token = none ∨
      ∃ row, call.stage = .familyLocked row ∧ s.family row.familyId = none) :
    s.token call.token = none := by
  rcases absent with absent | ⟨row, stage, gone⟩
  · exact absent
  · have fits := sane.fits found
    simp only [Call.Fits, stage] at fits
    obtain ⟨family, known⟩ := sane.owned fits
    cases gone.symm.trans known

theorem Moved.answers (moved : Moved s action s') (sane : Sane s) : s'.answers = s.answers ∨
      ∃ t claim, s'.answers = s.answers ++ [(t, claim)] ∧ Answered s s' t claim := by
  cases moved with
  | @unknown _ i call found absent =>
    exact .inr ⟨call.token, .unknown, rfl, .unknown (sane.absent found absent)⟩
  | @decided i call row write claim _ _ found stage =>
    refine .inr ⟨call.token, claim, ?_, ?_⟩
    · cases write <;> rfl
    · cases sane.outcome found stage with
      | refused there known revoked => exact .revoked there known revoked
      | claimed consumedAt there known live unspent =>
        have now := (token_spend there consumedAt call.token).trans (if_pos rfl)
        exact .claimed there known live unspent now (Option.some_ne_none consumedAt)
      | @reused family revokedAt _ there known live spent =>
        have now : (s.markRevoked row.familyId revokedAt .reuseDetected).family row.familyId =
            some { family with revoked := some (revokedAt, .reuseDetected) } := by
          rw [family_markRevoked, if_pos rfl, known]
          rfl
        exact .reused there known live spent now (Option.some_ne_none _)
  | advanced | issued | signedIn | presented | loggedOut | pruned | nothing => exact .inl rfl

def RefreshTokenClaim.isClaimed : RefreshTokenClaim → Bool
  | .claimed _ => true
  | _ => false

def RefreshTokenClaim.isReuse (id : Nat) : RefreshTokenClaim → Bool
  | .reused reuse => reuse.familyId == id
  | _ => false

def Store.claims (s : Store) (t : Nat) : Nat :=
  s.answers.countP fun answer => answer.1 == t && answer.2.isClaimed

def Store.detections (s : Store) (id : Nat) : Nat :=
  s.answers.countP fun answer => answer.2.isReuse id

def Store.Spent (s : Store) (t : Nat) : Prop :=
  t < s.tokens.length ∧ ∀ row, s.token t = some row → row.consumedAt ≠ none

def Store.Finished (s : Store) (id : Nat) : Prop :=
  id < s.families.length ∧ ∀ family, s.family id = some family → family.revoked ≠ none

/-- Counted at most once, and what is counted leaves a mark. -/
def Once (count : Nat) (mark : Prop) : Prop := count ≤ 1 ∧ (count ≠ 0 → mark)

/-- What is counted only where the mark is missing is not counted again. -/
theorem Once.count {n : Nat} {p q new : Prop} [Decidable new] (once : Once n p) (keeps : p → q)
    (fresh : new → ¬ p ∧ q) : Once (n + if new then 1 else 0) q := by
  by_cases now : new
  · have first : n = 0 := by_contra fun counted => (fresh now).1 (once.2 counted)
    simp [Once, now, first, (fresh now).2]
  · rw [if_neg now]
    exact once.imp_right (keeps ∘ ·)

/-- A token that was claimed is spent, and a family that was reported is finished. -/
structure Recorded (s : Store) : Prop where
  claimed : ∀ t, Once (s.claims t) (s.Spent t)
  reused : ∀ id, Once (s.detections id) (s.Finished id)

theorem recorded_initial : Recorded Store.initial where
  claimed := fun _ => ⟨Nat.zero_le _, fun counted => absurd rfl counted⟩
  reused := fun _ => ⟨Nat.zero_le _, fun counted => absurd rfl counted⟩

theorem Later.spent (later : Later s s') (spent : s.Spent t) : s'.Spent t := by
  refine ⟨spent.1.trans_le later.tokens, ?_⟩
  intro row' here
  obtain ⟨row, before, _, stays⟩ := later.token spent.1 here
  exact stays (spent.2 row before)

theorem Later.finished (later : Later s s') (finished : s.Finished id) : s'.Finished id := by
  refine ⟨finished.1.trans_le later.families, ?_⟩
  intro family' here
  obtain ⟨family, before, stays⟩ := later.family finished.1 here
  obtain ⟨r, revoked⟩ := Option.ne_none_iff_exists'.mp (finished.2 family before)
  rw [stays r revoked]
  exact Option.some_ne_none r

theorem Answered.spends (answered : Answered s s' t claim) (claimed : claim.isClaimed = true) :
    ¬ s.Spent t ∧ s'.Spent t := by
  cases answered with
  | claimed there _ _ unspent now spent =>
    refine ⟨fun before => before.2 _ there unspent, lt_of_token now, ?_⟩
    intro row here
    cases now.symm.trans here
    exact spent
  | unknown | revoked | reused => cases claimed

theorem Answered.finishes (answered : Answered s s' t claim) (reused : claim.isReuse id = true) :
    ¬ s.Finished id ∧ s'.Finished id := by
  cases answered with
  | reused _ known live _ now finished =>
    cases beq_iff_eq.mp reused
    refine ⟨fun before => before.2 _ known live, lt_of_family now, ?_⟩
    intro family here
    cases now.symm.trans here
    exact finished
  | unknown | revoked | claimed => cases reused

theorem Recorded.moved (recorded : Recorded s) (sane : Sane s) (moved : Moved s action s') :
    Recorded s' := by
  have later := moved.later sane
  rcases moved.answers sane with same | ⟨t, claim, same, answered⟩
  · constructor
    · intro t
      rw [Store.claims, same]
      exact (recorded.claimed t).imp_right (later.spent ∘ ·)
    · intro id
      rw [Store.detections, same]
      exact (recorded.reused id).imp_right (later.finished ∘ ·)
  · constructor
    · intro t'
      rw [Store.claims, same, List.countP_append, List.countP_singleton]
      refine (recorded.claimed t').count later.spent ?_
      intro new
      obtain ⟨rfl, claimed⟩ : t = t' ∧ claim.isClaimed = true := by simpa using new
      exact answered.spends claimed
    · intro id
      rw [Store.detections, same, List.countP_append, List.countP_singleton]
      exact (recorded.reused id).count later.finished answered.finishes

theorem recorded_run (run : Steps (Executes Store.act) Store.initial actions s) : Recorded s := by
  refine (run.invariant (fun (u : Store) => Sane u ∧ Recorded u) ?_
    ⟨sane_initial, recorded_initial⟩).2
  rintro u action v ⟨sane, recorded⟩ taken
  exact ⟨sane.moved (moved taken), recorded.moved sane (moved taken)⟩

end Answers

section Frame

def Store.concerns (s : Store) : Action → Nat → Prop
  | .signIn _ _, id => id = s.families.length
  | .present _ _, _ | .fail _, _ => False
  | .step i _ _, id => ∃ call, s.calls[i]? = some call ∧
      match call.stage with
      | .issuing token => token.familyId = id
      | _ => ∃ row, s.token call.token = some row ∧ row.familyId = id
  | .revoke t _, id => ∃ row, s.token t = some row ∧ row.familyId = id
  | .prune before, id => s.prunable before id = true

def Store.tokensOf (s : Store) (id t : Nat) : Option RefreshToken :=
  (s.token t).filter fun row => row.familyId == id

theorem tokensOf_of_ne (there : s.token t = some row) (other : row.familyId ≠ id) :
    s.tokensOf id t = none := by
  simp [Store.tokensOf, there, Option.filter, other]

theorem tokensOf_create (other : row.familyId ≠ id) (t : Nat) :
    (s.create row).tokensOf id t = s.tokensOf id t := by
  by_cases new : t = s.tokens.length
  · have absent : s.token t = none := by simp [Store.token, new]
    have created : (s.create row).token t = some row := (token_create row t).trans (if_pos new)
    rw [tokensOf_of_ne created other, Store.tokensOf, absent]
    rfl
  · rw [Store.tokensOf, token_create, if_neg new]
    rfl

theorem Moved.frame (moved : Moved s action s') (sane : Sane s) (other : ¬ s.concerns action id) :
    s'.family id = s.family id ∧ ∀ t, s'.tokensOf id t = s.tokensOf id t := by
  cases moved with
  | @decided i call row _ _ now expiresAt found stage =>
    have different : row.familyId ≠ id := by
      intro same
      refine other ⟨call, found, ?_⟩
      rw [stage]
      exact ⟨row, (sane.outcome found stage).there, same⟩
    cases sane.outcome found stage with
    | refused => exact ⟨rfl, fun _ => rfl⟩
    | claimed consumedAt there =>
      refine ⟨rfl, fun t => ?_⟩
      by_cases here : t = call.token
      · subst here
        rw [tokensOf_of_ne there different]
        exact tokensOf_of_ne ((token_spend there consumedAt _).trans (if_pos rfl)) different
      · exact congrArg _ ((token_spend there consumedAt t).trans (if_neg here))
    | reused =>
      exact ⟨(family_markRevoked _ _ _ _).trans (if_neg (Ne.symm different)), fun _ => rfl⟩
  | @issued i call token _ now expiresAt found stage known =>
    have different : token.familyId ≠ id := by
      intro same
      exact other ⟨call, found, by rw [stage]; exact same⟩
    exact ⟨rfl, fun t => tokensOf_create different t⟩
  | signedIn =>
    have different : s.families.length ≠ id := fun same => other same.symm
    exact ⟨(family_createFamily _ _ _).trans (if_neg other), fun t =>
      tokensOf_create different t⟩
  | @loggedOut t row _ now there =>
    have different : id ≠ row.familyId := fun same => other ⟨row, there, same.symm⟩
    exact ⟨(family_markRevoked _ _ _ _).trans (if_neg different), fun _ => rfl⟩
  | pruned before =>
    have stays : s.prunable before id = false := Bool.eq_false_iff.mpr other
    refine ⟨by rw [family_without, stays]; rfl, fun t => ?_⟩
    rw [Store.tokensOf, token_without, Store.tokensOf, Option.filter_filter]
    congr 1
    funext row
    by_cases same : row.familyId = id
    · simp [same, stays]
    · simp [same]
  | advanced | unknown | presented | nothing => exact ⟨rfl, fun _ => rfl⟩

end Frame

/-- In any run a token is claimed at most once, a family reports at most one replay and has at most
one token or rotation in hand, and an operation on one family leaves the others as they are. From
any moment on, a revocation stays as it is; each consumption answers by the rows of its token; once
a family is revoked its tokens, issued before or since, are answered `revoked`; and a token whose
family is still there is not unknown. -/
theorem rotation_detects_replays {past : List Action} {s : Store}
    (run : Steps (Executes Store.act) Store.initial past s) :
    (∀ t, s.claims t ≤ 1) ∧ (∀ id, s.detections id ≤ 1) ∧
      (∀ id, s.unspent id + s.rotating id ≤ 1) ∧
      (∀ action s' id, s.act action = some s' → ¬ s.concerns action id →
        s'.family id = s.family id ∧ ∀ t, s'.tokensOf id t = s.tokensOf id t) ∧
      ∀ more u, Steps (Executes Store.act) s more u →
        (∀ id family family' r, s.family id = some family → family.revoked = some r →
          u.family id = some family' → family'.revoked = some r) ∧
        ∀ action v t claim, u.act action = some v → v.answers = u.answers ++ [(t, claim)] →
          Answered u v t claim ∧
          (∀ family row, s.family row.familyId = some family → family.revoked ≠ none →
            u.token t = some row → claim = .revoked) ∧
          ∀ row family, s.token t = some row → u.family row.familyId = some family →
            claim ≠ .unknown := by
  have sane := (sane_initial.run run).1
  have recorded := recorded_run run
  refine ⟨fun t => (recorded.claimed t).1, fun id => (recorded.reused id).1, sane.single,
    fun _ _ _ taken other => (moved taken).frame sane other, ?_⟩
  intro more u onward
  obtain ⟨here, later⟩ := sane.run onward
  have stays : ∀ id family family' r, s.family id = some family → family.revoked = some r →
      u.family id = some family' → family'.revoked = some r := by
    intro id family family' r before revoked now
    obtain ⟨_, same, kept⟩ := later.family (lt_of_family before) now
    cases before.symm.trans same
    exact kept r revoked
  refine ⟨stays, ?_⟩
  intro action v t claim taken logged
  have answered : Answered u v t claim := by
    rcases (moved taken).answers here with same | ⟨t', claim', same, answered⟩
    · simp [same] at logged
    · cases List.append_cancel_left (same.symm.trans logged)
      exact answered
  refine ⟨answered, ?_, ?_⟩
  · intro family row before finished there
    obtain ⟨r, revoked⟩ := Option.ne_none_iff_exists'.mp finished
    cases answered with
    | unknown absent => cases absent.symm.trans there
    | revoked => rfl
    | claimed there' known live | reused there' known live =>
      cases there.symm.trans there'
      cases live.symm.trans (stays _ _ _ r before revoked known)
  · rintro row family before known rfl
    cases answered with
    | unknown absent =>
      obtain ⟨row', there⟩ := later.kept before known
      cases absent.symm.trans there

/-- Two refreshes with one token: the first rotates it and the second is a replay. The successor is
refused afterwards. -/
theorem rotation_detects_replays_twice : ∃ past s more u v,
    Steps (Executes Store.act) Store.initial past s ∧ Steps (Executes Store.act) s more u ∧
    u.act (.step 2 9 0) = some v ∧ s.claims 0 = 1 ∧ s.detections 0 = 1 ∧
    v.answers = u.answers ++ [(1, .revoked)] ∧ Answered u v 1 .revoked := by
  let past : List Action :=
    [.signIn ⟨"u-1", "ada@example.com", .user⟩ 100, .present 0 true, .present 0 true] ++
    List.replicate 8 (.step 0 3 200) ++ List.replicate 7 (.step 1 5 200)
  let more : List Action := .present 1 true :: List.replicate 5 (.step 2 7 200)
  obtain ⟨s, first, claimed, detected, u, second, v, taken, logged⟩ : ∃ s,
      Steps (Executes Store.act) Store.initial past s ∧ s.claims 0 = 1 ∧ s.detections 0 = 1 ∧
      ∃ u, Steps (Executes Store.act) s more u ∧
      ∃ v, u.act (.step 2 9 0) = some v ∧ v.answers = u.answers ++ [(1, .revoked)] := by
    decide +kernel
  have last := ((rotation_detects_replays first).2.2.2.2 more u second).2 _ v 1 .revoked taken
    logged
  exact ⟨past, s, more, u, v, first, second, taken, claimed, detected, logged, last.1⟩

theorem waits_of_stuck {now expiresAt : Date} (stuck : ∀ i t, s.step i now expiresAt ≠ some t)
    (mem : call ∈ s.calls) : call.stage = .finished ∨
      call.stage = .presented ∧ s.tokenHeld call.token = true ∨
      ∃ row, call.stage = .tokenRead row ∧ s.familyHeld row.familyId = true := by
  obtain ⟨i, found⟩ := List.getElem?_of_mem mem
  have waits := Option.eq_none_iff_forall_ne_some.mpr (stuck i)
  simp only [Store.step, found, Option.bind_eq_bind, Option.bind_some] at waits
  split at waits <;> (repeat' split at waits) <;> simp_all

/-- However many calls are under way, one of them can go on until all have finished. -/
theorem consume_never_deadlocks (s : Store) (now expiresAt : Date) :
    (∀ call ∈ s.calls, call.stage = .finished) ∨ ∃ i t, s.act (.step i now expiresAt) = some t := by
  rw [or_iff_not_imp_right]
  simp only [not_exists]
  intro stuck call mem
  -- who has a family's lock waits for nobody, and who has a token's lock only for a family's
  have families id : s.familyHeld id = false := by
    apply List.any_eq_false.mpr
    intro call mem held
    rcases waits_of_stuck stuck mem with stage | ⟨stage, _⟩ | ⟨row, stage, _⟩ <;>
      simp [stage, Stage.lockedFamily] at held
  have tokens id : s.tokenHeld id = false := by
    apply List.any_eq_false.mpr
    intro call mem held
    rcases waits_of_stuck stuck mem with stage | ⟨stage, _⟩ | ⟨row, stage, busy⟩ <;>
      simp_all [Stage.locksToken]
  rcases waits_of_stuck stuck mem with finished | ⟨_, busy⟩ | ⟨row, _, busy⟩
  · exact finished
  · cases (tokens call.token).symm.trans busy
  · cases (families row.familyId).symm.trans busy

end NestApi.TokenFamilies
