import NestApi.UsersApi

namespace NestApi.Users

open Cache

section View

variable {α β : Type} {store : Store α} {other : Store β} {view : α → β}

/-- One store behaves like another, seen through a view. -/
structure Store.View (store : Store α) (other : Store β) (view : α → β) : Prop where
  rows : ∀ users, store.rows users = other.rows (view users)
  execute : ∀ statement users, (store.execute statement users).map (Prod.map id view) =
    other.execute statement (view users)

theorem perform_view (follows : store.View other view) (list : ListStatement) (request : Request)
    (users : α) : (perform store list request users).map (Prod.map id view) =
      perform other list request (view users) := by
  simp only [perform, ← follows.rows]
  cases plan list request (store.rows users) with
  | error => rfl
  | ok planned =>
    cases planned with
    | answer => rfl
    | write statement =>
      have same := follows.execute statement users
      cases ran : store.execute statement users with
      | none =>
        simp only [ran, Option.map_none] at same
        simp [ran, ← same, Except.map]
      | some =>
        simp only [ran, Option.map_some] at same
        simp [ran, ← same, Except.map]

/-- In the transactions of a tenant the shared table is that tenant's own. -/
theorem securedStore_view (tenant : Option String) :
    (securedStore tenant).View ownStore (SecuredTable.visible tenant) where
  rows _ := rfl
  execute statement users := statement.execute_visible tenant users

end View

variable {list : ListStatement} {request : Request} {users users' : UsersTable} {body : Body}
  {history : List Event} {user : User} {shown : UserResponse} {rows : Table User.id}

/-- A request of a tenant leaves the rows of the others alone. -/
theorem perform_other {tenant : String} (apart : request.scope ≠ some tenant)
    (performed : perform (securedStore request.scope) list request users = .ok (body, users')) :
    users'.visible (some tenant) = users.visible (some tenant) := by
  unfold perform at performed
  split at performed
  · cases performed
  · cases performed
    rfl
  · split at performed
    · cases performed
    · rename_i ran
      cases performed
      exact UserStatement.execute_other apart ran

/-- What a tenant brings to its own history: its requests, as far as they were answered from
the cache, and the rows it got. -/
inductive Question where
  | asked (request : Request) (fromCache : Bool)
  | registered (user : User)

def Event.question (tenant : String) : Event → Option Question
  | .served request fromCache _ =>
    if request.scope = some tenant then some (.asked request fromCache) else none
  | .registered tenantId user => if tenantId = tenant then some (.registered user) else none
  | .projected _ => none
  | .expired _ => none

def Event.response (tenant : String) : Event → Option (Except HttpException Body)
  | .served request _ answer => if request.scope = some tenant then some answer else none
  | _ => none

def questions (tenant : String) (history : List Event) : List Question :=
  history.filterMap (Event.question tenant)

def responses (tenant : String) (history : List Event) : List (Except HttpException Body) :=
  history.filterMap (Event.response tenant)

def forget (request : Request) (cache : Cache String Entry) : Cache String Entry :=
  match authorize request with
  | .error _ => cache
  | .ok () => cache.drop (trackBy request.call).toList

/-- A deployment of the tenant's own, where entries expire when the history says so. -/
def replay (list : ListStatement) : World (Table User.id) → List Question →
    List (Except HttpException Body)
  | _, [] => []
  | world, .asked request fromCache :: rest =>
    let answered := respond ownStore list request
      (if fromCache then world else { world with cache := forget request world.cache })
    answered.1 :: replay list answered.2 rest
  | world, .registered user :: rest =>
    replay list { world with users := (world.users.insert user).getD world.users } rest

def Entry.Mine (tenant : String) (entry : Entry) : Prop := entry.producer.scope = some tenant

/-- The tenant's own deployment holds the tenant's rows and at least its entries. -/
structure Follows (tenant : String) (world : World UsersTable) (own : World (Table User.id)) :
    Prop where
  users : own.users = world.users.visible (some tenant)
  cache : world.cache.Covers (Entry.Mine tenant) own.cache

/-- An answer from the cache to a request of the tenant is one the tenant's requests stored. -/
def OwnEntries (tenant : String) (world : World UsersTable) : Event → Prop
  | .served request _ _ => request.scope = some tenant →
      ∀ entry ∈ hit request world.cache, entry.Mine tenant
  | _ => True

instance (tenant : String) : DecidablePred (Entry.Mine tenant) :=
  fun entry => inferInstanceAs (Decidable (entry.producer.scope = some tenant))

instance (tenant : String) (world : World UsersTable) (event : Event) :
    Decidable (OwnEntries tenant world event) :=
  match event with
  | .served request _ _ => inferInstanceAs (Decidable (request.scope = some tenant →
      ∀ entry ∈ hit request world.cache, entry.Mine tenant))
  | .registered .. => isTrue trivial
  | .projected _ => isTrue trivial
  | .expired _ => isTrue trivial

section Answers

variable {tenant : String} {world : World UsersTable} {own : World (Table User.id)}

theorem hit_forget (request : Request) (cache : Cache String Entry) :
    hit request (forget request cache) = none := by
  cases admitted : authorize request with
  | error => simp only [hit, admitted]
  | ok =>
    simp only [hit, forget, admitted]
    cases trackBy request.call with
    | none => rfl
    | some => simp [drop]

section

variable {cache other : Cache String Entry} {mine : Entry → Prop}
  (covers : cache.Covers mine other)

include covers

theorem covers_forget (missed : hit request cache = none) :
    cache.Covers mine (forget request other) := by
  cases admitted : authorize request with
  | error =>
    simp only [forget, admitted]
    exact covers
  | ok =>
    simp only [hit, forget, admitted] at missed ⊢
    apply covers.drop_missing
    intro key member
    rw [Option.mem_toList] at member
    rwa [Option.mem_def.mp member, Option.bind_some] at missed

theorem covers_keep (request : Request) (body : Body) :
    (keep request body cache).Covers mine (keep request body other) := by
  unfold keep
  split
  · exact covers
  · exact covers.store _ _

end

theorem follows_miss (follows : Follows tenant world own) (mine : request.scope = some tenant)
    (missed : hit request world.cache = none) (forgot : hit request own.cache = none) :
    (respondIn list request world).1 = (respond ownStore list request own).1 ∧
      Follows tenant (respondIn list request world).2 (respond ownStore list request own).2 := by
  have same := perform_view (securedStore_view (some tenant)) list request world.users
  rw [← follows.users] at same
  simp only [respondIn, respond, missed, forgot, mine]
  split
  · exact ⟨rfl, follows⟩
  · cases performed : perform (securedStore (some tenant)) list request world.users with
    | error =>
      simp only [performed, Except.map] at same
      simp only [← same]
      exact ⟨trivial, follows⟩
    | ok =>
      simp only [performed, Except.map] at same
      simp only [← same, Prod.map_fst, Prod.map_snd, id_eq]
      exact ⟨trivial, rfl, covers_keep (follows.cache.drop _) _ _⟩

theorem follows_served (list : ListStatement) (follows : Follows tenant world own)
    (mine : request.scope = some tenant)
    (stored : ∀ entry, hit request world.cache = some entry → entry.Mine tenant) :
    let asked := if (hit request world.cache).isSome then own
      else { own with cache := forget request own.cache }
    (respondIn list request world).1 = (respond ownStore list request asked).1 ∧
      Follows tenant (respondIn list request world).2 (respond ownStore list request asked).2 := by
  cases found : hit request world.cache with
  | none =>
    have fresh : Follows tenant world { own with cache := forget request own.cache } :=
      ⟨follows.users, covers_forget follows.cache found⟩
    simp only [Option.isSome_none, Bool.false_eq_true, ↓reduceIte]
    exact follows_miss fresh mine found (hit_forget _ _)
  | some entry =>
    have alike : hit request own.cache = some entry := by
      obtain ⟨admitted, key, tracked, held⟩ := hit_eq_some.mp found
      exact hit_eq_some.mpr ⟨admitted, key, tracked,
        follows.cache key entry held (stored entry found)⟩
    simp only [Option.isSome_some, ↓reduceIte]
    simp only [respondIn, respond, found, alike]
    split
    · exact ⟨rfl, follows⟩
    · exact ⟨rfl, follows⟩

theorem follows_other (follows : Follows tenant world own) (apart : request.scope ≠ some tenant) :
    Follows tenant (respondIn list request world).2 own := by
  have responds := responds_respond (securedStore request.scope) list request world
  unfold respondIn
  generalize respond (securedStore request.scope) list request world = outcome at responds ⊢
  cases responds with
  | refused | cached | failed => exact follows
  | performed missed performed =>
    refine ⟨?_, ?_⟩
    · rw [perform_other apart performed]
      exact follows.users
    · unfold keep
      split
      · exact follows.cache.drop_left _
      · exact (follows.cache.drop_left _).store_left _ apart

end Answers

section Runs

variable {tenant : String}

/-- As long as the tenant is answered from its own entries, its answers are those of a
deployment of its own. -/
theorem responses_eq_replay {world after : World UsersTable} {own : World (Table User.id)}
    (run : Steps (Guarded (OwnEntries tenant) (Executes (step list))) world history after)
    (follows : Follows tenant world own) :
    responses tenant history = replay list own (questions tenant history) := by
  induction run generalizing own with
  | nil => rfl
  | @cons world next after event rest head tail ih =>
    obtain ⟨stored, taken⟩ := head
    unfold responses questions at ih ⊢
    cases event with
    | served request =>
      obtain ⟨cached, answered⟩ := step_served_eq_some.mp taken
      by_cases mine : request.scope = some tenant
      · have onward := follows_served list follows mine (stored mine)
        simp only [cached, answered] at onward
        simp only [List.filterMap_cons, Event.response, Event.question, mine, ↓reduceIte, replay]
        rw [onward.1, ih onward.2]
      · have onward : Follows tenant (respondIn list request world).2 own :=
          follows_other follows mine
        rw [answered] at onward
        simp only [List.filterMap_cons, Event.response, Event.question, mine, ↓reduceIte]
        exact ih onward
    | registered tenantId =>
      simp only [Executes, step] at taken
      split at taken
      · cases taken
      · simp only [Option.map_eq_some_iff] at taken
        obtain ⟨users, inserted, rfl⟩ := taken
        by_cases mine : tenantId = tenant
        · subst mine
          simp only [List.filterMap_cons, Event.response, Event.question, ↓reduceIte, replay]
          apply ih
          refine ⟨?_, follows.cache⟩
          rw [follows.users, SecuredTable.visible_insert inserted]
          rfl
        · simp only [List.filterMap_cons, Event.response, Event.question, mine, ↓reduceIte]
          apply ih
          refine ⟨?_, follows.cache⟩
          rw [SecuredTable.visible_insert_of_ne mine inserted]
          exact follows.users
    | projected | expired =>
      cases taken
      exact ih ⟨follows.users, follows.cache.drop_left _⟩

end Runs

/-- What a plan shows is a row it was made from, or the row its statement writes. -/
def Plan.Sound (rows : List User) : Plan → Prop
  | .answer body => ∀ shown ∈ body.users, shown ∈ rows.map toUserResponse
  | .write statement body => ∀ user, ∀ shown ∈ (body user).users,
      shown = toUserResponse user ∧ ∀ row, (statement.assign row).isSome

theorem versionedUser_users
    (member : shown ∈ (versionedUser user).users) : shown = toUserResponse user := by
  simpa [versionedUser, Body.users] using member

theorem requireUser_mem {id : String}
    (found : requireUser rows id = .ok user) : user ∈ rows.rows := by
  unfold requireUser at found
  split at found
  · rename_i held
    cases found
    exact Table.mem_of_find held
  · cases found

theorem plan_sound {planned : Plan}
    (made : plan list request rows = .ok planned) : planned.Sound rows.rows := by
  unfold plan at made
  cases call : request.call with
  | listUsers =>
    simp only [call] at made
    cases made
    intro shown member
    simp only [Body.users, CursorPage.map, List.mem_map] at member ⊢
    obtain ⟨user, listed, rfl⟩ := member
    exact ⟨user, list.subset _ _ (buildCursorPage_subset _ _ _ listed), rfl⟩
  | findOne =>
    simp only [call, bind_eq_ok] at made
    obtain ⟨user, found, result⟩ := made
    cases result
    intro shown member
    rw [versionedUser_users member]
    exact List.mem_map_of_mem (requireUser_mem found)
  | update =>
    simp only [call, bind_eq_ok] at made
    obtain ⟨-, -, -, -, result⟩ := made
    cases result
    intro user shown member
    exact ⟨versionedUser_users member, fun _ => rfl⟩
  | uploadAvatar id originalname =>
    cases originalname with
    | none =>
      simp only [call] at made
      cases made
    | some =>
      simp only [call, bind_eq_ok] at made
      obtain ⟨-, -, -, -, result⟩ := made
      cases result
      intro user shown member
      exact ⟨versionedUser_users member, fun _ => rfl⟩
  | remove =>
    simp only [call, bind_eq_ok] at made
    obtain ⟨-, -, result⟩ := made
    cases result
    intro user shown member
    cases member
  | getPreferences =>
    simp only [call, bind_eq_ok] at made
    obtain ⟨-, -, user, -, result⟩ := made
    cases result
    intro shown member
    cases member
  | updatePreferences =>
    simp only [call, bind_eq_ok] at made
    obtain ⟨-, -, user, -, result⟩ := made
    cases result
    intro user shown member
    cases member

theorem perform_users
    (performed : perform (securedStore request.scope) list request users = .ok (body, users'))
    (member : shown ∈ body.users) : shown ∈ (users.visible request.scope).rows.map toUserResponse ∨
      shown ∈ (users'.visible request.scope).rows.map toUserResponse := by
  unfold perform at performed
  split at performed
  · cases performed
  · rename_i made
    cases performed
    exact .inl (plan_sound made shown member)
  · rename_i statement build made
    split at performed
    · cases performed
    · rename_i user _ ran
      cases performed
      obtain ⟨rfl, writes⟩ := plan_sound made user shown member
      exact .inr (List.mem_map_of_mem (UserStatement.execute_mem writes ran))

section Provenance

variable {start : World UsersTable}

def OwnedSoFar (list : ListStatement) (start : World UsersTable) (past : List Event)
    (tenant : Option String) (shown : UserResponse) : Prop :=
  ∃ before after world, past = before ++ after ∧ Steps (Executes (step list)) start before world ∧
    shown ∈ (world.users.visible tenant).rows.map toUserResponse

variable {past : List Event} {world after : World UsersTable} {tenant : Option String}
  {fromCache : Bool} {key : String} {entry : Entry}

theorem OwnedSoFar.later (owned : OwnedSoFar list start past tenant shown)
    (event : Event) : OwnedSoFar list start (past ++ [event]) tenant shown := by
  obtain ⟨before, after, world, rfl, reached, member⟩ := owned
  exact ⟨before, after ++ [event], world, by rw [List.append_assoc], reached, member⟩

theorem ownedSoFar_now (reached : Steps (Executes (step list)) start past world)
    (member : shown ∈ (world.users.visible tenant).rows.map toUserResponse) :
    OwnedSoFar list start past tenant shown :=
  ⟨past, [], world, (List.append_nil _).symm, reached, member⟩

/-- What an entry shows, its producer's tenant owned. -/
def Recorded (list : ListStatement) (start : World UsersTable) (past : List Event)
    (world : World UsersTable) : Prop :=
  ∀ key entry, world.cache key = some entry → ∀ shown ∈ entry.body.users,
    OwnedSoFar list start past entry.producer.scope shown

/-- An answer is the body of the entry it was taken from, or shows rows of its own tenant. -/
theorem answer_users (reached : Steps (Executes (step list)) start past world)
    (taken : step list world (.served request fromCache (.ok body)) = some after)
    (member : shown ∈ body.users) :
    (∃ entry, hit request world.cache = some entry ∧ entry.body = body) ∨
      OwnedSoFar list start (past ++ [.served request fromCache (.ok body)]) request.scope
        shown := by
  have now := reached.snoc taken
  obtain ⟨-, answered⟩ := step_served_eq_some.mp taken
  have responds := responds_respond (securedStore request.scope) list request world
  rw [show respond (securedStore request.scope) list request world = _ from answered] at responds
  cases responds with
  | cached found => exact .inl ⟨_, found, rfl⟩
  | performed missed performed =>
    rcases perform_users performed member with before | written
    · exact .inr ((ownedSoFar_now reached before).later _)
    · exact .inr (ownedSoFar_now now written)

theorem cache_served {answer : Except HttpException Body}
    (taken : step list world (.served request fromCache answer) = some after)
    (held : after.cache key = some entry) :
    world.cache key = some entry ∨ hit request world.cache = none ∧
      trackBy request.call = some key ∧ answer = .ok entry.body ∧ entry.producer = request := by
  obtain ⟨-, answered⟩ := step_served_eq_some.mp taken
  have responds := responds_respond (securedStore request.scope) list request world
  rw [show respond (securedStore request.scope) list request world = _ from answered] at responds
  cases responds with
  | refused | cached | failed => exact .inl held
  | performed missed =>
    cases tracked : trackBy request.call with
    | none =>
      simp only [keep, tracked] at held
      exact .inl (drop_eq_some.mp held).2
    | some tracked =>
      simp only [keep, tracked] at held
      rcases store_eq_some.mp held with ⟨rfl, rfl⟩ | ⟨-, held⟩
      · simp [missed]
      · exact .inl (drop_eq_some.mp held).2

/-- Entries only leave the cache unless a request stores its answer. -/
theorem cache_step {event : Event}
    (taken : step list world event = some after) (held : after.cache key = some entry) :
    world.cache key = some entry ∨ ∃ fromCache, trackBy entry.producer.call = some key ∧
      event = .served entry.producer fromCache (.ok entry.body) ∧
      hit entry.producer world.cache = none := by
  cases event with
  | served request fromCache =>
    rcases cache_served taken held with before | ⟨missed, tracked, rfl, rfl⟩
    · exact .inl before
    · exact .inr ⟨fromCache, tracked, rfl, missed⟩
  | registered =>
    simp only [step] at taken
    split at taken
    · cases taken
    · obtain ⟨users, -, rfl⟩ := Option.map_eq_some_iff.mp taken
      exact .inl held
  | projected | expired =>
    cases taken
    exact .inl (drop_eq_some.mp held).2

theorem recorded_run (cold : start.cache = cold)
    (reached : Steps (Executes (step list)) start past world) : Recorded list start past world := by
  refine reached.recall (Recorded list start) ?_ ?_
  · intro key entry held
    rw [cold] at held
    cases held
  · intro past world event after before recorded taken key entry held shown member
    rcases cache_step taken held with earlier | ⟨fromCache, -, rfl, missed⟩
    · exact (recorded key entry earlier shown member).later _
    · rcases answer_users before taken member with ⟨other, found, -⟩ | owned
      · rw [missed] at found
        cases found
      · exact owned

/-- Every user shown to the tenant in an answer is or was a row of the tenant. -/
def ShowsOwnRows (list : ListStatement) (tenant : String) (start : World UsersTable)
    (history : List Event) : Prop :=
  ∀ before after request fromCache body,
    history = before ++ .served request fromCache (.ok body) :: after →
    request.scope = some tenant → ∀ shown ∈ body.users,
      OwnedSoFar list start (before ++ [.served request fromCache (.ok body)]) (some tenant) shown

theorem showsOwnRows_run {tenant : String} (cold : start.cache = cold)
    (run : Steps (Guarded (OwnEntries tenant) (Executes (step list))) start history after) :
    ShowsOwnRows list tenant start history := by
  intro before later request fromCache body parts mine shown member
  subst parts
  obtain ⟨world, earlier, onward⟩ := run.split
  cases onward with
  | cons head =>
    obtain ⟨stored, taken⟩ := head
    rcases answer_users earlier.of_guarded taken member with ⟨entry, found, rfl⟩ | owned
    · obtain ⟨-, key, -, held⟩ := hit_eq_some.mp found
      have owned := recorded_run cold earlier.of_guarded key entry held shown member
      rw [show entry.producer.scope = some tenant from stored mine entry found] at owned
      exact owned.later _
    · rwa [mine] at owned

end Provenance

/-- Two histories that agree on a tenant's rows, on its requests and on which of them find a live
entry answer the tenant alike, with its own rows only, provided that every entry it is answered from
was stored by its own requests. -/
theorem tenant_isolation (list : ListStatement) (tenant : String)
    {start start' after after' : World UsersTable} {history history' : List Event}
    (cold : start.cache = Cache.cold) (cold' : start'.cache = Cache.cold)
    (rows : start.users.visible (some tenant) = start'.users.visible (some tenant))
    (run : Steps (Guarded (OwnEntries tenant) (Executes (step list))) start history after)
    (run' : Steps (Guarded (OwnEntries tenant) (Executes (step list))) start' history' after')
    (same : questions tenant history = questions tenant history') :
    responses tenant history = responses tenant history' ∧
      ShowsOwnRows list tenant start history := by
  refine ⟨?_, showsOwnRows_run cold run⟩
  have follows : Follows tenant start ⟨start.users.visible (some tenant), Cache.cold⟩ :=
    ⟨rfl, by rw [cold]; exact Cache.covers_cold⟩
  have follows' : Follows tenant start' ⟨start.users.visible (some tenant), Cache.cold⟩ :=
    ⟨rows, by rw [cold']; exact Cache.covers_cold⟩
  rw [responses_eq_replay run follows, responses_eq_replay run' follows', same]

def session (list : ListStatement) : World UsersTable → List Request → List Event
  | _, [] => []
  | world, request :: rest =>
    .served request (hit request world.cache).isSome (respondIn list request world).1 ::
      session list (respondIn list request world).2 rest

def asking (tenant : String) (role : Role) (call : Call) : Request where
  scope := some tenant
  requester := { id := "someone", email := "someone@" ++ tenant, role, tenantId := tenant }
  now := 0
  call

/-- One user of `acme`, and `gil` of `globex`. -/
def twoTenants (acme : String) (apart : acme ≠ "gil") : World UsersTable where
  users := ⟨[⟨"acme", member acme⟩, ⟨"globex", member "gil"⟩],
    by simpa [member, User.created] using apart⟩
  cache := cold

theorem tenant_isolation_two_tenants : let start := twoTenants "ada" (by decide)
    let start' := twoTenants "amy" (by decide)
    let lists := asking "globex" .admin (.listUsers none)
    let history := session .byCreation start [asking "acme" .user (.findOne "ada"), lists, lists]
    let history' := session .byCreation start' [lists, asking "acme" .user (.findOne "amy"), lists]
    responses "globex" history = responses "globex" history' ∧
      ShowsOwnRows .byCreation "globex" start history := by
  intro start start' lists history history'
  have ran : (execute (fun world event => if OwnEntries "globex" world event then
      step .byCreation world event else none) start history).isSome = true := by decide +kernel
  have ran' : (execute (fun world event => if OwnEntries "globex" world event then
      step .byCreation world event else none) start' history').isSome = true := by decide +kernel
  obtain ⟨after, run⟩ := Option.isSome_iff_exists.mp ran
  obtain ⟨after', run'⟩ := Option.isSome_iff_exists.mp ran'
  exact tenant_isolation .byCreation "globex" rfl rfl (Table.rows_inj.mp (by decide +kernel))
    (steps_guarded_iff_execute.mpr run) (steps_guarded_iff_execute.mpr run') rfl

/-- The first page of `acme`, answered to an administrator of `globex`. -/
theorem list_served_to_another_tenant : let start := twoTenants "ada" (by decide)
    let start' := twoTenants "amy" (by decide)
    let requests :=
      [asking "acme" .admin (.listUsers none), asking "globex" .admin (.listUsers none)]
    let history := session .byCreation start requests
    let history' := session .byCreation start' requests
    (∃ after, Steps (Executes (step .byCreation)) start history after ∧
      after.users.rows = start.users.rows) ∧
    (∃ after', Steps (Executes (step .byCreation)) start' history' after') ∧
    start.users.visible (some "globex") = start'.users.visible (some "globex") ∧
    questions "globex" history = questions "globex" history' ∧
    responses "globex" history = [.ok (.page ⟨[toUserResponse (member "ada")], none, false⟩)] ∧
    ⟨"acme", member "ada"⟩ ∈ start.users.rows ∧
    responses "globex" history ≠ responses "globex" history' := by
  intro start start' requests history history'
  have ran' : (execute (step .byCreation) start' history').isSome = true := by decide +kernel
  obtain ⟨after', run'⟩ := Option.isSome_iff_exists.mp ran'
  refine ⟨?_, ⟨after', steps_iff_execute.mpr run'⟩, Table.rows_inj.mp (by decide +kernel), rfl, ?_,
    ?_, ?_⟩
  · decide +kernel
  · decide +kernel
  · decide +kernel
  · decide +kernel

end NestApi.Users
