import NestApi.UsersIsolation

namespace NestApi.Users

variable {list : ListStatement} {start : World UsersTable}

/-- Every entry is stored under the key of the request that produced it, whose handler ran. -/
def Produced (history : List Event) (world : World UsersTable) : Prop :=
  ∀ key entry, world.cache key = some entry → trackBy entry.producer.call = some key ∧
    .served entry.producer false (.ok entry.body) ∈ history

theorem produced_run {history : List Event} {world : World UsersTable}
    (cold : start.cache = Cache.cold) (run : Steps (Executes (step list)) start history world) :
    Produced history world := by
  refine run.recall Produced ?_ ?_
  · intro key entry held
    rw [cold] at held
    cases held
  · intro past world event after _ produced taken key entry held
    rcases cache_step taken held with earlier | ⟨fromCache, tracked, rfl, missed⟩
    · obtain ⟨tracked, served⟩ := produced key entry earlier
      exact ⟨tracked, List.mem_append_left _ served⟩
    · simp only [Executes, step, missed] at taken
      split at taken
      · rename_i listed
        simp only [Option.isSome_none] at listed
        rw [← listed.1]
        exact ⟨tracked, List.mem_append_right _ List.mem_cons_self⟩
      · cases taken

/-- The body was produced by the handler of the same route, for the same id, and a list is
shown to administrators only. -/
def ServedByItsRoute (request producer : Request) : Prop :=
  (match request.call with
    | .findOne id => producer.call = .findOne id
    | .listUsers _ => ∃ query, producer.call = .listUsers query
    | _ => False) ∧
  (∀ query, producer.call = .listUsers query → request.requester.role = .admin)

/-- `GET /users/list` reads the entry of `GET /users`, or the other way round. -/
def Collides (call producer : Call) : Prop :=
  call = .findOne "list" ∧ producer = .listUsers none ∨
    call = .listUsers none ∧ producer = .findOne "list"

theorem trackBy_eq_some {call : Call} {key : String} :
    trackBy call = some key ↔ call = .listUsers none ∧ key = usersListCacheKey ∨
      ∃ id, id ≠ "" ∧ call = .findOne id ∧ key = userCacheKey id := by
  cases call with
  | listUsers query =>
    cases query with
    | none => simp [trackBy, httpCacheTrackBy, eq_comm]
    | some => simp [trackBy, httpCacheTrackBy]
  | findOne id =>
    by_cases empty : id = ""
    · simp [trackBy, userResourceTrackBy, empty]
    · simp [trackBy, userResourceTrackBy, empty, eq_comm]
  | _ => simp [trackBy]

theorem role_of_admitted {request : Request} (admitted : authorize request = .ok ())
    {query : Option UserListQuery} (lists : request.call = .listUsers query) :
    request.requester.role = .admin := by
  unfold authorize at admitted
  split at admitted
  · cases admitted
  · simp only [rolesGuard, lists, requiredRoles] at admitted
    split at admitted
    · rename_i allowed
      simpa using allowed
    · cases admitted

/-- An answer from the cache is one a handler gave earlier. It is that of the request's own route,
and a list goes to administrators only, except when the id `list` is asked for while the list is
cached, or the list while that user is. -/
theorem cached_answer_route {history : List Event} {world : World UsersTable}
    (cold : start.cache = Cache.cold) (run : Steps (Executes (step list)) start history world)
    {request : Request} {entry : Entry} (found : hit request world.cache = some entry) :
    (respondIn list request world).1 = .ok entry.body ∧
      .served entry.producer false (.ok entry.body) ∈ history ∧
      (ServedByItsRoute request entry.producer ↔ ¬ Collides request.call entry.producer.call) := by
  obtain ⟨admitted, key, tracked, held⟩ := hit_eq_some.mp found
  obtain ⟨stored, served⟩ := produced_run cold run key entry held
  refine ⟨by simp only [respondIn, respond, admitted, found], served, ?_⟩
  unfold ServedByItsRoute Collides
  rcases trackBy_eq_some.mp tracked with ⟨asked, rfl⟩ | ⟨id, -, asked, rfl⟩
  · have admin := role_of_admitted admitted asked
    rcases trackBy_eq_some.mp stored with ⟨made, -⟩ | ⟨other, -, made, same⟩
    · simp [asked, made, admin]
    · obtain rfl := userCacheKey_eq_list.mp same.symm
      simp [asked, made]
  · rcases trackBy_eq_some.mp stored with ⟨made, same⟩ | ⟨other, -, made, same⟩
    · obtain rfl := userCacheKey_eq_list.mp same
      simp [asked, made]
    · obtain rfl := userCacheKey_injective same
      simp [asked, made]

theorem cached_answer_route_twice :
    let start := twoTenants "ada" (by decide)
    let request := asking "acme" .user (.findOne "ada")
    let world := (respondIn .byCreation request start).2
    ∃ entry, hit request world.cache = some entry ∧
      (ServedByItsRoute request entry.producer ↔ ¬ Collides request.call entry.producer.call) := by
  intro start request world
  have ran : Steps (Executes (step .byCreation)) start (session .byCreation start [request])
      world := .single (step_served _ _ _)
  obtain ⟨entry, found⟩ := Option.isSome_iff_exists.mp
    (show (hit request world.cache).isSome = true by decide +kernel)
  exact ⟨entry, found, (cached_answer_route rfl ran found).2.2⟩

/-- The administrators' list, answered to a user who asks for `GET /users/list`. -/
theorem list_served_to_user :
    let start := twoTenants "ada" (by decide)
    let lists := asking "acme" .admin (.listUsers none)
    let request := asking "acme" .user (.findOne "list")
    let world := (respondIn .byCreation lists start).2
    Steps (Executes (step .byCreation)) start (session .byCreation start [lists]) world ∧
      (hit request world.cache).map (fun entry => (entry.body, entry.producer)) =
        some (.page ⟨[toUserResponse (member "ada")], none, false⟩, lists) ∧
      (respondIn .byCreation request world).1 =
        .ok (.page ⟨[toUserResponse (member "ada")], none, false⟩) ∧
      ¬ ServedByItsRoute request lists := by
  intro start lists request world
  refine ⟨.single (step_served _ _ _), by decide +kernel, by decide +kernel, ?_⟩
  intro right
  cases right.1

end NestApi.Users
