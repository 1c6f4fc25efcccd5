import NestApi.CursorWalk
import NestApi.UsersStore

namespace NestApi.Users

/-- `findMany`, over the rows that match in the order in which the database puts them. -/
def findMany (order : List User) (query : UserListQuery) : List User :=
  (rowsAfter User.id query.cursor order).take (query.limit + 1)

/-- `ListUsersHandler`: the cursor of the criteria is a token. -/
def listUsers (replaced : List UInt8 → String) (order : List User) (criteria : UserListQuery) :
    CursorPage User :=
  let cursor := (JsString.given criteria.cursor).map (decodeCursor replaced)
  buildCursorPage User.id (findMany order { criteria with cursor }) criteria.limit

/-- The pages a client gets that follows `nextCursor`, each query with its own order of ties. -/
def traverse (replaced : List UInt8 → String) (limit : Nat) (search : Option String)
    (orders : Nat → List User) : Nat → Nat → Option String → Option (List (List User)) :=
  follow fun query cursor => listUsers replaced (orders query) { cursor, limit, search }

/-- Whatever the queries do with ties, following `nextCursor` visits every matching user once and
ends, exactly when no page but the last ends at a user who shares the time of creation with another.
-/
theorem traversal_complete_iff (replaced : List UInt8 → String) (table : Table User.id)
    (named : ∀ user ∈ table.rows, user.id ≠ "") (search : Option String) {limit : Nat}
    (some' : 0 < limit) :
    (∀ orders,
      (∀ query, OrderedBy User.createdAt (searched search table.rows) (orders query)) →
      ∃ fuel pages, traverse replaced limit search orders fuel 0 none = some pages ∧
        pages.flatten.Perm (searched search table.rows)) ↔
    Separated User.createdAt limit (searched search table.rows) := by
  have distinct : (searched search table.rows).Nodup := by
    unfold searched
    have apart := table.primary.of_map
    split
    · exact apart
    · exact apart.filter _
  rw [← walk_complete_iff some' distinct]
  refine forall_congr' fun orders => forall_congr' fun ordered => ?_
  have same (fuel : Nat) : traverse replaced limit search orders fuel 0 none =
      walk limit orders fuel 0 none := by
    refine @follow_eq_walk _ _ replaced User.id limit orders table.rows some' named ?_ ?_ fuel 0
      none fun user absent => absurd absent (Option.not_mem_none user)
    · intro user mem other mem' same
      exact Table.eq_of_key_eq mem' mem same
    · intro query
      exact List.Subset.trans (ordered query).perm.subset (searched_subset search table.rows)
  simp only [same]

/-- Three users, two to a page, where the first page ends at a user of an own time. -/
theorem traversal_complete_three :
    ∃ fuel pages, traverse (fun _ => "") 2 none (fun _ => [member "a",
        { member "b" with createdAt := 1 }, { member "c" with createdAt := 2 }]) fuel 0 none =
          some pages ∧
      pages.flatten.Perm (searched none [member "a", { member "b" with createdAt := 1 },
        { member "c" with createdAt := 2 }]) := by
  refine (traversal_complete_iff (fun _ => "") ⟨[member "a", { member "b" with createdAt := 1 },
    { member "c" with createdAt := 2 }], by decide⟩ ?_ none (by decide)).mpr ?_ _ ?_
  · decide
  · intro pages positive more k here
    have one : pages = 1 := by
      change pages * 2 < 3 at more
      omega
    subst one
    revert k
    decide
  · intro query
    exact ⟨List.Perm.refl _, by simp [member, User.created]⟩

/-- Two users created at the same time, a page of one: the second query swaps them, and one is never
shown. -/
theorem traversal_skips_tie :
    ∃ orders,
      (∀ query, OrderedBy User.createdAt (searched none [member "a", member "b"]) (orders query)) ∧
      traverse (fun _ => "") 1 none orders 2 0 none = some [[member "a"], []] ∧
      ¬ ∃ fuel pages, traverse (fun _ => "") 1 none orders fuel 0 none = some pages ∧
        pages.flatten.Perm (searched none [member "a", member "b"]) := by
  let orders : Nat → List User := fun query =>
    if query = 0 then [member "a", member "b"] else [member "b", member "a"]
  have ran : traverse (fun _ => "") 1 none orders 2 0 none = some [[member "a"], []] := by
    decide +kernel
  refine ⟨orders, ?_, ran, ?_⟩
  · intro query
    by_cases first : query = 0
    · rw [show orders query = [member "a", member "b"] from if_pos first]
      exact ⟨List.Perm.refl _, by simp [member, User.created]⟩
    · rw [show orders query = [member "b", member "a"] from if_neg first]
      exact ⟨List.Perm.swap _ _ _, by simp [member, User.created]⟩
  · rintro ⟨fuel, pages, ran', visited⟩
    rw [follow_unique ran' ran] at visited
    exact absurd visited.length_eq (by decide)

end NestApi.Users
