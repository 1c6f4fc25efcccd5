import NestApi.Common
import NestApi.CursorWalk
import NestApi.OrdersStore
import Mathlib.Data.Prod.Lex
import Mathlib.Data.String.Basic

namespace NestApi.Orders

structure OrderRow extends OrderRecord where
  createdAt : Date
  deriving DecidableEq

structure ListOrdersCriteria where
  userId : String
  limit : Nat
  cursor : Option String

section List

variable {κ : Type} [LinearOrder κ]

/-- Newest first, and the id breaks the tie, as the database collates it. -/
def placement (collation : String ↪ κ) (row : OrderRow) : Dateᵒᵈ ×ₗ κᵒᵈ :=
  toLex (OrderDual.toDual row.createdAt, OrderDual.toDual (collation row.id))

def ownOrders (table : Table fun row : OrderRow => row.id) (userId : String) : List OrderRow :=
  table.rows.filter fun row => row.userId = userId

def listForUser (collation : String ↪ κ) (table : Table fun row : OrderRow => row.id)
    (criteria : ListOrdersCriteria) : List OrderRow :=
  (rowsAfter (fun row => row.id) criteria.cursor
    (sortBy (placement collation) (ownOrders table criteria.userId))).take (criteria.limit + 1)

/-- `ListOrdersHandler`: the orders of the views. The cursor of the criteria is a token. -/
def listOrders (replaced : List UInt8 → String) (collation : String ↪ κ)
    (table : Table fun row : OrderRow => row.id) (criteria : ListOrdersCriteria) :
    CursorPage OrderRow :=
  let cursor := (JsString.given criteria.cursor).map (decodeCursor replaced)
  buildCursorPage (fun row => row.id) (listForUser collation table { criteria with cursor })
    criteria.limit

variable {replaced : List UInt8 → String} {collation : String ↪ κ}
  {table : Table fun row : OrderRow => row.id} {userId : String} {limit : Nat}

theorem placement_lt {first second : OrderRow} :
    placement collation first < placement collation second ↔
      second.createdAt < first.createdAt ∨
        first.createdAt = second.createdAt ∧ collation second.id < collation first.id := by
  simp [placement, Prod.Lex.toLex_lt_toLex]

theorem ownOrders_sorted : (sortBy (placement collation) (ownOrders table userId)).Pairwise
    fun first second => placement collation first < placement collation second := by
  apply sortBy_strict
  have ids : ((ownOrders table userId).map fun row => row.id).Nodup :=
    table.primary.sublist (List.filter_sublist.map _)
  refine List.Nodup.map_on ?_ ids.of_map
  intro first mem second mem' same
  apply List.inj_on_of_nodup_map ids mem mem'
  simpa [placement] using (Prod.ext_iff.mp (toLex.injective same)).2

/-- The number of pages, counted from the last row rather than up to the next page. -/
theorem max_ceil {n : Nat} (some' : 0 < limit) :
    max 1 ((n + limit - 1) / limit) = (n - 1) / limit + 1 := by
  by_cases none : n = 0
  · subst none
    rw [Nat.zero_add, Nat.div_eq_of_lt (by omega), Nat.zero_sub, Nat.zero_div]
    rfl
  · rw [show n + limit - 1 = n - 1 + limit by omega, Nat.add_div_right _ some']
    exact max_eq_right (Nat.le_add_left 1 _)

end List

/-- Following `nextCursor` visits each order of the user once, newest first, in as many pages as
they fill. -/
theorem orders_traversal_complete {κ : Type} [LinearOrder κ] (replaced : List UInt8 → String)
    (collation : String ↪ κ) (table : Table fun row : OrderRow => row.id) (userId : String)
    (named : ∀ row ∈ ownOrders table userId, row.id ≠ "") (limit : Nat) (some' : 0 < limit) :
    (∃ pages, follow (fun _ cursor => listOrders replaced collation table ⟨userId, limit, cursor⟩)
        (max 1 (((ownOrders table userId).length + limit - 1) / limit)) 0 none = some pages ∧
      pages.flatten.Perm (ownOrders table userId) ∧ pages.flatten.Nodup ∧
      pages.flatten.Pairwise (fun first second => second.createdAt < first.createdAt ∨
        first.createdAt = second.createdAt ∧ collation second.id < collation first.id) ∧
      pages.length = max 1 (((ownOrders table userId).length + limit - 1) / limit) ∧
      ∀ page ∈ pages.dropLast, page.length = limit) ∧
    ∀ id, decodeCursor replaced (encodeCursor id) = id := by
  refine ⟨?_, decodeCursor_encodeCursor replaced⟩
  have sorted := @ownOrders_sorted _ _ collation table userId
  have perm := sortBy_perm (placement collation) (ownOrders table userId)
  generalize placed : sortBy (placement collation) (ownOrders table userId) = order at sorted perm
  have distinct : order.Nodup := sorted.imp fun less same => less.ne (congrArg _ same)
  have page : (fun (_ : Nat) cursor =>
      listOrders replaced collation table ⟨userId, limit, cursor⟩) =
      fun _ => pageAfter replaced (fun row => row.id) limit order := by
    funext _ cursor
    rw [← placed]
    rfl
  have walks (fuel : Nat) := @follow_eq_walk _ _ replaced (fun row : OrderRow => row.id) limit
    (fun _ => order) (ownOrders table userId) some' named
    (fun row mem other mem' same => Table.eq_of_key_eq (List.mem_of_mem_filter mem')
      (List.mem_of_mem_filter mem) same)
    (fun _ => perm.subset) fuel 0 none fun row absent => absurd absent (Option.not_mem_none row)
  have first : after none order = order.drop 0 := rfl
  obtain ⟨pages, walked, count, full⟩ := @walk_pages _ _ order limit 0 0 none some' distinct first
  have visited := walk_steady some' distinct (fun _ _ => rfl) first walked
  rw [List.drop_zero] at visited
  rw [Nat.sub_zero, perm.length_eq] at walked count
  rw [max_ceil some', page]
  refine ⟨pages, (walks _).trans walked, ?_⟩
  rw [visited]
  refine ⟨perm, distinct, ?_, count, full⟩
  exact sorted.imp fun less => placement_lt.mp less

/-- Three orders, of which two were placed in the same millisecond. -/
def tiedOrders : Table fun row : OrderRow => row.id :=
  ⟨[("a", 5), ("b", 7), ("c", 5)].map fun (id, createdAt) =>
    ⟨.created ⟨id, "u", [], ⟨0, "GBP"⟩, "GB", "s"⟩, createdAt⟩, by decide⟩

theorem orders_traversal_tie :
    ∃ pages, follow (fun _ cursor => listOrders (fun _ => "") (Function.Embedding.refl String)
        tiedOrders ⟨"u", 2, cursor⟩) 2 0 none = some pages ∧ pages.length = 2 ∧
      pages.flatten.Perm (ownOrders tiedOrders "u") := by
  obtain ⟨⟨pages, followed, visited, _, _, count, _⟩, _⟩ := orders_traversal_complete
    (fun _ => "") (Function.Embedding.refl String) tiedOrders "u" (by decide) 2 (by decide)
  exact ⟨pages, followed, count, visited⟩

end NestApi.Orders
