import NestApi.JsString
import NestApi.PageWalk
import NestApi.Pagination

namespace NestApi

variable {α : Type}

def pageAfter (replaced : List UInt8 → String) (getId : α → String) (limit : Nat) (order : List α)
    (token : Option String) : CursorPage α :=
  let cursor := (JsString.given token).map (decodeCursor replaced)
  buildCursorPage getId ((rowsAfter getId cursor order).take (limit + 1)) limit

/-- The pages a client gets that follows `nextCursor`, query after query. `none` is out of fuel. -/
def follow (page : Nat → Option String → CursorPage α) :
    Nat → Nat → Option String → Option (List (List α))
  | 0, _, _ => none
  | fuel + 1, query, token =>
    match (page query token).nextCursor with
    | none => some [(page query token).items]
    | some next => (follow page fuel (query + 1) (some next)).map ((page query token).items :: ·)

theorem follow_unique {page : Nat → Option String → CursorPage α} {fuel fuel' query : Nat}
    {token : Option String} {pages pages' : List (List α)}
    (ran : follow page fuel query token = some pages)
    (ran' : follow page fuel' query token = some pages') : pages = pages' := by
  induction fuel generalizing fuel' query token pages pages' with
  | zero => cases ran
  | succ fuel ih =>
    cases fuel' with
    | zero => cases ran'
    | succ =>
      simp only [follow] at ran ran'
      split at ran
      · rename_i ends
        simp only [ends] at ran'
        exact Option.some.inj (ran.symm.trans ran')
      · rename_i next more
        simp only [more] at ran'
        obtain ⟨rest, onward, rfl⟩ := Option.map_eq_some_iff.mp ran
        obtain ⟨rest', onward', rfl⟩ := Option.map_eq_some_iff.mp ran'
        rw [ih onward onward']

variable [DecidableEq α] {replaced : List UInt8 → String} {getId : α → String} {limit : Nat}
  {orders : Nat → List α} {rows order : List α}

theorem rowsAfter_eq_after {row : α} (named : getId row ≠ "")
    (known : ∀ other ∈ order, getId other = getId row → other = row) :
    rowsAfter getId (some (getId row)) order = after (some row) order := by
  have given : JsString.given (some (getId row)) = some (getId row) := by
    simp [JsString.given, named]
  have same : ∀ other ∈ order, decide (getId other ≠ getId row) = decide (other ≠ row) := by
    intro other mem
    rw [decide_eq_decide, not_iff_not]
    exact ⟨known other mem, congrArg getId⟩
  simp only [rowsAfter, given, after]
  congr 1
  clear given
  induction order with
  | nil => rfl
  | cons first rest ih =>
    rw [List.dropWhile_cons, List.dropWhile_cons, same first List.mem_cons_self]
    split_ifs
    · exact ih (fun other mem => known other (List.mem_cons_of_mem _ mem))
        (fun other mem => same other (List.mem_cons_of_mem _ mem))
    · rfl

/-- A page is made of the rows after the row its token was made from. -/
theorem pageAfter_encoded {cursor : Option α} (named : ∀ row ∈ cursor, getId row ≠ "")
    (known : ∀ row ∈ cursor, ∀ other ∈ order, getId other = getId row → other = row) :
    pageAfter replaced getId limit order (cursor.map fun row => encodeCursor (getId row)) =
      buildCursorPage getId ((after cursor order).take (limit + 1)) limit := by
  cases cursor with
  | none => rfl
  | some row =>
    have given : JsString.given (some (encodeCursor (getId row))) =
        some (encodeCursor (getId row)) := by
      simp [JsString.given, encodeCursor_ne_empty (named row rfl)]
    rw [pageAfter, Option.map_some, given, Option.map_some, decodeCursor_encodeCursor,
      rowsAfter_eq_after (named row rfl) (known row rfl)]

/-- Following `nextCursor` is walking from the last row of a page to the next page. -/
theorem follow_eq_walk (some' : 0 < limit) (named : ∀ row ∈ rows, getId row ≠ "")
    (unique : ∀ row ∈ rows, ∀ other ∈ rows, getId other = getId row → other = row)
    (shown : ∀ query, orders query ⊆ rows) (fuel query : Nat) {cursor : Option α}
    (there : ∀ row ∈ cursor, row ∈ rows) :
    follow (fun query => pageAfter replaced getId limit (orders query)) fuel query
        (cursor.map fun row => encodeCursor (getId row)) =
      walk limit orders fuel query cursor := by
  induction fuel generalizing query cursor with
  | zero => rfl
  | succ fuel ih =>
    have page : pageAfter replaced getId limit (orders query) _ = _ := pageAfter_encoded
      (fun row mem => named row (there row mem))
      (fun row mem other mem' => unique row (there row mem) other (shown query mem'))
    simp only [follow, walk, page]
    by_cases more : limit < ((after cursor (orders query)).take (limit + 1)).length
    · rw [buildCursorPage_of_lt more, if_pos more]
      cases ends : (((after cursor (orders query)).take (limit + 1)).take limit).getLast? with
      | none =>
        have empty := congrArg List.length (List.getLast?_eq_none_iff.mp ends)
        rw [List.length_take, List.length_nil] at empty
        omega
      | some last =>
        have mem : last ∈ rows := shown query (after_subset cursor (orders query)
          (List.mem_of_mem_take (List.mem_of_mem_take (List.mem_of_getLast? ends))))
        have there' : ∀ row ∈ some last, row ∈ rows := by
          rintro row ⟨⟩
          exact mem
        have onward := ih (query + 1) there'
        simp only [Option.map_some] at onward ⊢
        rw [onward]
    · rw [buildCursorPage_of_le (Nat.le_of_not_lt more), if_neg more]

end NestApi
