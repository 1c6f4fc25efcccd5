import Mathlib.Data.List.Sort

namespace NestApi

section Sorting

variable {α κ : Type} [LinearOrder κ] {key : α → κ} {items : List α}

def sortBy (key : α → κ) (items : List α) : List α :=
  items.insertionSort fun first second => key first ≤ key second

theorem sortBy_perm (key : α → κ) (items : List α) : (sortBy key items).Perm items :=
  List.perm_insertionSort _ items

theorem sortBy_pairwise (key : α → κ) (items : List α) :
    (sortBy key items).Pairwise fun first second => key first ≤ key second := by
  have total : Std.Total fun first second : α => key first ≤ key second :=
    ⟨fun first second => le_total _ _⟩
  have trans : IsTrans α fun first second => key first ≤ key second :=
    ⟨fun _ _ _ => le_trans⟩
  exact List.pairwise_insertionSort _ items

theorem sortBy_strict (distinct : (items.map key).Nodup) :
    (sortBy key items).Pairwise fun first second => key first < key second := by
  have apart : ((sortBy key items).map key).Nodup :=
    ((sortBy_perm key items).map key).nodup_iff.mpr distinct
  have both := (sortBy_pairwise key items).and (List.pairwise_map.mp apart)
  exact both.imp fun ⟨below, other⟩ => lt_of_le_of_ne below other

end Sorting

variable {α κ : Type} [DecidableEq α] {order : List α}

def after (cursor : Option α) (order : List α) : List α :=
  match cursor with
  | none => order
  | some item => (order.dropWhile fun other => other ≠ item).drop 1

/-- The pages of a walk that asks for one item more than a page holds and goes on from the last item
of the page, over orders that may differ. `none` is out of fuel. -/
def walk (limit : Nat) (orders : Nat → List α) : Nat → Nat → Option α → Option (List (List α))
  | 0, _, _ => none
  | fuel + 1, query, cursor =>
    let rows := (after cursor (orders query)).take (limit + 1)
    if rows.length > limit then
      (walk limit orders fuel (query + 1) (rows.take limit).getLast?).map (rows.take limit :: ·)
    else some [rows]

section After

variable {position : Nat}

theorem after_subset (cursor : Option α) (order : List α) : after cursor order ⊆ order := by
  cases cursor with
  | none => exact List.Subset.refl _
  | some => exact ((List.drop_sublist _ _).trans (List.dropWhile_sublist _)).subset

theorem after_append {before rest : List α} {item : α} (fresh : item ∉ before) :
    after (some item) (before ++ item :: rest) = rest := by
  have passed : ∀ other ∈ before, decide (other ≠ item) = true := by
    intro other mem
    rw [decide_eq_true_eq]
    rintro rfl
    exact fresh mem
  rw [after, List.dropWhile_append_of_pos passed, List.dropWhile_cons_of_neg (by simp),
    List.drop_one, List.tail_cons]

/-- A cursor stands for the place up to which its own order has been read. -/
theorem after_take (distinct : order.Nodup) (inside : position ≤ order.length) :
    after (order.take position).getLast? order = order.drop position := by
  cases position with
  | zero => rfl
  | succ position =>
    have split : order = order.take position ++ order[position] :: order.drop (position + 1) := by
      rw [List.getElem_cons_drop, List.take_append_drop]
    have fresh : order[position] ∉ order.take position := by
      intro mem
      have apart := distinct
      rw [split, List.nodup_append] at apart
      exact apart.2.2 _ mem _ List.mem_cons_self rfl
    rw [List.take_succ_eq_append_getElem inside, List.getLast?_concat]
    exact (congrArg (after _) split).trans (after_append fresh)

end After

section Walk

variable {limit : Nat} {orders : Nat → List α} {query position : Nat} {cursor : Option α}
  {fuel : Nat} {pages : List (List α)}

theorem walk_succ (fuel : Nat) (here : after cursor (orders query) = (orders query).drop position) :
    walk limit orders (fuel + 1) query cursor =
      if position + limit < (orders query).length then
        (walk limit orders fuel (query + 1)
          (((orders query).drop position).take limit).getLast?).map
          (((orders query).drop position).take limit :: ·)
      else some [(orders query).drop position] := by
  simp only [walk, here, List.length_take, List.length_drop]
  by_cases more : position + limit < (orders query).length
  · rw [if_pos more, if_pos (by omega), List.take_take, Nat.min_eq_left (Nat.le_succ limit)]
  · rw [if_neg more, if_neg (by omega), List.take_of_length_le]
    rw [List.length_drop]
    omega

omit [DecidableEq α] in
theorem getLast?_page (order : List α) (some' : 0 < limit) (more : position < order.length) :
    ((order.drop position).take limit).getLast? = (order.take (position + limit)).getLast? := by
  have page : order.take (position + limit) =
      order.take position ++ (order.drop position).take limit := by
    rw [List.take_add]
  have shown : (order.drop position).take limit ≠ [] := by
    rw [ne_eq, ← List.length_eq_zero_iff, List.length_take, List.length_drop]
    omega
  rw [page, List.getLast?_append_of_ne_nil _ shown]

/-- While the order stays the same a walk visits what is left of it. -/
theorem walk_steady (some' : 0 < limit) (distinct : order.Nodup)
    (steady : ∀ later ≥ query, orders later = order)
    (here : after cursor order = order.drop position)
    (walked : walk limit orders fuel query cursor = some pages) :
    pages.flatten = order.drop position := by
  induction fuel generalizing query position cursor pages with
  | zero => cases walked
  | succ fuel ih =>
    have now : orders query = order := steady query le_rfl
    rw [walk_succ fuel (by rw [now]; exact here), now] at walked
    split_ifs at walked with more
    · obtain ⟨rest, later, rfl⟩ := Option.map_eq_some_iff.mp walked
      rw [getLast?_page order some' (by omega)] at later
      have onward := ih (fun later past => steady later (by omega))
        (after_take distinct (by omega)) later
      rw [List.flatten_cons, onward, ← List.drop_drop, List.take_append_drop]
    · cases walked
      simp

/-- A walk over an order that stays the same ends after the pages that hold what is left, all but
the last full. -/
theorem walk_pages (some' : 0 < limit) (distinct : order.Nodup)
    (here : after cursor order = order.drop position) :
    ∃ pages, walk limit (fun _ => order) ((order.length - position - 1) / limit + 1) query cursor =
      some pages ∧ pages.length = (order.length - position - 1) / limit + 1 ∧
      ∀ page ∈ pages.dropLast, page.length = limit := by
  induction turns : (order.length - position - 1) / limit generalizing query position cursor with
  | zero =>
    have less := (Nat.div_eq_zero_iff.mp turns).resolve_left (by omega)
    refine ⟨[order.drop position], ?_, rfl, nofun⟩
    rw [walk_succ 0 here, if_neg (by omega)]
  | succ left ih =>
    have enough : limit ≤ order.length - position - 1 := by
      by_contra less
      rw [Nat.div_eq_of_lt (by omega)] at turns
      cases turns
    have fewer : (order.length - (position + limit) - 1) / limit = left := by
      have onward := Nat.sub_mul_div (order.length - position - 1) limit 1
      rw [Nat.mul_one, turns] at onward
      rw [show order.length - (position + limit) - 1 = order.length - position - 1 - limit by omega]
      omega
    obtain ⟨pages, walked, count, full⟩ :=
      @ih (query + 1) (position + limit) _ (after_take distinct (by omega)) fewer
    refine ⟨(order.drop position).take limit :: pages, ?_, by rw [List.length_cons, count], ?_⟩
    · rw [walk_succ _ here, if_pos (by omega), getLast?_page order some' (by omega), walked,
        Option.map_some]
    · have more : pages ≠ [] := by
        rintro rfl
        cases count
      rw [List.dropLast_cons_of_ne_nil more]
      intro page mem
      rcases List.mem_cons.mp mem with rfl | later
      · rw [List.length_take, List.length_drop]
        omega
      · exact full page later

theorem walk_full (some' : 0 < limit) (distinct : order.Nodup)
    (walked : walk limit orders fuel 0 none = some pages) {turns : Nat}
    (steady : ∀ earlier < turns, orders earlier = order) (more : turns * limit < order.length) :
    ∃ fuel' pages',
      walk limit orders fuel' turns (order.take (turns * limit)).getLast? = some pages' ∧
      pages.flatten.length = turns * limit + pages'.flatten.length := by
  induction turns with
  | zero => exact ⟨fuel, pages, by rwa [Nat.zero_mul], by rw [Nat.zero_mul, Nat.zero_add]⟩
  | succ turns ih =>
    rw [Nat.succ_mul] at more ⊢
    obtain ⟨fuel', pages', onward, count⟩ :=
      ih (fun earlier less => steady earlier (by omega)) (by omega)
    have now : orders turns = order := steady turns (Nat.lt_succ_self turns)
    cases fuel' with
    | zero => cases onward
    | succ fuel' =>
      rw [walk_succ fuel' (by rw [now]; exact after_take distinct (by omega)), now,
        if_pos more, getLast?_page order some' (by omega)] at onward
      obtain ⟨rest, later, rfl⟩ := Option.map_eq_some_iff.mp onward
      refine ⟨fuel', rest, later, ?_⟩
      rw [count, List.flatten_cons, List.length_append, List.length_take, List.length_drop]
      omega

end Walk

section Ties

variable {α : Type} [LinearOrder κ]

structure OrderedBy (key : α → κ) (items order : List α) : Prop where
  perm : order.Perm items
  sorted : order.Pairwise fun first second => key first ≤ key second

/-- No page but the last ends at an item that shares its key with another. -/
def Separated (key : α → κ) (limit : Nat) (items : List α) : Prop :=
  ∀ pages, 0 < pages → pages * limit < items.length →
    ∀ k ∈ (sortBy id (items.map key))[pages * limit - 1]?,
      items.countP (fun item => key item = k) = 1

variable {key : α → κ} {items order order' : List α} {position : Nat} {k : κ} {last : α}

theorem orderedBy_sortBy (key : α → κ) (items : List α) : OrderedBy key items (sortBy key items) :=
  ⟨sortBy_perm key items, sortBy_pairwise key items⟩

theorem OrderedBy.map_key (ordered : OrderedBy key items order) :
    order.map key = sortBy id (items.map key) := by
  refine List.Perm.eq_of_pairwise ?_ (List.pairwise_map.mpr ordered.sorted)
    (sortBy_pairwise id (items.map key))
    ((ordered.perm.map key).trans (sortBy_perm id (items.map key)).symm)
  intro first second _ _ below above
  exact le_antisymm below above

theorem OrderedBy.key_getLast? (ordered : OrderedBy key items order) (some' : 0 < position)
    (inside : position ≤ order.length) :
    (order.take position).getLast?.map key = (sortBy id (items.map key))[position - 1]? := by
  rw [← ordered.map_key, List.getElem?_map, List.getLast?_eq_getElem?, List.length_take,
    Nat.min_eq_left inside, List.getElem?_take_of_lt (by omega)]

theorem eq_of_countP_eq_one {first second : α} (one : items.countP (fun item => key item = k) = 1)
    (mem : first ∈ items) (mem' : second ∈ items) (is : key first = k) (is' : key second = k) :
    first = second := by
  rw [List.countP_eq_length_filter] at one
  obtain ⟨only, alone⟩ := List.length_eq_one_iff.mp one
  have here : first ∈ items.filter fun item => key item = k :=
    List.mem_filter.mpr ⟨mem, by simp [is]⟩
  have there : second ∈ items.filter fun item => key item = k :=
    List.mem_filter.mpr ⟨mem', by simp [is']⟩
  rw [alone, List.mem_singleton] at here there
  rw [here, there]

/-- What comes after an item whose key is its own is the same in every order. -/
theorem OrderedBy.drop_eq_filter (ordered : OrderedBy key items order)
    (here : (order.take position).getLast? = some last)
    (one : items.countP (fun item => key item = key last) = 1) :
    order.drop position = order.filter fun item => key last < key item := by
  have mem : last ∈ order.take position := List.mem_of_getLast? here
  have split := List.take_append_drop position order
  have sorted := ordered.sorted
  rw [← split, List.pairwise_append] at sorted
  obtain ⟨left, _, across⟩ := sorted
  have read : (order.take position).filter (fun item => key last < key item) = [] := by
    apply List.filter_eq_nil_iff.mpr
    intro other there
    rw [decide_eq_true_eq, not_lt]
    obtain ⟨front, whole⟩ := List.getLast?_eq_some_iff.mp here
    rw [whole] at there left
    rcases List.mem_append.mp there with old | new
    · exact (List.pairwise_append.mp left).2.2 other old last List.mem_cons_self
    · rw [List.mem_singleton.mp new]
  have unread : (order.drop position).filter (fun item => key last < key item) =
      order.drop position := by
    apply List.filter_eq_self.mpr
    intro other there
    rw [decide_eq_true_eq]
    refine lt_of_le_of_ne (across last mem other there) ?_
    intro same
    have two : 1 + 1 ≤ order.countP fun item => key item = key last := by
      rw [← split, List.countP_append]
      apply Nat.add_le_add
      · exact List.countP_pos_iff.mpr ⟨last, mem, by simp⟩
      · exact List.countP_pos_iff.mpr ⟨other, there, by simp [same]⟩
    rw [ordered.perm.countP_eq, one] at two
    omega
  calc order.drop position
      = (order.take position).filter (fun item => key last < key item) ++
          (order.drop position).filter (fun item => key last < key item) := by
        rw [read, unread, List.nil_append]
    _ = order.filter fun item => key last < key item := by
        rw [← List.filter_append, split]

theorem OrderedBy.getLast?_eq (ordered : OrderedBy key items order)
    (ordered' : OrderedBy key items order') (some' : 0 < position)
    (inside : position ≤ items.length) (here : (order.take position).getLast? = some last)
    (one : items.countP (fun item => key item = key last) = 1) :
    (order'.take position).getLast? = some last := by
  have keys := ordered.key_getLast? some' (by rwa [ordered.perm.length_eq])
  have keys' := ordered'.key_getLast? some' (by rwa [ordered'.perm.length_eq])
  rw [here, ← keys'] at keys
  obtain ⟨other, there, same⟩ := Option.map_eq_some_iff.mp keys.symm
  have mem : last ∈ items :=
    ordered.perm.mem_iff.mp (List.mem_of_mem_take (List.mem_of_getLast? here))
  have mem' : other ∈ items :=
    ordered'.perm.mem_iff.mp (List.mem_of_mem_take (List.mem_of_getLast? there))
  rw [there, eq_of_countP_eq_one one mem' mem same rfl]

end Ties

section Complete

variable [LinearOrder κ] {key : α → κ} {items : List α} {limit : Nat} {orders : Nat → List α}

/-- From the start of a page on, a walk between separated pages ends and visits what is left. -/
theorem walk_of_separated (some' : 0 < limit) (distinct : items.Nodup)
    (separated : Separated key limit items) (ordered : ∀ query, OrderedBy key items (orders query))
    (query : Nat) {cursor : Option α}
    (here : after cursor (orders query) = (orders query).drop (query * limit)) :
    ∃ fuel pages, walk limit orders fuel query cursor = some pages ∧
      pages.flatten.Perm ((orders query).drop (query * limit)) := by
  induction left : items.length - query * limit using Nat.strongRecOn generalizing query cursor with
  | ind left ih =>
    have size : (orders query).length = items.length := (ordered query).perm.length_eq
    by_cases more : query * limit + limit < items.length
    · have distinct' : (orders (query + 1)).Nodup :=
        (ordered (query + 1)).perm.nodup_iff.mpr distinct
      have size' : (orders (query + 1)).length = items.length :=
        (ordered (query + 1)).perm.length_eq
      have next : (query + 1) * limit = query * limit + limit := Nat.succ_mul query limit
      obtain ⟨last, ends⟩ : ∃ last,
          ((orders query).take (query * limit + limit)).getLast? = some last := by
        apply Option.isSome_iff_exists.mp
        rw [List.getLast?_isSome, ne_eq, ← List.length_eq_zero_iff, List.length_take]
        omega
      have one : items.countP (fun item => key item = key last) = 1 := by
        refine separated (query + 1) (Nat.succ_pos query) (by omega) (key last) ?_
        rw [next, ← (ordered query).key_getLast? (by omega) (by omega), ends]
        rfl
      have same := (ordered query).getLast?_eq (ordered (query + 1)) (by omega)
        (show query * limit + limit ≤ items.length by omega) ends one
      have onward : after (some last) (orders (query + 1)) =
          (orders (query + 1)).drop ((query + 1) * limit) := by
        rw [← same, next]
        exact after_take distinct' (by omega)
      obtain ⟨fuel, pages, walked, visited⟩ := ih _ (by omega) (query + 1) onward rfl
      refine ⟨fuel + 1, ((orders query).drop (query * limit)).take limit :: pages, ?_, ?_⟩
      · rw [walk_succ fuel here, if_pos (by omega), getLast?_page _ some' (by omega), ends,
          walked, Option.map_some]
      · have rest : pages.flatten.Perm ((orders query).drop (query * limit + limit)) := by
          refine visited.trans ?_
          rw [next, (ordered (query + 1)).drop_eq_filter same one,
            (ordered query).drop_eq_filter ends one]
          exact (((ordered (query + 1)).perm).trans (ordered query).perm.symm).filter _
        rw [List.flatten_cons]
        refine (rest.append_left _).trans ?_
        rw [← List.drop_drop, List.take_append_drop]
    · refine ⟨1, _, walk_succ 0 here ▸ if_neg (by omega), ?_⟩
      simp

theorem orderedBy_swap (distinct : items.Nodup)
    (ordered : OrderedBy key items order) {first second : α} (mem : first ∈ items)
    (mem' : second ∈ items) (same : key first = key second) :
    OrderedBy key items (order.map (Equiv.swap first second)) := by
  have keys : ∀ item, key (Equiv.swap first second item) = key item := by
    intro item
    rw [Equiv.swap_apply_def]
    split_ifs with one two
    · rw [one, same]
    · rw [two, same]
    · rfl
  have kept : ∀ item, Equiv.swap first second item ∈ items ↔ item ∈ items := by
    intro item
    rw [Equiv.swap_apply_def]
    split_ifs with one two
    · rw [one]
      exact iff_of_true mem' mem
    · rw [two]
      exact iff_of_true mem mem'
    · rfl
  refine ⟨?_, ?_⟩
  · have apart : order.Nodup := ordered.perm.nodup_iff.mpr distinct
    rw [List.perm_ext_iff_of_nodup (apart.map (Equiv.injective _)) distinct]
    intro item
    rw [List.mem_map]
    constructor
    · rintro ⟨old, there, rfl⟩
      exact (kept old).mpr (ordered.perm.mem_iff.mp there)
    · intro there
      exact ⟨Equiv.swap first second item, ordered.perm.mem_iff.mpr ((kept item).mpr there),
        Equiv.swap_apply_self first second item⟩
  · rw [List.pairwise_map]
    refine ordered.sorted.imp ?_
    intro one two below
    rwa [keys, keys]

theorem exists_other (distinct : items.Nodup) {first : α} (mem : first ∈ items)
    (several : items.countP (fun item => key item = key first) ≠ 1) :
    ∃ second ∈ items, key first = key second ∧ second ≠ first := by
  by_contra none
  apply several
  rw [List.countP_eq_length_filter, List.length_eq_one_iff]
  refine ⟨first, List.perm_singleton.mp ?_⟩
  rw [List.perm_ext_iff_of_nodup (distinct.filter _) (List.nodup_singleton first)]
  intro item
  rw [List.mem_filter, List.mem_singleton, decide_eq_true_eq]
  constructor
  · rintro ⟨there, same⟩
    by_contra other
    exact none ⟨item, there, same.symm, other⟩
  · rintro rfl
    exact ⟨mem, rfl⟩

/-- If the last item of a page shares its key with another, the next query may find it at the
other's place and go on from there. -/
theorem separated_of_walk (some' : 0 < limit) (distinct : items.Nodup)
    (always : ∀ orders, (∀ query, OrderedBy key items (orders query)) →
      ∃ fuel pages, walk limit orders fuel 0 none = some pages ∧ pages.flatten.Perm items) :
    Separated key limit items := by
  intro turns positive more k here
  let order := sortBy key items
  have ordered : OrderedBy key items order := orderedBy_sortBy key items
  have size : order.length = items.length := ordered.perm.length_eq
  have apart : order.Nodup := ordered.perm.nodup_iff.mpr distinct
  have start : 0 < turns * limit := Nat.mul_pos positive some'
  rw [← ordered.key_getLast? start (by omega)] at here
  obtain ⟨last, ends, rfl⟩ := Option.map_eq_some_iff.mp here
  have mem : last ∈ items :=
    ordered.perm.mem_iff.mp (List.mem_of_mem_take (List.mem_of_getLast? ends))
  by_contra several
  obtain ⟨other, mem', same, different⟩ := exists_other distinct mem several
  obtain ⟨place, inside, found⟩ := List.getElem_of_mem (ordered.perm.mem_iff.mpr mem')
  let order' := order.map (Equiv.swap last other)
  have ordered' : OrderedBy key items order' := orderedBy_swap distinct ordered mem mem' same
  have size' : order'.length = items.length := ordered'.perm.length_eq
  have moved : (order'.take (place + 1)).getLast? = some last := by
    rw [List.getLast?_eq_getElem?, List.length_take, Nat.min_eq_left (by omega),
      List.getElem?_take_of_lt (by omega), List.getElem?_map, Nat.add_sub_cancel,
      List.getElem?_eq_getElem inside, found, Option.map_some, Equiv.swap_apply_right]
  let orders : Nat → List α := fun query => if query < turns then order else order'
  obtain ⟨fuel, pages, walked, visited⟩ := always orders fun query => by
    by_cases early : query < turns
    · rw [show orders query = order from if_pos early]
      exact ordered
    · rw [show orders query = order' from if_neg early]
      exact ordered'
  obtain ⟨fuel', rest, onward, count⟩ := walk_full some' apart walked
    (fun earlier less => if_pos less) (by omega)
  rw [ends, ← moved] at onward
  have onward' := walk_steady some' (ordered'.perm.nodup_iff.mpr distinct)
    (fun later past => if_neg (by omega)) (after_take (ordered'.perm.nodup_iff.mpr distinct)
      (by omega)) onward
  rw [onward', visited.length_eq, List.length_drop] at count
  have end' : place = turns * limit - 1 := by omega
  rw [List.getLast?_eq_getElem?, List.length_take, Nat.min_eq_left (by omega),
    List.getElem?_take_of_lt (by omega), ← end', List.getElem?_eq_getElem inside, found] at ends
  exact different (Option.some.inj ends)

/-- Whatever the queries do with ties, a walk visits every item once and ends, exactly when its
pages are separated. -/
theorem walk_complete_iff (some' : 0 < limit) (distinct : items.Nodup) :
    (∀ orders, (∀ query, OrderedBy key items (orders query)) →
      ∃ fuel pages, walk limit orders fuel 0 none = some pages ∧ pages.flatten.Perm items) ↔
    Separated key limit items := by
  refine ⟨separated_of_walk some' distinct, ?_⟩
  intro separated orders ordered
  have start : after none (orders 0) = (orders 0).drop (0 * limit) := by
    rw [Nat.zero_mul]
    rfl
  obtain ⟨fuel, pages, walked, visited⟩ :=
    walk_of_separated some' distinct separated ordered 0 start
  refine ⟨fuel, pages, walked, visited.trans ?_⟩
  rw [Nat.zero_mul]
  exact (ordered 0).perm

end Complete

end NestApi
