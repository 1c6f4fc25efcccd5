import Mathlib.Data.List.Basic

namespace NestApi

variable {α β : Type} {items : List α} {item : α} {index : Nat} {last : α} {p : α → Prop}
  {old new : α}

theorem lt_of_getElem? (found : items[index]? = some item) : index < items.length :=
  (List.getElem?_eq_some_iff.mp found).1

theorem getElem?_concat_eq_some (found : (items ++ [last])[index]? = some item) :
    items[index]? = some item ∨ index = items.length ∧ item = last := by
  rw [List.getElem?_append] at found
  split at found
  · exact .inl found
  · obtain ⟨first, same⟩ := List.getElem?_eq_some_iff.mp found
    simp only [List.length_singleton] at first
    refine .inr ⟨by omega, ?_⟩
    simpa using same.symm

theorem getElem?_concat_of_some (found : items[index]? = some item) (last : α) :
    (items ++ [last])[index]? = some item := by
  rw [List.getElem?_append_left (lt_of_getElem? found), found]

theorem getElem?_set_of_some (found : items[index]? = some item) (new : α) :
    (items.set index new)[index]? = some new :=
  List.getElem?_set_self (lt_of_getElem? found)

theorem getElem?_set_eq_some {new : α} {i : Nat} (found : (items.set index new)[i]? = some item) :
    index = i ∧ item = new ∨ index ≠ i ∧ items[i]? = some item := by
  rw [List.getElem?_set] at found
  split at found
  · rename_i same
    split at found
    · exact .inl ⟨same, (Option.some.inj found).symm⟩
    · cases found
  · rename_i different
    exact .inr ⟨different, found⟩

theorem forall_mem_concat (old : ∀ item ∈ items, p item) (here : p last) :
    ∀ item ∈ items ++ [last], p item :=
  List.forall_mem_append.mpr ⟨old, List.forall_mem_singleton.mpr here⟩

theorem forall_mem_set {new : α} (old : ∀ item ∈ items, p item) (here : p new) :
    ∀ item ∈ items.set index new, p item := by
  intro item mem
  rcases List.mem_or_eq_of_mem_set mem with mem | rfl
  · exact old item mem
  · exact here

theorem forall_mem_set_iff (here : items[index]? = some old)
    (fine : p old) : (∀ item ∈ items.set index new, p item) ↔ (∀ item ∈ items, p item) ∧ p new := by
  obtain ⟨inside, _⟩ := List.getElem?_eq_some_iff.mp here
  refine ⟨fun all => ⟨?_, all new (List.mem_set inside new)⟩,
    fun both => forall_mem_set both.1 both.2⟩
  intro item mem
  obtain ⟨j, found⟩ := List.getElem?_of_mem mem
  by_cases same : index = j
  · subst same
    cases here.symm.trans found
    exact fine
  · exact all item (List.mem_of_getElem? ((List.getElem?_set_ne same).trans found))

/-- What holds at every place of a longer list. -/
theorem forall_split_concat {p : List α → α → Prop} :
    (∀ before item after, items ++ [last] = before ++ item :: after → p before item) ↔
      (∀ before item after, items = before ++ item :: after → p before item) ∧ p items last := by
  constructor
  · intro all
    refine ⟨fun before item after split => all before item (after ++ [last]) ?_, all _ _ [] rfl⟩
    rw [split, List.append_assoc, List.cons_append]
  · rintro ⟨all, here⟩ before item after split
    rcases List.eq_nil_or_concat after with rfl | ⟨after', last', rfl⟩
    · obtain ⟨rfl, same⟩ := List.append_inj' split rfl
      cases same
      exact here
    · rw [List.concat_eq_append, ← List.cons_append, ← List.append_assoc] at split
      exact all before item after' (List.append_inj' split rfl).1

theorem nodup_eraseDups [BEq α] [LawfulBEq α] (items : List α) : items.eraseDups.Nodup := by
  have each : ∀ size (items : List α), items.length ≤ size → items.eraseDups.Nodup := by
    intro size
    induction size with
    | zero =>
      intro items small
      simp [List.length_eq_zero_iff.mp (Nat.le_zero.mp small)]
    | succ size ih =>
      intro items small
      cases items with
      | nil => simp
      | cons first rest =>
        have less := List.length_filter_le (fun item => !item == first) rest
        rw [List.length_cons] at small
        rw [List.eraseDups_cons, List.nodup_cons]
        exact ⟨by simp [List.mem_eraseDups], ih _ (by omega)⟩
  exact each _ items (Nat.le_refl _)

/-- Where one item alone is kept, it is kept once. -/
theorem filterMap_of_only {f : α → Option β} (distinct : items.Nodup) (mem : item ∈ items)
    (only : ∀ other, other ≠ item → f other = none) : items.filterMap f = (f item).toList := by
  induction items with
  | nil => cases mem
  | cons first rest ih =>
    rw [List.nodup_cons] at distinct
    rcases List.mem_cons.mp mem with rfl | later
    · have none : rest.filterMap f = [] := by
        apply List.filterMap_eq_nil_iff.mpr
        intro other listed
        exact only other fun same => distinct.1 (same ▸ listed)
      cases kept : f item <;> simp [kept, none]
    · have different : first ≠ item := fun same => distinct.1 (same ▸ later)
      rw [List.filterMap_cons, only first different]
      exact ih distinct.2 later

theorem map_set_of_eq (f : α → β) (here : items[index]? = some old) (same : f new = f old) :
    (items.set index new).map f = items.map f := by
  apply List.ext_getElem?
  intro i
  rw [List.map_set, same, List.getElem?_set]
  split
  · rename_i at_index
    subst at_index
    obtain ⟨inside, found⟩ := List.getElem?_eq_some_iff.mp here
    simp [inside, found]
  · rfl

theorem countP_set_add (p : α → Bool) (here : items[index]? = some old) :
    (items.set index new).countP p + (if p old then 1 else 0) =
      items.countP p + if p new then 1 else 0 := by
  obtain ⟨inside, found⟩ := List.getElem?_eq_some_iff.mp here
  rw [List.countP_set inside, found]
  by_cases counted : p old = true
  · have some : 0 < items.countP p :=
      List.countP_pos_iff.mpr ⟨old, List.mem_of_getElem? here, counted⟩
    rw [if_pos counted]
    omega
  · rw [if_neg counted]
    omega

section Slots

/-! A list of optional items, where an item that is gone leaves its place empty. -/

variable {slots : List (Option α)}

theorem join_concat (new : Option α) (i : Nat) :
    (slots ++ [new])[i]?.join = if i = slots.length then new else slots[i]?.join := by
  by_cases here : i = slots.length
  · subst here
    simp
  · rw [if_neg here]
    by_cases inside : i < slots.length
    · rw [List.getElem?_append_left inside]
    · rw [List.getElem?_eq_none (by simp; omega), List.getElem?_eq_none (by omega)]

theorem join_set (inside : index < slots.length) (new : Option α) (i : Nat) :
    (slots.set index new)[i]?.join = if i = index then new else slots[i]?.join := by
  rw [List.getElem?_set]
  by_cases here : index = i
  · subst here
    simp [inside]
  · rw [if_neg here, if_neg (Ne.symm here)]

theorem join_modify (change : α → α) (i : Nat) :
    (slots.modify index fun slot => slot.map change)[i]?.join =
      if i = index then slots[i]?.join.map change else slots[i]?.join := by
  rw [List.getElem?_modify]
  by_cases here : index = i
  · subst here
    cases slots[index]? with
    | none => simp
    | some slot => cases slot <;> simp
  · rw [if_neg (Ne.symm here)]
    cases slots[i]? with
    | none => rfl
    | some => simp [here]

end Slots

section Keys

variable {κ : Type} {key : α → Option κ}

def Apart (key : α → Option κ) (items : List α) : Prop :=
  ∀ ⦃i j : Nat⦄ ⦃a b : α⦄ ⦃k : κ⦄, items[i]? = some a → items[j]? = some b → key a = some k →
    key b = some k → i = j

theorem Apart.concat (apart : Apart key items) (free : key last = none) :
    Apart key (items ++ [last]) := by
  intro i j a b k hereA hereB keyA keyB
  rcases getElem?_concat_eq_some hereA with hereA | ⟨_, rfl⟩
  · rcases getElem?_concat_eq_some hereB with hereB | ⟨_, rfl⟩
    · exact apart hereA hereB keyA keyB
    · rw [free] at keyB
      cases keyB
  · rw [free] at keyA
    cases keyA

theorem Apart.set (apart : Apart key items) (found : items[index]? = some old)
    (takes : ∀ k, key new = some k → key old = some k ∨ ∀ item ∈ items, key item ≠ some k) :
    Apart key (items.set index new) := by
  have alone : ∀ {j : Nat} {b : α} {k : κ}, items[j]? = some b → key new = some k →
      key b = some k → index = j := by
    intro j b k here mine other
    rcases takes k mine with had | free
    · exact apart found here had other
    · exact absurd other (free b (List.mem_of_getElem? here))
  intro i j a b k hereA hereB keyA keyB
  rcases getElem?_set_eq_some hereA with ⟨rfl, rfl⟩ | ⟨_, oldA⟩
  · rcases getElem?_set_eq_some hereB with ⟨same, _⟩ | ⟨_, oldB⟩
    · exact same
    · exact alone oldB keyA keyB
  · rcases getElem?_set_eq_some hereB with ⟨rfl, rfl⟩ | ⟨_, oldB⟩
    · exact (alone oldA keyB keyA).symm
    · exact apart oldA oldB keyA keyB

end Keys

end NestApi
