import Mathlib.Algebra.BigOperators.Group.List.Basic
import Mathlib.Data.List.Nodup
import Mathlib.Tactic.Abel

namespace NestApi

variable {κ ν : Type}

/-- A JavaScript `Map`: one value per key, iterated in the order in which the keys were
first set. -/
structure OrderedMap (κ ν : Type) where
  entries : List (κ × ν)
  distinct : (entries.map Prod.fst).Nodup

namespace OrderedMap

def empty : OrderedMap κ ν := ⟨[], List.nodup_nil⟩

def values (m : OrderedMap κ ν) : List ν := m.entries.map Prod.snd

variable [DecidableEq κ]

def getEntries (k : κ) (entries : List (κ × ν)) : Option ν :=
  (entries.find? fun entry => entry.1 = k).map Prod.snd

def get (m : OrderedMap κ ν) (k : κ) : Option ν := getEntries k m.entries

/-- Overwrites a key in place, or appends a key that is not there yet. -/
def setEntries (k : κ) (v : ν) : List (κ × ν) → List (κ × ν)
  | [] => [(k, v)]
  | entry :: rest => if entry.1 = k then (k, v) :: rest else entry :: setEntries k v rest

variable {k k' : κ} {v : ν} {entries : List (κ × ν)} {m : OrderedMap κ ν}

theorem mem_keys_setEntries :
    k' ∈ (setEntries k v entries).map Prod.fst ↔ k' = k ∨ k' ∈ entries.map Prod.fst := by
  induction entries with
  | nil => simp [setEntries]
  | cons entry rest ih =>
    unfold setEntries
    split
    · rename_i same
      simp [same]
    · simp only [List.map_cons, List.mem_cons, ih]
      tauto

theorem setEntries_distinct (distinct : (entries.map Prod.fst).Nodup) :
    ((setEntries k v entries).map Prod.fst).Nodup := by
  induction entries with
  | nil => simp [setEntries]
  | cons entry rest ih =>
    rw [List.map_cons, List.nodup_cons] at distinct
    unfold setEntries
    split
    · rename_i same
      rw [List.map_cons, List.nodup_cons]
      exact ⟨same ▸ distinct.1, distinct.2⟩
    · rename_i other
      rw [List.map_cons, List.nodup_cons, mem_keys_setEntries]
      exact ⟨not_or.mpr ⟨other, distinct.1⟩, ih distinct.2⟩

def set (m : OrderedMap κ ν) (k : κ) (v : ν) : OrderedMap κ ν :=
  ⟨setEntries k v m.entries, setEntries_distinct m.distinct⟩

theorem getEntries_setEntries (entries : List (κ × ν)) (k k' : κ) (v : ν) :
    getEntries k' (setEntries k v entries) = if k' = k then some v else getEntries k' entries := by
  simp only [getEntries]
  induction entries with
  | nil =>
    by_cases same : k' = k
    · simp [setEntries, same]
    · simp [setEntries, same, Ne.symm same]
  | cons entry rest ih =>
    by_cases atEntry : entry.1 = k
    · by_cases same : k' = k
      · simp [setEntries, atEntry, same]
      · simp [setEntries, atEntry, same, Ne.symm same]
    · by_cases here : entry.1 = k'
      · have other : k' ≠ k := here ▸ atEntry
        simp [setEntries, here, other]
      · simpa [setEntries, atEntry, here] using ih

theorem get_set (m : OrderedMap κ ν) (k k' : κ) (v : ν) :
    (m.set k v).get k' = if k' = k then some v else m.get k' :=
  getEntries_setEntries m.entries k k' v

theorem forall_get_set {p : κ → ν → Prop} (here : p k v)
    (old : ∀ k' w, m.get k' = some w → p k' w) : ∀ k' w, (m.set k v).get k' = some w → p k' w := by
  intro k' w found
  rw [get_set] at found
  split at found
  · rename_i same
    cases found
    exact same ▸ here
  · exact old k' w found

@[simp] theorem get_set_self (m : OrderedMap κ ν) (k : κ) (v : ν) : (m.set k v).get k = some v := by
  rw [get_set, if_pos rfl]

theorem get_set_of_ne (m : OrderedMap κ ν) (v : ν) (other : k' ≠ k) :
    (m.set k v).get k' = m.get k' := by
  rw [get_set, if_neg other]

/-- Sets several keys in turn, as an object literal does after a spread. -/
def setAll (m : OrderedMap κ ν) (entries : List (κ × ν)) : OrderedMap κ ν :=
  entries.foldl (fun m entry => m.set entry.1 entry.2) m

theorem get_setAll_of_notMem (other : k ∉ entries.map Prod.fst) (m : OrderedMap κ ν) :
    (m.setAll entries).get k = m.get k := by
  induction entries generalizing m with
  | nil => rfl
  | cons entry rest ih =>
    rw [List.map_cons, List.mem_cons, not_or] at other
    have later := ih other.2 (m.set entry.1 entry.2)
    rw [get_set_of_ne _ _ other.1] at later
    exact later

theorem get_setAll_of_mem (distinct : (entries.map Prod.fst).Nodup) (member : (k, v) ∈ entries)
    (m : OrderedMap κ ν) : (m.setAll entries).get k = some v := by
  induction entries generalizing m with
  | nil => cases member
  | cons entry rest ih =>
    rw [List.map_cons, List.nodup_cons] at distinct
    rcases List.mem_cons.mp member with rfl | later
    · have kept := get_setAll_of_notMem distinct.1 (m.set k v)
      rw [get_set_self] at kept
      exact kept
    · exact ih distinct.2 later (m.set entry.1 entry.2)

theorem mem_entries_iff : (k, v) ∈ m.entries ↔ m.get k = some v := by
  constructor
  · intro member
    unfold get getEntries
    cases found : m.entries.find? fun entry => entry.1 = k with
    | none =>
      have absent := List.find?_eq_none.mp found (k, v) member
      simp at absent
    | some entry =>
      have key : entry.1 = k := by simpa using List.find?_some found
      have same := List.inj_on_of_nodup_map m.distinct (List.mem_of_find?_eq_some found) member key
      simp [same]
  · intro got
    unfold get getEntries at got
    obtain ⟨entry, found, value⟩ := Option.map_eq_some_iff.mp got
    have key : entry.1 = k := by simpa using List.find?_some found
    have same : entry = (k, v) := Prod.ext key value
    exact same ▸ List.mem_of_find?_eq_some found

def delete (m : OrderedMap κ ν) (k : κ) : OrderedMap κ ν :=
  ⟨m.entries.filter fun entry => entry.1 ≠ k, m.distinct.sublist (List.filter_sublist.map _)⟩

theorem get_delete (m : OrderedMap κ ν) (k k' : κ) :
    (m.delete k).get k' = if k' = k then none else m.get k' := by
  apply Option.ext
  intro v
  rw [← mem_entries_iff, delete, List.mem_filter, mem_entries_iff]
  by_cases same : k' = k <;> simp [same]

theorem filter_setAll_perm (distinct : (entries.map Prod.fst).Nodup) {p : κ → Bool}
    (names : ∀ k, p k = true ↔ k ∈ entries.map Prod.fst) (m : OrderedMap κ ν) :
    ((m.setAll entries).entries.filter fun entry => p entry.1).Perm entries := by
  have once : ((m.setAll entries).entries.filter fun entry => p entry.1).Nodup :=
    (List.Nodup.of_map Prod.fst (m.setAll entries).distinct).filter _
  apply (List.perm_ext_iff_of_nodup once (List.Nodup.of_map Prod.fst distinct)).mpr
  intro entry
  rw [List.mem_filter, names]
  constructor
  · intro ⟨kept, listed⟩
    obtain ⟨given, member, key⟩ := List.mem_map.mp listed
    have wanted := get_setAll_of_mem distinct (k := given.1) (v := given.2) member m
    have found := mem_entries_iff.mp kept
    rw [key, found] at wanted
    have same : given = entry := Prod.ext key (Option.some.inj wanted).symm
    exact same ▸ member
  · intro member
    exact ⟨mem_entries_iff.mpr (get_setAll_of_mem distinct member m), List.mem_map_of_mem member⟩

theorem mem_values_iff : v ∈ m.values ↔ ∃ k, m.get k = some v := by
  simp [values, mem_entries_iff]

section Count

variable {p : ν → Bool}

theorem countP_values_eq_zero (none : ∀ k v, m.get k = some v → p v = false) :
    m.values.countP p = 0 := by
  rw [List.countP_eq_zero]
  intro v member
  obtain ⟨k, got⟩ := mem_values_iff.mp member
  simp [none k v got]

theorem countP_values_eq_one {k : κ} {v : ν} (got : m.get k = some v)
    (holds : p v = true) (only : ∀ k' v', m.get k' = some v' → p v' = true → k' = k) :
    m.values.countP p = 1 := by
  have same : ∀ entry ∈ m.entries.filter fun entry => p entry.2, entry = (k, v) := by
    intro entry member
    obtain ⟨here, kept⟩ := List.mem_filter.mp member
    have found : m.get entry.1 = some entry.2 := mem_entries_iff.mp here
    have key : entry.1 = k := only entry.1 entry.2 found kept
    rw [key, got] at found
    exact Prod.ext key (Option.some.inj found).symm
  have distinct : (m.entries.filter fun entry => p entry.2).Nodup :=
    (List.Nodup.of_map Prod.fst m.distinct).filter _
  have present : (k, v) ∈ m.entries.filter fun entry => p entry.2 :=
    List.mem_filter.mpr ⟨mem_entries_iff.mpr got, holds⟩
  have single : (m.entries.filter fun entry => p entry.2) = [(k, v)] :=
    List.perm_singleton.mp ((List.perm_ext_iff_of_nodup distinct (List.nodup_singleton _)).mpr
      fun entry => ⟨fun member => List.mem_singleton.mpr (same entry member),
        fun member => List.mem_singleton.mp member ▸ present⟩)
  rw [values, List.countP_map, List.countP_eq_length_filter]
  exact congrArg List.length single

end Count

section Sum

variable {M : Type} [AddCommMonoid M]

def sumBy (quantity : ν → M) (m : OrderedMap κ ν) : M :=
  (m.values.map quantity).sum

theorem sumBy_set (quantity : ν → M) (m : OrderedMap κ ν) (k : κ) (v : ν) :
    sumBy quantity (m.set k v) + ((m.get k).map quantity).getD 0 =
      sumBy quantity m + quantity v := by
  simp only [sumBy, values, get, getEntries, set]
  generalize m.entries = entries
  induction entries with
  | nil => simp [setEntries]
  | cons entry rest ih =>
    by_cases atEntry : entry.1 = k
    · simp only [setEntries, atEntry, ↓reduceIte, List.map_cons, List.sum_cons, decide_true,
        List.find?_cons_of_pos, Option.map_some, Option.getD_some]
      abel
    · simp only [setEntries, atEntry, ↓reduceIte, List.map_cons, List.sum_cons, decide_false,
        Bool.false_eq_true, not_false_eq_true, List.find?_cons_of_neg]
      rw [add_assoc, ih, add_assoc]

end Sum

end OrderedMap

end NestApi
