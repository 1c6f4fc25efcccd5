import Mathlib.Data.List.Basic

namespace NestApi

variable {κ β : Type}

abbrev Cache (κ β : Type) := κ → Option β

namespace Cache

def cold : Cache κ β := fun _ => none

/-- Every entry of one cache that meets a condition is in the other as well. -/
def Covers (mine : β → Prop) (cache other : Cache κ β) : Prop :=
  ∀ key entry, cache key = some entry → mine entry → other key = some entry

theorem covers_cold {mine : β → Prop} {other : Cache κ β} : Covers mine cold other := by
  intro key entry held
  cases held

variable [DecidableEq κ] {cache : Cache κ β} {keys : List κ} {entry : β}

def drop (cache : Cache κ β) (keys : List κ) : Cache κ β :=
  fun key => if key ∈ keys then none else cache key

def store (cache : Cache κ β) (key : κ) (entry : β) : Cache κ β :=
  Function.update cache key (some entry)

theorem drop_eq_some {key : κ} :
    cache.drop keys key = some entry ↔ key ∉ keys ∧ cache key = some entry := by
  by_cases member : key ∈ keys <;> simp [drop, member]

theorem store_eq_some {key key' : κ} {entry entry' : β} : cache.store key entry key' = some entry' ↔
      key' = key ∧ entry = entry' ∨ key' ≠ key ∧ cache key' = some entry' := by
  by_cases same : key' = key
  · subst same
    simp [store]
  · simp [store, same]

section Covers

variable {mine : β → Prop} {other : Cache κ β}

variable (covers : Covers mine cache other)

include covers

theorem Covers.drop_left (keys : List κ) : Covers mine (cache.drop keys) other := by
  intro key entry held own
  exact covers key entry (drop_eq_some.mp held).2 own

theorem Covers.drop (keys : List κ) : Covers mine (cache.drop keys) (other.drop keys) := by
  intro key entry held own
  obtain ⟨kept, held⟩ := drop_eq_some.mp held
  exact drop_eq_some.mpr ⟨kept, covers key entry held own⟩

theorem Covers.store (key : κ) (entry : β) :
    Covers mine (cache.store key entry) (other.store key entry) := by
  intro key' entry' held own
  rcases store_eq_some.mp held with stored | ⟨apart, held⟩
  · exact store_eq_some.mpr (.inl stored)
  · exact store_eq_some.mpr (.inr ⟨apart, covers key' entry' held own⟩)

theorem Covers.store_left (key : κ)
    (foreign : ¬ mine entry) : Covers mine (cache.store key entry) other := by
  intro key' entry' held own
  rcases store_eq_some.mp held with ⟨-, rfl⟩ | ⟨-, held⟩
  · exact absurd own foreign
  · exact covers key' entry' held own

/-- What the smaller cache does not hold may be missing from the larger one. -/
theorem Covers.drop_missing
    (missing : ∀ key ∈ keys, cache key = none) : Covers mine cache (other.drop keys) := by
  intro key entry held own
  refine drop_eq_some.mpr ⟨?_, covers key entry held own⟩
  intro member
  rw [missing key member] at held
  cases held

end Covers

end Cache

end NestApi
