import NestApi.Transition
import Mathlib.Data.List.Range

namespace NestApi

variable {ρ : Type}

/-- A write that found a value in a cell and left another there, or none. -/
structure Put (ρ : Type) where
  before : ρ
  after : Option ρ
  deriving DecidableEq

/-- One write to a cell after another, each over what the last one left. -/
def Overwrites (cell : Option ρ) (put : Put ρ) (cell' : Option ρ) : Prop :=
  cell = some put.before ∧ cell' = put.after

/-- What becomes of a value in a cell: nothing is filled again once it is empty. -/
inductive History : ρ → List (Put ρ) → Option ρ → Prop where
  | kept (first : ρ) : History first [] (some first)
  | removed (first : ρ) : History first [⟨first, none⟩] none
  | replaced (first : ρ) {next puts cell}
      (later : History next puts cell) : History first (⟨first, some next⟩ :: puts) cell

variable {version : ρ → Nat} {first : ρ} {cell : Option ρ} {puts : List (Put ρ)}

theorem nil_of_overwrites_none (run : Steps Overwrites (none : Option ρ) puts cell) :
    puts = [] ∧ cell = none := by
  cases run with
  | nil => exact ⟨rfl, rfl⟩
  | cons head => cases head.1

theorem history_of_overwrites (run : Steps Overwrites (some first) puts cell) :
    History first puts cell := by
  induction puts generalizing first with
  | nil =>
    cases run
    exact .kept first
  | cons put puts ih =>
    obtain ⟨before, after⟩ := put
    cases run with
    | @cons _ left _ _ _ head tail =>
      obtain ⟨here, kept⟩ := head
      cases here
      change left = after at kept
      subst kept
      cases left with
      | none =>
        obtain ⟨rfl, rfl⟩ := nil_of_overwrites_none tail
        exact .removed before
      | some => exact .replaced before (ih tail)

/-- A write that leaves a value leaves it one version further. -/
def Put.Raises (version : ρ → Nat) (put : Put ρ) : Prop :=
  ∀ value ∈ put.after, version value = version put.before + 1

namespace History

/-- The versions of the values written number the writes that left one. -/
theorem versions (history : History first puts cell)
    (raises : ∀ put ∈ puts, put.Raises version) :
    (puts.filterMap Put.after).map version =
        List.range' (version first + 1) (puts.filterMap Put.after).length ∧
      ∀ value ∈ cell, version value = version first + (puts.filterMap Put.after).length := by
  induction history with
  | kept =>
    refine ⟨rfl, ?_⟩
    rintro value ⟨⟩
    rfl
  | removed => exact ⟨rfl, nofun⟩
  | @replaced first next puts cell later ih =>
    obtain ⟨here, above⟩ := List.forall_mem_cons.mp raises
    have raised : version next = version first + 1 := here next rfl
    obtain ⟨versions, last⟩ := ih above
    have left : Put.after ⟨first, some next⟩ = some next := rfl
    rw [List.filterMap_cons_some left, List.map_cons, List.length_cons, List.range'_succ,
      versions, raised]
    refine ⟨rfl, ?_⟩
    intro value there
    have := last value there
    omega

theorem increasing (history : History first puts cell)
    (raises : ∀ put ∈ puts, put.Raises version) :
    (puts.Pairwise fun put later => version put.before < version later.before) ∧
      (∀ put ∈ puts, version first ≤ version put.before) ∧
      ∀ value ∈ cell, version first ≤ version value := by
  induction history with
  | kept =>
    refine ⟨.nil, nofun, ?_⟩
    rintro value ⟨⟩
    exact le_rfl
  | removed =>
    refine ⟨List.pairwise_singleton _ _, ?_, nofun⟩
    intro put mem
    cases List.mem_singleton.mp mem
    exact le_rfl
  | @replaced first next puts cell later ih =>
    obtain ⟨here, above⟩ := List.forall_mem_cons.mp raises
    have raised : version next = version first + 1 := here next rfl
    obtain ⟨grow, found, last⟩ := ih above
    refine ⟨List.pairwise_cons.mpr ⟨?_, grow⟩, List.forall_mem_cons.mpr ⟨le_rfl, ?_⟩, ?_⟩
    · intro put mem
      have := found put mem
      dsimp only
      omega
    · intro put mem
      have := found put mem
      omega
    · intro value there
      have := last value there
      omega

end History

end NestApi
