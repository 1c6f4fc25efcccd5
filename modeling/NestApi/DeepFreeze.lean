import Mathlib.Data.Fintype.Card

namespace NestApi.Immutable

inductive Value (ι P : Type) where
  | primitive (value : P)
  | object (target : ι)

inductive PropertyKey where
  | string (name : String)
  | symbol (id : Nat)

/-- What `getOwnPropertyDescriptor` returns, with a `value` slot or without. -/
inductive Descriptor (ι P : Type) where
  | data (value : Value ι P)
  | accessor (get set : Option ι)

inductive Kind (ι P : Type) where
  | plain
  | array
  | map (entries : List (Value ι P × Value ι P))
  | set (entries : List (Value ι P))
  | date
  | regExp
  | function
  | arrayBufferView
  | arrayBuffer
  | promise

structure Object (ι P : Type) where
  kind : Kind ι P
  properties : List (PropertyKey × Descriptor ι P)

/-- The objects, which of them are frozen, and the getters that were called. -/
structure Heap (ι P : Type) where
  objects : ι → Object ι P
  isFrozen : ι → Bool
  called : List (ι × PropertyKey)

variable {ι P : Type}

namespace Object

/-- Values that are left exactly as they are. -/
def isOpaque (target : Object ι P) : Bool :=
  match target.kind with
  | .function | .arrayBufferView | .arrayBuffer | .promise => true
  | .plain | .array | .map _ | .set _ | .date | .regExp => false

/-- Values that are frozen but not descended into. -/
def isLeaf (target : Object ι P) : Bool :=
  match target.kind with
  | .date | .regExp => true
  | _ => false

def entries (target : Object ι P) : List (Value ι P) :=
  match target.kind with
  | .map entries => entries.flatMap fun entry => [entry.1, entry.2]
  | .set entries => entries
  | _ => []

def slot : PropertyKey × Descriptor ι P → Option (Value ι P)
  | (_, .data value) => some value
  | (_, .accessor _ _) => none

/-- What is below an object: the entries of a collection, then the data properties. -/
def values (target : Object ι P) : List (Value ι P) :=
  if target.isLeaf then [] else target.entries ++ target.properties.filterMap slot

end Object

namespace Heap

/-- The value of a property. An accessor has its getter called, whose result is left out. -/
def get (heap : Heap ι P) (target : ι) : PropertyKey × Descriptor ι P → Heap ι P × List (Value ι P)
  | (_, .data value) => (heap, [value])
  | (key, .accessor getter _) =>
    ({ heap with called := heap.called ++ getter.toList.map fun _ => (target, key) }, [])

/-- The loop over an object's own keys, which goes on past a descriptor without a `value` slot. -/
def getAll (heap : Heap ι P) (target : ι) :
    List (PropertyKey × Descriptor ι P) → Heap ι P × List (Value ι P)
  | [] => (heap, [])
  | property :: properties =>
    -- without a `value` slot it is an accessor, which is not read
    if (Object.slot property).isNone then heap.getAll target properties
    else
      let read := heap.get target property
      let others := read.1.getAll target properties
      (others.1, read.2 ++ others.2)

def descend (heap : Heap ι P) (target : ι) : Heap ι P × List (Value ι P) :=
  if (heap.objects target).isLeaf then (heap, [])
  else
    let read := heap.getAll target (heap.objects target).properties
    (read.1, (heap.objects target).entries ++ read.2)

theorem getAll_eq (heap : Heap ι P) (target : ι)
    (properties : List (PropertyKey × Descriptor ι P)) :
    heap.getAll target properties = (heap, properties.filterMap Object.slot) := by
  induction properties with
  | nil => rfl
  | cons property properties ih =>
    obtain ⟨key, value | ⟨getter, setter⟩⟩ := property
    · simp [getAll, Heap.get, Object.slot, ih]
    · simp [getAll, List.filterMap_cons, Object.slot, ih]

/-- Going down calls no getter, and comes to the values below the object. -/
theorem descend_eq (heap : Heap ι P) (target : ι) :
    heap.descend target = (heap, (heap.objects target).values) := by
  unfold descend Object.values
  split
  · rfl
  · rw [getAll_eq]

end Heap

section Walk

variable [DecidableEq ι]

/-- The walk of `freezeInto` and `checkFrozen`, which differ in how they visit an object. Pending
are the values of the loops under way, those of the innermost loop first. -/
def walk [Fintype ι] (visit : Heap ι P → ι → Option (Heap ι P)) (heap : Heap ι P)
    (seen : Finset ι) : List (Value ι P) → Option (Heap ι P × Finset ι)
  | [] => some (heap, seen)
  | .primitive _ :: pending => walk visit heap seen pending
  | .object target :: pending =>
    if _ : target ∈ seen ∨ (heap.objects target).isOpaque then walk visit heap seen pending
    else
      match visit heap target with
      | none => none
      | some heap =>
        let below := heap.descend target
        walk visit below.1 (insert target seen) (below.2 ++ pending)
termination_by pending => (Fintype.card ι - seen.card, pending.length)
decreasing_by
  · exact .right _ (Nat.lt_succ_self _)
  · exact .right _ (Nat.lt_succ_self _)
  · rename_i unknown
    have more := Finset.card_insert_of_notMem (not_or.mp unknown).1
    have fewer := Finset.card_le_univ (insert target seen)
    exact .left _ _ (by omega)

/-- `Object.freeze`. -/
def freeze (heap : Heap ι P) (target : ι) : Heap ι P :=
  { heap with isFrozen := fun id => decide (id = target) || heap.isFrozen id }

variable [Fintype ι]

def freezeInto : Heap ι P → Finset ι → List (Value ι P) → Option (Heap ι P × Finset ι) :=
  walk fun heap target => some (freeze heap target)

def checkFrozen : Heap ι P → Finset ι → List (Value ι P) → Option (Heap ι P × Finset ι) :=
  walk fun heap target => if heap.isFrozen target then some heap else none

/-- The heap after the call; the value itself is returned. -/
def deepFreeze (heap : Heap ι P) (value : Value ι P) : Option (Heap ι P) :=
  (freezeInto heap ∅ [value]).map Prod.fst

def isDeeplyFrozen (heap : Heap ι P) (value : Value ι P) : Bool :=
  (checkFrozen heap ∅ [value]).isSome

end Walk

/-- The objects that are reached through data properties and collection entries, not through an
opaque object, a `Date` or a `RegExp`, and are not opaque. -/
inductive Reaches (objects : ι → Object ι P) : Value ι P → ι → Prop where
  | here {target} (clear : (objects target).isOpaque = false) :
      Reaches objects (.object target) target
  | within {target other value} (clear : (objects target).isOpaque = false)
      (listed : value ∈ (objects target).values) (reaches : Reaches objects value other) :
      Reaches objects (.object target) other

/-- An object is passed by once it has been seen; other values and opaque objects are at once. -/
def Passed (objects : ι → Object ι P) (seen : Finset ι) (value : Value ι P) : Prop :=
  ∀ id, value = .object id → (objects id).isOpaque = false → id ∈ seen

variable {objects : ι → Object ι P} {root value : Value ι P} {pending : List (Value ι P)}
  {target : ι} {good : ι → Prop} {seen : Finset ι}

/-- A walk under way: what is next to an object it has seen is pending or passed, and it has seen
good objects only. -/
structure Walking (objects : ι → Object ι P) (good : ι → Prop) (root : Value ι P)
    (pending : List (Value ι P)) (seen : Finset ι) : Prop where
  start : root ∈ pending ∨ Passed objects seen root
  next : ∀ id ∈ seen, ∀ value ∈ (objects id).values, value ∈ pending ∨ Passed objects seen value
  reached : ∀ id ∈ seen, good id ∧ Reaches objects root id
  ahead : ∀ value ∈ pending, ∀ id, Reaches objects value id → Reaches objects root id

theorem walking_start (good : ι → Prop) : Walking objects good root [root] ∅ := by
  refine ⟨.inl List.mem_cons_self, ?_, ?_, ?_⟩ <;> simp

theorem Walking.skip (walking : Walking objects good root (value :: pending) seen)
    (passed : Passed objects seen value) : Walking objects good root pending seen := by
  obtain ⟨start, next, reached, ahead⟩ := walking
  refine ⟨?_, ?_, reached, ?_⟩
  · grind
  · grind
  · grind

theorem Walking.visit [DecidableEq ι]
    (walking : Walking objects good root (.object target :: pending) seen)
    (clear : (objects target).isOpaque = false) (fine : good target) :
    Walking objects good root ((objects target).values ++ pending) (insert target seen) := by
  obtain ⟨start, next, reached, ahead⟩ := walking
  have here := ahead _ List.mem_cons_self
  refine ⟨?_, ?_, ?_, ?_⟩
  · grind [Passed]
  · grind [Passed]
  · grind [Reaches]
  · grind [Reaches]

/-- A walk that has come to its end has seen all there is to see. -/
theorem Walking.mem_of_reaches (walking : Walking objects good root [] seen) {id : ι}
    (reaches : Reaches objects root id) : id ∈ seen := by
  have start := walking.start.resolve_left List.not_mem_nil
  have next := walking.next
  clear walking
  induction reaches with
  | here clear => exact start _ rfl clear
  | within clear listed reaches ih =>
    exact ih ((next _ (start _ rfl clear) _ listed).resolve_left List.not_mem_nil)

variable [DecidableEq ι] [Fintype ι]

/-- A walk whose heap is a `view` of what has been seen comes to its end, or to an object that is
not good. -/
theorem walk_ends (visit : Heap ι P → ι → Option (Heap ι P)) (view : Finset ι → Heap ι P)
    (frame : ∀ seen, (view seen).objects = objects)
    (visits : ∀ seen id, good id ∧ visit (view seen) id = some (view (insert id seen)) ∨
      ¬ good id ∧ visit (view seen) id = none)
    (walking : Walking objects good root pending seen) :
    (∃ seen', walk visit (view seen) seen pending = some (view seen', seen') ∧
        Walking objects good root [] seen') ∨
      walk visit (view seen) seen pending = none ∧ ∃ id, Reaches objects root id ∧ ¬ good id := by
  generalize same : view seen = heap
  fun_induction walk visit heap seen pending with
  | case1 heap seen =>
    subst same
    exact .inl ⟨seen, rfl, walking⟩
  | case2 heap seen value pending ih => exact ih (walking.skip nofun) same
  | case3 heap seen target pending known ih =>
    refine ih (walking.skip ?_) same
    rintro id ⟨⟩ clear
    rw [← same, frame] at known
    exact known.resolve_right (by simp [clear])
  | case4 heap seen target pending unknown none =>
    subst same
    rw [frame, not_or, Bool.not_eq_true] at unknown
    rcases visits seen target with ⟨_, wrong⟩ | ⟨bad, _⟩
    · cases none.symm.trans wrong
    · exact .inr ⟨rfl, target, walking.ahead _ List.mem_cons_self target (.here unknown.2), bad⟩
  | case5 heap seen target pending unknown next some below ih =>
    subst same
    dsimp only [below] at ih ⊢
    rw [Heap.descend_eq] at ih ⊢
    rw [frame, not_or, Bool.not_eq_true] at unknown
    rcases visits seen target with ⟨fine, visited⟩ | ⟨_, wrong⟩
    · cases some.symm.trans visited
      rw [frame] at ih ⊢
      exact ih (walking.visit unknown.2 fine) rfl
    · cases some.symm.trans wrong

theorem isDeeplyFrozen_iff (heap : Heap ι P) (value : Value ι P) :
    isDeeplyFrozen heap value = true ↔
      ∀ id, Reaches heap.objects value id → heap.isFrozen id = true := by
  rcases walk_ends (fun heap target => if heap.isFrozen target then some heap else none)
    (fun _ => heap) (fun _ => rfl)
    (fun _ id => by by_cases frozen : heap.isFrozen id <;> simp [frozen])
    (walking_start fun id => heap.isFrozen id = true) with
    ⟨seen, ran, walking⟩ | ⟨ran, id, reaches, bad⟩
  · rw [isDeeplyFrozen, checkFrozen, ran]
    exact iff_of_true rfl fun id reaches => (walking.reached id (walking.mem_of_reaches reaches)).1
  · rw [isDeeplyFrozen, checkFrozen, ran]
    exact iff_of_false nofun fun all => bad (all id reaches)

/-- `deepFreeze` returns; it freezes the objects that are reached and no others, calls no getter and
changes no value; and `isDeeplyFrozen` finds whether they are frozen. -/
theorem deepFreeze_reaches (heap : Heap ι P) (value : Value ι P) :
    (∃ after, deepFreeze heap value = some after ∧ after.objects = heap.objects ∧
      after.called = heap.called ∧
      (∀ id, after.isFrozen id = true ↔ Reaches heap.objects value id ∨ heap.isFrozen id = true) ∧
      isDeeplyFrozen after value = true) ∧
    (isDeeplyFrozen heap value = true ↔
      ∀ id, Reaches heap.objects value id → heap.isFrozen id = true) := by
  refine ⟨?_, isDeeplyFrozen_iff heap value⟩
  let view (seen : Finset ι) : Heap ι P :=
    { heap with isFrozen := fun id => decide (id ∈ seen) || heap.isFrozen id }
  have start : view ∅ = heap := by simp [view]
  rcases walk_ends (fun heap target => some (freeze heap target)) view (fun _ => rfl)
    (fun seen id => .inl ⟨trivial, by simp [view, freeze, Bool.or_assoc]⟩)
    (walking_start fun _ => True) with ⟨seen, ran, walking⟩ | ⟨_, _, _, bad⟩
  · have frozen : ∀ id, (view seen).isFrozen id = true ↔
        Reaches heap.objects value id ∨ heap.isFrozen id = true := by
      intro id
      rw [Bool.or_eq_true, decide_eq_true_eq]
      exact or_congr_left ⟨fun there => (walking.reached id there).2, walking.mem_of_reaches⟩
    refine ⟨view seen, ?_, rfl, rfl, frozen, ?_⟩
    · rw [deepFreeze, freezeInto, ← start, ran]
      rfl
    · exact (isDeeplyFrozen_iff _ _).mpr fun id reaches => (frozen id).mpr (.inl reaches)
  · exact absurd trivial bad

end NestApi.Immutable
