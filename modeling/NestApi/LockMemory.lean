import NestApi.LockOwnership

/- `InMemoryDistributedLock`. An entry is a place in the list of all entries made, which stands
for the object's identity; the `value` that no code reads is left out. -/
namespace NestApi.Locking.Memory

structure Entry where
  key : String
  fencingToken : Nat
  expiresAt : ℚ

structure Store where
  heap : List Entry
  entries : String → Option Nat
  counter : Nat

namespace Store

def taken (now : ℚ) (key : String) (s : Store) : Bool :=
  (s.entries key).any fun ref => (s.heap[ref]?).any fun entry => now < entry.expiresAt

def claim (now : ℚ) (key : String) (ttlMs : ℚ) (s : Store) : Store where
  heap := s.heap ++ [⟨key, s.counter + 1, now + ttlMs⟩]
  entries := Function.update s.entries key (some s.heap.length)
  counter := s.counter + 1

def holds (now : ℚ) (ref : Nat) (s : Store) : Bool :=
  (s.heap[ref]?).any fun entry => s.entries entry.key = some ref ∧ now < entry.expiresAt

def extend (expiresAt : ℚ) (ref : Nat) (s : Store) : Store :=
  { s with heap := s.heap.modify ref fun entry => { entry with expiresAt := expiresAt } }

def delete (ref : Nat) (s : Store) : Store :=
  match s.heap[ref]? with
  | none => s
  | some entry => { s with entries := Function.update s.entries entry.key none }

end Store

/-- What the loop of `acquire` keeps. -/
structure Loop where
  key : String
  ttlMs : ℚ
  deadline : ℚ
  retryDelayMs : ℚ

inductive Task where
  | claiming (loop : Loop)
  | refused (loop : Loop)
  | sleeping (loop : Loop) (wakes : ℚ)
  /-- `extend` has found that it holds the entry and has not written the new expiry. -/
  | extending (ref : Nat) (extendMs : ℚ)
  | done (answer : Answer Nat)

def Task.isExtending : Task → Bool
  | .extending _ _ => true
  | _ => false

structure State where
  store : Store
  tasks : List Task

/-- A task goes on, with what `random()` returns. -/
structure Event where
  task : Nat
  random : ℚ

namespace State

def idle (s : State) : Bool := s.tasks.all fun task => !task.isExtending

def push (task : Task) (s : State) : State := { s with tasks := s.tasks ++ [task] }

def call (now : ℚ) (s : State) : Request Unit Nat → State
  | .acquire _ key options =>
    if isSafeInteger options.ttlMs = false ∨ options.ttlMs ≤ 0 then
      s.push (.done (.threw (.notPositiveInteger "ttlMs" options.ttlMs)))
    else
      s.push (.claiming ⟨key, options.ttlMs, now + options.waitMs.getD 0,
        options.retryDelayMs.getD 100⟩)
  | .extend ref extendMs =>
    if s.store.holds now ref then s.push (.extending ref extendMs)
    else s.push (.done (.done false))
  | .release ref =>
    if s.store.holds now ref then
      { s with store := s.store.delete ref }.push (.done (.done true))
    else s.push (.done (.done false))

/-- One pass of the loop of `acquire`, up to its next reading of the clock or its sleep. -/
def proceed (now random : ℚ) (store : Store) : Task → Option (Store × Task)
  | .claiming loop =>
    if store.taken now loop.key then some (store, .refused loop)
    else some (store.claim now loop.key loop.ttlMs, .done (.handle (some store.heap.length)))
  | .refused loop =>
    if loop.deadline - now ≤ 0 then some (store, .done (.handle none))
    else
      some (store, .sleeping loop
        (now + min (loop.deadline - now) (mathRound (loop.retryDelayMs * random))))
  | .sleeping loop wakes => if wakes ≤ now then some (store, .claiming loop) else none
  | .extending ref extendMs => some (store.extend (now + extendMs) ref, .done (.done true))
  | .done _ => none

/-- A task goes on when it is the one whose synchronous code is running, or when none is. -/
def act (now : ℚ) (event : Event) (s : State) : Option State :=
  (s.tasks[event.task]?).bind fun task =>
    if s.idle || task.isExtending then
      (proceed now event.random s.store task).map fun next =>
        ⟨next.1, s.tasks.set event.task next.2⟩
    else none

def answer (s : State) (task : Nat) : Option (Answer Nat) :=
  match s.tasks[task]? with
  | some (.done answer) => some answer
  | _ => none

def remainingMs (now : ℚ) (ref : Nat) (s : State) : ℚ :=
  match s.store.heap[ref]? with
  | none => 0
  | some entry => max 0 (entry.expiresAt - now)

def fencingToken (ref : Nat) (s : State) : Nat :=
  match s.store.heap[ref]? with
  | none => 0
  | some entry => entry.fencingToken

end State

end Memory

open Memory in
abbrev memory : DistributedLock where
  Service := Unit
  Handle := Nat
  State := State
  Event := Event
  initial := ⟨⟨[], fun _ => none, 0⟩, []⟩
  tasks s := s.tasks.length
  call now request s := s.call now request
  act := State.act
  answer := State.answer
  idle := State.idle
  remainingMs := State.remainingMs
  fencingToken := State.fencingToken

namespace Memory

def Current (s : Store) (ref : Nat) : Prop :=
  ∃ entry, s.heap[ref]? = some entry ∧ s.entries entry.key = some ref

def Expired (now : ℚ) (s : Store) (ref : Nat) : Prop :=
  ∃ entry, s.heap[ref]? = some entry ∧ entry.expiresAt ≤ now

variable {ref : Nat} {event : Event} {task : Nat} {answer : Answer Nat}

theorem holds_iff {now : ℚ} {s : Store} :
    s.holds now ref = true ↔ Current s ref ∧ ¬ Expired now s ref := by
  simp only [Store.holds, Option.any_eq_true, decide_eq_true_eq, Current, Expired]
  constructor
  · rintro ⟨entry, found, current, live⟩
    refine ⟨⟨entry, found, current⟩, ?_⟩
    rintro ⟨other, same, late⟩
    cases found.symm.trans same
    exact absurd live (not_lt.mpr late)
  · rintro ⟨⟨entry, found, current⟩, live⟩
    refine ⟨entry, found, current, ?_⟩
    by_contra late
    exact live ⟨entry, found, not_lt.mp late⟩

section Store

variable {now : ℚ} {s : Store} {entry : Entry}

theorem made_of_current (current : Current s ref) : ref < s.heap.length := by
  obtain ⟨entry, found, _⟩ := current
  exact lt_of_getElem? found

variable {key : String} {ttlMs : ℚ} {other : Nat} {expiresAt : ℚ}

theorem claim_heap (found : s.heap[ref]? = some entry) :
    (s.claim now key ttlMs).heap[ref]? = some entry :=
  getElem?_concat_of_some found _

theorem extend_heap (found : s.heap[ref]? = some entry) : (s.extend expiresAt other).heap[ref]? =
      some (if other = ref then { entry with expiresAt := expiresAt } else entry) := by
  simp only [Store.extend, List.getElem?_modify, found, Option.map_eq_map, Option.map_some]

theorem delete_heap : (s.delete other).heap = s.heap := by
  simp only [Store.delete]
  split <;> rfl

/-- Only an entry whose lease has run out is replaced. -/
theorem current_claim (free : s.taken now key = false) (current : Current s ref) :
    Current (s.claim now key ttlMs) ref ∨ Expired now (s.claim now key ttlMs) ref := by
  obtain ⟨entry, found, here⟩ := current
  by_cases same : entry.key = key
  · right
    refine ⟨entry, claim_heap found, ?_⟩
    subst same
    simpa [Store.taken, here, found] using free
  · left
    refine ⟨entry, claim_heap found, ?_⟩
    simp only [Store.claim]
    rwa [Function.update_of_ne same]

theorem expired_claim (late : Expired now s ref) : Expired now (s.claim now key ttlMs) ref := by
  obtain ⟨entry, found, isOver⟩ := late
  exact ⟨entry, claim_heap found, isOver⟩

/-- An entry that is out of the map never comes back. -/
theorem not_current_claim (made : ref < s.heap.length) (gone : ¬ Current s ref) :
    ¬ Current (s.claim now key ttlMs) ref := by
  rintro ⟨entry, found, here⟩
  apply gone
  have old : s.heap[ref]? = some entry := by
    simp only [Store.claim] at found
    rwa [List.getElem?_append_left made] at found
  refine ⟨entry, old, ?_⟩
  simp only [Store.claim] at here
  by_cases same : entry.key = key
  · rw [same, Function.update_self] at here
    have := Option.some.inj here
    omega
  · rwa [Function.update_of_ne same] at here

theorem current_extend : Current (s.extend expiresAt other) ref ↔ Current s ref := by
  constructor
  · rintro ⟨entry, found, here⟩
    simp only [Store.extend, List.getElem?_modify, Option.map_eq_map,
      Option.map_eq_some_iff] at found
    obtain ⟨old, before, rfl⟩ := found
    refine ⟨old, before, ?_⟩
    split at here <;> exact here
  · rintro ⟨entry, found, here⟩
    refine ⟨_, extend_heap found, ?_⟩
    split <;> exact here

theorem current_delete (current : Current s ref) (held : Current s other)
    (different : other ≠ ref) : Current (s.delete other) ref := by
  obtain ⟨entry, found, here⟩ := current
  obtain ⟨entry', found', here'⟩ := held
  refine ⟨entry, by rw [delete_heap]; exact found, ?_⟩
  simp only [Store.delete, found']
  rw [Function.update_of_ne, here]
  intro same
  rw [same, here'] at here
  exact different (Option.some.inj here)

theorem not_current_delete (gone : ¬ Current s ref) : ¬ Current (s.delete other) ref := by
  rintro ⟨entry, found, here⟩
  apply gone
  rw [delete_heap] at found
  refine ⟨entry, found, ?_⟩
  simp only [Store.delete] at here
  split at here
  · exact here
  · rename_i other' _
    by_cases same : entry.key = other'.key
    · rw [same] at here
      simp at here
    · dsimp only at here
      rwa [Function.update_of_ne same] at here

theorem not_current_delete_self : ¬ Current (s.delete ref) ref := by
  rintro ⟨entry, found, here⟩
  rw [delete_heap] at found
  simp [Store.delete, found] at here

end Store

variable {now : ℚ} {s s' : State} {store store' : Store} {request : Request Unit Nat} {key : String}

inductive Went (now : ℚ) (store : Store) : Task → Store → Task → Prop where
  | refused (loop : Loop) : Went now store (.claiming loop) store (.refused loop)
  | claimed (loop : Loop) (free : store.taken now loop.key = false) :
      Went now store (.claiming loop) (store.claim now loop.key loop.ttlMs)
        (.done (.handle (some store.heap.length)))
  | gaveUp (loop : Loop) : Went now store (.refused loop) store (.done (.handle none))
  | slept (loop : Loop) (wakes : ℚ) : Went now store (.refused loop) store (.sleeping loop wakes)
  | woke (loop : Loop) (wakes : ℚ) : Went now store (.sleeping loop wakes) store (.claiming loop)
  | extended (ref : Nat) (extendMs : ℚ) :
      Went now store (.extending ref extendMs) (store.extend (now + extendMs) ref)
        (.done (.done true))

theorem went {random : ℚ} {task next : Task}
    (taken : State.proceed now random store task = some (store', next)) :
    Went now store task store' next := by
  cases task with
  | claiming loop =>
    simp only [State.proceed] at taken
    split at taken
    · cases taken
      exact .refused loop
    · rename_i free
      cases taken
      exact .claimed loop (Bool.eq_false_iff.mpr free)
  | refused loop =>
    simp only [State.proceed] at taken
    split at taken
    · cases taken
      exact .gaveUp loop
    · cases taken
      exact .slept loop _
  | sleeping loop wakes =>
    simp only [State.proceed, Option.ite_none_right_eq_some] at taken
    cases taken.2
    exact .woke loop wakes
  | extending ref extendMs =>
    cases taken
    exact .extended ref extendMs
  | done => cases taken

theorem act_went (acted : s.act now event = some s') :
    ∃ task next store, s.tasks[event.task]? = some task ∧
      (s.idle = true ∨ task.isExtending = true) ∧ Went now s.store task store next ∧
      s' = ⟨store, s.tasks.set event.task next⟩ := by
  simp only [State.act, Option.bind_eq_some_iff, Option.ite_none_right_eq_some,
    Option.map_eq_some_iff, Bool.or_eq_true] at acted
  obtain ⟨task, found, allowed, ⟨store, next⟩, taken, rfl⟩ := acted
  exact ⟨task, next, store, found, allowed, went taken, rfl⟩

inductive Began (now : ℚ) (store : Store) : Request Unit Nat → Store → Task → Prop where
  | invalid (key : String) (options : LockAcquireOptions) (error : LockError) :
      Began now store (.acquire () key options) store (.done (.threw error))
  | acquire (key : String) (options : LockAcquireOptions) (loop : Loop) (same : loop.key = key) :
      Began now store (.acquire () key options) store (.claiming loop)
  | extend (ref : Nat) (extendMs : ℚ) (held : store.holds now ref = true) :
      Began now store (.extend ref extendMs) store (.extending ref extendMs)
  | extendLate (ref : Nat) (extendMs : ℚ) (lost : store.holds now ref = false) :
      Began now store (.extend ref extendMs) store (.done (.done false))
  | release (ref : Nat) (held : store.holds now ref = true) :
      Began now store (.release ref) (store.delete ref) (.done (.done true))
  | releaseLate (ref : Nat) (lost : store.holds now ref = false) :
      Began now store (.release ref) store (.done (.done false))

theorem call_began (now : ℚ) (s : State) (request : Request Unit Nat) :
    ∃ task store, Began now s.store request store task ∧
      s.call now request = ⟨store, s.tasks ++ [task]⟩ := by
  cases request with
  | acquire service key options =>
    simp only [State.call]
    split
    · exact ⟨_, _, .invalid key options _, rfl⟩
    · exact ⟨_, _, .acquire key options _ rfl, rfl⟩
  | extend ref extendMs =>
    simp only [State.call]
    split
    · rename_i held
      exact ⟨_, _, .extend ref extendMs held, rfl⟩
    · rename_i lost
      exact ⟨_, _, .extendLate ref extendMs (Bool.eq_false_iff.mpr lost), rfl⟩
  | release ref =>
    simp only [State.call]
    split
    · rename_i held
      exact ⟨_, _, .release ref held, rfl⟩
    · rename_i lost
      exact ⟨_, _, .releaseLate ref (Bool.eq_false_iff.mpr lost), rfl⟩

/-- One turn of the lock, at task `index`: an event of it, or the request that it is started for. -/
inductive Turned (now : ℚ) (s : State) (index : Nat) :
    Option (Request Unit Nat) → State → Prop where
  | went {task next : Task} {store : Store} (found : s.tasks[index]? = some task)
      (went : Went now s.store task store next) :
      Turned now s index none ⟨store, s.tasks.set index next⟩
  | began {request : Request Unit Nat} {task : Task} {store : Store}
      (began : Began now s.store request store task) :
      Turned now s index (some request) ⟨store, s.tasks ++ [task]⟩

theorem act_turned (acted : s.act now event = some s') : Turned now s event.task none s' := by
  obtain ⟨task, next, store, found, _, went, rfl⟩ := act_went acted
  exact .went found went

theorem call_turned (now : ℚ) (s : State) (request : Request Unit Nat) :
    Turned now s s.tasks.length (some request) (s.call now request) := by
  obtain ⟨task, store, began, same⟩ := call_began now s request
  rw [same]
  exact .began began

/-- The task of an `extend`, or of a request that is finished with a boolean. -/
def Extends (s : State) (task : Nat) : Prop :=
  (∃ ref extendMs, s.tasks[task]? = some (.extending ref extendMs)) ∨
    ∃ held, s.tasks[task]? = some (.done (.done held))

theorem extends_began (ref : Nat) (extendMs : ℚ) :
    Extends (s.call now (.extend ref extendMs)) s.tasks.length := by
  obtain ⟨started, store, began, same⟩ := call_began now s (.extend ref extendMs)
  rw [Extends, same, List.getElem?_concat_length]
  cases began with
  | extend => exact .inl ⟨ref, extendMs, rfl⟩
  | extendLate => exact .inr ⟨false, rfl⟩

theorem answer_eq_some : s.answer task = some answer ↔ s.tasks[task]? = some (.done answer) := by
  simp only [State.answer]
  split
  · rename_i answer' found
    simp [found]
  · rename_i other
    simp only [reduceCtorEq, false_iff]
    exact fun found => other answer found

/-- Every handle given out is an entry, and was given out once. -/
structure Issued (s : State) : Prop where
  made : ∀ task ref, s.answer task = some (.handle (some ref)) → ref < s.store.heap.length
  once : ∀ first second ref, s.answer first = some (.handle (some ref)) →
    s.answer second = some (.handle (some ref)) → first = second

theorem not_extending_of_idle (idle : s.idle = true) {extendMs : ℚ} :
    s.tasks[task]? ≠ some (.extending ref extendMs) := by
  intro found
  have quiet := List.all_eq_true.mp idle _ (List.mem_of_getElem? found)
  cases quiet

/-- Between its two readings of the clock an `extend` still has the entry in the map. -/
def Steady (s : State) : Prop :=
  ∀ (task : Nat) ref extendMs, s.tasks[task]? = some (.extending ref extendMs) → Current s.store ref

theorem Steady.call (idle : s.idle = true) (request : Request Unit Nat) :
    Steady (s.call now request) := by
  obtain ⟨started, store, began, same⟩ := call_began now s request
  intro task ref extendMs found
  rw [same] at found ⊢
  rcases getElem?_concat_eq_some found with old | ⟨_, here⟩
  · exact absurd old (not_extending_of_idle idle)
  · cases began with
    | extend ref extendMs held =>
      cases here
      exact (holds_iff.mp held).1
    | _ => cases here

theorem Steady.act (steady : Steady s) (acted : s.act now event = some s') : Steady s' := by
  obtain ⟨before, next, store, here, allowed, went, rfl⟩ := act_went acted
  intro task ref extendMs found
  rcases getElem?_set_eq_some found with ⟨_, new⟩ | ⟨_, old⟩
  · cases went <;> cases new
  · rcases allowed with idle | running
    · exact absurd old (not_extending_of_idle idle)
    · cases went with
      | extended => exact current_extend.mpr (steady task ref extendMs old)
      | _ => cases running

def Task.key? : Task → Option String
  | .claiming loop | .refused loop | .sleeping loop _ => some loop.key
  | .extending _ _ | .done _ => none

/-- The task is an `acquire` of the key. -/
structure Seeks (s : State) (task : Nat) (key : String) : Prop where
  looping : ∀ t, s.tasks[task]? = some t → ∀ other, t.key? = some other → other = key
  found : ∀ ref, s.answer task = some (.handle (some ref)) →
    ∃ entry, s.store.heap[ref]? = some entry ∧ entry.key = key

section Turned

variable {index : Nat} {about : Option (Request Unit Nat)} (turn : Turned now s index about s')

include turn

theorem task_turned {old : Task} (found : s.tasks[task]? = some old) :
    s'.tasks[task]? = some old ∨
      ∃ next store, s'.tasks[task]? = some next ∧ s'.store = store ∧
        Went now s.store old store next := by
  cases turn with
  | went here went =>
    by_cases same : index = task
    · subst same
      cases here.symm.trans found
      exact .inr ⟨_, _, getElem?_set_of_some found _, rfl, went⟩
    · exact .inl ((List.getElem?_set_ne same).trans found)
  | began => exact .inl (getElem?_concat_of_some found _)

theorem Extends.turned (extends' : Extends s task) : Extends s' task := by
  rcases extends' with ⟨ref, extendMs, found⟩ | ⟨held, found⟩
  · rcases task_turned turn found with same | ⟨next, store, done, _, went⟩
    · exact .inl ⟨ref, extendMs, same⟩
    · cases went
      exact .inr ⟨true, done⟩
  · rcases task_turned turn found with same | ⟨_, _, _, _, went⟩
    · exact .inr ⟨held, same⟩
    · cases went

theorem answer_turned (answered : s.answer task = some answer) :
    s'.answer task = some answer := by
  rw [answer_eq_some] at answered ⊢
  rcases task_turned turn answered with same | ⟨_, _, _, _, went⟩
  · exact same
  · cases went

theorem heap_turned {entry : Entry} (found : s.store.heap[ref]? = some entry) :
    ∃ entry', s'.store.heap[ref]? = some entry' ∧ entry'.key = entry.key ∧
      ((about = none → ∀ extendMs, s.tasks[index]? ≠ some (.extending ref extendMs)) →
        entry' = entry) := by
  cases turn with
  | went here went =>
    cases went with
    | claimed => exact ⟨entry, claim_heap found, rfl, fun _ => rfl⟩
    | extended other extendMs =>
      refine ⟨_, extend_heap found, by split <;> rfl, ?_⟩
      intro others
      rw [if_neg]
      rintro rfl
      exact others rfl extendMs here
    | _ => exact ⟨entry, found, rfl, fun _ => rfl⟩
  | began began =>
    refine ⟨entry, ?_, rfl, fun _ => rfl⟩
    cases began with
    | release => exact delete_heap.symm ▸ found
    | _ => exact found

/-- An entry is in the map until its lease has run out or it is released. -/
theorem backed_turned (steady : Steady s) (kept : about ≠ some (.release ref))
    (backed : Current s.store ref ∨ Expired now s.store ref) :
    Current s'.store ref ∨ Expired now s'.store ref := by
  cases turn with
  | went here went =>
    cases went with
    | claimed loop free =>
      rcases backed with current | late
      · exact current_claim free current
      · exact .inr (expired_claim late)
    | extended other extendMs =>
      by_cases same : other = ref
      · subst same
        exact .inl (current_extend.mpr (steady index other extendMs here))
      · rcases backed with current | ⟨entry, found, late⟩
        · exact .inl (current_extend.mpr current)
        · refine .inr ⟨entry, ?_, late⟩
          rw [extend_heap found, if_neg same]
    | _ => exact backed
  | began began =>
    cases began with
    | release other held =>
      have different : other ≠ ref := by
        rintro rfl
        exact kept rfl
      rcases backed with current | ⟨entry, found, late⟩
      · exact .inl (current_delete current (holds_iff.mp held).1 different)
      · exact .inr ⟨entry, delete_heap.symm ▸ found, late⟩
    | _ => exact backed

/-- A lease that has run out stays so if no `extend` is overtaken by the end of its lease. -/
theorem expired_turned (prompt : about = none → ∀ extendMs,
      s.tasks[index]? = some (.extending ref extendMs) → ¬ Expired now s.store ref)
    (late : Expired now s.store ref) : Expired now s'.store ref := by
  obtain ⟨entry, found, isOver⟩ := late
  obtain ⟨entry', found', _, same⟩ := heap_turned turn found
  have other : about = none → ∀ extendMs, s.tasks[index]? ≠ some (.extending ref extendMs) := by
    intro event extendMs here
    exact prompt event extendMs here ⟨entry, found, isOver⟩
  exact ⟨entry', found', same other ▸ isOver⟩

theorem not_current_turned (made : ref < s.store.heap.length) (gone : ¬ Current s.store ref) :
    ¬ Current s'.store ref := by
  cases turn with
  | went _ went =>
    cases went with
    | claimed => exact not_current_claim made gone
    | extended => rwa [current_extend]
    | _ => exact gone
  | began began =>
    cases began with
    | release => exact not_current_delete gone
    | _ => exact gone

theorem answer_of_turned (answered : s'.answer task = some (.handle (some ref))) :
    s.answer task = some (.handle (some ref)) ∨
      about = none ∧ task = index ∧ s.answer task = none ∧ ref = s.store.heap.length ∧
        Current s'.store ref := by
  rw [answer_eq_some] at answered
  cases turn with
  | went found went =>
    rcases getElem?_set_eq_some answered with ⟨here, done⟩ | ⟨_, old⟩
    · right
      cases went with
      | claimed =>
        cases done
        refine ⟨rfl, here.symm, ?_, rfl, ?_⟩
        · rw [← here, State.answer, found]
        · exact ⟨_, List.getElem?_concat_length, Function.update_self ..⟩
      | _ => cases done
    · exact .inl (answer_eq_some.mpr old)
  | began began =>
    rcases getElem?_concat_eq_some answered with old | ⟨_, done⟩
    · exact .inl (answer_eq_some.mpr old)
    · cases began <;> cases done

theorem Issued.turned (issued : Issued s) : Issued s' where
  made task ref answered := by
    rcases answer_of_turned turn answered with old | ⟨_, _, _, _, current⟩
    · have found := List.getElem?_eq_getElem (issued.made task ref old)
      obtain ⟨entry, still, _⟩ := heap_turned turn found
      exact lt_of_getElem? still
    · exact made_of_current current
  once first second ref one two := by
    rcases answer_of_turned turn one with old | ⟨_, here, _, new, _⟩ <;>
      rcases answer_of_turned turn two with older | ⟨_, there, _, newer, _⟩
    · exact issued.once first second ref old older
    · have := issued.made first ref old
      omega
    · have := issued.made second ref older
      omega
    · omega

theorem Seeks.turned (seeks : Seeks s task key) (known : task < s.tasks.length) :
    Seeks s' task key := by
  have here := List.getElem?_eq_getElem known
  have looping := seeks.looping _ here
  rcases task_turned turn here with same | ⟨next, store, new, moved, went⟩
  · refine ⟨fun t found => seeks.looping t (here.trans (same.symm.trans found)), ?_⟩
    intro ref answered
    have before := here.trans (same.symm.trans (answer_eq_some.mp answered))
    obtain ⟨entry, found, own⟩ := seeks.found ref (answer_eq_some.mpr before)
    obtain ⟨entry', found', still, _⟩ := heap_turned turn found
    exact ⟨entry', found', still.trans own⟩
  · generalize s.tasks[task] = old at looping went
    refine ⟨?_, ?_⟩
    · intro t found other named
      cases new.symm.trans found
      cases went with
      | refused | slept | woke => exact looping other named
      | _ => cases named
    · intro ref answered
      have done := new.symm.trans (answer_eq_some.mp answered)
      cases went with
      | claimed loop =>
        cases done
        rw [moved]
        exact ⟨_, List.getElem?_concat_length, looping loop.key rfl⟩
      | _ => cases done

end Turned

theorem answer_of_call (answered : (s.call now request).answer task = some (.handle (some ref))) :
    s.answer task = some (.handle (some ref)) :=
  (answer_of_turned (call_turned now s request) answered).resolve_right fun given => nomatch given.1

theorem not_given_call :
    (s.call now request).answer s.tasks.length ≠ some (.handle (some ref)) := by
  intro answered
  have before := answer_eq_some.mp (answer_of_call answered)
  exact absurd (lt_of_getElem? before) (lt_irrefl _)

theorem seeks_began (key : String) (options : LockAcquireOptions) :
    Seeks (s.call now (.acquire () key options)) s.tasks.length key := by
  obtain ⟨started, store, began, same⟩ := call_began now s (.acquire () key options)
  refine ⟨?_, fun ref answered => absurd answered not_given_call⟩
  intro t here other named
  rw [same, List.getElem?_concat_length] at here
  cases here
  cases began with
  | invalid => cases named
  | acquire _ _ loop own =>
    cases named
    exact own

end Memory

open Memory in
/-- The in-memory lock gives every handle to one task. -/
def memoryLaws : memory.Lawful where
  sound := Issued
  initial := ⟨nofun, nofun⟩
  sound_call now request s := Issued.turned (call_turned now s request)
  sound_act _ _ _ _ issued acted := issued.turned (act_turned acted)
  tasks_call now request s := by
    obtain ⟨task, store, _, same⟩ := call_began now s request
    exact (congrArg (fun s => s.tasks.length) same).trans List.length_append
  tasks_act _ _ _ _ acted := by
    obtain ⟨_, _, _, _, _, _, same⟩ := act_went acted
    exact (congrArg (fun s => s.tasks.length) same).trans List.length_set
  answer_call now request s _ _ := answer_turned (call_turned now s request)
  answer_act _ _ _ _ _ _ acted := answer_turned (act_turned acted)
  granted_once _ first second handle issued := issued.once first second handle

end NestApi.Locking
