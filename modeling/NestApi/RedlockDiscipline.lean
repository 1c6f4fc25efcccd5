import NestApi.RedlockRuns

namespace NestApi.Locking.Redlock

open Redlock.Task

variable {n : Nat} {now : ℚ} {s s' : State n}

def Script.value? : Script → Option Nat
  | .acquire _ value _ | .release _ value | .extend _ value _ => some value
  | .bumpFence _ => none

def Task.value? : Task → Option Nat
  | .claiming _ value _ _ | .publishing _ value _ _ _ | .granting _ value _ _ _ => some value
  | _ => none

def Task.handle? : Task → Option Nat
  | .extending handle _ _ _ | .prolonging handle _ _ _ | .abandoning handle _
  | .releasing handle _ => some handle
  | _ => none

def handleOf : Request RedlockOptions Nat → Option Nat
  | .acquire _ _ _ => none
  | .extend handle _ | .release handle => some handle

/-- What a task's step does, or the request that starts it. The task was `old`, and `about` is the
handle that may change. -/
inductive Turned (now : ℚ) (s : State n) : Option Task → Option Nat → State n → Task → Prop where
  | went {task next s'} (went : Went now s task s' next) :
      Turned now s (some task) task.handle? s' next
  | began {request next s'}
      (began : Began now s request s' next) : Turned now s none (handleOf request) s' next

/-- One task takes the place of `old`, or is added, and the others stay. -/
structure Swapped (before : List Task) (old : Option Task) (after : List Task) (next : Task)
    (others : List Task) : Prop where
  before : before.Perm (old.toList ++ others)
  after : after.Perm (next :: others)

variable {tasks : List Task} {task : Task} {round : Round n} {value : Nat} {h : Handle}
  {next : Task} {others : List Task} {i : Nat} {h' : Handle} {script : Script} {event : Event n}
  {lockKey : String} {old : Option Task} {about : Option Nat} {after : List Task}

theorem swapped_set {t : Nat} (next : Task) (found : tasks[t]? = some task) :
    ∃ others, Swapped tasks (some task) (tasks.set t next) next others := by
  obtain ⟨inside, same⟩ := List.getElem?_eq_some_iff.mp found
  refine ⟨tasks.eraseIdx t, ?_, List.set_perm_cons_eraseIdx inside next⟩
  rw [← same]
  exact (List.getElem_cons_eraseIdx_perm inside).symm

theorem swapped_append (tasks : List Task) (next : Task) :
    Swapped tasks none (tasks ++ [next]) next tasks :=
  ⟨.refl _, List.perm_append_singleton next tasks⟩

namespace Swapped

theorem here (swapped : Swapped tasks (some task) after next others) : task ∈ tasks :=
  swapped.before.mem_iff.mpr List.mem_cons_self

variable (swapped : Swapped tasks old after next others)

include swapped

theorem new : next ∈ after := swapped.after.mem_iff.mpr List.mem_cons_self

theorem kept (mem : task ∈ others) : task ∈ tasks :=
  swapped.before.mem_iff.mpr (List.mem_append_right _ mem)

theorem stays (mem : task ∈ others) : task ∈ after :=
  swapped.after.mem_iff.mpr (List.mem_cons_of_mem _ mem)

theorem of_mem (mem : task ∈ tasks) : old = some task ∨ task ∈ others := by
  rcases List.mem_append.mp (swapped.before.mem_iff.mp mem) with this | other
  · exact .inl (Option.mem_toList.mp this)
  · exact .inr other

theorem mem_cases (mem : task ∈ after) : task = next ∨ task ∈ others :=
  List.mem_cons.mp (swapped.after.mem_iff.mp mem)

end Swapped

theorem setHandle_map {β : Type} (f : Handle → β) {handle : Nat} {update : Handle → Handle}
    (same : ∀ h, f (update h) = f h) :
    (s.setHandle handle update).handles.map f = s.handles.map f := by
  apply List.ext_getElem?
  intro i
  simp only [State.setHandle, List.getElem?_map, List.getElem?_modify, Option.map_eq_map,
    Option.map_map]
  congr 1
  funext h
  simp only [Function.comp_apply]
  split
  · exact same h
  · rfl

/-- The values that belong to attempts under way and to handles. -/
def owners (s : State n) : List Nat := s.tasks.filterMap value? ++ s.handles.map Handle.value

/-- Every value belongs to one attempt, and then to one handle. -/
structure Numbered (s : State n) : Prop where
  single : (owners s).Nodup
  below : ∀ value ∈ owners s, value < s.attempts
  scripts : ∀ round ∈ s.rounds, ∀ value, round.script.value? = some value → value < s.attempts

theorem Numbered.keep (numbered : Numbered s) {dropped : List Nat}
    (owned : (owners s).Perm (dropped ++ owners s')) (attempts : s'.attempts = s.attempts)
    (scripts : ∀ round ∈ s'.rounds, ∀ value, round.script.value? = some value →
      value < s'.attempts) : Numbered s' where
  single := (owned.nodup_iff.mp numbered.single).of_append_right
  below value mem := by
    rw [attempts]
    exact numbered.below value (owned.mem_iff.mpr (List.mem_append_right _ mem))
  scripts := scripts

theorem owners_perm {front : List Task} (tasks : s.tasks.Perm (front ++ others)) :
    (owners s).Perm (front.filterMap value? ++
      (others.filterMap value? ++ s.handles.map Handle.value)) := by
  rw [owners, ← List.append_assoc, ← List.filterMap_append]
  exact (tasks.filterMap value?).append_right _

theorem mem_applied {round : Nat} {node : Fin n} {sent other : Round n}
    (found : s.rounds[round]? = some sent) (mem : other ∈ (s.applied now round node sent).rounds) :
    ∃ old ∈ s.rounds, other.script = old.script := by
  rcases List.mem_or_eq_of_mem_set mem with old | rfl
  · exact ⟨other, old, rfl⟩
  · exact ⟨sent, List.mem_of_getElem? found, rfl⟩

theorem mem_owners (mem : task ∈ s.tasks) (named : task.value? = some value) : value ∈ owners s :=
  List.mem_append_left _ (List.mem_filterMap.mpr ⟨task, mem, named⟩)

theorem handle_mem_owners (mem : h ∈ s.handles) : h.value ∈ owners s :=
  List.mem_append_right _ (List.mem_map.mpr ⟨h, mem, rfl⟩)

/-- A handle stays the one attempt's, and once given back it stays so. -/
structure Handle.Onward (h h' : Handle) : Prop where
  service : h'.service = h.service
  key : h'.key = h.key
  value : h'.value = h.value
  gone : h.live = false → h'.live = false

theorem Handle.Onward.refl (h : Handle) : h.Onward h := ⟨rfl, rfl, rfl, id⟩

theorem setHandle_eq_some {handle : Nat} {update : Handle → Handle}
    (found : (s.setHandle handle update).handles[i]? = some h') :
    ∃ h, s.handles[i]? = some h ∧ h' = if handle = i then update h else h := by
  simp only [State.setHandle, List.getElem?_modify, Option.map_eq_map,
    Option.map_eq_some_iff] at found
  obtain ⟨h, before, same⟩ := found
  exact ⟨h, before, same.symm⟩

theorem setHandle_found {handle : Nat} (update : Handle → Handle) (found : s.handles[i]? = some h) :
    (s.setHandle handle update).handles[i]? = some (if handle = i then update h else h) := by
  simp only [State.setHandle, List.getElem?_modify, found, Option.map_eq_map, Option.map_some]

theorem onward_ite {p : Prop} [Decidable p] (onward : h.Onward h') :
    h.Onward (if p then h' else h) := by
  split
  · exact onward
  · exact .refl h

def Task.abandons (handle : Nat) : Task → Bool
  | .abandoning other _ => other == handle
  | _ => false

/-- The lock is being given back, or has been, whatever time its handle has left. -/
def State.leaving (handle : Nat) (s : State n) : Bool :=
  (s.handles[handle]?).any (fun h => !h.live) || s.tasks.any (abandons handle)

def State.free (handle : Nat) (s : State n) : Bool :=
  s.tasks.all fun task => task.handle? != some handle

theorem leaving_iff : s.leaving i = true ↔
    (∃ h, s.handles[i]? = some h ∧ h.live = false) ∨ ∃ r, abandoning i r ∈ s.tasks := by
  simp only [State.leaving, Bool.or_eq_true, Option.any_eq_true, Bool.not_eq_true',
    List.any_eq_true]
  apply or_congr_right
  constructor
  · rintro ⟨task, mem, abandons⟩
    cases task with
    | abandoning other r =>
      simp only [Task.abandons, beq_iff_eq] at abandons
      exact ⟨r, abandons ▸ mem⟩
    | _ => cases abandons
  · rintro ⟨r, mem⟩
    exact ⟨_, mem, by simp [Task.abandons]⟩

/-- What may be sent: a new attempt or its token, or a script for the value of an attempt that ends
without a handle or of a handle, which is given back if its key is deleted. -/
inductive Sends (s : State n) (old : Option Task) (s' : State n) (next : Task) : Script → Prop where
  | acquire (key : String) (ttlMs : ℚ) (attempts : s'.attempts = s.attempts + 1) :
      Sends s old s' next (.acquire key s.attempts ttlMs)
  | bump (token : Nat) : Sends s old s' next (.bumpFence token)
  | withdraw {value : Nat} (key : String) (own : old.bind value? = some value)
      (unnamed : next.value? = none) (handles : s'.handles = s.handles) :
      Sends s old s' next (.release key value)
  | handle {script : Script} {i : Nat} {h : Handle} (found : s.handles[i]? = some h)
      (value : script.value? = some h.value) (unnamed : next.value? = none)
      (leaves : ∀ key value tasks, script = .release key value → next ∈ tasks →
        State.leaving i { s' with tasks := tasks } = true) : Sends s old s' next script

section

variable (turned : Turned now s old about s' next)

include turned

theorem sends_turned (mem : round ∈ s'.rounds) :
    round ∈ s.rounds ∨ Sends s old s' next round.script := by
  have sent {script : Script} (mem : round ∈ s.rounds ++ [⟨script, fun _ => none⟩])
      (sends : Sends s old s' next script) :
      round ∈ s.rounds ∨ Sends s old s' next round.script := by
    rcases List.mem_append.mp mem with before | new
    · exact .inl before
    · cases List.mem_singleton.mp new
      exact .inr sends
  cases turned with
  | went went =>
    cases went with
    | attempt => exact sent mem (.acquire _ _ rfl)
    | elected => exact sent mem (.bump _)
    | outvoted | unpublished => exact sent mem (.withdraw _ rfl rfl rfl)
    | lost handle ttlMs start round found =>
      apply sent mem (.handle found rfl rfl _)
      exact fun _ _ _ _ mem => leaving_iff.mpr (.inr ⟨_, mem⟩)
    | _ => exact .inl mem
  | began began =>
    cases began with
    | refused | acquire => exact .inl mem
    | extend handle ttlMs found => exact sent mem (.handle found rfl rfl nofun)
    | release handle found =>
      apply sent mem (.handle found rfl rfl _)
      refine fun _ _ _ _ _ => leaving_iff.mpr (.inl ⟨_, setHandle_found _ found, ?_⟩)
      rw [if_pos rfl]

theorem handles_turned (found : s'.handles[i]? = some h') :
    (∃ h, s.handles[i]? = some h ∧ h.Onward h') ∨
      old.bind value? = some h'.value ∧ h'.live = true := by
  cases turned with
  | went went =>
    cases went with
    | granted =>
      rcases getElem?_concat_eq_some found with old | ⟨_, new⟩
      · exact .inl ⟨h', old, .refl h'⟩
      · exact .inr (by rw [new]; exact ⟨rfl, rfl⟩)
    | prolonged | released =>
      obtain ⟨h, before, rfl⟩ := setHandle_eq_some found
      exact .inl ⟨h, before, onward_ite ⟨rfl, rfl, rfl, id⟩⟩
    | abandoned =>
      obtain ⟨h, before, rfl⟩ := setHandle_eq_some found
      exact .inl ⟨h, before, onward_ite ⟨rfl, rfl, rfl, fun _ => rfl⟩⟩
    | _ => exact .inl ⟨h', found, .refl h'⟩
  | began began =>
    cases began with
    | release =>
      obtain ⟨h, before, rfl⟩ := setHandle_eq_some found
      exact .inl ⟨h, before, onward_ite ⟨rfl, rfl, rfl, fun _ => rfl⟩⟩
    | _ => exact .inl ⟨h', found, .refl h'⟩

theorem handle_turned (found : s.handles[i]? = some h) :
    ∃ h', s'.handles[i]? = some h' ∧ h.Onward h' ∧ (about ≠ some i → h' = h) := by
  have changed {handle : Nat} {update : Handle → Handle} (onward : h.Onward (update h)) :
      ∃ h', (s.setHandle handle update).handles[i]? = some h' ∧ h.Onward h' ∧
        (some handle ≠ some i → h' = h) :=
    ⟨_, setHandle_found _ found, onward_ite onward,
      fun other => if_neg fun same => other (congrArg some same)⟩
  cases turned with
  | went went =>
    cases went with
    | granted =>
      exact ⟨h, getElem?_concat_of_some found _, .refl h, fun _ => rfl⟩
    | prolonged | released => exact changed ⟨rfl, rfl, rfl, id⟩
    | abandoned => exact changed ⟨rfl, rfl, rfl, fun _ => rfl⟩
    | _ => exact ⟨h, found, .refl h, fun _ => rfl⟩
  | began began =>
    cases began with
    | release => exact changed ⟨rfl, rfl, rfl, fun _ => rfl⟩
    | _ => exact ⟨h, found, .refl h, fun _ => rfl⟩

theorem value_turned (named : next.value? = some value) :
    old.bind value? = some value ∨ value = s.attempts := by
  cases turned with
  | went went =>
    cases went with
    | attempt => exact .inr (Option.some.inj named).symm
    | elected | published => exact .inl named
    | _ => cases named
  | began began => cases began <;> cases named

theorem about_turned (own : next.handle? = some i) : about = some i := by
  cases turned with
  | went went =>
    cases went with
    | lost | reached => exact own
    | _ => cases own
  | began began =>
    cases began with
    | extend | release => exact own
    | _ => cases own

theorem Numbered.scripts_turned (numbered : Numbered s) (attempts : s.attempts ≤ s'.attempts)
    (whose : ∀ value, old.bind value? = some value → value ∈ owners s) :
    ∀ round ∈ s'.rounds, ∀ value, round.script.value? = some value → value < s'.attempts := by
  intro round mem value named
  rcases sends_turned turned mem with old | sends
  · exact (numbered.scripts round old value named).trans_le attempts
  · generalize round.script = script at sends named
    cases sends with
    | acquire key ttlMs more =>
      cases named
      omega
    | bump => cases named
    | withdraw key own =>
      cases named
      exact (numbered.below _ (whose _ own)).trans_le attempts
    | handle found same =>
      cases same.symm.trans named
      exact (numbered.below _ (handle_mem_owners (List.mem_of_getElem? found))).trans_le attempts

end

theorem Numbered.turned (numbered : Numbered s) (swapped : Swapped s.tasks old tasks next others)
    (turned : Turned now s old about s' next) : Numbered { s' with tasks := tasks } := by
  have owned := owners_perm swapped.before
  have owned' := @owners_perm n { s' with tasks := tasks } others [next] swapped.after
  have whose : ∀ value, old.bind value? = some value → value ∈ owners s := by
    intro value own
    obtain ⟨task, rfl, named⟩ := Option.bind_eq_some_iff.mp own
    exact mem_owners swapped.here named
  have scripts := numbered.scripts_turned turned
  -- the tasks and the handles have the values that they had, but for the one that is let go
  have keep (dropped : List Nat) (values : s'.handles.map Handle.value =
      s.handles.map Handle.value) (attempts : s'.attempts = s.attempts)
      (own : old.toList.filterMap value? = dropped ++ [next].filterMap value?) :
      Numbered { s' with tasks := tasks } := by
    refine @Numbered.keep _ _ { s' with tasks := tasks } numbered dropped ?_ attempts ?_
    · rw [own, List.append_assoc, ← values] at owned
      exact owned.trans (owned'.symm.append_left dropped)
    · exact scripts attempts.ge whose
  cases turned with
  | went went =>
    cases went with
    | attempt =>
      have fresh : s.attempts ∉ owners s := fun mem => Nat.lt_irrefl _ (numbered.below _ mem)
      refine ⟨?_, ?_, scripts (Nat.le_succ _) whose⟩
      · apply owned'.nodup_iff.mpr
        exact List.nodup_cons.mpr ⟨fun mem => fresh (owned.mem_iff.mpr mem),
          owned.nodup_iff.mp numbered.single⟩
      · intro value mem
        rcases List.mem_cons.mp (owned'.mem_iff.mp mem) with rfl | old
        · exact Nat.lt_succ_self _
        · exact Nat.lt_succ_of_lt (numbered.below value (owned.mem_iff.mpr old))
    | outvoted loop value | unpublished loop value => exact keep [value] rfl rfl rfl
    | granted loop value =>
      refine @Numbered.keep _ _ { s with handles := _, tasks := tasks } numbered [] ?_ rfl
        (scripts le_rfl whose)
      refine owned.trans (List.Perm.trans ?_ owned'.symm)
      rw [List.map_append, ← List.append_assoc (others.filterMap value?)]
      exact (List.perm_append_singleton value _).symm
    | prolonged | abandoned | released =>
      exact keep [] (setHandle_map Handle.value fun _ => rfl) rfl rfl
    | _ => exact keep [] rfl rfl rfl
  | began began =>
    cases began with
    | release => exact keep [] (setHandle_map Handle.value fun _ => rfl) rfl rfl
    | _ => exact keep [] rfl rfl rfl

theorem Numbered.act (numbered : Numbered s) (taken : s.act now event = some s') : Numbered s' := by
  cases acted taken with
  | apply found =>
    refine @Numbered.keep _ _ (s.applied _ _ _ _) numbered [] (.refl _) rfl ?_
    intro round mem value named
    obtain ⟨old, before, same⟩ := mem_applied found mem
    exact numbered.scripts old before value (same ▸ named)
  | @task _ t before next after moves found went =>
    obtain ⟨others, swapped⟩ := swapped_set next found
    exact numbered.turned swapped (.went went)

theorem Numbered.call (numbered : Numbered s) (request : Request RedlockOptions Nat) :
    Numbered (s.call now request) := by
  obtain ⟨task, after, began, same⟩ := call_began now s request
  rw [same]
  exact numbered.turned (swapped_append s.tasks task) (.began began)

theorem alone_of_nodup {f : Task → Option Nat} {x : Nat} (nodup : (tasks.filterMap f).Nodup)
    (split : tasks.Perm (task :: others)) (here : f task = some x) :
    ∀ other ∈ others, f other ≠ some x := by
  intro other mem too
  have apart := (split.filterMap f).nodup_iff.mp nodup
  rw [List.filterMap_cons_some here] at apart
  exact (List.nodup_cons.mp apart).1 (List.mem_filterMap.mpr ⟨other, mem, too⟩)

theorem Numbered.apart (numbered : Numbered s) (mem : task ∈ s.tasks) (held : h ∈ s.handles) :
    task.value? ≠ some h.value := by
  intro named
  exact List.disjoint_of_nodup_append numbered.single
    (List.mem_filterMap.mpr ⟨task, mem, named⟩) (List.mem_map.mpr ⟨h, held, rfl⟩)

theorem Numbered.alone (numbered : Numbered s) (swapped : Swapped s.tasks old tasks next others)
    (named : old.bind value? = some value) :
    (∀ other ∈ others, other.value? ≠ some value) ∧ ∀ h ∈ s.handles, h.value ≠ value := by
  obtain ⟨task, rfl, named⟩ := Option.bind_eq_some_iff.mp named
  refine ⟨alone_of_nodup numbered.single.of_append_left swapped.before named, ?_⟩
  rintro h mem rfl
  exact numbered.apart swapped.here mem named

theorem Numbered.unique (numbered : Numbered s) {j : Nat} (first : s.handles[i]? = some h)
    (second : s.handles[j]? = some h') (same : h.value = h'.value) : i = j := by
  have single := numbered.single.of_append_right
  have inside := lt_of_getElem? first
  apply (List.getElem?_inj (by simpa using inside) single).mp
  rw [List.getElem?_map, List.getElem?_map, first, second, Option.map_some, Option.map_some, same]

def Task.Placed (s : State n) : Task → Prop
  | .extending i _ _ _ | .prolonging i _ _ _ => ∃ h, s.handles[i]? = some h ∧ h.live = true
  | .abandoning i _ => ∃ h, s.handles[i]? = some h
  | .releasing i _ => ∃ h, s.handles[i]? = some h ∧ h.live = false
  | _ => True

/-- The attempt with this value is over, and its handle, if there was one, is being given back. -/
def Given (s : State n) (value : Nat) : Prop :=
  (∀ task ∈ s.tasks, task.value? ≠ some value) ∧
    ∀ (i : Nat) h, s.handles[i]? = some h → h.value = value → s.leaving i = true

/-- Handles are extended and released one request at a time, and no key is deleted for an attempt
or a handle that is to keep it. -/
structure Disciplined (s : State n) : Prop where
  single : (s.tasks.filterMap handle?).Nodup
  placed : ∀ task ∈ s.tasks, task.Placed s
  released : ∀ round ∈ s.rounds, ∀ lockKey value, round.script = .release lockKey value →
    Given s value

theorem Task.Placed.mono (placed : task.Placed s)
    (kept : ∀ (i : Nat) h, task.handle? = some i → s.handles[i]? = some h →
      s'.handles[i]? = some h) : task.Placed s' := by
  cases task with
  | extending i | prolonging i =>
    obtain ⟨h, found, live⟩ := placed
    exact ⟨h, kept i h rfl found, live⟩
  | abandoning i =>
    obtain ⟨h, found⟩ := placed
    exact ⟨h, kept i h rfl found⟩
  | releasing i =>
    obtain ⟨h, found, gone⟩ := placed
    exact ⟨h, kept i h rfl found, gone⟩
  | _ => trivial

theorem Task.Placed.found (placed : task.Placed s) (own : task.handle? = some i) :
    ∃ h, s.handles[i]? = some h := by
  cases task with
  | extending | prolonging | releasing =>
    cases own
    obtain ⟨h, found, _⟩ := placed
    exact ⟨h, found⟩
  | abandoning =>
    cases own
    exact placed
  | _ => cases own

theorem placed_turned (placed : ∀ task, old = some task → task.Placed s)
    (turned : Turned now s old about s' next) : next.Placed s' := by
  cases turned with
  | went went =>
    cases went with
    | lost handle ttlMs start round found => exact ⟨_, found⟩
    | reached handle ttlMs start round =>
      have there : (extending handle ttlMs start round).Placed s := placed _ rfl
      exact there
    | _ => trivial
  | began began =>
    cases began with
    | refused | acquire => trivial
    | extend handle ttlMs found live => exact ⟨_, found, live⟩
    | release handle found =>
      refine ⟨_, setHandle_found _ found, ?_⟩
      rw [if_pos rfl]

section

variable (disciplined : Disciplined s) (swapped : Swapped s.tasks old tasks next others)
  (turned : Turned now s old about s' next)

include disciplined swapped turned

theorem Disciplined.leaving_turned (leaving : s.leaving i = true) :
    State.leaving i { s' with tasks := tasks } = true := by
  rcases leaving_iff.mp leaving with ⟨h, found, gone⟩ | ⟨r, mem⟩
  · obtain ⟨h', found', onward, _⟩ := handle_turned turned found
    exact leaving_iff.mpr (.inl ⟨h', found', onward.gone gone⟩)
  · obtain ⟨h, found⟩ := disciplined.placed _ mem
    rcases swapped.of_mem mem with rfl | other
    · cases turned with
      | went went =>
        cases went with
        | abandoned =>
          refine leaving_iff.mpr (.inl ⟨_, setHandle_found _ found, ?_⟩)
          rw [if_pos rfl]
    · exact leaving_iff.mpr (.inr ⟨r, swapped.stays other⟩)

theorem Disciplined.given_turned (earlier : value < s.attempts) (given : Given s value) :
    Given { s' with tasks := tasks } value := by
  have here : old.bind value? ≠ some value := by
    intro named
    obtain ⟨task, rfl, named⟩ := Option.bind_eq_some_iff.mp named
    exact given.1 task swapped.here named
  refine ⟨?_, ?_⟩
  · intro other mem named
    rcases swapped.mem_cases mem with rfl | kept
    · rcases value_turned turned named with same | fresh
      · exact here same
      · omega
    · exact given.1 other (swapped.kept kept) named
  · intro i h' found own
    rcases handles_turned turned found with ⟨h, before, onward⟩ | ⟨new, _⟩
    · apply disciplined.leaving_turned swapped turned
      exact given.2 i h before (onward.value.symm.trans own)
    · exact absurd (new.trans (congrArg some own)) here

/-- A key is deleted for an attempt that ends without a handle, or for a handle that is given
back. -/
theorem Disciplined.released_turned (numbered : Numbered s) (mem : round ∈ s'.rounds)
    (script : round.script = .release lockKey value) : Given { s' with tasks := tasks } value := by
  rcases sends_turned turned mem with before | sends
  · exact disciplined.given_turned swapped turned
      (numbered.scripts round before value (by rw [script]; rfl))
      (disciplined.released round before lockKey value script)
  · rw [script] at sends
    cases sends with
    | withdraw _ own unnamed handles =>
      obtain ⟨tasks, held⟩ := numbered.alone swapped own
      refine ⟨fun other mem named => ?_, fun i h found same => ?_⟩
      · rcases swapped.mem_cases mem with rfl | kept
        · cases unnamed.symm.trans named
        · exact tasks other kept named
      · dsimp only at found
        rw [handles] at found
        exact absurd same (held h (List.mem_of_getElem? found))
    | @handle _ i h found whose unnamed leaves =>
      cases whose
      have there := List.mem_of_getElem? found
      refine ⟨fun other mem named => ?_, fun j h' found' same => ?_⟩
      · rcases swapped.mem_cases mem with rfl | kept
        · cases unnamed.symm.trans named
        · exact numbered.apart (swapped.kept kept) there named
      · rcases handles_turned turned found' with ⟨first, before, onward⟩ | ⟨new, _⟩
        · cases numbered.unique before found (onward.value.symm.trans same)
          exact leaves _ _ tasks rfl swapped.new
        · exact absurd rfl ((numbered.alone swapped (same ▸ new)).2 h there)

end

theorem Disciplined.turned (disciplined : Disciplined s)
    (swapped : Swapped s.tasks old tasks next others) (turned : Turned now s old about s' next)
    (numbered : Numbered s)
    (apart : ∀ i, about = some i → ∀ other ∈ others, other.handle? ≠ some i) :
    Disciplined { s' with tasks := tasks } := by
  refine ⟨?_, ?_, fun round mem lockKey value script =>
    disciplined.released_turned swapped turned numbered mem script⟩
  · apply (swapped.after.filterMap handle?).nodup_iff.mpr
    have single := (swapped.before.filterMap handle?).nodup_iff.mp disciplined.single
    rw [List.filterMap_append] at single
    cases own : next.handle? with
    | none =>
      rw [List.filterMap_cons_none own]
      exact single.of_append_right
    | some i =>
      rw [List.filterMap_cons_some own]
      refine List.nodup_cons.mpr ⟨fun mem => ?_, single.of_append_right⟩
      obtain ⟨other, mem, too⟩ := List.mem_filterMap.mp mem
      exact apart i (about_turned turned own) other mem too
  · intro other mem
    rcases swapped.mem_cases mem with rfl | kept
    · have placed := placed_turned (fun task same => disciplined.placed task (by
        subst same
        exact swapped.here)) turned
      exact placed.mono fun _ _ _ found => found
    · apply (disciplined.placed other (swapped.kept kept)).mono
      intro i h own found
      obtain ⟨h', found', _, same⟩ := handle_turned turned found
      rw [← same fun too => apart i too other kept own]
      exact found'

theorem Disciplined.act (disciplined : Disciplined s) (numbered : Numbered s)
    (taken : s.act now event = some s') : Disciplined s' := by
  cases acted taken with
  | apply found =>
    refine ⟨disciplined.single, fun task mem => ?_, fun round mem lockKey value script => ?_⟩
    · exact (disciplined.placed task mem).mono fun _ _ _ found => found
    · obtain ⟨old, before, same⟩ := mem_applied found mem
      exact disciplined.released old before lockKey value (same.symm.trans script)
  | @task _ t before next after moves found went =>
    obtain ⟨others, swapped⟩ := swapped_set next found
    exact disciplined.turned swapped (.went went) numbered fun i own =>
      alone_of_nodup disciplined.single swapped.before own

theorem not_free (free : s.free i = true) (mem : task ∈ s.tasks) : task.handle? ≠ some i := by
  have apart := List.all_eq_true.mp free task mem
  simpa using apart

theorem Disciplined.call (disciplined : Disciplined s) (numbered : Numbered s)
    (request : Request RedlockOptions Nat)
    (free : ∀ i, handleOf request = some i → s.free i = true) :
    Disciplined (s.call now request) := by
  obtain ⟨task, after, began, same⟩ := call_began now s request
  rw [same]
  exact disciplined.turned (swapped_append s.tasks task) (.began began) numbered
    fun i own other mem => not_free (free i own) mem

theorem Disciplined.task_unreleased (disciplined : Disciplined s) (mem : task ∈ s.tasks)
    (named : task.value? = some value) (sent : round ∈ s.rounds) (lockKey : String) :
    round.script ≠ .release lockKey value :=
  fun script => (disciplined.released round sent lockKey value script).1 task mem named

theorem Disciplined.handle_unreleased (disciplined : Disciplined s) (found : s.handles[i]? = some h)
    (stays : s.leaving i = false) (sent : round ∈ s.rounds) (lockKey : String) :
    round.script ≠ .release lockKey h.value := by
  intro script
  have leaving := (disciplined.released round sent lockKey h.value script).2 i h found rfl
  rw [stays] at leaving
  cases leaving

theorem Disciplined.extending_stays (disciplined : Disciplined s) (mem : task ∈ s.tasks)
    (own : task.handle? = some i) (live : ∃ h, s.handles[i]? = some h ∧ h.live = true)
    (apart : task.abandons i = false) : s.leaving i = false := by
  rw [Bool.eq_false_iff]
  intro leaving
  rcases leaving_iff.mp leaving with ⟨h, found, gone⟩ | ⟨r, other⟩
  · obtain ⟨h', found', live⟩ := live
    cases found.symm.trans found'
    cases gone.symm.trans live
  · obtain ⟨first, last, split⟩ := List.append_of_mem mem
    have before : s.tasks.Perm (task :: (first ++ last)) := split ▸ List.perm_middle
    rcases List.mem_cons.mp (before.mem_iff.mp other) with rfl | kept
    · simp [abandons] at apart
    · exact alone_of_nodup disciplined.single before own _ kept rfl

theorem numbered_initial : Numbered (redlock n).initial := by
  refine ⟨List.nodup_nil, fun value mem => ?_, fun round mem => ?_⟩
  · cases List.not_mem_nil mem
  · cases List.not_mem_nil mem

theorem disciplined_initial : Disciplined (redlock n).initial := by
  refine ⟨List.nodup_nil, fun task mem => ?_, fun round mem => ?_⟩
  · cases List.not_mem_nil mem
  · cases List.not_mem_nil mem

end NestApi.Locking.Redlock
