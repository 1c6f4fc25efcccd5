import NestApi.RedlockDiscipline

namespace NestApi.Locking.Redlock

open DistributedLock.World

variable {n : Nat} {now later limit : ℚ} {limit' : ℚ} {lease : Lease}

namespace Node

variable {node : Node} {key : String} {value : Nat} {script : Script}

/-- The node has the key for `value` until `limit` at least, unless that is over. -/
def Keeps (now : ℚ) (key : String) (value : Nat) (limit : ℚ) (node : Node) : Prop :=
  now < limit → ∃ expiresAt, node.locks key = some ⟨value, expiresAt⟩ ∧ limit ≤ expiresAt

/-- The node has the key for nobody but `value`. -/
def Spares (now : ℚ) (key : String) (value : Nat) (node : Node) : Prop :=
  ∀ lease, node.locks key = some lease → now < lease.expiresAt → lease.value = value

theorem Keeps.mono (keeps : node.Keeps now key value limit) (clock : now ≤ later)
    (sooner : limit' ≤ limit) : node.Keeps later key value limit' := by
  intro early
  obtain ⟨expiresAt, held, enough⟩ := keeps (by linarith)
  exact ⟨expiresAt, held, le_trans sooner enough⟩

theorem Spares.mono (spares : node.Spares now key value) (clock : now ≤ later) :
    node.Spares later key value :=
  fun lease held early => spares lease held (lt_of_le_of_lt clock early)

theorem Keeps.spares (keeps : node.Keeps now key value limit) (early : now < limit) :
    node.Spares now key value := by
  intro lease held _
  obtain ⟨expiresAt, own, _⟩ := keeps early
  cases held.symm.trans own
  rfl

theorem Keeps.eq_of_spares {other : Nat} (keeps : node.Keeps now key value limit)
    (early : now < limit) (spares : node.Spares now key other) : value = other := by
  obtain ⟨expiresAt, held, enough⟩ := keeps early
  exact spares _ held (lt_of_lt_of_le early enough)

theorem get_of_locks (held : node.locks key = some lease)
    (early : now < lease.expiresAt) : node.get now key = some lease.value := by
  simp [get, held, early]

theorem locks_of_get (seen : node.get now key = some value) :
    ∃ lease, node.locks key = some lease ∧ now < lease.expiresAt ∧ lease.value = value := by
  simp only [get, Option.bind_eq_some_iff, Option.ite_none_right_eq_some, Option.some.injEq] at seen
  exact seen

theorem put_locks_self (lease : Option Lease) : (node.put key lease).locks key = lease :=
  Function.update_self _ _ _

theorem put_locks_other {other : String} (lease : Option Lease) (apart : key ≠ other) :
    (node.put other lease).locks key = node.locks key :=
  Function.update_of_ne apart _ _

inductive Ran (now : ℚ) (key : String) (node : Node) : Script → Option Lease → Prop where
  | same (script : Script) : Ran now key node script (node.locks key)
  | set {value : Nat} {ttlMs : ℚ} (unseen : node.get now key = none) :
      Ran now key node (.acquire key value ttlMs) (some ⟨value, now + ttlMs⟩)
  | deleted {value : Nat} (seen : node.get now key = some value) :
      Ran now key node (.release key value) none
  | extended {value ttlMs} (seen : node.get now key = some value) :
      Ran now key node (.extend key value ttlMs) (some ⟨value, now + ttlMs⟩)

theorem ran_put {now : ℚ} {other : String} {script : Script} {lease : Option Lease}
    (own : Ran now other node script lease) :
    Ran now key node script ((node.put other lease).locks key) := by
  by_cases here : key = other
  · subst here
    rw [put_locks_self]
    exact own
  · rw [put_locks_other _ here]
    exact .same _

theorem ran (now : ℚ) (key : String) (node : Node) (script : Script) :
    Ran now key node script ((node.run now script).1.locks key) := by
  cases script with
  | acquire =>
    simp only [run]
    split
    case isTrue => exact .same _
    case isFalse unseen =>
      simp only [Option.not_isSome_iff_eq_none] at unseen
      split <;> exact ran_put (.set unseen)
  | bumpFence =>
    simp only [run]
    split <;> exact .same _
  | release =>
    simp only [run]
    split
    case isFalse => exact .same _
    case isTrue seen => exact ran_put (.deleted seen)
  | extend =>
    simp only [run]
    split
    case isFalse => exact .same _
    case isTrue seen => exact ran_put (.extended seen)

theorem Keeps.run (keeps : node.Keeps now key value limit)
    (unreleased : script ≠ .release key value)
    (prolongs : ∀ ttlMs lease, script = .extend key value ttlMs → node.locks key = some lease →
      lease.value = value → lease.expiresAt ≤ now + ttlMs) :
    (node.run now script).1.Keeps now key value limit := by
  intro early
  obtain ⟨expiresAt, held, enough⟩ := keeps early
  have own : node.get now key = some value := get_of_locks held (lt_of_lt_of_le early enough)
  have after := ran now key node script
  generalize (node.run now script).1.locks key = lease at after ⊢
  cases after with
  | same => exact ⟨expiresAt, held, enough⟩
  | set unseen => cases unseen.symm.trans own
  | deleted seen =>
    cases seen.symm.trans own
    exact absurd rfl unreleased
  | @extended _ ttlMs seen =>
    cases seen.symm.trans own
    exact ⟨_, rfl, le_trans enough (prolongs ttlMs _ rfl held rfl)⟩

theorem Spares.run (spares : node.Spares now key value)
    (unclaimed : ∀ other ttlMs, script ≠ .acquire key other ttlMs) :
    (node.run now script).1.Spares now key value := by
  intro lease held early
  have after := ran now key node script
  generalize (node.run now script).1.locks key = left at after held
  cases after with
  | same => exact spares lease held early
  | set => exact absurd rfl (unclaimed _ _)
  | deleted => cases held
  | extended seen =>
    cases held
    obtain ⟨old, there, running, own⟩ := locks_of_get seen
    exact own.symm.trans (spares old there running)

/-- A vote for a script is a key kept for its value. -/
theorem keeps_of_vote {ttlMs : ℚ} {reply : Int}
    (kind : script = .acquire key value ttlMs ∨ script = .extend key value ttlMs)
    (replied : (node.run now script).2 = some reply) (positive : 0 < reply) :
    (node.run now script).1.Keeps now key value (now + ttlMs) := by
  intro _
  refine ⟨now + ttlMs, ?_, le_refl _⟩
  rcases kind with rfl | rfl
  · simp only [run] at replied ⊢
    split at replied
    case isTrue =>
      cases replied
      omega
    case isFalse unseen =>
      rw [if_neg unseen]
      split at replied
      case isTrue below =>
        rw [if_pos below]
        exact put_locks_self _
      case isFalse => cases replied
  · simp only [run] at replied ⊢
    split at replied
    case isTrue seen =>
      rw [if_pos seen]
      exact put_locks_self _
    case isFalse =>
      cases replied
      omega

end Node

variable {s s' : State n}

/-- Whoever has voted for the script of this round keeps the key for its value until `limit`. -/
def Polled (now : ℚ) (s : State n) (r : Nat) (script : Script) (key : String) (value : Nat)
    (limit : ℚ) : Prop :=
  ∃ round, s.rounds[r]? = some round ∧ round.script = script ∧
    ∀ k reply, round.answers k = some (some reply) → 0 < reply →
      (s.nodes k).Keeps now key value limit

/-- A quorum keeps the key for a value until `limit`. -/
def Kept (now : ℚ) (s : State n) (key : String) (value : Nat) (limit : ℚ) : Prop :=
  Majority fun k => (s.nodes k).Keeps now key value limit

def Task.Covered (now : ℚ) (s : State n) : Task → Prop
  | .claiming loop value start r =>
    start ≤ now ∧ Polled now s r (.acquire (lockKey loop.key) value loop.ttlMs)
      (lockKey loop.key) value (start + loop.ttlMs)
  | .publishing loop value start _ _ | .granting loop value start _ _ =>
    Kept now s (lockKey loop.key) value (start + loop.ttlMs)
  | .extending i ttlMs start r =>
    start ≤ now ∧ ∃ h, s.handles[i]? = some h ∧
      Polled now s r (.extend (lockKey h.key) h.value ttlMs) (lockKey h.key) h.value (start + ttlMs)
  | .prolonging i ttlMs start _ =>
    ∃ h, s.handles[i]? = some h ∧ Kept now s (lockKey h.key) h.value (start + ttlMs)
  | _ => True

/-- While a handle has time left, a quorum has its key for nobody else; until it is given back, a
quorum has it for the handle. -/
structure Handle.Covered (now : ℚ) (s : State n) (i : Nat) (h : Handle) : Prop where
  spared : now < h.expiry → Majority fun k => (s.nodes k).Spares now (lockKey h.key) h.value
  kept : s.leaving i = false → Kept now s (lockKey h.key) h.value h.expiry

variable {key : String} {value r : Nat} {script : Script} {task next : Task} {ttlMs : ℚ} {i : Nat}
  {request : Request RedlockOptions Nat} {node : Fin n} {h h' : Handle} {old : Option Task}
  {about : Option Nat}

theorem Kept.mono (kept : Kept now s key value limit) (clock : now ≤ later)
    (nodes : s'.nodes = s.nodes) (sooner : limit' ≤ limit) : Kept later s' key value limit' := by
  rw [Kept, nodes]
  exact Majority.mono (fun k keeps => keeps.mono clock sooner) kept

/-- A step that leaves the nodes, what was sent to them and whose each handle is as they were. -/
structure Still (s s' : State n) : Prop where
  nodes : s'.nodes = s.nodes
  rounds : ∀ (r : Nat) round, s.rounds[r]? = some round → s'.rounds[r]? = some round
  handles : ∀ (i : Nat) h, s.handles[i]? = some h → ∃ h', s'.handles[i]? = some h' ∧ h.Onward h'

theorem Polled.mono (polled : Polled now s r script key value limit) (clock : now ≤ later)
    (still : Still s s') : Polled later s' r script key value limit := by
  obtain ⟨round, found, sent, voted⟩ := polled
  refine ⟨round, still.rounds r round found, sent, ?_⟩
  intro k reply answered positive
  rw [still.nodes]
  exact (voted k reply answered positive).mono clock (le_refl _)

theorem Task.Covered.mono (covered : task.Covered now s) (clock : now ≤ later)
    (still : Still s s') : task.Covered later s' := by
  cases task with
  | claiming =>
    exact ⟨le_trans covered.1 clock, covered.2.mono clock still⟩
  | publishing | granting => exact Kept.mono covered clock still.nodes (le_refl _)
  | extending i =>
    obtain ⟨begun, h, found, polled⟩ := covered
    obtain ⟨h', found', onward⟩ := still.handles i h found
    refine ⟨le_trans begun clock, h', found', ?_⟩
    rw [onward.key, onward.value]
    exact polled.mono clock still
  | prolonging i =>
    obtain ⟨h, found, kept⟩ := covered
    obtain ⟨h', found', onward⟩ := still.handles i h found
    refine ⟨h', found', ?_⟩
    rw [onward.key, onward.value]
    exact kept.mono clock still.nodes (le_refl _)
  | _ => trivial

theorem Still.refl (s : State n) : Still s s :=
  ⟨rfl, fun _ _ found => found, fun _ h found => ⟨h, found, .refl h⟩⟩

theorem send_rounds {round : Round n} (found : s.rounds[r]? = some round) :
    (s.send script).rounds[r]? = some round :=
  getElem?_concat_of_some found _

theorem still_turned (turned : Turned now s old about s' next) : Still s s' := by
  refine ⟨?_, ?_, ?_⟩
  · cases turned with
    | went went | began went => cases went <;> rfl
  · intro r round found
    cases turned with
    | went went =>
      cases went with
      | attempt | outvoted | elected | unpublished | lost => exact send_rounds found
      | _ => exact found
    | began began =>
      cases began with
      | extend | release => exact send_rounds found
      | _ => exact found
  · intro i h found
    obtain ⟨h', found', onward, _⟩ := handle_turned turned found
    exact ⟨h', found', onward⟩

theorem Still.tasks (still : Still s s') (tasks : List Task) : Still s { s' with tasks := tasks } :=
  ⟨still.nodes, still.rounds, still.handles⟩

theorem polled_send (script : Script) (s : State n) (key : String) (value : Nat) :
    Polled now (s.send script) s.rounds.length script key value limit :=
  ⟨_, List.getElem?_concat_length, rfl, nofun⟩

theorem Polled.kept {sent : Round n} {heard : Fin n → Bool} {test : Option Int → Bool}
    (polled : Polled now s r script key value limit) (found : s.rounds[r]? = some sent)
    (enough : quorum n ≤ (passing test (sent.replies heard)).length)
    (positive : ∀ reply, test reply = true → ∃ vote, reply = some vote ∧ 0 < vote) :
    Kept now s key value limit := by
  obtain ⟨round, found', _, voted⟩ := polled
  cases found.symm.trans found'
  apply majority_of_filter enough
  intro k passed
  obtain ⟨vote, replied, high⟩ := positive _ passed
  exact voted k vote (replies_eq_some replied) high

theorem positive_of_isClaim (reply : Option Int) (passed : isClaim reply = true) :
    ∃ vote, reply = some vote ∧ 0 < vote := by
  obtain ⟨vote, same, positive⟩ := (Option.any_eq_true _ _).mp passed
  exact ⟨vote, same, of_decide_eq_true positive⟩

theorem positive_of_isOne (reply : Option Int) (passed : isOne reply = true) :
    ∃ vote, reply = some vote ∧ 0 < vote := by
  simp only [isOne, beq_iff_eq] at passed
  exact ⟨1, passed, Int.one_pos⟩

theorem covered_next (covered : task.Covered now s) (went : Went now s task s' next) :
    next.Covered now s' := by
  cases went with
  | attempt => exact ⟨le_refl _, polled_send _ s _ _⟩
  | elected loop value start round found enough =>
    exact covered.2.kept found enough positive_of_isClaim
  | published => exact covered
  | reached handle ttlMs start round found replied enough =>
    obtain ⟨_, h, own, polled⟩ := covered
    exact ⟨h, own, polled.kept replied enough positive_of_isOne⟩
  | _ => trivial

theorem covered_began (began : Began now s request s' task) : task.Covered now s' := by
  cases began with
  | extend handle ttlMs found => exact ⟨le_refl _, _, found, polled_send _ s _ _⟩
  | _ => trivial

/-- The time since the validity was read is within the drift allowance. -/
def Task.timely (now : ℚ) (s : State n) : Task → Bool
  | .granting loop _ _ _ readAt => decide (now - readAt ≤ drift loop.service loop.ttlMs)
  | .prolonging handle ttlMs _ readAt =>
    (s.handles[handle]?).all fun h => decide (now - readAt ≤ drift h.service ttlMs)
  | _ => true

inductive Fate (now : ℚ) (s : State n) (i : Nat) (h' : Handle) : Prop where
  | same {h : Handle} (found : s.handles[i]? = some h) (onward : h.Onward h')
      (expiry : h'.expiry = h.expiry)
  | ended (isOver : h'.expiry = now) (gone : h'.live = false)
  | backed (kept : Kept now s (lockKey h'.key) h'.value h'.expiry)

theorem expiry_le {service : RedlockOptions} {start readAt : ℚ}
    (soon : now - readAt ≤ drift service ttlMs) :
    now + validity service ttlMs start readAt ≤ start + ttlMs := by
  simp only [validity]
  linarith

theorem fate_went (covered : task.Covered now s) (placed : task.Placed s)
    (timely : task.timely now s = true) (went : Went now s task s' next)
    (found : s'.handles[i]? = some h') : Fate now s i h' := by
  cases went with
  | granted =>
    rcases getElem?_concat_eq_some found with old | ⟨_, rfl⟩
    · exact .same old (.refl h') rfl
    · have soon := of_decide_eq_true timely
      exact .backed (Kept.mono covered (le_refl _) rfl (expiry_le soon))
  | prolonged =>
    obtain ⟨h, before, rfl⟩ := setHandle_eq_some found
    split
    case isFalse => exact .same before (.refl h) rfl
    case isTrue here =>
      subst here
      obtain ⟨own, held, kept⟩ := covered
      cases before.symm.trans held
      simp only [Task.timely, before, Option.all_some, decide_eq_true_eq] at timely
      exact .backed (kept.mono (le_refl _) rfl (expiry_le timely))
  | abandoned =>
    obtain ⟨h, before, rfl⟩ := setHandle_eq_some found
    split
    case isFalse => exact .same before (.refl h) rfl
    case isTrue => exact .ended rfl rfl
  | released =>
    obtain ⟨h, before, rfl⟩ := setHandle_eq_some found
    split
    case isFalse => exact .same before (.refl h) rfl
    case isTrue here =>
      subst here
      obtain ⟨own, there, gone⟩ := placed
      cases before.symm.trans there
      exact .ended rfl gone
  | _ => exact .same found (.refl h') rfl

theorem fate_began (began : Began now s request s' task) (found : s'.handles[i]? = some h') :
    Fate now s i h' := by
  cases began with
  | release =>
    obtain ⟨h, before, rfl⟩ := setHandle_eq_some found
    refine .same before (onward_ite ⟨rfl, rfl, rfl, fun _ => rfl⟩) ?_
    split <;> rfl
  | _ => exact .same found (.refl h') rfl

theorem Handle.Covered.of_fate {i : Nat} (fate : Fate now s i h')
    (nodes : s'.nodes = s.nodes) (found : s'.handles[i]? = some h')
    (old : ∀ h, s.handles[i]? = some h → h.Covered now s i)
    (stays : s'.leaving i = false → s.leaving i = false) : h'.Covered now s' i := by
  cases fate with
  | same before onward expiry =>
    have covered := old _ before
    refine ⟨fun early => ?_, fun here => ?_⟩
    · rw [onward.key, onward.value, nodes]
      exact covered.spared (expiry ▸ early)
    · rw [onward.key, onward.value, expiry]
      exact (covered.kept (stays here)).mono (le_refl _) nodes (le_refl _)
  | ended isOver gone =>
    refine ⟨fun early => ?_, fun here => ?_⟩
    · rw [isOver] at early
      exact absurd early (lt_irrefl _)
    · rw [leaving_iff.mpr (.inl ⟨h', found, gone⟩)] at here
      cases here
  | backed kept =>
    refine ⟨fun early => ?_, fun _ => kept.mono (le_refl _) nodes (le_refl _)⟩
    rw [nodes]
    exact Majority.mono (fun k keeps => keeps.spares early) kept

theorem Kept.alone {j : Nat} {h h' : Handle} (numbered : Numbered s)
    (found : s.handles[i]? = some h) (found' : s.handles[j]? = some h') (same : h.key = h'.key)
    (kept : Kept now s (lockKey h.key) h.value h.expiry) (early : now < h.expiry)
    (spared : Majority fun k => (s.nodes k).Spares now (lockKey h'.key) h'.value) : i = j := by
  obtain ⟨k, keeps, spares⟩ := Majority.meet kept spared
  rw [← same] at spares
  exact numbered.unique found found' (keeps.eq_of_spares early spares)

/-- At most one handle of a key has time left, and the nodes see to it. -/
structure Exclusive (now : ℚ) (s : State n) : Prop where
  numbered : Numbered s
  disciplined : Disciplined s
  tasks : ∀ task ∈ s.tasks, task.Covered now s
  handles : ∀ (i : Nat) h, s.handles[i]? = some h → h.Covered now s i
  single : ∀ (i j : Nat) h h', s.handles[i]? = some h → s.handles[j]? = some h' →
    h.key = h'.key → now < h.expiry → now < h'.expiry → i = j

theorem Exclusive.tick (exclusive : Exclusive now s) (clock : now ≤ later) : Exclusive later s where
  __ := exclusive
  tasks task mem := (exclusive.tasks task mem).mono clock (.refl s)
  handles i h found := by
    have covered := exclusive.handles i h found
    refine ⟨fun early => ?_, fun stays => (covered.kept stays).mono clock rfl (le_refl _)⟩
    exact Majority.mono (fun k spares => spares.mono clock)
      (covered.spared (lt_of_le_of_lt clock early))
  single i j h h' found found' same early early' :=
    exclusive.single i j h h' found found' same (lt_of_le_of_lt clock early)
      (lt_of_le_of_lt clock early')

theorem Exclusive.turned (exclusive : Exclusive now s) {others tasks : List Task}
    (swapped : Swapped s.tasks old tasks next others) (turned : Turned now s old about s' next)
    (timely : ∀ task, old = some task → task.timely now s = true)
    (apart : ∀ i, about = some i → ∀ other ∈ others, other.handle? ≠ some i) :
    Exclusive now { s' with tasks := tasks } := by
  have numbered := exclusive.numbered.turned swapped turned
  have disciplined := exclusive.disciplined.turned swapped turned exclusive.numbered apart
  have still := still_turned turned
  have fates : ∀ (i : Nat) h', s'.handles[i]? = some h' → Fate now s i h' := by
    intro i h' found
    cases turned with
    | went went =>
      exact fate_went (exclusive.tasks _ swapped.here) (exclusive.disciplined.placed _ swapped.here)
        (timely _ rfl) went found
    | began began => exact fate_began began found
  have handles : ∀ (i : Nat) h', s'.handles[i]? = some h' →
      h'.Covered now { s' with tasks := tasks } i := by
    intro i h' found
    apply @Handle.Covered.of_fate n now s { s' with tasks := tasks } h' i (fates i h' found)
      still.nodes found (exclusive.handles i)
    intro stays
    rw [Bool.eq_false_iff] at stays ⊢
    exact fun leaving => stays (exclusive.disciplined.leaving_turned swapped turned leaving)
  refine ⟨numbered, disciplined, ?_, handles, ?_⟩
  · intro other mem
    rcases swapped.mem_cases mem with rfl | kept
    · have covered : other.Covered now s' := by
        cases turned with
        | went went => exact covered_next (exclusive.tasks _ swapped.here) went
        | began began => exact covered_began began
      exact covered.mono (le_refl _) ((Still.refl s').tasks tasks)
    · exact (exclusive.tasks other (swapped.kept kept)).mono (le_refl _) (still.tasks tasks)
  · intro i j h h' found found' same early early'
    cases fates i h found with
    | ended isOver => exact absurd early (by rw [isOver]; exact lt_irrefl _)
    | backed kept =>
      exact (kept.mono (le_refl _) still.nodes (le_refl _)).alone numbered found found' same early
        ((handles j h' found').spared early')
    | same before onward expiry =>
      cases fates j h' found' with
      | ended isOver => exact absurd early' (by rw [isOver]; exact lt_irrefl _)
      | backed kept =>
        exact ((kept.mono (le_refl _) still.nodes (le_refl _)).alone numbered found' found
          same.symm early' ((handles i h found).spared early)).symm
      | same before' onward' expiry' =>
        rw [onward.key, onward'.key] at same
        exact exclusive.single i j _ _ before before' same (expiry ▸ early) (expiry' ▸ early')

theorem Exclusive.call (exclusive : Exclusive now s) (request : Request RedlockOptions Nat)
    (free : ∀ i, handleOf request = some i → s.free i = true) :
    Exclusive now (s.call now request) := by
  obtain ⟨task, after, began, same⟩ := call_began now s request
  rw [same]
  exact exclusive.turned (swapped_append s.tasks task) (.began began) nofun
    fun i own other mem => not_free (free i own) mem

/-- A node may run the script now: no key is claimed while a handle that is being given back has
time left, and no lease is shortened. -/
def Script.timely (now : ℚ) (s : State n) (node : Fin n) : Script → Bool
  | .acquire key _ _ =>
    (List.range s.handles.length).all fun i => !s.leaving i ||
      (s.handles[i]?).all fun h => lockKey h.key != key || decide (h.expiry ≤ now)
  | .extend key value ttlMs =>
    ((s.nodes node).locks key).all fun lease =>
      lease.value != value || decide (lease.expiresAt ≤ now + ttlMs)
  | _ => true

theorem Script.over_of_timely (timely : Script.timely now s node (.acquire key value ttlMs) = true)
    (found : s.handles[i]? = some h) (leaving : s.leaving i = true) (same : lockKey h.key = key) :
    h.expiry ≤ now := by
  have inside := lt_of_getElem? found
  have each := List.all_eq_true.mp timely i (List.mem_range.mpr inside)
  simpa [leaving, found, same] using each

theorem Script.le_of_timely (timely : Script.timely now s node (.extend key value ttlMs) = true)
    (held : (s.nodes node).locks key = some lease) (same : lease.value = value) :
    lease.expiresAt ≤ now + ttlMs := by
  simpa [Script.timely, held, same] using timely

section applied

variable {k : Fin n} {sent : Round n}

theorem applied_self : (s.applied now r node sent).nodes node =
    ((s.nodes node).run now sent.script).1 := Function.update_self _ _ _

theorem applied_other (apart : k ≠ node) :
    (s.applied now r node sent).nodes k = s.nodes k := Function.update_of_ne apart _ _

def Prolongs (now : ℚ) (s : State n) (node : Fin n) (script : Script) (key : String)
    (value : Nat) : Prop :=
  ∀ ttlMs lease, script = .extend key value ttlMs → (s.nodes node).locks key = some lease →
    lease.value = value → lease.expiresAt ≤ now + ttlMs

theorem prolongs_of_timely (timely : sent.script.timely now s node = true) :
    Prolongs now s node sent.script key value := by
  intro ttlMs lease script held same
  rw [script] at timely
  exact Script.le_of_timely timely held same

theorem keeps_applied (prolongs : Prolongs now s node sent.script key value)
    (unreleased : sent.script ≠ .release key value)
    (keeps : (s.nodes k).Keeps now key value limit) :
    ((s.applied now r node sent).nodes k).Keeps now key value limit := by
  by_cases here : k = node
  · subst here
    rw [applied_self]
    exact keeps.run unreleased prolongs
  · rw [applied_other here]
    exact keeps

theorem spares_applied (unclaimed : ∀ other ttlMs, sent.script ≠ .acquire key other ttlMs)
    (spares : (s.nodes k).Spares now key value) :
    ((s.applied now r node sent).nodes k).Spares now key value := by
  by_cases here : k = node
  · subst here
    rw [applied_self]
    exact spares.run unclaimed
  · rw [applied_other here]
    exact spares

theorem Kept.applied (kept : Kept now s key value limit)
    (prolongs : Prolongs now s node sent.script key value)
    (unreleased : sent.script ≠ .release key value) :
    Kept now (s.applied now r node sent) key value limit :=
  Majority.mono (fun _ keeps => keeps_applied prolongs unreleased keeps) kept

theorem Polled.applied {r' : Nat} {script : Script} {start ttlMs : ℚ} (begun : start ≤ now)
    (polled : Polled now s r' script key value (start + ttlMs))
    (kind : script = .acquire key value ttlMs ∨ script = .extend key value ttlMs)
    (found : s.rounds[r]? = some sent) (prolongs : Prolongs now s node sent.script key value)
    (unreleased : sent.script ≠ .release key value) :
    Polled now (s.applied now r node sent) r' script key value (start + ttlMs) := by
  obtain ⟨round, before, same, voted⟩ := polled
  by_cases this : r = r'
  · subst this
    cases found.symm.trans before
    refine ⟨_, getElem?_set_of_some found _, same, ?_⟩
    intro k reply answered positive
    by_cases here : k = node
    · -- the vote just given
      subst here
      simp only [Function.update_self, Option.some.injEq] at answered
      rw [applied_self]
      rw [← same] at kind
      exact (Node.keeps_of_vote kind answered positive).mono (le_refl _) (by linarith)
    · simp only [Function.update_of_ne here] at answered
      exact keeps_applied prolongs unreleased (voted k reply answered positive)
  · refine ⟨round, ?_, same, ?_⟩
    · simp only [State.applied]
      rw [List.getElem?_set_ne this, before]
    · intro k reply answered positive
      exact keeps_applied prolongs unreleased (voted k reply answered positive)

theorem Exclusive.task_applied (exclusive : Exclusive now s) {task : Task} (mem : task ∈ s.tasks)
    (found : s.rounds[r]? = some sent) (timely : sent.script.timely now s node = true) :
    task.Covered now (s.applied now r node sent) := by
  have covered := exclusive.tasks task mem
  have placed := exclusive.disciplined.placed task mem
  have there := List.mem_of_getElem? found
  have unreleased : ∀ value, task.value? = some value → ∀ key,
      sent.script ≠ .release key value := fun value named key =>
    exclusive.disciplined.task_unreleased mem named there key
  cases task with
  | claiming loop value =>
    exact ⟨covered.1, covered.2.applied covered.1 (.inl rfl) found (prolongs_of_timely timely)
      (unreleased value rfl _)⟩
  | publishing loop value | granting loop value =>
    exact Kept.applied covered (prolongs_of_timely timely) (unreleased value rfl _)
  | extending =>
    have stays := exclusive.disciplined.extending_stays mem rfl placed rfl
    obtain ⟨begun, h, own, polled⟩ := covered
    exact ⟨begun, h, own, polled.applied begun (.inr rfl) found (prolongs_of_timely timely)
      (exclusive.disciplined.handle_unreleased own stays there _)⟩
  | prolonging =>
    have stays := exclusive.disciplined.extending_stays mem rfl placed rfl
    obtain ⟨h, own, kept⟩ := covered
    exact ⟨h, own, kept.applied (prolongs_of_timely timely)
      (exclusive.disciplined.handle_unreleased own stays there _)⟩
  | _ => trivial

theorem Exclusive.handle_applied (exclusive : Exclusive now s) {i : Nat}
    (own : s.handles[i]? = some h) (found : s.rounds[r]? = some sent)
    (timely : sent.script.timely now s node = true) :
    h.Covered now (s.applied now r node sent) i := by
  have covered := exclusive.handles i h own
  have there := List.mem_of_getElem? found
  have kept : s.leaving i = false →
      Kept now (s.applied now r node sent) (lockKey h.key) h.value h.expiry := fun stays =>
    (covered.kept stays).applied (prolongs_of_timely timely)
      (exclusive.disciplined.handle_unreleased own stays there _)
  refine ⟨fun early => ?_, kept⟩
  cases leaving : s.leaving i with
  | false => exact Majority.mono (fun k keeps => keeps.spares early) (kept leaving)
  | true =>
    apply Majority.mono _ (covered.spared early)
    intro k spares
    apply spares_applied _ spares
    intro other ttlMs script
    rw [script] at timely
    have isOver := Script.over_of_timely timely own leaving rfl
    linarith

end applied

/-- Each handle is used by one request at a time, a handle that is being given back has no time left
when somebody else claims its key, no extension shortens a lease, and no more time than the drift
allowance passes between reading a validity and adding it to the clock. -/
def timely (w : (redlock n).World) : (redlock n).Action → Bool
  | .tick _ => true
  | .request request => (handleOf request).all fun i => w.state.free i
  | .event (.apply round node) =>
    (w.state.rounds[round]?).all fun sent => sent.script.timely w.clock w.state node
  | .event (.resume task _) | .event (.step task _) =>
    (w.state.tasks[task]?).all (Task.timely w.clock w.state)

theorem exclusive_start : Exclusive (n := n) 0 (redlock n).initial where
  numbered := numbered_initial
  disciplined := disciplined_initial
  tasks task mem := by cases List.not_mem_nil mem
  handles i h found := by simp at found
  single i j h h' found := by simp at found

theorem Exclusive.act {w : (redlock n).World} {event : Event n}
    (exclusive : Exclusive w.clock w.state) (allowed : timely w (.event event) = true)
    (taken : w.state.act w.clock event = some s') : Exclusive w.clock s' := by
  have numbered := exclusive.numbered.act taken
  have disciplined := exclusive.disciplined.act exclusive.numbered taken
  cases acted taken with
  | @apply r node sent found waiting =>
    have timely : sent.script.timely w.clock w.state node = true := by
      simpa [timely, found] using allowed
    exact ⟨numbered, disciplined, fun task mem => exclusive.task_applied mem found timely,
      fun i h own => exclusive.handle_applied own found timely, exclusive.single⟩
  | @task _ t before next after own found went =>
    obtain ⟨others, swapped⟩ := swapped_set next found
    refine exclusive.turned swapped (.went went) ?_ fun i =>
      alone_of_nodup exclusive.disciplined.single swapped.before
    rintro _ ⟨⟩
    cases event with
    | apply => cases own
    | resume | step =>
      cases own
      simpa [timely, found] using allowed

theorem Exclusive.world {w w' : (redlock n).World} {a : (redlock n).Action}
    (exclusive : Exclusive w.clock w.state) (allowed : timely w a = true)
    (taken : w.act a = some w') : Exclusive w'.clock w'.state := by
  cases moved taken with
  | tick later => exact exclusive.tick later
  | request request =>
    apply exclusive.call request
    intro i own
    simpa [timely, own] using allowed
  | event acted => exact exclusive.act allowed acted

/-- In a timely run, two handles of one key never both have time left. -/
theorem mutual_exclusion {actions : List (redlock n).Action} {w : (redlock n).World}
    (ran : Steps (Guarded (fun w a => timely w a = true) (Executes act))
      (.start (redlock n)) actions w)
    {i j : Nat} {first second : Handle} (found : w.state.handles[i]? = some first)
    (found' : w.state.handles[j]? = some second) (same : first.key = second.key)
    (different : i ≠ j) :
    ¬ (0 < w.state.remainingMs w.clock i ∧ 0 < w.state.remainingMs w.clock j) := by
  have exclusive : Exclusive w.clock w.state := by
    apply ran.invariant (fun (u : (redlock n).World) => Exclusive u.clock u.state)
    · intro u a v exclusive step
      exact exclusive.world step.1 step.2
    · exact exclusive_start
  rintro ⟨left, left'⟩
  simp only [State.remainingMs, found, found', lt_max_iff, lt_irrefl, false_or, sub_pos]
    at left left'
  exact different (exclusive.single i j first second found found' same left left')

/-- Every node runs round `r`, and task `t` hears them all. -/
def inRound (n t r : Nat) : List (redlock n).Action :=
  (List.finRange n).map (fun k => .event (.apply r k)) ++ [.event (.resume t fun _ => true)]

/-- A lock is extended, refused to a second client, released and taken by a third. -/
theorem mutual_exclusion_handed_over : ∃ actions w first second,
    Steps (Guarded (fun w a => timely w a = true) (Executes act)) (.start (redlock 3)) actions w ∧
    w.state.handles[0]? = some first ∧ w.state.handles[1]? = some second ∧
    first.key = second.key ∧
    ¬ (0 < w.state.remainingMs w.clock 0 ∧ 0 < w.state.remainingMs w.clock 1) := by
  let options : LockAcquireOptions := ⟨1000, none, none⟩
  let actions : List (redlock 3).Action :=
    [.request (.acquire defaults "orders:o-1" options), .event (.step 0 0)] ++
    inRound 3 0 0 ++ inRound 3 0 1 ++ [.event (.step 0 0), .tick 500, .request (.extend 0 1000)] ++
    inRound 3 1 2 ++ [.tick 510, .event (.step 1 0),
      .request (.acquire defaults "orders:o-1" options), .event (.step 2 0)] ++
    inRound 3 2 3 ++ inRound 3 2 4 ++ [.event (.step 2 0), .request (.release 0)] ++
    inRound 3 3 5 ++ [.request (.acquire defaults "orders:o-1" options), .event (.step 4 0)] ++
    inRound 3 4 6 ++ inRound 3 4 7 ++ [.event (.step 4 0)]
  obtain ⟨w, run, first, found, second, found', same⟩ : ∃ w,
      Steps (Guarded (fun w a => timely w a = true) (Executes act)) (.start (redlock 3)) actions w ∧
      ∃ first, w.state.handles[0]? = some first ∧ ∃ second, w.state.handles[1]? = some second ∧
        first.key = second.key := by
    decide +kernel
  exact ⟨actions, w, first, second, run, found, found', same,
    mutual_exclusion run found found' same (by decide)⟩

/-- The first client reads its validity at 0 and adds it to the clock at 50. -/
theorem paused_grant_outlives_lease : ∃ actions w first second,
    Steps (Executes act) (.start (redlock 1)) actions w ∧
    w.state.handles[0]? = some first ∧ w.state.handles[1]? = some second ∧
    first.key = second.key ∧
    0 < w.state.remainingMs w.clock 0 ∧ 0 < w.state.remainingMs w.clock 1 := by
  let options : LockAcquireOptions := ⟨100, none, none⟩
  let actions : List (redlock 1).Action :=
    [.request (.acquire defaults "orders:o-1" options), .event (.step 0 0)] ++
    inRound 1 0 0 ++ inRound 1 0 1 ++ [.tick 50, .event (.step 0 0), .tick 100,
      .request (.acquire defaults "orders:o-1" options), .event (.step 1 0)] ++
    inRound 1 1 2 ++ inRound 1 1 3 ++ [.event (.step 1 0)]
  obtain ⟨w, run, first, found, second, found', left⟩ : ∃ w,
      Steps (Executes act) (.start (redlock 1)) actions w ∧
      ∃ first, w.state.handles[0]? = some first ∧ ∃ second, w.state.handles[1]? = some second ∧
        first.key = second.key ∧
        0 < w.state.remainingMs w.clock 0 ∧ 0 < w.state.remainingMs w.clock 1 := by
    decide +kernel
  exact ⟨actions, w, first, second, run, found, found', left⟩

end NestApi.Locking.Redlock
