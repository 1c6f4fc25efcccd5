import NestApi.Redlock

namespace NestApi.Locking.Redlock

open State

variable {n : Nat} {now : ℚ} {s s' s'' : State n} {heard : Fin n → Bool} {task next : Task}
  {event : Event n} {w w' : (redlock n).World} {a : (redlock n).Action}

inductive Went (now : ℚ) (s : State n) : Task → State n → Task → Prop where
  | attempt (loop : Loop) :
      Went now s (.attempting loop)
        { s.send (.acquire (lockKey loop.key) s.attempts loop.ttlMs) with
          attempts := s.attempts + 1 }
        (.claiming loop s.attempts now s.rounds.length)
  | outvoted (loop : Loop) (value : Nat) (start : ℚ) (round : Nat) (error : Option LockError) :
      Went now s (.claiming loop value start round)
        (s.send (.release (lockKey loop.key) value)) (.withdrawing loop error s.rounds.length)
  | elected (loop : Loop) (value : Nat) (start : ℚ) (round : Nat) {sent heard}
      (found : s.rounds[round]? = some sent)
      (enough : quorum n ≤ (passing isClaim (sent.replies heard)).length)
      (valid : 0 < validity loop.service loop.ttlMs start now) :
      Went now s (.claiming loop value start round)
        (s.send (.bumpFence (highest (sent.replies heard))))
        (.publishing loop value start (highest (sent.replies heard)) s.rounds.length)
  | unpublished (loop : Loop) (value : Nat) (start : ℚ) (token round : Nat) :
      Went now s (.publishing loop value start token round)
        (s.send (.release (lockKey loop.key) value)) (.withdrawing loop none s.rounds.length)
  | published (loop : Loop) (value : Nat) (start : ℚ) (token round : Nat) {sent heard}
      (found : s.rounds[round]? = some sent)
      (enough : quorum n ≤ (passing isOne (sent.replies heard)).length)
      (valid : 0 < validity loop.service loop.ttlMs start now) :
      Went now s (.publishing loop value start token round) s (.granting loop value start token now)
  | granted (loop : Loop) (value : Nat) (start : ℚ) (token : Nat) (readAt : ℚ) :
      Went now s (.granting loop value start token readAt)
        { s with
          handles := s.handles ++ [⟨loop.service, loop.key, value, token,
            now + validity loop.service loop.ttlMs start readAt, true⟩] }
        (.done (.handle (some s.handles.length)))
  | withdrew (loop : Loop) (round : Nat) :
      Went now s (.withdrawing loop none round) s (.waiting loop)
  | threw (loop : Loop) (error : LockError) (round : Nat) :
      Went now s (.withdrawing loop (some error) round) s (.done (.threw error))
  | gaveUp (loop : Loop) : Went now s (.waiting loop) s (.done (.handle none))
  | slept (loop : Loop) (wakes : ℚ) : Went now s (.waiting loop) s (.sleeping loop wakes)
  | woke (loop : Loop) (wakes : ℚ) : Went now s (.sleeping loop wakes) s (.attempting loop)
  | lost (handle : Nat) (ttlMs start : ℚ) (round : Nat) {h} (found : s.handles[handle]? = some h) :
      Went now s (.extending handle ttlMs start round)
        (s.send (.release (lockKey h.key) h.value)) (.abandoning handle s.rounds.length)
  | reached (handle : Nat) (ttlMs start : ℚ) (round : Nat) {h sent heard}
      (found : s.handles[handle]? = some h)
      (replied : s.rounds[round]? = some sent)
      (enough : quorum n ≤ (passing isOne (sent.replies heard)).length)
      (valid : 0 < validity h.service ttlMs start now) :
      Went now s (.extending handle ttlMs start round) s (.prolonging handle ttlMs start now)
  | prolonged (handle : Nat) (ttlMs start readAt : ℚ) :
      Went now s (.prolonging handle ttlMs start readAt)
        (s.setHandle handle fun h =>
          { h with expiry := now + validity h.service ttlMs start readAt })
        (.done (.done true))
  | abandoned (handle round : Nat) :
      Went now s (.abandoning handle round)
        (s.setHandle handle fun h => { h with live := false, expiry := now })
        (.done (.done false))
  | released (handle round : Nat) (held : Bool) :
      Went now s (.releasing handle round) (s.setHandle handle fun h => { h with expiry := now })
        (.done (.done held))

theorem went_of_resume
    (taken : s.resume now heard task = some (s', next)) : Went now s task s' next := by
  cases task with
  | claiming loop value start round =>
    simp only [resume, Option.bind_eq_some_iff] at taken
    obtain ⟨sent, found, taken⟩ := taken
    split at taken
    case isTrue =>
      cases taken
      exact .outvoted loop value start round none
    case isFalse enough =>
      split at taken
      case isTrue =>
        cases taken
        exact .outvoted loop value start round _
      case isFalse =>
        cases taken
        simp only [not_or, not_lt, not_le] at enough
        exact .elected loop value start round found enough.1 enough.2
  | publishing loop value start token round =>
    simp only [resume, Option.bind_eq_some_iff] at taken
    obtain ⟨sent, found, taken⟩ := taken
    split at taken
    case isTrue =>
      cases taken
      exact .unpublished loop value start token round
    case isFalse enough =>
      cases taken
      simp only [not_or, not_lt, not_le] at enough
      exact .published loop value start token round found enough.1 enough.2
  | withdrawing loop error round =>
    cases error with
    | none =>
      cases taken
      exact .withdrew loop round
    | some error =>
      cases taken
      exact .threw loop error round
  | extending handle ttlMs start round =>
    simp only [resume, Option.bind_eq_some_iff] at taken
    obtain ⟨sent, replied, h, found, taken⟩ := taken
    split at taken
    case isTrue =>
      cases taken
      exact .lost handle ttlMs start round found
    case isFalse enough =>
      cases taken
      simp only [not_or, not_lt, not_le] at enough
      exact .reached handle ttlMs start round found replied enough.1 enough.2
  | abandoning handle round =>
    cases taken
    exact .abandoned handle round
  | releasing handle round =>
    simp only [resume, Option.bind_eq_some_iff] at taken
    obtain ⟨sent, _, taken⟩ := taken
    cases taken
    exact .released handle round _
  | _ => cases taken

theorem went_of_step {random : ℚ}
    (taken : s.step now random task = some (s', next)) : Went now s task s' next := by
  cases task with
  | attempting loop =>
    cases taken
    exact .attempt loop
  | granting loop value start token readAt =>
    cases taken
    exact .granted loop value start token readAt
  | waiting loop =>
    simp only [step] at taken
    split at taken
    · cases taken
      exact .gaveUp loop
    · cases taken
      exact .slept loop _
  | sleeping loop wakes =>
    simp only [step, Option.ite_none_right_eq_some] at taken
    cases taken.2
    exact .woke loop wakes
  | prolonging handle ttlMs start readAt =>
    cases taken
    exact .prolonged handle ttlMs start readAt
  | _ => cases taken

def Event.task? : Event n → Option Nat
  | .apply _ _ => none
  | .resume task _ | .step task _ => some task

inductive Acted (now : ℚ) (s : State n) : Event n → State n → Prop where
  | apply {round node sent} (found : s.rounds[round]? = some sent)
      (waiting : sent.answers node = none) :
      Acted now s (.apply round node) (s.applied now round node sent)
  | task {event task before next after}
      (moves : event.task? = some task) (found : s.tasks[task]? = some before)
      (went : Went now s before after next) :
      Acted now s event { after with tasks := s.tasks.set task next }

theorem acted (taken : s.act now event = some s') : Acted now s event s' := by
  cases event with
  | apply =>
    simp only [act, Option.bind_eq_some_iff, Option.ite_none_right_eq_some] at taken
    obtain ⟨sent, found, waiting, same⟩ := taken
    cases same
    exact .apply found waiting
  | resume =>
    simp only [act, advance, Option.bind_eq_some_iff, Option.map_eq_some_iff] at taken
    obtain ⟨before, found, ⟨after, next⟩, went, rfl⟩ := taken
    exact .task rfl found (went_of_resume went)
  | step =>
    simp only [act, advance, Option.bind_eq_some_iff, Option.map_eq_some_iff] at taken
    obtain ⟨before, found, ⟨after, next⟩, went, rfl⟩ := taken
    exact .task rfl found (went_of_step went)

inductive Began (now : ℚ) (s : State n) : Request RedlockOptions Nat → State n → Task → Prop where
  | refused (request : Request RedlockOptions Nat) (answer : Answer Nat)
      (without : ∀ handle, answer ≠ .handle (some handle)) :
      Began now s request s (.done answer)
  | acquire (service : RedlockOptions) (key : String) (options : LockAcquireOptions) (loop : Loop)
      (own : loop.service = service) (named : loop.key = key) (lasts : 0 < loop.ttlMs) :
      Began now s (.acquire service key options) s (.attempting loop)
  | extend (handle : Nat) (ttlMs : ℚ) {h} (found : s.handles[handle]? = some h)
      (live : h.live = true) (lasts : 0 < ttlMs) :
      Began now s (.extend handle ttlMs) (s.send (.extend (lockKey h.key) h.value ttlMs))
        (.extending handle ttlMs now s.rounds.length)
  | release (handle : Nat) {h} (found : s.handles[handle]? = some h) (live : h.live = true) :
      Began now s (.release handle)
        ((s.setHandle handle fun h => { h with live := false }).send
          (.release (lockKey h.key) h.value))
        (.releasing handle s.rounds.length)

theorem call_began (now : ℚ) (s : State n) (request : Request RedlockOptions Nat) :
    ∃ task after, Began now s request after task ∧
      s.call now request = { after with tasks := s.tasks ++ [task] } := by
  cases request with
  | acquire =>
    simp only [call]
    split
    case isTrue => exact ⟨_, _, .refused _ _ (by nofun), rfl⟩
    case isFalse positive =>
      simp only [not_or, not_le] at positive
      split
      case isTrue => exact ⟨_, _, .refused _ _ (by nofun), rfl⟩
      case isFalse =>
        split
        case isTrue => exact ⟨_, _, .refused _ _ (by nofun), rfl⟩
        case isFalse => exact ⟨_, _, .acquire _ _ _ _ rfl rfl positive.2, rfl⟩
  | extend handle ttlMs =>
    simp only [call]
    split
    case isTrue => exact ⟨_, _, .refused _ _ (by nofun), rfl⟩
    case isFalse positive =>
      simp only [not_or, not_le] at positive
      split
      case h_1 => exact ⟨_, _, .refused _ _ (by nofun), rfl⟩
      case h_2 h found =>
        split
        case isTrue live => exact ⟨_, _, .extend handle ttlMs found live positive.2, rfl⟩
        case isFalse => exact ⟨_, _, .refused _ _ (by nofun), rfl⟩
  | release handle =>
    simp only [call]
    split
    case h_1 => exact ⟨_, _, .refused _ _ (by nofun), rfl⟩
    case h_2 h found =>
      split
      case isTrue live => exact ⟨_, _, .release handle found live, rfl⟩
      case isFalse => exact ⟨_, _, .refused _ _ (by nofun), rfl⟩

inductive Network (now : ℚ) (s s' : State n) : Prop where
  | nothing (nodes : s'.nodes = s.nodes) (rounds : s'.rounds = s.rounds)
  | send (script : Script) (nodes : s'.nodes = s.nodes)
      (rounds : s'.rounds = s.rounds ++ [⟨script, fun _ => none⟩])
  | apply (round : Nat) (node : Fin n) (sent : Round n) (found : s.rounds[round]? = some sent)
      (waiting : sent.answers node = none)
      (nodes : s'.nodes = (s.applied now round node sent).nodes)
      (rounds : s'.rounds = (s.applied now round node sent).rounds)

theorem network_went (went : Went now s task s' next) : Network now s s' := by
  cases went with
  | attempt | outvoted | elected | unpublished | lost => exact .send _ rfl rfl
  | _ => exact .nothing rfl rfl

theorem network_act (taken : s.act now event = some s') : Network now s s' := by
  cases acted taken with
  | apply found waiting => exact .apply _ _ _ found waiting rfl rfl
  | task moves found went =>
    cases network_went went with
    | nothing nodes rounds => exact .nothing nodes rounds
    | send script nodes rounds => exact .send script nodes rounds
    | apply round node sent found waiting nodes rounds =>
      exact .apply round node sent found waiting nodes rounds

theorem network_call (request : Request RedlockOptions Nat) :
    Network now s (s.call now request) := by
  obtain ⟨task, after, began, same⟩ := call_began now s request
  rw [same]
  cases began with
  | refused | acquire => exact .nothing rfl rfl
  | extend | release => exact .send _ rfl rfl

theorem network_world (taken : w.act a = some w') : Network w.clock w.state w'.state := by
  cases DistributedLock.World.moved taken with
  | tick => exact .nothing rfl rfl
  | request request => exact network_call request
  | event acted => exact network_act acted

/-- Counters never go back, and no script sent and no reply to one is ever forgotten. -/
structure Onward (s s' : State n) : Prop where
  fence : ∀ k, (s.nodes k).fence ≤ (s'.nodes k).fence
  rounds : ∀ (r : Nat) round, s.rounds[r]? = some round →
    ∃ round', s'.rounds[r]? = some round' ∧ round'.script = round.script ∧
      ∀ k reply, round.answers k = some reply → round'.answers k = some reply

theorem Onward.refl (s : State n) : Onward s s where
  fence _ := Nat.le_refl _
  rounds _ round found := ⟨round, found, rfl, fun _ _ same => same⟩

theorem Onward.trans (first : Onward s s') (second : Onward s' s'') : Onward s s'' where
  fence k := Nat.le_trans (first.fence k) (second.fence k)
  rounds r round found := by
    obtain ⟨round', found', script', kept'⟩ := first.rounds r round found
    obtain ⟨round'', found'', script'', kept''⟩ := second.rounds r round' found'
    exact ⟨round'', found'', script''.trans script',
      fun k reply same => kept'' k reply (kept' k reply same)⟩

theorem run_fence_le (node : Node) (script : Script) :
    node.fence ≤ (node.run now script).1.fence := by
  cases script with
  | acquire =>
    simp only [Node.run]
    split
    · exact Nat.le_refl _
    · split
      · exact Nat.le_succ _
      · exact Nat.le_refl _
  | bumpFence =>
    simp only [Node.run]
    split
    · rename_i below
      exact Nat.le_of_lt below
    · exact Nat.le_refl _
  | release | extend =>
    simp only [Node.run]
    split <;> exact Nat.le_refl _

theorem onward_network (network : Network now s s') : Onward s s' := by
  cases network with
  | nothing nodes rounds =>
    refine ⟨fun k => by rw [nodes], fun r round found => ?_⟩
    exact ⟨round, by rw [rounds]; exact found, rfl, fun _ _ same => same⟩
  | send script nodes rounds =>
    refine ⟨fun k => by rw [nodes], fun r round found => ?_⟩
    exact ⟨round, rounds ▸ getElem?_concat_of_some found _, rfl, fun _ _ same => same⟩
  | apply round node sent found waiting nodes rounds =>
    refine ⟨fun k => ?_, fun r other seen => ?_⟩
    · rw [nodes]
      simp only [applied]
      by_cases here : k = node
      · subst here
        rw [Function.update_self]
        exact run_fence_le _ _
      · rw [Function.update_of_ne here]
    · rw [rounds]
      simp only [applied]
      by_cases here : round = r
      · subst here
        cases found.symm.trans seen
        refine ⟨_, getElem?_set_of_some found _, rfl, ?_⟩
        intro k reply replied
        dsimp only
        rw [Function.update_of_ne, replied]
        rintro rfl
        rw [waiting] at replied
        cases replied
      · exact ⟨other, by rw [List.getElem?_set_ne here, seen], rfl, fun _ _ same => same⟩

theorem onward_world (taken : w.act a = some w') : Onward w.state w'.state :=
  onward_network (network_world taken)

def Sent (s : State n) (r : Nat) (script : Script) : Prop :=
  ∃ round, s.rounds[r]? = some round ∧ round.script = script

theorem Sent.mono {r : Nat} {script : Script} (sent : Sent s r script) (onward : Onward s s') :
    Sent s' r script := by
  obtain ⟨round, found, same⟩ := sent
  obtain ⟨round', found', same', _⟩ := onward.rounds r round found
  exact ⟨round', found', same'.trans same⟩

theorem sent_send (script : Script) (s : State n) : Sent (s.send script) s.rounds.length script :=
  ⟨_, List.getElem?_concat_length, rfl⟩

theorem replies_eq_some {round : Round n} {k : Fin n} {reply : Int}
    (replied : round.replies heard k = some reply) : round.answers k = some (some reply) := by
  simp only [Round.replies] at replied
  split at replied
  · cases answered : round.answers k with
    | none =>
      rw [answered] at replied
      cases replied
    | some =>
      rw [answered] at replied
      exact congrArg some replied
  · cases replied

theorem mem_setHandle {handle : Nat} {update : Handle → Handle} {h : Handle}
    (mem : h ∈ (s.setHandle handle update).handles) :
    ∃ old ∈ s.handles, h = old ∨ h = update old := by
  obtain ⟨i, found⟩ := List.mem_iff_getElem?.mp mem
  simp only [setHandle, List.getElem?_modify, Option.map_eq_map, Option.map_eq_some_iff] at found
  obtain ⟨old, before, same⟩ := found
  refine ⟨old, List.mem_of_getElem? before, ?_⟩
  split at same
  · exact .inr same.symm
  · exact .inl same.symm

end NestApi.Locking.Redlock
