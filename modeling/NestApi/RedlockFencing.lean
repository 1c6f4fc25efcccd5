import NestApi.RedlockRuns

namespace NestApi.Locking.Redlock

open DistributedLock.World

variable {n : Nat} {now : ℚ} {s s' : State n} {node : Node} {value : Nat} {ttlMs : ℚ} {vote : Int}
  {token : Nat} {round : Round n} {heard : Fin n → Bool} {h : Handle} {task next : Task}

theorem fence_lt_of_vote {lockKey : String}
    (ran : (node.run now (.acquire lockKey value ttlMs)).2 = some vote) (positive : 0 < vote) :
    (node.fence : Int) < vote := by
  simp only [Node.run] at ran
  split at ran
  · cases ran
    omega
  · split at ran
    · cases ran
      omega
    · cases ran

/-- The token is at least the votes of a quorum for the attempt with this value. -/
def Drawn (s : State n) (value token : Nat) : Prop :=
  ∃ (r : Nat) (lockKey : String) (ttlMs : ℚ) (round : Round n), s.rounds[r]? = some round ∧
    round.script = .acquire lockKey value ttlMs ∧
    Majority fun k => ∃ vote : Int, round.answers k = some (some vote) ∧ 0 < vote ∧ vote ≤ token

def Published (s : State n) (token : Nat) : Prop :=
  Majority fun k => token ≤ (s.nodes k).fence

theorem Drawn.mono {value token : Nat} (drawn : Drawn s value token) (onward : Onward s s') :
    Drawn s' value token := by
  obtain ⟨r, lockKey, ttlMs, round, found, same, most⟩ := drawn
  obtain ⟨round', found', same', kept⟩ := onward.rounds r round found
  refine ⟨r, lockKey, ttlMs, round', found', same'.trans same, most.mono ?_⟩
  rintro k ⟨vote, replied, bounds⟩
  exact ⟨vote, kept k _ replied, bounds⟩

theorem Published.mono (published : Published s token) (onward : Onward s s') :
    Published s' token :=
  Majority.mono (fun k reached => Nat.le_trans reached (onward.fence k)) published

/-- What a task that has gone this far knows about its token. -/
def Task.Fenced (s : State n) : Task → Prop
  | .claiming loop value _ r => Sent s r (.acquire (lockKey loop.key) value loop.ttlMs)
  | .publishing _ value _ token r => Sent s r (.bumpFence token) ∧ Drawn s value token
  | .granting _ value _ token _ => Drawn s value token ∧ Published s token
  | _ => True

theorem Task.Fenced.mono {task : Task} (fenced : task.Fenced s) (onward : Onward s s') :
    task.Fenced s' := by
  cases task with
  | claiming => exact Sent.mono fenced onward
  | publishing => exact ⟨fenced.1.mono onward, fenced.2.mono onward⟩
  | granting =>
    exact ⟨fenced.1.mono onward, fenced.2.mono onward⟩
  | _ => trivial

theorem le_highest {votes : Fin n → Option Int} {k : Fin n}
    (voted : votes k = some vote) (claim : isClaim (votes k) = true) : vote ≤ highest votes := by
  have mem : vote.toNat ∈ (passing isClaim votes).map fun node => ((votes node).getD 0).toNat := by
    apply List.mem_map.mpr
    refine ⟨k, List.mem_filter.mpr ⟨List.mem_finRange k, claim⟩, ?_⟩
    rw [voted, Option.getD_some]
  have bound : vote.toNat ≤ highest votes := List.le_max?_getD_of_mem mem
  omega

theorem drawn_of_votes {r : Nat} {lockKey : String} (found : s.rounds[r]? = some round)
    (script : round.script = .acquire lockKey value ttlMs)
    (enough : quorum n ≤ (passing isClaim (round.replies heard)).length) :
    Drawn s value (highest (round.replies heard)) := by
  refine ⟨r, lockKey, ttlMs, round, found, script, majority_of_filter enough ?_⟩
  intro k claim
  obtain ⟨vote, voted, positive⟩ := (Option.any_eq_true _ _).mp claim
  exact ⟨vote, replies_eq_some voted, of_decide_eq_true positive, le_highest voted claim⟩

theorem bumped_of_run : token ≤ (node.run now (.bumpFence token)).1.fence := by
  simp only [Node.run]
  split
  · exact Nat.le_refl _
  · omega

def Bumped (s : State n) : Prop :=
  ∀ (r : Nat) round token k, s.rounds[r]? = some round → round.script = .bumpFence token →
    round.answers k ≠ none → token ≤ (s.nodes k).fence

theorem Bumped.network (bumped : Bumped s) (network : Network now s s') : Bumped s' := by
  have onward := onward_network network
  intro r other token k seen bump replied
  cases network with
  | nothing nodes rounds =>
    rw [rounds] at seen
    exact Nat.le_trans (bumped r other token k seen bump replied) (onward.fence k)
  | send script nodes rounds =>
    rw [rounds] at seen
    rcases getElem?_concat_eq_some seen with old | ⟨_, rfl⟩
    · exact Nat.le_trans (bumped r other token k old bump replied) (onward.fence k)
    · exact absurd rfl replied
  | apply round node sent found waiting nodes rounds =>
    rw [rounds] at seen
    rcases getElem?_set_eq_some seen with ⟨_, rfl⟩ | ⟨_, old⟩
    · by_cases here : k = node
      · subst here
        dsimp only at bump
        rw [nodes, State.applied]
        dsimp only
        rw [Function.update_self, bump]
        exact bumped_of_run
      · dsimp only at replied
        rw [Function.update_of_ne here] at replied
        exact Nat.le_trans (bumped round sent token k found bump replied) (onward.fence k)
    · exact Nat.le_trans (bumped r other token k old bump replied) (onward.fence k)

theorem published_of_bumps (bumped : Bumped s) {r token : Nat} (found : s.rounds[r]? = some round)
    (script : round.script = .bumpFence token)
    (enough : quorum n ≤ (passing isOne (round.replies heard)).length) : Published s token := by
  apply majority_of_filter enough
  intro k one
  have replied := replies_eq_some (beq_iff_eq.mp one)
  apply bumped r round token k found script
  rw [replied]
  nofun

/-- A handle carries a token that a quorum drew and that was then published. -/
def Handle.Fenced (s : State n) (h : Handle) : Prop :=
  Drawn s h.value h.fencingToken ∧ Published s h.fencingToken

theorem Handle.Fenced.mono (fenced : h.Fenced s) (onward : Redlock.Onward s s') : h.Fenced s' :=
  ⟨fenced.1.mono onward, fenced.2.mono onward⟩

structure Fenced (s : State n) : Prop where
  bumped : Bumped s
  tasks : ∀ task ∈ s.tasks, task.Fenced s
  handles : ∀ h ∈ s.handles, h.Fenced s

theorem Fenced.setHandle (fenced : Fenced s) {handle : Nat} {update : Handle → Handle}
    (mem : h ∈ (s.setHandle handle update).handles) (value : ∀ h, (update h).value = h.value)
    (token : ∀ h, (update h).fencingToken = h.fencingToken) : h.Fenced s := by
  obtain ⟨old, before, rfl | rfl⟩ := mem_setHandle mem
  · exact fenced.handles _ before
  · rw [Handle.Fenced, value, token]
    exact fenced.handles old before

theorem fenced_next (fenced : Fenced s) (known : task.Fenced s)
    (went : Went now s task s' next) : next.Fenced s' := by
  have onward := onward_network (network_went went)
  cases went with
  | attempt => exact sent_send _ s
  | elected loop value start round found enough =>
    obtain ⟨sent, found', script⟩ := known
    cases found.symm.trans found'
    exact ⟨sent_send _ s, (drawn_of_votes found script enough).mono onward⟩
  | published loop value start token round found enough =>
    obtain ⟨⟨sent, found', script⟩, drawn⟩ := known
    cases found.symm.trans found'
    exact ⟨drawn, published_of_bumps fenced.bumped found script enough⟩
  | _ => trivial

theorem fenced_handles (fenced : Fenced s) (known : task.Fenced s)
    (went : Went now s task s' next) : ∀ h ∈ s'.handles, h.Fenced s' := by
  have onward := onward_network (network_went went)
  cases went with
  | granted =>
    exact forall_mem_concat (fun h old => (fenced.handles h old).mono onward)
      ⟨known.1.mono onward, known.2.mono onward⟩
  | prolonged | abandoned | released =>
    exact fun h mem => (fenced.setHandle mem (fun _ => rfl) (fun _ => rfl)).mono onward
  | _ => exact fun h mem => (fenced.handles h mem).mono onward

theorem Fenced.act (fenced : Fenced s) {event : Event n} (taken : s.act now event = some s') :
    Fenced s' := by
  have onward := onward_network (network_act taken)
  have bumped := fenced.bumped.network (network_act taken)
  cases acted taken with
  | apply =>
    exact ⟨bumped, fun task mem => (fenced.tasks task mem).mono onward,
      fun h mem => (fenced.handles h mem).mono onward⟩
  | @task _ task before next after moves found went =>
    have known := fenced.tasks before (List.mem_of_getElem? found)
    have same : Network now after { after with tasks := s.tasks.set task next } :=
      .nothing rfl rfl
    refine ⟨bumped, ?_, ?_⟩
    · intro other mem
      rcases List.mem_or_eq_of_mem_set mem with old | rfl
      · exact (fenced.tasks other old).mono onward
      · exact (fenced_next fenced known went).mono (onward_network same)
    · intro h mem
      exact (fenced_handles fenced known went h mem).mono (onward_network same)

theorem Fenced.call (fenced : Fenced s) (request : Request RedlockOptions Nat) :
    Fenced (s.call now request) := by
  have network : Network now s (s.call now request) := network_call request
  have onward := onward_network network
  refine ⟨fenced.bumped.network network, ?_, ?_⟩ <;>
    obtain ⟨task, after, began, same⟩ := call_began now s request <;> rw [same] at onward ⊢
  · apply forall_mem_concat fun other old => (fenced.tasks other old).mono onward
    cases began <;> trivial
  · intro h mem
    cases began with
    | release =>
      exact (fenced.setHandle mem (fun _ => rfl) (fun _ => rfl)).mono onward
    | _ => exact (fenced.handles h mem).mono onward

theorem fenced_of_steps {w : (redlock n).World} {actions : List (redlock n).Action}
    (ran : Steps (Executes act) (.start (redlock n)) actions w) : Fenced w.state := by
  apply ran.invariant (fun (w : (redlock n).World) => Fenced w.state)
  · intro u a v fenced taken
    cases moved taken with
    | tick => exact fenced
    | request request => exact fenced.call request
    | event acted => exact fenced.act acted
  · refine ⟨fun r round token k found => ?_, fun task mem => ?_, fun h mem => ?_⟩
    · simp [start] at found
    · cases List.not_mem_nil mem
    · cases List.not_mem_nil mem

/-- Votes for attempts sent after `past` are above the counters that it had. -/
def Above (past s : State n) : Prop :=
  ∀ (r : Nat) round lockKey value ttlMs k (vote : Int), past.rounds.length ≤ r →
    s.rounds[r]? = some round → round.script = .acquire lockKey value ttlMs →
    round.answers k = some (some vote) → 0 < vote → ((past.nodes k).fence : Int) < vote

theorem Above.network {past : State n} (above : Above past s) (onward : Onward past s)
    (network : Network now s s') : Above past s' := by
  intro r other lockKey value ttlMs k vote late seen acquire voted positive
  cases network with
  | nothing nodes rounds =>
    rw [rounds] at seen
    exact above r other lockKey value ttlMs k vote late seen acquire voted positive
  | send script nodes rounds =>
    rw [rounds] at seen
    rcases getElem?_concat_eq_some seen with old | ⟨_, rfl⟩
    · exact above r other lockKey value ttlMs k vote late old acquire voted positive
    · cases voted
  | apply round node sent found waiting nodes rounds =>
    rw [rounds] at seen
    rcases getElem?_set_eq_some seen with ⟨rfl, rfl⟩ | ⟨_, old⟩
    · by_cases here : k = node
      · subst here
        dsimp only at acquire voted
        rw [Function.update_self, acquire] at voted
        have ahead := fence_lt_of_vote (Option.some.inj voted) positive
        have grown := onward.fence k
        omega
      · dsimp only at voted
        rw [Function.update_of_ne here] at voted
        exact above round sent lockKey value ttlMs k vote late found acquire voted positive
    · exact above r other lockKey value ttlMs k vote late old acquire voted positive

/-- If `acquire` has returned a handle before the attempt behind another sends its first command,
the second handle has the greater token. -/
theorem fencing_happened_before {before after : List (redlock n).Action}
    {mid w : (redlock n).World} {i j : Nat} {first second : Handle}
    (ran : Steps (Executes act) (.start (redlock n)) before mid)
    (returned : mid.state.handles[i]? = some first) (rest : Steps (Executes act) mid after w)
    (later : w.state.handles[j]? = some second)
    (unsent : ∀ round ∈ mid.state.rounds, ∀ lockKey ttlMs,
      round.script ≠ .acquire lockKey second.value ttlMs) :
    first.fencingToken < second.fencingToken := by
  have published := ((fenced_of_steps ran).handles first (List.mem_of_getElem? returned)).2
  have drawn := ((fenced_of_steps (ran.append rest)).handles second (List.mem_of_getElem? later)).1
  have both : Onward mid.state w.state ∧ Above mid.state w.state := by
    apply rest.invariant (fun (u : (redlock n).World) =>
      Onward mid.state u.state ∧ Above mid.state u.state)
    · intro u a v ⟨onward, above⟩ taken
      exact ⟨onward.trans (onward_world taken), above.network onward (network_world taken)⟩
    · refine ⟨.refl _, ?_⟩
      intro r round lockKey value ttlMs k vote late found
      have inside := lt_of_getElem? found
      omega
  obtain ⟨onward, above⟩ := both
  obtain ⟨r, lockKey, ttlMs, round, found, acquire, most⟩ := drawn
  have late : mid.state.rounds.length ≤ r := by
    by_contra early
    obtain ⟨round', found', same, _⟩ := onward.rounds r _
      (List.getElem?_eq_getElem (Nat.lt_of_not_le early))
    cases found.symm.trans found'
    exact unsent _ (List.getElem_mem _) lockKey ttlMs (same.symm.trans acquire)
  obtain ⟨k, reached, vote, voted, positive, bound⟩ := Majority.meet published most
  have ahead := above r round lockKey second.value ttlMs k vote late found acquire voted positive
  omega

def oneSecond : LockAcquireOptions := ⟨1000, none, none⟩

/-- An attempt of task `t` whose rounds `r` and `r + 1` are run and heard by two of three nodes. -/
def attemptOn (t r : Nat) (claims publishes : List (Fin 3)) : List (redlock 3).Action :=
  [.event (.step t 0)] ++ claims.map (fun k => .event (.apply r k)) ++
    [.event (.resume t fun k => k ∈ claims)] ++
    publishes.map (fun k => .event (.apply (r + 1) k)) ++
    [.event (.resume t fun k => k ∈ publishes), .event (.step t 0)]

/-- The second lock is claimed on a node that never voted for the first. -/
theorem fencing_happened_before_elsewhere : ∃ before after mid w first second,
    Steps (Executes act) (.start (redlock 3)) before mid ∧
    mid.state.handles[0]? = some first ∧
    Steps (Executes act) mid after w ∧
    w.state.handles[1]? = some second ∧ first.key = "orders:o-1" ∧ second.key = "orders:o-2" ∧
    first.fencingToken < second.fencingToken := by
  let before : List (redlock 3).Action :=
    .request (.acquire defaults "orders:o-1" oneSecond) :: attemptOn 0 0 [0, 1] [0, 2]
  let after : List (redlock 3).Action :=
    .request (.acquire defaults "orders:o-2" oneSecond) :: attemptOn 1 2 [1, 2] [0, 1]
  obtain ⟨mid, first, h, returned, key, fresh, w, second, h', later, key', value⟩ : ∃ mid,
      Steps (Executes act) (.start (redlock 3)) before mid ∧
      ∃ h, mid.state.handles[0]? = some h ∧ h.key = "orders:o-1" ∧
      mid.state.rounds.all (fun round =>
        match round.script with
        | .acquire _ value _ => value != 1
        | _ => true) = true ∧
      ∃ w, Steps (Executes act) mid after w ∧
      ∃ h', w.state.handles[1]? = some h' ∧ h'.key = "orders:o-2" ∧ h'.value = 1 := by
    decide +kernel
  refine ⟨before, after, mid, w, h, h', first, returned, second, later, key, key', ?_⟩
  apply fencing_happened_before first returned second later
  intro round mem lockKey ttlMs acquire
  have other := List.all_eq_true.mp fresh round mem
  simp [acquire, value] at other

end NestApi.Locking.Redlock
