import NestApi.RedlockExclusion
import NestApi.RedlockFencing

namespace NestApi.Locking.Redlock

open DistributedLock.World

variable {n : Nat} {now later limit : ℚ} {s s' : State n}

/-- The keys and the tokens of the handles, in the order in which they were returned. -/
def tags (s : State n) : List (String × Nat) := s.handles.map fun h => (h.key, h.fencingToken)

variable {task next : Task} {value : Nat} {others tasks : List Task} {key : String} {token : Nat}
  {script : Script} {round : Round n} {tag : String × Nat} {ttlMs : ℚ} {vote : Int}
  {old : Option Task} {about : Option Nat}

theorem tags_turned (turned : Turned now s old about s' next) :
    tags s' = tags s ∨ ∃ loop value start token readAt,
      old = some (.granting loop value start token readAt) ∧
        tags s' = tags s ++ [(loop.key, token)] := by
  cases turned with
  | went went =>
    cases went with
    | granted loop value start token readAt =>
      exact .inr ⟨loop, value, start, token, readAt, rfl, List.map_append⟩
    | prolonged | abandoned | released => exact .inl (setHandle_map _ fun _ => rfl)
    | _ => exact .inl rfl
  | began began =>
    cases began with
    | release => exact .inl (setHandle_map _ fun _ => rfl)
    | _ => exact .inl rfl

def Script.ends? : Script → Option Nat
  | .release _ value | .extend _ value _ => some value
  | .acquire _ _ _ | .bumpFence _ => none

theorem Script.value?_of_ends (ends : script.ends? = some value) : script.value? = some value := by
  cases script with
  | release | extend => exact ends
  | _ => cases ends

/-- No script ends or changes the lease of an attempt that is under way. -/
def Reserved (s : State n) : Prop :=
  ∀ round ∈ s.rounds, ∀ value, round.script.ends? = some value →
    ∀ task ∈ s.tasks, task.value? ≠ some value

theorem Reserved.turned (reserved : Reserved s) (numbered : Numbered s)
    (swapped : Swapped s.tasks old tasks next others) (turned : Turned now s old about s' next) :
    Reserved { s' with tasks := tasks } := by
  intro round mem value ends other there named
  have known := Script.value?_of_ends ends
  rcases sends_turned turned mem with before | sends
  · rcases swapped.mem_cases there with rfl | stays
    · rcases value_turned turned named with same | fresh
      · obtain ⟨task, rfl, same⟩ := Option.bind_eq_some_iff.mp same
        exact reserved round before value ends task swapped.here same
      · have below := numbered.scripts round before value known
        omega
    · exact reserved round before value ends other (swapped.kept stays) named
  · generalize round.script = script at sends ends known
    cases sends with
    | acquire | bump => cases ends
    | withdraw _ own unnamed =>
      cases ends
      rcases swapped.mem_cases there with rfl | stays
      · cases unnamed.symm.trans named
      · exact (numbered.alone swapped own).1 other stays named
    | handle found whose unnamed =>
      cases whose.symm.trans known
      rcases swapped.mem_cases there with rfl | stays
      · cases unnamed.symm.trans named
      · exact numbered.apart (swapped.kept stays) (List.mem_of_getElem? found) named

/-- An attempt is ahead of an earlier handle of its key: the votes of some quorum are above its
token, or the attempt is out of time. -/
def Task.Ahead (now : ℚ) (s : State n) (key : String) (token : Nat) : Task → Prop
  | .claiming loop _ start r =>
    loop.key = key → start + loop.ttlMs ≤ now ∨ ∃ round, s.rounds[r]? = some round ∧
      Majority fun k => ∀ vote, round.answers k = some (some vote) → 0 < vote → token < vote
  | .publishing loop _ start own _ | .granting loop _ start own _ =>
    loop.key = key → start + loop.ttlMs ≤ now ∨ token < own
  | _ => True

theorem Task.Ahead.mono (ahead : task.Ahead now s key token) (clock : now ≤ later)
    (still : Still s s') : task.Ahead later s' key token := by
  cases task with
  | claiming loop value start r =>
    intro same
    rcases ahead same with isOver | ⟨round, found, most⟩
    · exact .inl (le_trans isOver clock)
    · exact .inr ⟨round, still.rounds r round found, most⟩
  | publishing | granting =>
    intro same
    rcases ahead same with isOver | above
    · exact .inl (le_trans isOver clock)
    · exact .inr above
  | _ => trivial

theorem ahead_attempt (loop : Loop) (published : Published s token)
    (rounds : s'.rounds = (s.send script).rounds) :
    (Task.claiming loop value now s.rounds.length).Ahead now s' key token := by
  intro _
  have new : (s.send script).rounds[s.rounds.length]? = some ⟨script, fun _ => none⟩ :=
    List.getElem?_concat_length
  refine .inr ⟨_, rounds ▸ new, Majority.mono ?_ published⟩
  intro k _ vote voted
  cases voted

theorem ahead_next (ahead : task.Ahead now s key token) (published : Published s token)
    (went : Went now s task s' next) : next.Ahead now s' key token := by
  cases went with
  | attempt loop => exact ahead_attempt loop published rfl
  | @elected loop value start r sent heard found enough valid =>
    intro same
    rcases ahead same with isOver | ⟨round, found', most⟩
    · exact .inl isOver
    · cases found.symm.trans found'
      -- the quorum that voted has a vote above the token
      have voters := majority_of_filter enough fun _ here => here
      obtain ⟨k, above, claim⟩ := Majority.meet most voters
      obtain ⟨vote, voted, positive⟩ := (Option.any_eq_true _ _).mp claim
      have high := above vote (replies_eq_some voted) (of_decide_eq_true positive)
      have bound : vote ≤ highest (sent.replies heard) := le_highest voted claim
      right
      omega
  | published => exact ahead
  | _ => trivial

theorem ahead_of_kept {other : Nat} (covered : task.Covered now s)
    (named : task.value? = some other) (apart : value ≠ other)
    (kept : Kept now s (lockKey key) value limit) (early : now < limit) :
    task.Ahead now s key token := by
  have clash : ∀ k, (s.nodes k).Keeps now (lockKey key) value limit → ∀ {limit'}, now < limit' →
      ¬ (s.nodes k).Keeps now (lockKey key) other limit' := fun k mine _ early' theirs =>
    apart (mine.eq_of_spares early (theirs.spares early'))
  cases task with
  | claiming loop own start =>
    rintro rfl
    cases named
    by_cases isOver : start + loop.ttlMs ≤ now
    · exact .inl isOver
    · obtain ⟨round, found, _, voted⟩ := covered.2
      refine .inr ⟨round, found, Majority.mono ?_ kept⟩
      intro k mine vote answered positive
      exact absurd (voted k vote answered positive) (clash k mine (not_le.mp isOver))
  | publishing loop own start | granting loop own start =>
    rintro rfl
    cases named
    by_cases isOver : start + loop.ttlMs ≤ now
    · exact .inl isOver
    · obtain ⟨k, mine, theirs⟩ := Majority.meet kept covered
      exact absurd theirs (clash k mine (not_le.mp isOver))
  | _ => cases named

theorem covered_named (covered : ∀ value, task.value? = some value → task.Covered now s)
    (went : Went now s task s' next) (named : next.value? = some value) : next.Covered now s' := by
  cases whose : task.value? with
  | some own => exact covered_next (covered own whose) went
  | none =>
    cases went with
    | attempt => exact ⟨le_refl _, polled_send _ s _ _⟩
    | elected | published => cases whose
    | _ => cases named

theorem ahead_of_unnamed (unnamed : task.value? = none) : task.Ahead now s key token := by
  cases task with
  | claiming | publishing | granting => cases unnamed
  | _ => trivial

/-- The handle is returned before the time that its attempt asked for is over. -/
def Task.prompt (now : ℚ) : Task → Bool
  | .granting loop _ start _ _ => decide (now < start + loop.ttlMs)
  | _ => true

/-- Tokens of a key go up, and every attempt under way that can still succeed will be above those
returned so far. -/
structure Ordered (now : ℚ) (s : State n) : Prop where
  numbered : Numbered s
  fenced : Fenced s
  reserved : Reserved s
  tasks : ∀ task ∈ s.tasks, ∀ value, task.value? = some value → task.Covered now s
  ahead : ∀ task ∈ s.tasks, ∀ tag ∈ tags s, task.Ahead now s tag.1 tag.2
  sorted : (tags s).Pairwise fun a b => a.1 = b.1 → a.2 < b.2

theorem Fenced.published (fenced : Fenced s) (mem : tag ∈ tags s) : Published s tag.2 := by
  obtain ⟨h, held, rfl⟩ := List.mem_map.mp mem
  exact (fenced.handles h held).2

theorem Ordered.tick (ordered : Ordered now s) (clock : now ≤ later) : Ordered later s where
  __ := ordered
  tasks task mem value named := (ordered.tasks task mem value named).mono clock (.refl s)
  ahead task mem tag old := (ordered.ahead task mem tag old).mono clock (.refl s)

theorem Ordered.turned (ordered : Ordered now s)
    (swapped : Swapped s.tasks old tasks next others) (turned : Turned now s old about s' next)
    (fenced : Fenced { s' with tasks := tasks })
    (prompt : ∀ task, old = some task → task.prompt now = true) :
    Ordered now { s' with tasks := tasks } := by
  have still := still_turned turned
  have aheads : ∀ other ∈ tasks, ∀ tag ∈ tags s,
      other.Ahead now { s' with tasks := tasks } tag.1 tag.2 := by
    intro other mem tag earlier
    rcases swapped.mem_cases mem with rfl | kept
    · have next : other.Ahead now s' tag.1 tag.2 := by
        cases turned with
        | went went =>
          exact ahead_next (ordered.ahead _ swapped.here tag earlier)
            (ordered.fenced.published earlier) went
        | began began => cases began <;> trivial
      exact next.mono (le_refl _) ((Still.refl s').tasks tasks)
    · exact (ordered.ahead other (swapped.kept kept) tag earlier).mono (le_refl _)
        (still.tasks tasks)
  have covered : ∀ other ∈ tasks, ∀ value, other.value? = some value →
      other.Covered now { s' with tasks := tasks } := by
    intro other mem value named
    rcases swapped.mem_cases mem with rfl | kept
    · have next : other.Covered now s' := by
        cases turned with
        | went went => exact covered_named (ordered.tasks _ swapped.here) went named
        | began began => exact covered_began began
      exact next.mono (le_refl _) ((Still.refl s').tasks tasks)
    · exact (ordered.tasks other (swapped.kept kept) value named).mono (le_refl _)
        (still.tasks tasks)
  refine ⟨ordered.numbered.turned swapped turned, fenced,
    ordered.reserved.turned ordered.numbered swapped turned, covered, ?_, ?_⟩
  · intro other mem tag tagged
    rcases tags_turned turned with same | ⟨loop, value, start, token, readAt, rfl, same⟩
    · exact aheads other mem tag (same ▸ tagged)
    · rcases List.mem_append.mp (same ▸ tagged) with old | new
      · exact aheads other mem tag old
      · -- the handle just returned: whoever else wants the key has lost the nodes that have it
        cases List.mem_singleton.mp new
        have kept : Kept now s (lockKey loop.key) value (start + loop.ttlMs) :=
          ordered.tasks _ swapped.here value rfl
        have early := of_decide_eq_true (prompt _ rfl)
        cases whose : other.value? with
        | none => exact ahead_of_unnamed whose
        | some own =>
          rcases swapped.mem_cases mem with rfl | stays
          · cases turned with
            | went went =>
              cases went
              cases whose
          · apply ahead_of_kept (covered other mem own whose) whose _
              (kept.mono (le_refl _) still.nodes (le_refl _)) early
            rintro rfl
            exact (ordered.numbered.alone swapped rfl).1 other stays whose
  · rcases tags_turned turned with same | ⟨loop, value, start, token, readAt, rfl, same⟩
    · exact same ▸ ordered.sorted
    · have sorted : (tags s ++ [(loop.key, token)]).Pairwise fun a b => a.1 = b.1 → a.2 < b.2 := by
        apply List.pairwise_append.mpr
        refine ⟨ordered.sorted, List.pairwise_singleton _ _, ?_⟩
        intro tag old new mem matching
        cases List.mem_singleton.mp mem
        rcases ordered.ahead _ swapped.here tag old matching.symm with isOver | above
        · have early := of_decide_eq_true (prompt _ rfl)
          linarith
        · exact above
      exact same ▸ sorted

theorem Ordered.call (ordered : Ordered now s) (request : Request RedlockOptions Nat) :
    Ordered now (s.call now request) := by
  have fenced : Fenced (s.call now request) := ordered.fenced.call request
  obtain ⟨task, after, began, same⟩ := call_began now s request
  rw [same] at fenced ⊢
  exact ordered.turned (swapped_append s.tasks task) (.began began) fenced nofun

theorem unseen_of_vote {node : Node}
    (replied : (node.run now (.acquire key value ttlMs)).2 = some vote) (positive : 0 < vote) :
    node.get now key = none := by
  simp only [Node.run] at replied
  split at replied
  case isTrue =>
    cases replied
    omega
  case isFalse unseen => exact Option.not_isSome_iff_eq_none.mp unseen

/-- A node that would grant the key has a counter that is not below the tokens of the handles
returned for it. -/
def Script.informed (now : ℚ) (s : State n) (node : Fin n) : Script → Bool
  | .acquire key _ _ =>
    ((s.nodes node).get now key).isSome || (tags s).all fun tag =>
      lockKey tag.1 != key || decide (tag.2 ≤ (s.nodes node).fence)
  | _ => true

theorem Script.lt_vote_of_informed {node : Fin n}
    (informed : Script.informed now s node (.acquire (lockKey key) value ttlMs) = true)
    (mem : (key, token) ∈ tags s)
    (replied : ((s.nodes node).run now (.acquire (lockKey key) value ttlMs)).2 = some vote)
    (positive : 0 < vote) : token < vote := by
  have above := fence_lt_of_vote replied positive
  have unseen := unseen_of_vote replied positive
  simp only [Script.informed, unseen, Option.isSome_none, Bool.false_or, List.all_eq_true]
    at informed
  have bound := informed (key, token) mem
  simp only [bne_self_eq_false, Bool.false_or, decide_eq_true_eq] at bound
  omega

section applied

variable {r : Nat} {node : Fin n} {sent : Round n}

theorem Reserved.applied (reserved : Reserved s) (found : s.rounds[r]? = some sent) :
    Reserved (s.applied now r node sent) := by
  intro round mem value ends
  obtain ⟨earlier, old, same⟩ := mem_applied found mem
  rw [same] at ends
  exact reserved earlier old value ends

variable (ordered : Ordered now s) (mem : task ∈ s.tasks) (found : s.rounds[r]? = some sent)

include ordered mem found

theorem Ordered.task_applied {value : Nat} (named : task.value? = some value) :
    task.Covered now (s.applied now r node sent) := by
  have covered := ordered.tasks task mem value named
  have spared : sent.script.ends? ≠ some value := fun ends =>
    ordered.reserved sent (List.mem_of_getElem? found) value ends task mem named
  have unreleased : ∀ key, sent.script ≠ .release key value := by
    intro key same
    rw [same] at spared
    exact spared rfl
  have prolongs : ∀ key, Prolongs now s node sent.script key value := by
    intro key ttlMs lease same
    rw [same] at spared
    exact absurd rfl spared
  cases task with
  | claiming =>
    cases named
    exact ⟨covered.1, covered.2.applied covered.1 (.inl rfl) found (prolongs _) (unreleased _)⟩
  | publishing | granting =>
    cases named
    exact Kept.applied covered (prolongs _) (unreleased _)
  | _ => cases named

theorem Ordered.ahead_applied (informed : sent.script.informed now s node = true)
    (tagged : tag ∈ tags s) : task.Ahead now (s.applied now r node sent) tag.1 tag.2 := by
  have ahead := ordered.ahead task mem tag tagged
  cases task with
  | claiming loop value start r' =>
    intro same
    obtain ⟨own, found', script⟩ := ordered.fenced.tasks _ mem
    rcases ahead same with isOver | ⟨round, there, most⟩
    · exact .inl isOver
    · cases there.symm.trans found'
      by_cases this : r = r'
      · subst this
        cases there.symm.trans found
        refine .inr ⟨_, getElem?_set_of_some found _, most.mono ?_⟩
        intro k above vote answered positive
        by_cases here : k = node
        · subst here
          simp only [Function.update_self, Option.some.injEq] at answered
          rw [script, same] at answered informed
          exact Script.lt_vote_of_informed informed tagged answered positive
        · simp only [Function.update_of_ne here] at answered
          exact above vote answered positive
      · refine .inr ⟨_, ?_, most⟩
        simp only [State.applied]
        rw [List.getElem?_set_ne this, there]
  | publishing | granting => exact ahead
  | _ => trivial

end applied

/-- A node grants a key only with a counter not below the tokens of the handles returned for it, and
no handle is returned after the time its attempt asked for. -/
def informed (w : (redlock n).World) : (redlock n).Action → Bool
  | .event (.apply round node) =>
    (w.state.rounds[round]?).all fun sent => sent.script.informed w.clock w.state node
  | .event (.resume task _) | .event (.step task _) =>
    (w.state.tasks[task]?).all (Task.prompt w.clock)
  | _ => true

theorem ordered_start : Ordered (n := n) 0 (redlock n).initial where
  numbered := numbered_initial
  fenced := fenced_of_steps (.nil (start (redlock n)))
  reserved round mem := by cases List.not_mem_nil mem
  tasks task mem := by cases List.not_mem_nil mem
  ahead task mem := by cases List.not_mem_nil mem
  sorted := .nil

theorem Ordered.act {w : (redlock n).World} {event : Event n} (ordered : Ordered w.clock w.state)
    (allowed : informed w (.event event) = true)
    (taken : w.state.act w.clock event = some s') : Ordered w.clock s' := by
  have numbered := ordered.numbered.act taken
  have fenced := ordered.fenced.act taken
  cases acted taken with
  | @apply r node sent found waiting =>
    have informed : sent.script.informed w.clock w.state node = true := by
      simpa [informed, found] using allowed
    exact ⟨numbered, fenced, ordered.reserved.applied found,
      fun task mem value named => ordered.task_applied mem found named,
      fun task mem tag tagged => ordered.ahead_applied mem found informed tagged, ordered.sorted⟩
  | @task _ t before next after own found went =>
    obtain ⟨others, swapped⟩ := swapped_set next found
    apply ordered.turned swapped (.went went) fenced
    rintro _ ⟨⟩
    cases event with
    | apply => cases own
    | resume | step =>
      cases own
      simpa [informed, found] using allowed

theorem Ordered.world {w w' : (redlock n).World} {a : (redlock n).Action}
    (ordered : Ordered w.clock w.state) (allowed : informed w a = true)
    (taken : w.act a = some w') : Ordered w'.clock w'.state := by
  cases moved taken with
  | tick later => exact ordered.tick later
  | request request => exact ordered.call request
  | event acted => exact ordered.act allowed acted

/-- In an informed run, of two handles of one key the one returned later has the greater token. -/
theorem fencing_in_order {actions : List (redlock n).Action} {w : (redlock n).World}
    (ran : Steps (Guarded (fun w a => informed w a = true) (Executes act))
      (.start (redlock n)) actions w)
    {i j : Nat} {first second : Handle} (found : w.state.handles[i]? = some first)
    (found' : w.state.handles[j]? = some second) (same : first.key = second.key) (later : i < j) :
    first.fencingToken < second.fencingToken := by
  have ordered : Ordered w.clock w.state := by
    apply ran.invariant (fun (u : (redlock n).World) => Ordered u.clock u.state)
    · intro u a v ordered step
      exact ordered.world step.1 step.2
    · exact ordered_start
  have tag : (tags w.state)[i]? = some (first.key, first.fencingToken) := by simp [tags, found]
  have tag' : (tags w.state)[j]? = some (second.key, second.fencingToken) := by simp [tags, found']
  obtain ⟨inside, here⟩ := List.getElem?_eq_some_iff.mp tag
  obtain ⟨inside', here'⟩ := List.getElem?_eq_some_iff.mp tag'
  have above := List.pairwise_iff_getElem.mp ordered.sorted i j inside inside' later
  rw [here, here'] at above
  exact above same

/-- The second attempt has a vote before the first publishes its token, and finishes after the
first has been released. -/
theorem fencing_in_order_overlapping : ∃ actions w first second,
    Steps (Guarded (fun w a => informed w a = true) (Executes act)) (.start (redlock 3)) actions w ∧
    w.state.handles[0]? = some first ∧ w.state.handles[1]? = some second ∧
    first.key = second.key ∧ first.fencingToken < second.fencingToken := by
  let actions : List (redlock 3).Action :=
    [.request (.acquire defaults "orders:o-1" oneSecond),
      .request (.acquire defaults "orders:o-1" oneSecond), .event (.step 0 0), .event (.step 1 0),
      .event (.apply 1 2), .event (.apply 0 0), .event (.apply 0 1),
      .event (.resume 0 fun k => k != 2)] ++
    inRound 3 0 2 ++ [.event (.step 0 0), .request (.release 0)] ++ inRound 3 2 3 ++
    [.event (.apply 1 0), .event (.resume 1 fun k => k != 1)] ++ inRound 3 1 4 ++
    [.event (.step 1 0)]
  obtain ⟨w, run, first, found, second, found', same⟩ : ∃ w,
      Steps (Guarded (fun w a => informed w a = true) (Executes act)) (.start (redlock 3)) actions
        w ∧
      ∃ first, w.state.handles[0]? = some first ∧ ∃ second, w.state.handles[1]? = some second ∧
        first.key = second.key := by
    decide +kernel
  exact ⟨actions, w, first, second, run, found, found', same,
    fencing_in_order run found found' same (by decide)⟩

/-- Node 1 is two numbers ahead. The first client takes its token from it and publishes it on nodes
1 and 2; the second has an earlier vote of node 2, and gets that of node 0, which has not heard of
the token, once the first client has released the lock. -/
theorem overtaken_attempt_fenced_lower : ∃ actions w first second,
    Steps (Executes act) (.start (redlock 3)) actions w ∧
    w.state.handles[0]? = some first ∧ w.state.handles[1]? = some second ∧
    first.key = second.key ∧ first.fencingToken = 3 ∧ second.fencingToken = 2 := by
  let actions : List (redlock 3).Action :=
    [.request (.acquire defaults "orders:o-2" oneSecond), .event (.step 0 0), .event (.apply 0 1),
      .request (.acquire defaults "orders:o-3" oneSecond), .event (.step 1 0), .event (.apply 1 1),
      .request (.acquire defaults "orders:o-1" oneSecond), .event (.step 2 0),
      .request (.acquire defaults "orders:o-1" oneSecond), .event (.step 3 0),
      .event (.apply 3 2), .event (.apply 2 0), .event (.apply 2 1),
      .event (.resume 2 fun k => k != 2), .event (.apply 4 1), .event (.apply 4 2),
      .event (.resume 2 fun k => k != 0), .event (.step 2 0), .request (.release 0)] ++
    inRound 3 4 5 ++
    [.event (.apply 3 0), .event (.resume 3 fun k => k != 1)] ++ inRound 3 3 6 ++
    [.event (.step 3 0)]
  obtain ⟨w, run, first, found, second, found', fenced⟩ : ∃ w,
      Steps (Executes act) (.start (redlock 3)) actions w ∧
      ∃ first, w.state.handles[0]? = some first ∧ ∃ second, w.state.handles[1]? = some second ∧
        first.key = second.key ∧ first.fencingToken = 3 ∧ second.fencingToken = 2 := by
    decide +kernel
  exact ⟨actions, w, first, second, run, found, found', fenced⟩

end NestApi.Locking.Redlock
