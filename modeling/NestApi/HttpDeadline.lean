import NestApi.HttpBulkhead
import Mathlib.Algebra.Order.BigOperators.Group.Finset

namespace NestApi.ResilientHttp

open Client Call

variable {B : Type} {options : ResilientHttpOptions} {s t : Client B} {i : Nat} {call old : Call B}
  {next : Effect × Call B} {event : Event B} {clock now : ℚ} {random random' : ℚ}

/-- When a call goes on at the latest: callbacks run at once, timers fire on time, and attempts
settle within their timeouts. -/
def Stage.due (clock : ℚ) : Stage B → Option ℚ
  | .queued since budgetMs => some (since + budgetMs)
  | .admitted => some clock
  | .sent since timeoutMs => some (since + timeoutMs)
  | .sleeping wakesAt => some wakesAt
  | .settled _ _ => none

/-- The clock does not go backwards and stops where a call is due. -/
def Client.Exact (s : Client B) : Action B → Prop
  | .tick now => s.clock ≤ now ∧ ∀ call ∈ s.calls, ∀ due ∈ call.stage.due s.clock, now ≤ due
  | _ => True

instance (s : Client B) : (action : Action B) → Decidable (s.Exact action)
  | .tick now => inferInstanceAs (Decidable (s.clock ≤ now ∧ _))
  | .request _ => isTrue trivial
  | .event _ _ => isTrue trivial

namespace Call

variable (options) in
/-- The attempts of a call so far are within its ladder and its budget. -/
structure Bounded (call : Call B) : Prop where
  attempts : call.attempt ≤ (call.ladder options).maxAttempts
  sends : ∀ send ∈ call.sends, send.1 < call.deadline options ∧
    (send.2 : ℚ) ≤ call.deadline options - send.1

variable (options) in
def OnTime (clock : ℚ) (call : Call B) : Prop :=
  match call.stage with
  | .queued since budgetMs => clock ≤ since + budgetMs ∧
    since + budgetMs ≤ call.deadline options ∧ call.sends.length < call.attempt
  | .admitted => clock ≤ call.deadline options ∧ call.sends.length < call.attempt
  | .sent since timeoutMs => clock ≤ since + timeoutMs ∧
    since + timeoutMs ≤ call.deadline options ∧ call.sends.length ≤ call.attempt
  | .sleeping wakesAt => clock ≤ call.deadline options ∧ wakesAt < call.deadline options ∧
    call.sends.length ≤ call.attempt ∧ call.attempt < (call.ladder options).maxAttempts
  | .settled time _ =>
    time ≤ max call.startedAt (call.deadline options) ∧ call.sends.length ≤ call.attempt

variable (options) in
def Within (clock : ℚ) (call : Call B) : Prop := call.Bounded options ∧ call.OnTime options clock

theorem Within.grant (within : call.Within options clock) : call.grant.Within options clock := by
  rcases call.admit_eq with same | ⟨same, since, budgetMs, stage⟩
  · rwa [same]
  · obtain ⟨⟨attempts, sends⟩, onTime⟩ := within
    simp only [OnTime, stage] at onTime
    rw [same]
    exact ⟨⟨attempts, sends⟩, onTime.1.trans onTime.2.1, onTime.2.2⟩

theorem Within.tick (within : call.Within options clock)
    (waits : ∀ due ∈ call.stage.due clock, now ≤ due) : call.Within options now := by
  obtain ⟨bounded, onTime⟩ := within
  refine ⟨bounded, ?_⟩
  unfold OnTime at onTime ⊢
  split at onTime <;> rename_i stage <;> simp only [Stage.due, stage, Option.mem_def,
    Option.some.injEq, forall_eq', reduceCtorEq, IsEmpty.forall_iff, implies_true] at waits
  · exact ⟨waits, onTime.2⟩
  · exact ⟨waits.trans onTime.1, onTime.2⟩
  · exact ⟨waits, onTime.2⟩
  · exact ⟨waits.trans onTime.2.1.le, onTime.2⟩
  · exact onTime

end Call

namespace Client

theorem settle_within {outcome : Except HttpError (HttpJsonResponse B)}
    (bounded : call.Bounded options) (count : call.sends.length ≤ call.attempt)
    (time : s.clock ≤ max call.startedAt (call.deadline options)) :
    (s.settle call outcome).Within options s.clock :=
  ⟨⟨bounded.attempts, bounded.sends⟩, time, count⟩

theorem enters_within (enters : Enters options s call next) (bounded : call.Bounded options)
    (count : call.sends.length < call.attempt)
    (time : s.clock ≤ max call.startedAt (call.deadline options)) :
    next.2.Within options s.clock := by
  cases enters with
  | settles => exact settle_within bounded count.le time
  | admitted early => exact ⟨⟨bounded.attempts, bounded.sends⟩, early.le, count⟩
  | queues nonneg early =>
    exact ⟨⟨bounded.attempts, bounded.sends⟩, le_add_of_nonneg_right nonneg, early, count⟩

theorem goes_within (goes : Goes options s call event next)
    (within : call.Within options s.clock) : next.2.Within options s.clock := by
  obtain ⟨bounded, onTime⟩ := within
  unfold OnTime at onTime
  cases goes with
  | stops stage =>
    simp only [stage] at onTime
    exact settle_within ⟨bounded.attempts, bounded.sends⟩ onTime.2.le (le_max_of_le_right onTime.1)
  | sends stage _ positive early =>
    simp only [stage] at onTime
    rename_i timeoutMs
    have positive : (0 : ℚ) < timeoutMs := by exact_mod_cast positive
    refine ⟨⟨bounded.attempts, ?_⟩, le_add_of_nonneg_right positive.le, early, ?_⟩
    · refine List.forall_mem_append.mpr ⟨bounded.sends, List.forall_mem_singleton.mpr ⟨?_, ?_⟩⟩
      · exact lt_of_lt_of_le (lt_add_of_pos_right _ positive) early
      · exact le_sub_iff_add_le'.mpr early
    · rw [List.length_append]
      exact onTime.2
  | ends stage =>
    simp only [stage] at onTime
    exact settle_within ⟨bounded.attempts, bounded.sends⟩ onTime.2.2
      (le_max_of_le_right (onTime.1.trans onTime.2.1))
  | sleeps stage _ _ _ _ early again =>
    simp only [stage] at onTime
    exact ⟨⟨bounded.attempts, bounded.sends⟩, onTime.1.trans onTime.2.1, early, onTime.2.2, again⟩
  | expires stage =>
    simp only [stage] at onTime
    exact settle_within bounded onTime.2.2.le (le_max_of_le_right (onTime.1.trans onTime.2.1))
  | wakes stage enters =>
    simp only [stage] at onTime
    exact enters_within enters ⟨onTime.2.2.2, bounded.sends⟩ (Nat.lt_succ_of_le onTime.2.2.1)
      (le_max_of_le_right onTime.1)

theorem move_within
    (within : ∀ j call, i ≠ j → s.calls[j]? = some call → call.Within options s.clock)
    (here : next.2.Within options s.clock) :
    ∀ call ∈ (s.move i next).calls, call.Within options (s.move i next).clock := by
  have clock : (s.move i next).clock = s.clock := by
    unfold move apply
    dsimp only
    split <;> first | rfl | (split <;> rfl)
  rw [clock]
  intro call mem
  obtain ⟨j, found⟩ := List.getElem?_of_mem mem
  rcases getElem?_set_eq_some found with ⟨_, rfl⟩ | ⟨other, after⟩
  · exact here
  · rcases getElem?_apply s i j next.1 with there | there
    · exact within j call other (there.symm.trans after)
    · obtain ⟨old, before, rfl⟩ := Option.map_eq_some_iff.mp (there.symm.trans after)
      exact (within j old other before).grant

theorem act_within {action : Action B} (within : ∀ call ∈ s.calls, call.Within options s.clock)
    (exact' : s.Exact action) (taken : s.act options action = some t) :
    ∀ call ∈ t.calls, call.Within options t.clock := by
  cases action with
  | tick =>
    cases taken
    exact fun call mem => (within call mem).tick (exact'.2 call mem)
  | request request =>
    cases taken
    let first : Call B := begin request s.clock
    have ladder : 1 ≤ (first.ladder options).maxAttempts := by
      unfold ladder
      dsimp only
      split_ifs
      · exact options.attemptsPositive
      · exact le_refl 1
    have entered : (s.enter options first).2.Within options s.clock :=
      enters_within enter_enters ⟨ladder, nofun⟩ Nat.one_pos (le_max_left _ _)
    refine move_within ?_ entered
    intro j call other found
    rcases getElem?_concat_eq_some found with before | ⟨last, _⟩
    · exact within call (List.mem_of_getElem? before)
    · exact absurd last.symm other
  | event =>
    obtain ⟨call, found, taken⟩ := Option.bind_eq_some_iff.mp taken
    obtain ⟨next, goes, rfl⟩ := Option.map_eq_some_iff.mp taken
    refine move_within ?_ (goes_within (next_goes goes) (within call (List.mem_of_getElem? found)))
    exact fun _ call _ found => within call (List.mem_of_getElem? found)

end Client

section Progress

variable (options) in
/-- How many events a call may still have. -/
def Call.left (call : Call B) : Nat :=
  match call.stage with
  | .queued _ _ | .admitted => 3 * ((call.ladder options).maxAttempts - call.attempt) + 2
  | .sent _ _ => 3 * ((call.ladder options).maxAttempts - call.attempt) + 1
  | .sleeping _ => 3 * ((call.ladder options).maxAttempts - call.attempt)
  | .settled _ _ => 0

theorem Call.left_grant (call : Call B) : call.grant.left options = call.left options := by
  rcases call.admit_eq with same | ⟨same, since, budgetMs, stage⟩
  · rw [same]
  · rw [same]
    simp only [left, stage]
    rfl

theorem Call.ladder_le (call : Call B) : 1 ≤ (call.ladder options).maxAttempts ∧
    (call.ladder options).maxAttempts ≤ options.retry.maxAttempts := by
  have positive := options.attemptsPositive
  unfold ladder
  dsimp only
  split_ifs <;> omega

theorem Enters.left_lt (enters : Enters options s call next) :
    next.2.left options < 3 * ((call.ladder options).maxAttempts - call.attempt + 1) := by
  cases enters with
  | settles => exact Nat.succ_pos _
  | admitted | queues => exact Nat.lt_succ_self _

theorem Goes.left_lt (goes : Goes options s call event next)
    (within : call.Within options s.clock) : next.2.left options < call.left options := by
  have onTime := within.2
  unfold OnTime at onTime
  unfold left
  cases goes with
  | stops stage | sends stage | ends stage | sleeps stage | expires stage =>
    rw [stage]
    exact Nat.lt_succ_of_le (by first | exact Nat.zero_le _ | exact le_refl _)
  | wakes stage enters =>
    rw [stage] at onTime ⊢
    have less := enters.left_lt
    have again := onTime.2.2.2
    unfold left at less
    refine lt_of_lt_of_le less ?_
    show 3 * ((call.ladder options).maxAttempts - (call.attempt + 1) + 1) ≤
      3 * ((call.ladder options).maxAttempts - call.attempt)
    omega

variable (options) in
def Client.leftAt (s : Client B) (i : Nat) : Nat :=
  (s.calls[i]?.map (left options)).getD (3 * options.retry.maxAttempts)

def Action.isEventOf (i : Nat) : Action B → Bool
  | .event j _ => j == i
  | .tick _ | .request _ => false

theorem Client.leftAt_move (found : s.calls[i]? = some old) (j : Nat) :
    (s.move i next).leftAt options j =
      if i = j then next.2.left options else s.leftAt options j := by
  unfold leftAt move
  dsimp only
  split
  · rename_i this
    subst this
    rcases getElem?_apply s i i next.1 with there | there <;> rw [found] at there
    · rw [getElem?_set_of_some there]
      rfl
    · rw [getElem?_set_of_some there]
      rfl
  · rename_i other
    rw [List.getElem?_set_ne other]
    rcases getElem?_apply s i j next.1 with there | there
    · rw [there]
    · rw [there]
      cases s.calls[j]? with
      | none => rfl
      | some call => exact call.left_grant

/-- An action takes from the events of a call if it is one of them, and never adds to them. -/
theorem Client.act_left {action : Action B} (within : ∀ call ∈ s.calls, call.Within options s.clock)
    (taken : s.act options action = some t) (j : Nat) :
    t.leftAt options j + (if action.isEventOf j then 1 else 0) ≤ s.leftAt options j := by
  cases action with
  | tick =>
    cases taken
    exact le_refl _
  | request request =>
    cases taken
    let first : Call B := .begin request s.clock
    have found : (s.calls ++ [first])[s.calls.length]? = some first := by simp
    have enters : Enters options s first (s.enter options first) := enter_enters
    have fewer : (s.enter options first).2.left options <
        3 * ((first.ladder options).maxAttempts - 1 + 1) := enters.left_lt
    obtain ⟨one, most⟩ : 1 ≤ (first.ladder options).maxAttempts ∧
        (first.ladder options).maxAttempts ≤ options.retry.maxAttempts := first.ladder_le
    have moved : (move { s with calls := s.calls ++ [first] } s.calls.length
        (s.enter options first)).leftAt options j ≤ s.leftAt options j := by
      rw [leftAt_move found]
      split
      · rename_i this
        subst this
        have absent : s.leftAt options s.calls.length = 3 * options.retry.maxAttempts := by
          simp [leftAt]
        omega
      · rename_i other
        have same : (s.calls ++ [first])[j]? = s.calls[j]? := by
          rw [List.getElem?_append]
          split
          · rfl
          · rw [List.getElem?_eq_none (by simp; omega), List.getElem?_eq_none (by omega)]
        simp only [leftAt, same, le_refl]
    exact moved
  | event i event =>
    obtain ⟨call, found, taken⟩ := Option.bind_eq_some_iff.mp taken
    obtain ⟨next, goes, rfl⟩ := Option.map_eq_some_iff.mp taken
    have less := (next_goes goes).left_lt (within call (List.mem_of_getElem? found))
    rw [leftAt_move found]
    by_cases this : i = j
    · subst this
      have here : s.leftAt options i = call.left options := by simp [leftAt, found]
      rw [if_pos rfl, here]
      simpa [Action.isEventOf] using Nat.succ_le_of_lt less
    · simp [this, Action.isEventOf]

/-- What the others of a call come to: whether the breaker refuses it, and how its attempt ends. -/
def Client.Replied (breaker : Client B → Nat → Bool)
    (answers : Client B → Nat → Option (HttpJsonResponse B) × ℚ × ℚ) (s : Client B) :
    Action B → Prop
  | .request _ => False
  | .event i (.work breakerOpen) => breakerOpen = breaker s i
  | .event i (.answer response random random') => (response, random, random') = answers s i
  | .tick _ | .event _ .expire | .event _ .wake => True

section

variable {breaker : Client B → Nat → Bool}
  {answers : Client B → Nat → Option (HttpJsonResponse B) × ℚ × ℚ} {due : ℚ}

theorem Client.goes_on (found : s.calls[i]? = some call) (waits : due ∈ call.stage.due s.clock)
    (now : due ≤ s.clock) : ∃ event, s.Replied breaker answers (.event i event) ∧
      (s.act options (.event i event)).isSome = true := by
  cases stage : call.stage <;> rw [stage] at waits <;> cases waits
  · exact ⟨.expire, trivial, by simp [act, found, next, stage, now]⟩
  · exact ⟨.work (breaker s i), rfl, by simp [act, found, next, stage]⟩
  · exact ⟨.answer (answers s i).1 (answers s i).2.1 (answers s i).2.2, rfl,
      by simp [act, found, next, stage]⟩
  · exact ⟨.wake, trivial, by simp [act, found, next, stage, now]⟩

theorem Client.length_event (taken : s.act options (.event i event) = some t) :
    t.calls.length = s.calls.length := by
  obtain ⟨call, found, taken⟩ := Option.bind_eq_some_iff.mp taken
  obtain ⟨next, goes, rfl⟩ := Option.map_eq_some_iff.mp taken
  rw [move, List.length_set]
  unfold apply
  split
  · rfl
  · rfl
  · rfl
  · split
    · rfl
    · exact List.length_modify ..
  · rfl

theorem Client.exists_first (unsettled : ¬ ∀ call ∈ s.calls, call.stage.due s.clock = none) :
    ∃ (i : Nat) (call : Call B) (due : ℚ), s.calls[i]? = some call ∧
      due ∈ call.stage.due s.clock ∧
      ∀ other ∈ s.calls, ∀ later ∈ other.stage.due s.clock, due ≤ later := by
  cases least : (s.calls.filterMap fun call => call.stage.due s.clock).min? with
  | none =>
    exact absurd (List.filterMap_eq_nil_iff.mp (List.min?_eq_none_iff.mp least)) unsettled
  | some due =>
    obtain ⟨mem, least⟩ := List.min?_eq_some_iff.mp least
    obtain ⟨call, member, waits⟩ := List.mem_filterMap.mp mem
    obtain ⟨i, found⟩ := List.getElem?_of_mem member
    refine ⟨i, call, due, found, waits, ?_⟩
    intro other member' later waits'
    exact least later (List.mem_filterMap.mpr ⟨other, member', waits'⟩)

variable (breaker answers) in
/-- One call after another goes on when it is due, until all have settled. -/
theorem Client.settles (within : ∀ call ∈ s.calls, call.Within options s.clock) :
    ∃ rest t, Steps (Guarded (fun s action => s.Exact action ∧ s.Replied breaker answers action)
        (Executes (act options))) s rest t ∧
      (∀ call ∈ t.calls, call.Within options t.clock) ∧
      ∀ call ∈ t.calls, call.stage.due t.clock = none := by
  apply Steps.reach (fun s : Client B => ∑ i ∈ Finset.range s.calls.length, s.leftAt options i)
    ?_ within
  intro s within unsettled
  obtain ⟨i, call, due, found, waits, least⟩ := exists_first unsettled
  -- the clock is set to where the call is due, if it is not there yet
  obtain ⟨ticks, u, ticked, same, waits, now⟩ : ∃ ticks u,
      Steps (Guarded (fun s action => s.Exact action ∧ s.Replied breaker answers action)
        (Executes (act options))) s ticks u ∧ u.calls = s.calls ∧
      due ∈ call.stage.due u.clock ∧ due ≤ u.clock := by
    by_cases early : s.clock < due
    · refine ⟨[.tick due], { s with clock := due }, ?_, rfl, ?_, le_refl due⟩
      · exact .cons ⟨⟨⟨early.le, least⟩, trivial⟩, rfl⟩ (.nil _)
      · cases stage : call.stage <;> rw [stage] at waits <;> cases waits <;> rfl
    · exact ⟨[], s, .nil s, rfl, waits, not_lt.mp early⟩
  have still : ∀ call ∈ u.calls, call.Within options u.clock := by
    apply ticked.invariant (fun s : Client B => ∀ call ∈ s.calls, call.Within options s.clock)
      ?_ within
    intro s action t within ⟨⟨exact', _⟩, taken⟩
    exact act_within within exact' taken
  rw [← same] at found
  obtain ⟨event, replied, goes⟩ : ∃ event, u.Replied breaker answers (.event i event) ∧
      (u.act options (.event i event)).isSome = true := goes_on found waits now
  obtain ⟨t, taken⟩ := Option.isSome_iff_exists.mp goes
  have exact' : u.Exact (.event i event) := trivial
  refine ⟨_, t, ticked.snoc ⟨⟨exact', replied⟩, taken⟩, act_within still exact' taken, ?_⟩
  have fewer := act_left still taken
  have before : ∀ j, u.leftAt options j = s.leftAt options j := by simp [leftAt, same]
  have length : t.calls.length = s.calls.length := by
    rw [← same]
    exact length_event taken
  rw [length]
  apply Finset.sum_lt_sum
  · intro j _
    have here := fewer j
    rw [before] at here
    omega
  · refine ⟨i, Finset.mem_range.mpr (same ▸ lt_of_getElem? found), ?_⟩
    have here := fewer i
    rw [before] at here
    simp only [Action.isEventOf, beq_self_eq_true, if_true] at here
    exact here

end

theorem Client.run_left {actions : List (Action B)}
    (run : Steps (Guarded Exact (Executes (act options))) s actions t)
    (within : ∀ call ∈ s.calls, call.Within options s.clock) (i : Nat) :
    t.leftAt options i + actions.countP (Action.isEventOf i) ≤ s.leftAt options i := by
  induction run with
  | nil => exact le_refl _
  | cons taken _ ih =>
    have here := act_left within taken.2 i
    have later := ih (act_within within taken.1 taken.2)
    rw [List.countP_cons]
    omega

end Progress

/-- The bounds of `request`, with exact timers. The bulkhead counts the calls with a permit. Each
call sends at most as often as its ladder allows, before its deadline and with a timeout that ends
by then, sleeps and queues no longer than that, without a permit while it sleeps, and settles by
then: a call that is due goes on whatever it is answered, it has at most three events for each
attempt, and the timers alone lead to where all calls have settled. -/
theorem request_within_deadline {actions : List (Action B)}
    (run : Steps (Guarded Exact (Executes (act options))) (.start now) actions t) :
    t.inFlight = t.calls.countP permit ∧
    t.inFlight ≤ options.bulkhead.maxConcurrent ∧
    (∀ i, actions.countP (Action.isEventOf i) ≤ 3 * options.retry.maxAttempts) ∧
    (∀ breaker answers,
      (∀ i call due, t.calls[i]? = some call → due ∈ call.stage.due t.clock → due ≤ t.clock →
        ∃ event, t.Replied breaker answers (.event i event) ∧
          (t.act options (.event i event)).isSome = true) ∧
      ∃ rest u, Steps (Guarded (fun s action => s.Exact action ∧ s.Replied breaker answers action)
          (Executes (act options))) t rest u ∧
        ∀ call ∈ u.calls, ∃ time outcome, call.stage = .settled time outcome ∧
          time ≤ max call.startedAt (call.deadline options)) ∧
    ∀ call ∈ t.calls, call.sends.length ≤ options.retry.maxAttempts ∧
      (call.request.idempotent.getD (isSafeMethod call.request.method) = false →
        call.sends.length ≤ 1) ∧
      (∀ send ∈ call.sends, send.1 < call.deadline options ∧
        (send.2 : ℚ) ≤ call.deadline options - send.1) ∧
      (∀ wakesAt, call.stage = .sleeping wakesAt →
        wakesAt < call.deadline options ∧ call.permit = false) ∧
      (∀ due ∈ call.stage.due t.clock,
        t.clock ≤ call.deadline options ∧ due ≤ call.deadline options) ∧
      ∀ time outcome, call.stage = .settled time outcome →
        time ≤ max call.startedAt (call.deadline options) := by
  have kept : ∀ call ∈ t.calls, call.Within options t.clock := by
    refine run.invariant (fun s : Client B => ∀ call ∈ s.calls, call.Within options s.clock) ?_
      (by simp [start])
    rintro s action t within ⟨exact', taken⟩
    exact act_within within exact' taken
  have seats : Seats options t := run.of_guarded.invariant (fun s : Client B => Seats options s)
    (fun _ _ _ seats taken => seats.act taken) (.start now)
  refine ⟨seats.counted, seats.room, ?_, ?_, ?_⟩
  · intro i
    have most := run_left run (by simp [start]) i
    have first : (start now : Client B).leftAt options i =
        3 * options.retry.maxAttempts := by simp [leftAt, start]
    omega
  · intro breaker answers
    refine ⟨fun i call due found waits now => goes_on found waits now, ?_⟩
    obtain ⟨rest, u, run, within, settled⟩ := settles breaker answers kept
    refine ⟨rest, u, run, ?_⟩
    intro call mem
    have onTime := (within call mem).2
    have none := settled call mem
    unfold OnTime at onTime
    cases stage : call.stage <;> rw [stage] at none onTime <;> cases none
    exact ⟨_, _, rfl, onTime.1⟩
  · intro call mem
    obtain ⟨bounded, onTime⟩ := kept call mem
    have count : call.sends.length ≤ (call.ladder options).maxAttempts := by
      refine le_trans ?_ bounded.attempts
      unfold OnTime at onTime
      split at onTime <;> omega
    refine ⟨count.trans call.ladder_le.2, ?_, bounded.sends, ?_, ?_, ?_⟩
    · intro once
      simpa only [ladder, once, Bool.false_eq_true, if_false] using count
    · intro wakesAt stage
      simp only [OnTime, stage] at onTime
      exact ⟨onTime.2.1, by rw [permit, stage]⟩
    · intro due mem
      cases stage : call.stage <;> simp only [stage, Stage.due, Option.mem_def, Option.some.injEq,
        reduceCtorEq] at mem <;> subst mem <;> simp only [OnTime, stage] at onTime
      · exact ⟨onTime.1.trans onTime.2.1, onTime.2.1⟩
      · exact ⟨onTime.1, onTime.1⟩
      · exact ⟨onTime.1.trans onTime.2.1, onTime.2.1⟩
      · exact ⟨onTime.1, onTime.2.1.le⟩
    · intro time outcome stage
      simp only [OnTime, stage] at onTime
      exact onTime.1

def onePermit : ResilientHttpOptions :=
  ⟨⟨200, 2000, 2⟩, ⟨1, 20, 1000, Nat.one_pos⟩, 30000, 500, Nat.zero_lt_two⟩

/-- One permit for three calls: the first is answered 503 and sleeps, the second waited for the
permit and returns, and the third has it now. -/
theorem request_within_deadline_queued : ∃ actions t,
    Steps (Guarded Exact (Executes (act onePermit))) (.start 0 : Client Unit) actions t ∧
    (t.calls.map stage = [.sleeping 350, .settled 300 (.ok ⟨200, true, (), none⟩), .sent 300 200] ∧
      t.calls.map sends = [[(0, 500)], [(250, 250)], [(300, 200)]]) ∧
    t.inFlight = t.calls.countP permit ∧
    ∀ call ∈ t.calls, ∀ send ∈ call.sends, send.1 < call.deadline onePermit := by
  let get : HttpRequest := ⟨none, none, none, none⟩
  refine ⟨[.request get, .event 0 (.work false), .request get, .request get, .tick 250,
    .event 0 (.answer (some ⟨503, false, (), none⟩) (1 / 2) 0), .event 1 (.work false), .tick 300,
    .event 1 (.answer (some ⟨200, true, (), none⟩) 0 0), .event 2 (.work false)],
    exists_and_of (by decide +kernel) ?_⟩
  intro t run _
  obtain ⟨counted, -, -, -, bounds⟩ := request_within_deadline run
  exact ⟨counted, fun call mem send sent => ((bounds call mem).2.2.1 send sent).1⟩

end NestApi.ResilientHttp
