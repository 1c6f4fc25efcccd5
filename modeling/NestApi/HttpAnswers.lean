import NestApi.HttpClient

namespace NestApi.ResilientHttp

open Client Call

variable {B : Type} {options : ResilientHttpOptions} {s t : Client B} {i : Nat} {call : Call B}
  {next : Effect × Call B} {response : HttpJsonResponse B} {error : HttpError} {random random' : ℚ}
  {event : Event B}

namespace Call

def Answered (call : Call B) : Prop :=
  ∀ time outcome, call.stage = .settled time outcome → ∀ response,
    call.received.getLast? = some response → outcome = .ok response

/-- The response that is kept is the last one received, until the call settles. -/
def Tracked (call : Call B) : Prop :=
  (∃ time outcome, call.stage = .settled time outcome) ∨ call.lastResponse = call.received.getLast?

theorem answered_of_open (open' : ∀ time outcome, call.stage ≠ .settled time outcome) :
    call.Answered :=
  fun time outcome stage => absurd stage (open' time outcome)

end Call

namespace Client

variable (options) in
def Refuses (s : Client B) (call : Call B) : Prop :=
  s.clock < call.deadline options ∧ options.bulkhead.maxConcurrent ≤ s.inFlight ∧
    (min (⌊call.deadline options - s.clock⌋ : ℚ) options.bulkhead.maxQueueWaitMs ≤ 0 ∨
      options.bulkhead.maxQueued ≤ s.waiting.length)

variable (options) in
/-- Neither the bulkhead nor the breaker refuses the call, its budget does not run out in the queue,
and an attempt that fails without a response leaves it another. -/
def Keeps (s : Client B) (call : Call B) : Event B → Prop
  | .work breakerOpen => 1 ≤ ⌊call.deadline options - s.clock⌋ ∧ breakerOpen = false
  | .answer none random random' => ∃ delayMs : Int,
    delayFor call.attempt (call.ladder options) none random random' = some delayMs ∧
      (delayMs : ℚ) < call.deadline options - s.clock
  | .answer (some _) _ _ => True
  | .expire => False
  | .wake => ¬ s.Refuses options call

theorem settle_ok
    (last : call.received.getLast? = some response) : (s.settle call (.ok response)).Answered := by
  rintro _ _ ⟨⟩ response' last'
  exact congrArg _ (Option.some.inj (last.symm.trans last'))

theorem settle_error : (s.settle call (.error error)).Answered ↔ call.received = [] := by
  constructor
  · intro answered
    by_contra some
    cases answered _ _ rfl _ (List.getLast?_eq_some_getLast some)
  · intro none _ _ _ response last
    simp [settle, none] at last

theorem settle_error_iff {kept : Prop} (stopped : ¬ kept) :
    (s.settle call (.error error)).Answered ↔ (call.received ≠ [] → kept) := by
  rw [settle_error]
  simp [stopped]

theorem acquire_answered (left : s.clock < call.deadline options) :
    (s.acquire options call (call.deadline options - s.clock)).2.Answered ↔
      (call.received ≠ [] → ¬ s.Refuses options call) := by
  unfold acquire
  by_cases free : s.inFlight < options.bulkhead.maxConcurrent
  · rw [if_pos free]
    refine iff_of_true (answered_of_open (by simp)) ?_
    rintro _ ⟨_, full, _⟩
    omega
  · rw [if_neg free]
    have full : options.bulkhead.maxConcurrent ≤ s.inFlight := by omega
    dsimp only
    split_ifs with spent queue
    · exact settle_error_iff (not_not.mpr ⟨left, full, .inl (max_eq_left_iff.mp spent)⟩)
    · exact settle_error_iff (not_not.mpr ⟨left, full, .inr queue⟩)
    · refine iff_of_true (answered_of_open (by simp)) ?_
      rintro _ ⟨_, _, spent' | queue'⟩
      · exact spent (max_eq_left spent')
      · exact queue queue'

theorem enter_answered (tracked : call.lastResponse = call.received.getLast?) :
    (s.enter options call).2.Answered ↔ (call.received ≠ [] → ¬ s.Refuses options call) := by
  unfold enter
  dsimp only
  by_cases left : s.clock < call.deadline options
  · rw [if_neg (by linarith)]
    exact acquire_answered left
  · rw [if_pos (by linarith)]
    refine iff_of_true ?_ fun _ refuses => left refuses.1
    cases last : call.lastResponse with
    | some => exact settle_ok (tracked.symm.trans last)
    | none => exact settle_error.mpr (List.getLast?_eq_none_iff.mp (tracked.symm.trans last))

theorem failed_answered : (s.failed options call none random random').Answered ↔
      (call.received ≠ [] → s.Keeps options call (.answer none random random')) := by
  unfold failed Keeps
  dsimp only [Option.bind_none, Option.elim]
  split
  · rename_i none
    exact settle_error_iff (by simp [none])
  · rename_i delayMs some
    split_ifs with short
    · exact settle_error_iff (by simp [some, short])
    · exact iff_of_true (answered_of_open (by simp)) fun _ => ⟨delayMs, some, not_le.mp short⟩

theorem answer_answered : (s.answer options call random random' (some response)).Answered := by
  unfold answer failed
  dsimp only [Option.elim]
  split_ifs
  · split
    · exact settle_ok (by simp)
    · split_ifs
      · exact settle_ok (by simp)
      · exact answered_of_open (by simp)
  · exact settle_ok (by simp)

theorem next_answered (tracked : call.lastResponse = call.received.getLast?)
    (goes : s.next options call event = some next) :
    next.2.Answered ↔ (call.received ≠ [] → s.Keeps options call event) := by
  cases event with
  | work =>
    cases stage : call.stage <;> simp only [Client.next, stage, reduceCtorEq] at goes
    cases goes
    unfold work
    dsimp only
    split_ifs with short refused
    · exact settle_error_iff (by simp [Keeps]; omega)
    · exact settle_error_iff (by simp [Keeps, refused])
    · refine iff_of_true (answered_of_open (by simp)) fun _ => ⟨by omega, ?_⟩
      simpa using refused
  | answer response =>
    cases stage : call.stage <;> simp only [Client.next, stage, reduceCtorEq] at goes
    cases goes
    cases response with
    | none => exact failed_answered
    | some => exact iff_of_true answer_answered fun _ => trivial
  | expire =>
    cases stage : call.stage <;> simp only [Client.next, stage, reduceCtorEq] at goes
    split_ifs at goes
    cases goes
    exact settle_error_iff id
  | wake =>
    cases stage : call.stage <;> simp only [Client.next, stage, reduceCtorEq] at goes
    split_ifs at goes
    cases goes
    exact enter_answered tracked

theorem enter_tracked (enters : Enters options s call next)
    (tracked : call.lastResponse = call.received.getLast?) : next.2.Tracked := by
  cases enters with
  | settles outcome => exact .inl ⟨_, outcome, rfl⟩
  | admitted | queues => exact .inr tracked

theorem next_tracked (tracked : call.Tracked) (goes : s.next options call event = some next) :
    call.lastResponse = call.received.getLast? ∧ next.2.Tracked := by
  have same : call.lastResponse = call.received.getLast? := by
    refine tracked.resolve_left ?_
    rintro ⟨time, outcome, stage⟩
    cases event <;> simp [Client.next, stage] at goes
  refine ⟨same, ?_⟩
  cases next_goes goes with
  | stops _ _ outcome | ends _ _ _ _ _ _ outcome | expires _ outcome =>
    exact .inl ⟨_, outcome, rfl⟩
  | sends => exact .inr same
  | sleeps _ _ _ _ tracked => exact .inr (tracked same)
  | wakes _ enters => exact enter_tracked enters same

variable (options) in
/-- No call that has received a response is turned away. -/
def Honours (s : Client B) : Action B → Prop
  | .event i event => ∀ call, s.calls[i]? = some call → call.received ≠ [] →
    s.Keeps options call event
  | _ => True

theorem act_answers {action : Action B} (tracked : ∀ call ∈ s.calls, call.Tracked)
    (taken : s.act options action = some t) :
    (∀ call ∈ t.calls, call.Tracked) ∧ ((∀ call ∈ t.calls, call.Answered) ↔
      (∀ call ∈ s.calls, call.Answered) ∧ s.Honours options action) := by
  have sameTracked : ∀ call : Call B, call.grant.Tracked ↔ call.Tracked := by
    intro call
    rcases call.admit_eq with same | ⟨same, since, budgetMs, stage⟩ <;>
      simp [Tracked, *]
  have sameAnswered : ∀ call : Call B, call.grant.Answered ↔ call.Answered := by
    intro call
    rcases call.admit_eq with same | ⟨same, since, budgetMs, stage⟩ <;>
      simp [Answered, *]
  cases action with
  | tick =>
    cases taken
    exact ⟨tracked, (and_iff_left trivial).symm⟩
  | request request =>
    cases taken
    have found : (s.calls ++ [begin request s.clock])[s.calls.length]? =
        some (begin request s.clock) := by simp
    have answered : (begin request s.clock : Call B).Answered :=
      answered_of_open (by simp [begin])
    refine ⟨?_, ?_⟩
    · rw [forall_move (s := { s with calls := _ }) sameTracked found (.inr rfl)]
      exact ⟨List.forall_mem_append.mpr ⟨tracked, by simp [Tracked, begin]⟩,
        enter_tracked enter_enters rfl⟩
    · rw [forall_move (s := { s with calls := _ }) sameAnswered found answered,
        List.forall_mem_append, List.forall_mem_singleton, enter_answered rfl]
      exact ⟨fun both => ⟨both.1.1, trivial⟩,
        fun both => ⟨⟨both.1, answered⟩, fun some => absurd rfl some⟩⟩
  | event i event =>
    obtain ⟨call, found, moved⟩ := Option.bind_eq_some_iff.mp taken
    obtain ⟨next, goes, rfl⟩ := Option.map_eq_some_iff.mp moved
    have here := tracked call (List.mem_of_getElem? found)
    obtain ⟨same, there⟩ := next_tracked here goes
    have answered : call.Answered := by
      refine answered_of_open fun time outcome stage => ?_
      cases event <;> simp [Client.next, stage] at goes
    rw [forall_move sameTracked found here, forall_move sameAnswered found answered,
      next_answered same goes]
    refine ⟨⟨tracked, there⟩, and_congr_right fun _ => ?_⟩
    simp [Honours, found]

end Client

/-- Every call that has settled has returned the last response it received, if any, exactly when no
call with a response was turned away. -/
theorem answer_kept_iff {now : ℚ} {actions : List (Action B)}
    (run : Steps (Executes (act options)) (.start now) actions t) :
    (∀ call ∈ t.calls, ∀ time outcome, call.stage = .settled time outcome →
      ∀ response, call.received.getLast? = some response → outcome = .ok response) ↔
    Steps (Guarded (Honours options) (Executes (act options))) (.start now) actions t := by
  have exact' := run.guarded_iff (fun s : Client B => ∀ call ∈ s.calls, call.Tracked)
    (fun s => ∀ call ∈ s.calls, call.Answered)
    (fun _ _ _ tracked taken => (act_answers tracked taken).1)
    (fun _ _ _ tracked taken => (act_answers tracked taken).2) (by simp [start])
  exact exact'.trans (and_iff_right (by simp [start]))

def twoAttempts : ResilientHttpOptions :=
  ⟨⟨200, 2000, 2⟩, ⟨20, 20, 1000, by decide⟩, 30000, 1000, by decide⟩

def get : HttpRequest := ⟨none, none, none, none⟩

/-- An attempt is answered 503 and the next one 200, which is returned. -/
theorem answer_kept_retried : ∃ actions t,
    Steps (Guarded (Honours twoAttempts) (Executes (act twoAttempts)))
      (.start 0 : Client Unit) actions t ∧
    t.calls.map received = [[⟨503, false, (), none⟩, ⟨200, true, (), none⟩]] ∧
    t.calls.map stage = [.settled 100 (.ok ⟨200, true, (), none⟩)] := by
  obtain ⟨t, run, received, stages⟩ : ∃ t, Steps (Executes (act twoAttempts))
      (.start 0 : Client Unit) [.request get, .event 0 (.work false),
        .event 0 (.answer (some ⟨503, false, (), none⟩) (1 / 2) 0), .tick 100, .event 0 .wake,
        .event 0 (.work false), .event 0 (.answer (some ⟨200, true, (), none⟩) 0 0)] t ∧
      t.calls.map received = [[⟨503, false, (), none⟩, ⟨200, true, (), none⟩]] ∧
      t.calls.map stage = [.settled 100 (.ok ⟨200, true, (), none⟩)] := by
    decide +kernel
  refine ⟨_, t, (answer_kept_iff run).mp ?_, received, stages⟩
  intro call mem time outcome stage response last
  have received' := List.mem_map_of_mem (f := Call.received) mem
  have stage' := List.mem_map_of_mem (f := Call.stage) mem
  rw [received, List.mem_singleton] at received'
  rw [stages, List.mem_singleton, stage] at stage'
  rw [received'] at last
  cases stage'
  cases last
  rfl

/-- An attempt is answered 503 and the last one fails: the 503 is dropped. -/
theorem answer_dropped_transport : ∃ actions t,
    Steps (Executes (act twoAttempts)) (.start 0 : Client Unit) actions t ∧
    t.calls.map received = [[⟨503, false, (), none⟩]] ∧
    t.calls.map stage = [.settled 100 (.error (.transport 2))] :=
  ⟨[.request get, .event 0 (.work false),
    .event 0 (.answer (some ⟨503, false, (), none⟩) (1 / 2) 0), .tick 100, .event 0 .wake,
    .event 0 (.work false), .event 0 (.answer none 0 0)], by decide +kernel⟩

end NestApi.ResilientHttp
