import NestApi.Common
import NestApi.Indexed
import NestApi.Transition

/- `ResilientHttpClient.request`: the calls of one dependency, which share its `Bulkhead`. What an
attempt comes to and whether the circuit breaker refuses it is up to the environment. -/
namespace NestApi.ResilientHttp

structure HttpJsonResponse (B : Type) where
  status : Nat
  ok : Bool
  body : B
  retryAfterMs : Option Nat
  deriving DecidableEq

structure BulkheadPolicy where
  maxConcurrent : Nat
  maxQueued : Nat
  maxQueueWaitMs : ℚ
  admitsOne : 1 ≤ maxConcurrent

/-- The policy of the client; the environment schema refuses a ladder without an attempt. -/
structure ResilientHttpOptions where
  retry : BackoffPolicy
  bulkhead : BulkheadPolicy
  resetTimeoutMs : ℚ
  deadlineMs : ℚ
  attemptsPositive : 1 ≤ retry.maxAttempts

/-- `init.method` and the `HttpRequestOptions` of a call. -/
structure HttpRequest where
  method : Option String
  timeoutMs : Option ℚ
  deadlineMs : Option ℚ
  idempotent : Option Bool
  deriving DecidableEq

def defaultHttpTimeoutMs : ℚ := 10000

def isRetryableStatus (status : Nat) : Bool := 500 ≤ status || status == 408 || status == 429

def isSafeMethod (method : Option String) : Bool :=
  let normalised := (method.getD "GET").toUpper
  normalised == "GET" || normalised == "HEAD" || normalised == "OPTIONS"

inductive BulkheadRejectionReason where
  | queueFull
  | queueTimeout
  deriving DecidableEq

inductive HttpError where
  | circuitOpen (retryAfterMs : ℚ)
  | bulkheadRejected (reason : BulkheadRejectionReason) (waitedMs : ℚ)
  | deadlineExceeded (budgetMs : ℚ) (attempts : Nat)
  | transport (attempts : Nat)
  deriving DecidableEq

inductive Stage (B : Type) where
  | queued (since budgetMs : ℚ)
  | admitted
  | sent (since : ℚ) (timeoutMs : Int)
  | sleeping (wakesAt : ℚ)
  | settled (time : ℚ) (outcome : Except HttpError (HttpJsonResponse B))
  deriving DecidableEq

/-- A call of `request`, with a record of what it sent and of the responses it received. -/
structure Call (B : Type) where
  request : HttpRequest
  startedAt : ℚ
  attempt : Nat
  lastResponse : Option (HttpJsonResponse B)
  stage : Stage B
  sends : List (ℚ × Int)
  received : List (HttpJsonResponse B)

variable {B : Type} (options : ResilientHttpOptions)

namespace Call

def budgetMs (call : Call B) : ℚ := call.request.deadlineMs.getD options.deadlineMs

def deadline (call : Call B) : ℚ := call.startedAt + call.budgetMs options

def ladder (call : Call B) : BackoffPolicy :=
  { options.retry with
    maxAttempts :=
      if call.request.idempotent.getD (isSafeMethod call.request.method) then
        options.retry.maxAttempts
      else 1 }

def begin (request : HttpRequest) (now : ℚ) : Call B :=
  ⟨request, now, 1, none, .sleeping now, [], []⟩

/-- It has a permit of the bulkhead from when it gets one to the end of its attempt. -/
def permit (call : Call B) : Bool :=
  match call.stage with
  | .admitted | .sent _ _ => true
  | .queued _ _ | .sleeping _ | .settled _ _ => false

/-- Its permit arrives; a promise that has settled stays as it is. -/
def grant (call : Call B) : Call B :=
  match call.stage with
  | .queued _ _ => { call with stage := .admitted }
  | _ => call

end Call

def delayFor (attempt : Nat) (ladder : BackoffPolicy) (retryAfterMs : Option Nat)
    (random random' : ℚ) : Option Int :=
  match Backoff.nextAttemptDelayMs attempt ladder random with
  | none => none
  | some jittered =>
    match retryAfterMs with
    | none => some jittered
    | some hint => if ladder.maxMs < hint then none else some (hint + ⌊random' * ladder.baseMs⌋)

/-- The clock, the bulkhead and the calls made so far. -/
structure Client (B : Type) where
  clock : ℚ
  inFlight : Nat
  waiting : List Nat
  calls : List (Call B)

inductive Effect where
  | keep
  | take
  | join
  | give
  | leave

/-- What a call waits for: its turn with a permit, where the breaker may refuse it, the end of an
attempt, and the timers of the queue and of a sleep. -/
inductive Event (B : Type) where
  | work (breakerOpen : Bool)
  | answer (response : Option (HttpJsonResponse B)) (random random' : ℚ)
  | expire
  | wake

inductive Action (B : Type) where
  | tick (now : ℚ)
  | request (request : HttpRequest)
  | event (call : Nat) (event : Event B)

namespace Client

/-- `release` hands a permit on to the first waiter, if there is one. -/
def apply (s : Client B) (i : Nat) : Effect → Client B
  | .keep => s
  | .take => { s with inFlight := s.inFlight + 1 }
  | .join => { s with waiting := s.waiting ++ [i] }
  | .give =>
    match s.waiting with
    | [] => { s with inFlight := s.inFlight - 1 }
    | next :: rest => { s with waiting := rest, calls := s.calls.modify next Call.grant }
  | .leave => { s with waiting := s.waiting.erase i }

def move (s : Client B) (i : Nat) (next : Effect × Call B) : Client B :=
  { s.apply i next.1 with calls := (s.apply i next.1).calls.set i next.2 }

def settle (s : Client B) (call : Call B) (outcome : Except HttpError (HttpJsonResponse B)) :
    Call B :=
  { call with stage := .settled s.clock outcome }

/-- `Bulkhead.acquire`, with a positive `waitBudgetMs`. -/
def acquire (s : Client B) (call : Call B) (waitBudgetMs : ℚ) : Effect × Call B :=
  if s.inFlight < options.bulkhead.maxConcurrent then
    (.take, { call with stage := .admitted })
  else
    let budgetMs := max 0 (min (⌊waitBudgetMs⌋ : ℚ) options.bulkhead.maxQueueWaitMs)
    if budgetMs = 0 then (.keep, s.settle call (.error (.bulkheadRejected .queueTimeout 0)))
    else if options.bulkhead.maxQueued ≤ s.waiting.length then
      (.keep, s.settle call (.error (.bulkheadRejected .queueFull 0)))
    else (.join, { call with stage := .queued s.clock budgetMs })

/-- The top of the loop of `request`. -/
def enter (s : Client B) (call : Call B) : Effect × Call B :=
  let remainingMs := call.deadline options - s.clock
  if remainingMs ≤ 0 then
    (.keep, s.settle call (call.lastResponse.elim
      (.error (.deadlineExceeded (call.budgetMs options) (call.attempt - 1))) .ok))
  else s.acquire options call remainingMs

/-- The `catch` block of `request`, for an attempt that failed with or without a response. -/
def failed (s : Client B) (call : Call B) (response : Option (HttpJsonResponse B))
    (random random' : ℚ) : Call B :=
  let budgetLeftMs := call.deadline options - s.clock
  match delayFor call.attempt (call.ladder options) (response.bind (·.retryAfterMs)) random
    random' with
  | none => s.settle call (response.elim (.error (.transport call.attempt)) .ok)
  | some delayMs =>
    if budgetLeftMs ≤ delayMs then
      s.settle call (response.elim
        (.error (.deadlineExceeded (call.budgetMs options) call.attempt)) .ok)
    else { call with stage := .sleeping (s.clock + delayMs) }

/-- The end of an attempt, which gives the permit back; a response may be worth another attempt. -/
def answer (s : Client B) (call : Call B) (random random' : ℚ) :
    Option (HttpJsonResponse B) → Call B
  | none => s.failed options call none random random'
  | some response =>
    let call := { call with received := call.received ++ [response] }
    if !response.ok && isRetryableStatus response.status then
      s.failed options { call with lastResponse := some response } (some response) random random'
    else s.settle call (.ok response)

/-- What `bulkhead.run` is given. -/
def work (s : Client B) (call : Call B) (breakerOpen : Bool) : Effect × Call B :=
  let attemptBudgetMs := ⌊call.deadline options - s.clock⌋
  if attemptBudgetMs < 1 then
    (.give, s.settle call (.error (.deadlineExceeded (call.budgetMs options) (call.attempt - 1))))
  else if breakerOpen then
    (.give, s.settle call (.error (.circuitOpen options.resetTimeoutMs)))
  else
    let timeoutMs := max 1 ⌊min (call.request.timeoutMs.getD defaultHttpTimeoutMs)
      (attemptBudgetMs : ℚ)⌋
    (.keep, { call with
      stage := .sent s.clock timeoutMs
      sends := call.sends ++ [(s.clock, timeoutMs)] })

def next (s : Client B) (call : Call B) : Event B → Option (Effect × Call B)
  | .work breakerOpen =>
    match call.stage with
    | .admitted => some (s.work options call breakerOpen)
    | _ => none
  | .answer response random random' =>
    match call.stage with
    | .sent _ _ => some (.give, s.answer options call random random' response)
    | _ => none
  | .expire =>
    match call.stage with
    | .queued since budgetMs =>
      if since + budgetMs ≤ s.clock then
        some (.leave, s.settle call (.error (.bulkheadRejected .queueTimeout (s.clock - since))))
      else none
    | _ => none
  | .wake =>
    match call.stage with
    | .sleeping wakesAt =>
      if wakesAt ≤ s.clock then
        some (s.enter options { call with attempt := call.attempt + 1 })
      else none
    | _ => none

def act (s : Client B) : Action B → Option (Client B)
  | .tick now => some { s with clock := now }
  | .request request =>
    let call := Call.begin request s.clock
    some ({ s with calls := s.calls ++ [call] }.move s.calls.length (s.enter options call))
  | .event i event => s.calls[i]?.bind fun call => (s.next options call event).map (s.move i)

def start (now : ℚ) : Client B := ⟨now, 0, [], []⟩

end Client

inductive Enters (s : Client B) (call : Call B) : Effect × Call B → Prop where
  | settles (outcome : Except HttpError (HttpJsonResponse B)) :
      Enters s call (.keep, s.settle call outcome)
  | admitted (early : s.clock < call.deadline options)
      (free : s.inFlight < options.bulkhead.maxConcurrent) :
      Enters s call (.take, { call with stage := .admitted })
  | queues {budgetMs} (nonneg : 0 ≤ budgetMs) (early : s.clock + budgetMs ≤ call.deadline options) :
      Enters s call (.join, { call with stage := .queued s.clock budgetMs })

inductive Goes (s : Client B) (call : Call B) : Event B → Effect × Call B → Prop where
  | stops (stage : call.stage = .admitted) (breakerOpen : Bool)
      (outcome : Except HttpError (HttpJsonResponse B)) :
      Goes s call (.work breakerOpen) (.give, s.settle call outcome)
  | sends (stage : call.stage = .admitted) (breakerOpen : Bool) {timeoutMs : Int}
      (positive : 0 < timeoutMs) (early : s.clock + timeoutMs ≤ call.deadline options) :
      Goes s call (.work breakerOpen) (.keep, { call with
        stage := .sent s.clock timeoutMs
        sends := call.sends ++ [(s.clock, timeoutMs)] })
  | ends {since timeoutMs} (stage : call.stage = .sent since timeoutMs)
      (response : Option (HttpJsonResponse B)) (random random' : ℚ)
      (last : Option (HttpJsonResponse B)) (received : List (HttpJsonResponse B))
      (outcome : Except HttpError (HttpJsonResponse B)) :
      Goes s call (.answer response random random') (.give, s.settle
        { call with lastResponse := last, received := received } outcome)
  | sleeps {since timeoutMs} (stage : call.stage = .sent since timeoutMs)
      (response : Option (HttpJsonResponse B)) (random random' : ℚ) {last received wakesAt}
      (tracked : call.lastResponse = call.received.getLast? → last = received.getLast?)
      (early : wakesAt < call.deadline options)
      (again : call.attempt < (call.ladder options).maxAttempts) :
      Goes s call (.answer response random random') (.give, { call with
        stage := .sleeping wakesAt, lastResponse := last, received := received })
  | expires {since budgetMs} (stage : call.stage = .queued since budgetMs)
      (outcome : Except HttpError (HttpJsonResponse B)) :
      Goes s call .expire (.leave, s.settle call outcome)
  | wakes {wakesAt} (stage : call.stage = .sleeping wakesAt) {next}
      (enters : Enters options s { call with attempt := call.attempt + 1 } next) :
      Goes s call .wake next

variable {options} {s : Client B} {i : Nat} {old call : Call B} {next : Effect × Call B}
  {event : Event B}

theorem attempt_lt_of_delayFor {attempt : Nat} {ladder : BackoffPolicy} {hint : Option Nat}
    {random random' : ℚ} {delayMs : Int}
    (found : delayFor attempt ladder hint random random' = some delayMs) :
    attempt < ladder.maxAttempts := by
  by_contra spent
  simp [delayFor, Backoff.nextAttemptDelayMs, not_lt.mp spent] at found

namespace Client

theorem enter_enters : Enters options s call (s.enter options call) := by
  unfold enter acquire
  dsimp only
  split_ifs with spent free short queue
  · exact .settles _
  · exact .admitted (by linarith) free
  · exact .settles _
  · exact .settles _
  · have floor := Int.floor_le (call.deadline options - s.clock)
    have least := min_le_left (⌊call.deadline options - s.clock⌋ : ℚ)
      options.bulkhead.maxQueueWaitMs
    have budget : max 0 (min (⌊call.deadline options - s.clock⌋ : ℚ)
        options.bulkhead.maxQueueWaitMs) ≤ call.deadline options - s.clock :=
      max_le (by linarith) (by linarith)
    exact .queues (le_max_left _ _) (le_sub_iff_add_le'.mp budget)

theorem work_goes (stage : call.stage = .admitted) (breakerOpen : Bool) :
    Goes options s call (.work breakerOpen) (s.work options call breakerOpen) := by
  unfold work
  dsimp only
  split_ifs with short refused
  · exact .stops stage _ _
  · exact .stops stage _ _
  · have floor := Int.floor_le (call.deadline options - s.clock)
    have least : ⌊min (call.request.timeoutMs.getD defaultHttpTimeoutMs)
        (⌊call.deadline options - s.clock⌋ : ℚ)⌋ ≤ ⌊call.deadline options - s.clock⌋ := by
      have := Int.floor_le_floor (min_le_right (call.request.timeoutMs.getD defaultHttpTimeoutMs)
        (⌊call.deadline options - s.clock⌋ : ℚ))
      rwa [Int.floor_intCast] at this
    generalize ⌊min (call.request.timeoutMs.getD defaultHttpTimeoutMs)
      (⌊call.deadline options - s.clock⌋ : ℚ)⌋ = timeoutMs at least ⊢
    have budget : ((max 1 timeoutMs : Int) : ℚ) ≤ call.deadline options - s.clock :=
      (Int.cast_le.mpr (max_le (not_lt.mp short) least)).trans floor
    exact .sends stage _ (lt_of_lt_of_le Int.one_pos (le_max_left _ _))
      (le_sub_iff_add_le'.mp budget)

theorem answer_goes {since : ℚ} {timeoutMs : Int} (stage : call.stage = .sent since timeoutMs)
    (response : Option (HttpJsonResponse B)) (random random' : ℚ) :
    Goes options s call (.answer response random random')
      (.give, s.answer options call random random' response) := by
  have failed : ∀ last received response',
      (call.lastResponse = call.received.getLast? → last = received.getLast?) →
      Goes options s call (.answer response random random') (.give, s.failed options
        { call with lastResponse := last, received := received } response'
        random random') := by
    intro last received response' tracked
    unfold Client.failed
    dsimp only
    split
    · exact .ends stage _ _ _ last received _
    · rename_i delayMs found
      split_ifs with short
      · exact .ends stage _ _ _ last received _
      · have early : s.clock + delayMs < call.deadline options := by
          have := not_le.mp short
          simp only [Call.deadline, Call.budgetMs] at this ⊢
          linarith
        exact .sleeps stage _ _ _ tracked early (attempt_lt_of_delayFor found)
  cases response with
  | none => exact failed call.lastResponse call.received none id
  | some response =>
    unfold Client.answer
    dsimp only
    split_ifs
    · exact failed (some response) _ (some response) fun _ => List.getLast?_concat.symm
    · exact .ends stage _ _ _ call.lastResponse _ _

theorem next_goes (goes : s.next options call event = some next) :
    Goes options s call event next := by
  cases event with
  | work =>
    cases stage : call.stage <;> simp only [Client.next, stage, reduceCtorEq] at goes
    cases goes
    exact work_goes stage _
  | answer response =>
    cases stage : call.stage <;> simp only [Client.next, stage, reduceCtorEq] at goes
    cases goes
    exact answer_goes stage _ _ _
  | expire =>
    cases stage : call.stage <;> simp only [Client.next, stage, reduceCtorEq] at goes
    split_ifs at goes
    cases goes
    exact .expires stage _
  | wake =>
    cases stage : call.stage <;> simp only [Client.next, stage, reduceCtorEq] at goes
    split_ifs at goes
    cases goes
    exact .wakes stage enter_enters

end Client

theorem Call.admit_eq (call : Call B) :
    call.grant = call ∨ call.grant = { call with stage := .admitted } ∧
      ∃ since budgetMs, call.stage = .queued since budgetMs := by
  unfold Call.grant
  split
  · rename_i since budgetMs stage
    exact .inr ⟨rfl, since, budgetMs, stage⟩
  · exact .inl rfl

namespace Client

theorem getElem?_apply (s : Client B) (i j : Nat) (effect : Effect) :
    (s.apply i effect).calls[j]? = s.calls[j]? ∨
      (s.apply i effect).calls[j]? = s.calls[j]?.map Call.grant := by
  cases effect with
  | give =>
    unfold apply
    dsimp only
    split
    · exact .inl rfl
    · dsimp only
      rw [List.getElem?_modify]
      split
      · exact .inr rfl
      · exact .inl (by simp)
  | _ => exact .inl rfl

theorem mem_apply {effect : Effect} {call : Call B} (mem : call ∈ (s.apply i effect).calls) :
    ∃ old ∈ s.calls, call = old ∨ call = old.grant := by
  obtain ⟨j, after⟩ := List.getElem?_of_mem mem
  rcases getElem?_apply s i j effect with there | there
  · exact ⟨call, List.mem_of_getElem? (there.symm.trans after), .inl rfl⟩
  · obtain ⟨old, before, same⟩ := Option.map_eq_some_iff.mp (there.symm.trans after)
    exact ⟨old, List.mem_of_getElem? before, .inr same.symm⟩

/-- The other calls keep what does not tell a queued call from an admitted one. -/
theorem forall_move {p : Call B → Prop} (same : ∀ call, p call.grant ↔ p call)
    (found : s.calls[i]? = some old) (fine : p old) :
    (∀ call ∈ (s.move i next).calls, p call) ↔ (∀ call ∈ s.calls, p call) ∧ p next.2 := by
  have here : ∃ old', (s.apply i next.1).calls[i]? = some old' ∧ p old' := by
    rcases getElem?_apply s i i next.1 with there | there
    · exact ⟨old, there.trans found, fine⟩
    · exact ⟨old.grant, by rw [there, found, Option.map_some], (same old).mpr fine⟩
  obtain ⟨old', there, fine'⟩ := here
  rw [move, forall_mem_set_iff there fine']
  refine and_congr_left fun _ => ⟨fun all call mem => ?_, fun all call mem => ?_⟩
  · obtain ⟨j, before⟩ := List.getElem?_of_mem mem
    rcases getElem?_apply s i j next.1 with there | there
    · exact all call (List.mem_of_getElem? (there.trans before))
    · rw [before, Option.map_some] at there
      exact (same call).mp (all _ (List.mem_of_getElem? there))
  · obtain ⟨old, before, rfl | rfl⟩ := mem_apply mem
    · exact all _ before
    · exact (same old).mpr (all old before)

end Client

end NestApi.ResilientHttp
