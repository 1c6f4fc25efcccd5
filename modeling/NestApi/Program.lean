import Mathlib.Logic.Function.Basic

namespace NestApi

/-- A program over services: it returns, throws, or calls a service and goes on with the answer, a
value or an error. -/
inductive Program (Req : Type) (Ans : Req → Type) (ε α : Type) : Type where
  | done (result : Except ε α)
  | call (request : Req) (next : Except ε (Ans request) → Program Req Ans ε α)

/-- How services answer, one call at a time. -/
abbrev Handler (Req : Type) (Ans : Req → Type) (ε σ : Type) :=
  (request : Req) → σ → Except ε (Ans request) × σ

/-- What becomes of a call: it is answered, it takes effect and its answer is lost, or it
never arrives. -/
inductive Fate (ε : Type) where
  | answered
  | lost (error : ε)
  | dropped (error : ε)

namespace Program

variable {Req : Type} {Ans : Req → Type} {ε σ α β : Type} {handle : Handler Req Ans ε σ}
  {fates : List (Fate ε)} {program : Program Req Ans ε α} {req : Req}

def bind (program : Program Req Ans ε α) (next : α → Program Req Ans ε β) :
    Program Req Ans ε β :=
  match program with
  | .done (.ok value) => next value
  | .done (.error error) => .done (.error error)
  | .call request rest => .call request fun answer => (rest answer).bind next

instance : Monad (Program Req Ans ε) where
  pure value := .done (.ok value)
  bind := Program.bind

def throw (error : ε) : Program Req Ans ε α := .done (.error error)

/-- Calls a service and lets its error through. -/
def request (request : Req) : Program Req Ans ε (Ans request) := .call request .done

/-- Calls a service inside a `try`. -/
def attempt (request : Req) : Program Req Ans ε (Except ε (Ans request)) :=
  .call request fun answer => .done (.ok answer)

/-- Runs a program against the services, with the fates of its calls in order; calls beyond
the list are answered. -/
def run (handle : Handler Req Ans ε σ) : Program Req Ans ε α → List (Fate ε) → σ → Except ε α × σ
  | .done result, _, s => (result, s)
  | .call request next, [], s => (next (handle request s).1).run handle [] (handle request s).2
  | .call request next, .answered :: rest, s =>
    (next (handle request s).1).run handle rest (handle request s).2
  | .call _ next, .dropped error :: rest, s => (next (.error error)).run handle rest s
  | .call request next, .lost error :: rest, s =>
    (next (.error error)).run handle rest (handle request s).2

theorem run_of_answered (program : Program Req Ans ε α)
    (answered : ∀ fate ∈ fates, fate = .answered) (s : σ) :
    program.run handle fates s = program.run handle [] s := by
  induction program generalizing fates s with
  | done => rw [run, run]
  | call request next ih =>
    cases fates with
    | nil => rfl
    | cons fate =>
      obtain rfl := answered fate List.mem_cons_self
      exact ih _ (fun fate member => answered fate (List.mem_cons_of_mem _ member)) _

/-- What no call changes, no program changes. -/
theorem run_keeps {V : Type} (view : σ → V)
    (frame : ∀ request s, view (handle request s).2 = view s) (program : Program Req Ans ε α)
    (fates : List (Fate ε)) (s : σ) : view (program.run handle fates s).2 = view s := by
  induction program generalizing fates s with
  | done => rw [run]
  | call request next ih =>
    cases fates with
    | nil => exact (ih _ _ _).trans (frame _ _)
    | cons fate =>
      cases fate with
      | answered | lost => exact (ih _ _ _).trans (frame _ _)
      | dropped => exact ih _ _ _

/-- Whatever the fates of its calls, the program ends like this. -/
def Ensures (handle : Handler Req Ans ε σ) (program : Program Req Ans ε α) (s : σ)
    (post : Except ε α → σ → Prop) : Prop :=
  ∀ fates, post (program.run handle fates s).1 (program.run handle fates s).2

section Rules

variable {s : σ} {post : Except ε α → σ → Prop}

theorem Ensures.weaken {weaker : Except ε α → σ → Prop} (ensures : program.Ensures handle s post)
    (weaken : ∀ result t, post result t → weaker result t) : program.Ensures handle s weaker :=
  fun fates => weaken _ _ (ensures fates)

@[simp] theorem ensures_done (result : Except ε α) :
    (done result : Program Req Ans ε α).Ensures handle s post ↔ post result s := by
  constructor
  · intro ensures
    exact ensures []
  · intro holds fates
    rw [run]
    exact holds

theorem ensures_call (request : Req) (next : Except ε (Ans request) → Program Req Ans ε α) :
    (call request next).Ensures handle s post ↔
      (next (handle request s).1).Ensures handle (handle request s).2 post ∧
      (∀ error, (next (.error error)).Ensures handle (handle request s).2 post) ∧
      ∀ error, (next (.error error)).Ensures handle s post := by
  constructor
  · intro ensures
    refine ⟨?_, ?_, ?_⟩
    · intro fates
      exact ensures (.answered :: fates)
    · intro error fates
      exact ensures (.lost error :: fates)
    · intro error fates
      exact ensures (.dropped error :: fates)
  · intro holds fates
    obtain ⟨answered, lost, dropped⟩ := holds
    cases fates with
    | nil => exact answered []
    | cons fate rest =>
      cases fate with
      | answered => exact answered rest
      | lost error => exact lost error rest
      | dropped error => exact dropped error rest

/-- A program is a sequence of two when the second starts where the first may return. -/
theorem ensures_bind {post : Except ε β → σ → Prop} (program : Program Req Ans ε α)
    (next : α → Program Req Ans ε β) (first : program.Ensures handle s fun result t =>
      match result with
      | .ok value => (next value).Ensures handle t post
      | .error error => post (.error error) t) : (program >>= next).Ensures handle s post := by
  change (program.bind next).Ensures handle s post
  induction program generalizing s with
  | done result =>
    rw [ensures_done] at first
    cases result with
    | ok => exact first
    | error => exact (ensures_done _).mpr first
  | call request rest ih =>
    rw [ensures_call] at first
    refine (ensures_call _ _).mpr ⟨ih _ first.1, ?_, ?_⟩
    · intro error
      exact ih _ (first.2.1 error)
    · intro error
      exact ih _ (first.2.2 error)

theorem ensures_request {post : Except ε (Ans req) → σ → Prop}
    (answered : ∀ value, (handle req s).1 = .ok value → post (.ok value) (handle req s).2)
    (failed : ∀ error, post (.error error) (handle req s).2)
    (dropped : ∀ error, post (.error error) s) :
    (request req : Program Req Ans ε (Ans req)).Ensures handle s post := by
  refine (ensures_call _ _).mpr ⟨(ensures_done _).mpr ?_, ?_, ?_⟩
  · cases answer : (handle req s).1 with
    | ok value => exact answered value answer
    | error error => exact failed error
  · intro error
    exact (ensures_done _).mpr (failed error)
  · intro error
    exact (ensures_done _).mpr (dropped error)

theorem ensures_request_bind {next : Ans req → Program Req Ans ε α}
    (answered : ∀ value, (handle req s).1 = .ok value →
      (next value).Ensures handle (handle req s).2 post)
    (failed : ∀ error, post (.error error) (handle req s).2)
    (dropped : ∀ error, post (.error error) s) : (request req >>= next).Ensures handle s post :=
  ensures_bind _ _ (ensures_request answered failed dropped)

theorem ensures_attempt_bind {next : Except ε (Ans req) → Program Req Ans ε α}
    (answered : ∀ value, (handle req s).1 = .ok value →
      (next (.ok value)).Ensures handle (handle req s).2 post)
    (failed : ∀ error, (next (.error error)).Ensures handle (handle req s).2 post)
    (dropped : ∀ error, (next (.error error)).Ensures handle s post) :
    (attempt req >>= next).Ensures handle s post := by
  refine (ensures_call _ _).mpr ⟨?_, failed, dropped⟩
  change (next (handle req s).1).Ensures handle (handle req s).2 post
  cases answer : (handle req s).1 with
  | ok value => exact answered value answer
  | error error => exact failed error

@[simp] theorem ensures_pure (value : α) :
    (pure value : Program Req Ans ε α).Ensures handle s post ↔ post (.ok value) s :=
  ensures_done _

@[simp] theorem ensures_throw (error : ε) :
    (throw error : Program Req Ans ε α).Ensures handle s post ↔ post (.error error) s :=
  ensures_done _

end Rules

/-- Every call the program can come to is allowed, and every value it can return is one of
`returns`, whatever the answers. -/
inductive Within (allowed : Req → Prop) (returns : α → Prop) : Program Req Ans ε α → Prop where
  | done {result} (here : ∀ value, result = .ok value → returns value) :
      Within allowed returns (.done result)
  | call {request next}
      (here : allowed request) (rest : ∀ answer, Within allowed returns (next answer)) :
      Within allowed returns (.call request next)

section Within

variable {allowed : Req → Prop} {returns : α → Prop} {value : α}

theorem within_pure (here : returns value) :
    Within allowed returns (pure value : Program Req Ans ε α) := by
  refine .done ?_
  intro other same
  cases same
  exact here

theorem within_throw {error : ε} : Within allowed returns (throw error : Program Req Ans ε α) := by
  refine .done ?_
  intro value same
  cases same

theorem within_request (here : allowed req) :
    Within allowed (fun _ => True) (request req : Program Req Ans ε (Ans req)) :=
  .call here fun _ => .done fun _ _ => trivial

theorem within_attempt (here : allowed req) :
    Within allowed (fun _ => True) (attempt req : Program Req Ans ε _) :=
  .call here fun _ => .done fun _ _ => trivial

theorem within_bind {between : β → Prop} {program : Program Req Ans ε β}
    {next : β → Program Req Ans ε α} (first : Within allowed between program)
    (second : ∀ value, between value → Within allowed returns (next value)) :
    Within allowed returns (program >>= next) := by
  change Within allowed returns (program.bind next)
  induction first with
  | @done result here =>
    cases result with
    | ok value => exact second value (here value rfl)
    | error => exact within_throw
  | call here rest ih => exact .call here ih

theorem Within.keeps {V : Type} (within : Within allowed returns program) (view : σ → V)
    (frame : ∀ request s, allowed request → view (handle request s).2 = view s)
    (fates : List (Fate ε)) (s : σ) : view (program.run handle fates s).2 = view s := by
  induction within generalizing fates s with
  | done => rw [run]
  | call here rest ih =>
    cases fates with
    | nil => exact (ih _ _ _).trans (frame _ _ here)
    | cons fate =>
      cases fate with
      | answered | lost => exact (ih _ _ _).trans (frame _ _ here)
      | dropped => exact ih _ _ _

theorem Within.returned (within : Within allowed returns program) {s : σ}
    (ran : (program.run handle fates s).1 = .ok value) : returns value := by
  induction within generalizing fates s with
  | done here =>
    rw [run] at ran
    exact here value ran
  | call here rest ih =>
    cases fates with
    | nil => exact ih _ ran
    | cons fate =>
      cases fate with
      | answered | lost | dropped => exact ih _ ran

end Within

def interleave {ι : Type} [DecidableEq ι] (handle : Handler Req Ans ε σ)
    (pool : (ι → Program Req Ans ε α) × σ) (i : ι) : (ι → Program Req Ans ε α) × σ :=
  match pool.1 i with
  | .done _ => pool
  | .call request next =>
    let answer := handle request pool.2
    (Function.update pool.1 i (next answer.1), answer.2)

section Interleave

variable {ι : Type} [DecidableEq ι] {pool : (ι → Program Req Ans ε α) × σ} {i : ι}

theorem interleave_call {request : Req} {next : Except ε (Ans request) → Program Req Ans ε α}
    (here : pool.1 i = .call request next) : interleave handle pool i =
      (Function.update pool.1 i (next (handle request pool.2).1), (handle request pool.2).2) := by
  simp only [interleave, here]

theorem interleave_done {result : Except ε α} (here : pool.1 i = .done result) :
    interleave handle pool i = pool := by
  simp only [interleave, here]

theorem interleave_ended (ended : ∀ i, ∃ result, pool.1 i = .done result) (schedule : List ι) :
    schedule.foldl (interleave handle) pool = pool := by
  induction schedule with
  | nil => rfl
  | cons i rest ih =>
    obtain ⟨result, here⟩ := ended i
    rw [List.foldl_cons, interleave_done here, ih]

end Interleave

end Program

end NestApi
