import NestApi.SagaHistory

namespace NestApi.Saga

open SagaDefinition SagaInstanceRecord

/-- The next build picks the row up; its own calls are counted from here. -/
def RunState.resumed {W W' : Type} (s : RunState W) (world : W') : RunState W' where
  record := s.record
  world := world
  calls := []

/-- What a resumed saga compensates, it compensates under the name and key the earlier build used at
that position. -/
def CompensatesWhatRan {W : Type} (config : SagaConfig) (definition : SagaDefinition)
    (s : RunState W) : Prop :=
  ∀ (W' O : Type) (participants : Participants W' O) (world : W') (actions : List (RunAction O))
    (t : RunState W'), Runs config definition participants (s.resumed world) actions t →
    ∀ made ∈ t.calls, made.direction = .backward →
      ∀ started ∈ s.calls, started.direction = .forward → started.index = made.index →
        made.step = started.step ∧ made.key = started.key

/-- The position after the completed steps: where the saga is, or where it turned. -/
def reachedPosition (record : SagaInstanceRecord) : Nat := (forwardCompleted record.log).length

/-- The one position `assertResumable` does not compare is safe: the saga will not come back to it,
nothing was tried there, or the new build has the same name or nothing to undo there. -/
def ReachedKept {W : Type} (old new : SagaDefinition) (s : RunState W) : Prop :=
  isTerminal s.record.status = true ∨
    s.record.cursor < reachedPosition s.record ∨
    (∀ started ∈ s.calls, started.direction = .forward → started.index ≠ reachedPosition s.record) ∨
    new.names[reachedPosition s.record]? = old.names[reachedPosition s.record]? ∨
    ∃ step, new.steps[reachedPosition s.record]? = some step ∧ step.kind ≠ .compensatable

section Continuation

variable {W O : Type} {config : SagaConfig} {definition : SagaDefinition}
  {participants : Participants W O} {record : SagaInstanceRecord} {decision : Decision}

/-- A compensation is of a compensatable step of the definition, at its index and under its
key. -/
def Undoes (definition : SagaDefinition) (id : String) (made : Call) : Prop :=
  made.direction = .backward → ∃ (index : Nat) (step : SagaStep), made.index = index ∧
    definition.steps[index]? = some step ∧ step.kind = .compensatable ∧ made.step = step.name ∧
    made.key = id ++ ":" ++ step.name

theorem callOf_undoes (decided : Decided definition record decision) :
    ∀ made ∈ (callOf record decision).toList, Undoes definition record.id made := by
  intro made called backward
  cases decided with
  | execute =>
    rw [callOf, Option.toList_some, List.mem_singleton] at called
    subst called
    cases backward
  | compensate found _ kind =>
    rw [callOf, Option.toList_some, List.mem_singleton] at called
    subst called
    obtain ⟨index, here, found⟩ := stepAt_eq_some found
    exact ⟨index, _, here, found, kind, rfl, rfl⟩
  | skip => cases called

variable {s t : RunState W} {actions : List (RunAction O)} {cursor : Int}

theorem run_undoes (fresh : s.calls = []) (run : Runs config definition participants s actions t) :
    t.record.id = s.record.id ∧ ∀ made ∈ t.calls, Undoes definition s.record.id made := by
  refine Steps.invariant (fun u : RunState W =>
    u.record.id = s.record.id ∧ ∀ made ∈ u.calls, Undoes definition s.record.id made) ?_ run
    ⟨rfl, by simp [fresh]⟩
  intro u action v kept taken
  obtain ⟨same, calls | ⟨decision, decided, calls⟩⟩ := act_appends taken
  · exact ⟨same.trans kept.1, by rw [calls]; exact kept.2⟩
  · refine ⟨same.trans kept.1, ?_⟩
    rw [calls, List.forall_mem_append, ← kept.1]
    exact ⟨kept.1 ▸ kept.2, callOf_undoes decided⟩

theorem run_of_terminal (terminal : isTerminal s.record.status = true)
    (run : Runs config definition participants s actions t) : t.calls = s.calls := by
  suffices kept : isTerminal t.record.status = true ∧ t.calls = s.calls from kept.2
  refine Steps.invariant
    (fun u : RunState W => isTerminal u.record.status = true ∧ u.calls = s.calls) ?_ run
    ⟨terminal, rfl⟩
  intro u action v kept taken
  have closed : isTerminal u.record.status = false → False := by simp [kept.1]
  cases acted taken with
  | claimed => exact ⟨kept.1, kept.2⟩
  | refused inFlight | stopped inFlight => exact absurd inFlight closed
  | saved decided | crashed decided => exact absurd decided.inFlight closed

/-- A saga that is not going forward only moves its cursor down. -/
def Descending (cursor : Int) (s : RunState W) : Prop :=
  s.record.status ≠ .running ∧ s.record.cursor ≤ cursor ∧ ∀ made ∈ s.calls, made.index ≤ cursor

theorem Move.descends {limit : Nat}
    {progress : SagaProgress} (notRunning : record.status ≠ .running)
    (decided : Decided definition record decision)
    (move : Move definition limit record decision progress) :
    progress.status ≠ .running ∧ progress.cursor ≤ record.cursor := by
  cases move with
  | advanced | retried | halted | turned =>
    cases decided with
    | execute _ running => exact absurd running notRunning
  | undone _ _ status =>
    refine ⟨?_, by omega⟩
    rw [status]
    split <;> decide
  | undoRetried _ status | undoHalted _ status => exact ⟨by rw [status]; decide, by omega⟩

theorem Descending.act {action : RunAction O} (descending : Descending cursor s)
    (taken : s.act config definition participants action = some t) : Descending cursor t := by
  obtain ⟨notRunning, low, below⟩ := descending
  have called : ∀ {decision : Decision}, Decided definition s.record decision →
      ∀ made ∈ s.calls ++ (callOf s.record decision).toList, made.index ≤ cursor := by
    intro decision decided
    refine List.forall_mem_append.mpr ⟨below, fun made new => ?_⟩
    rw [(callOf_named decided new).1]
    exact low
  cases acted taken with
  | claimed | stopped => exact ⟨notRunning, low, below⟩
  | refused => exact ⟨by simp [abandoned], low, below⟩
  | saved decided performed =>
    obtain ⟨status, lower⟩ := (perform_move performed).descends notRunning decided
    exact ⟨status, lower.trans low, called decided⟩
  | crashed decided => exact ⟨notRunning, low, called decided⟩

theorem Descending.run (descending : Descending cursor s)
    (run : Runs config definition participants s actions t) : Descending cursor t :=
  Steps.invariant (Descending cursor) (fun _ _ _ kept taken => kept.act taken) run descending

end Continuation

section Reached

variable {W : Type} {definition : SagaDefinition} {limit : Nat} {s : RunState W}

structure Reaches (definition : SagaDefinition) (s : RunState W) : Prop where
  completed : forwardCompleted s.record.log = definition.names.take (reachedPosition s.record)
  calls : ∀ made ∈ s.calls, made.index ≤ reachedPosition s.record
  cursor : s.record.cursor = reachedPosition s.record ∨ s.record.status ≠ .running
  high : isTerminal s.record.status = false → s.record.cursor ≤ reachedPosition s.record

theorem RunInvariant.reaches (invariant : RunInvariant definition limit s) :
    Reaches definition s := by
  rcases invariant.standing with ⟨position, ascending⟩ | ⟨turn, unwinding⟩
  · have bound : position ≤ definition.size := by
      rcases ascending.row.status with ⟨_, inside⟩ | ⟨_, last⟩ | ⟨_, inside, _⟩ <;> omega
    have here : reachedPosition s.record = position := by
      rw [reachedPosition, ascending.row.completed, List.length_take, names_length]
      omega
    refine ⟨?_, ?_, Or.inl ?_, fun _ => ?_⟩
    · rw [here, ascending.row.completed]
    · rw [here]
      exact ascending.reached
    · rw [here, ascending.row.cursor]
    · rw [here, ascending.row.cursor]
  · have bound := unwinding.row.inside
    have here : reachedPosition s.record = turn := by
      rw [reachedPosition, unwinding.row.completed, List.length_take, names_length]
      omega
    refine ⟨?_, ?_, Or.inr ?_, fun _ => ?_⟩
    · rw [here, unwinding.row.completed]
    · rw [here]
      exact unwinding.reached
    · rcases unwinding.row.status with ⟨status, _⟩ | ⟨status, _⟩ | ⟨status, _⟩ <;> simp [status]
    · rw [here]
      exact unwinding.row.high

/-- `assertResumable` compares exactly the names below the reached position. -/
theorem Reaches.names_eq (reaches : Reaches definition s) {new : SagaDefinition}
    (resumable : assertResumable new s.record = .ok ()) {index : Nat}
    (below : index < reachedPosition s.record) : new.names[index]? = definition.names[index]? := by
  have completed := (assertResumable_eq_ok_iff _ _).mp resumable
  rw [List.prefix_iff_getElem?] at completed
  rw [completed index below, ← List.getElem?_eq_getElem below, reaches.completed,
    List.getElem?_take_of_lt below]

end Reached

variable {old new : SagaDefinition} {config : SagaConfig}

theorem Named.agrees {id : String} {started made : Call} {index : Nat} {step : SagaStep}
    (named : Named old id started) (atIndex : started.index = index)
    (found : new.steps[index]? = some step) (stepName : made.step = step.name)
    (key : made.key = id ++ ":" ++ step.name) (same : new.names[index]? = old.names[index]?) :
    made.step = started.step ∧ made.key = started.key := by
  obtain ⟨other, here, named, startedKey⟩ := named
  have : other = index := by omega
  subst this
  rw [getElem?_names, found, named, Option.map_some] at same
  have equal : step.name = started.step := Option.some.inj same
  exact ⟨stepName.trans equal, by rw [key, startedKey, equal]⟩

theorem compensatesWhatRan_of_reachedKept {W : Type} {limit : Nat}
    {s : RunState W} (invariant : RunInvariant old limit s)
    (resumable : assertResumable new s.record = .ok ()) (kept : ReachedKept old new s) :
    CompensatesWhatRan config new s := by
  intro W' O participants world actions t continued made member backward started earlier forward
    same
  have reaches := invariant.reaches
  obtain ⟨index, step, here, found, undoable, stepName, key⟩ :=
    (run_undoes rfl continued).2 made member backward
  have atIndex : started.index = index := same.trans here
  apply (invariant.named started earlier).agrees atIndex found stepName key
  have within := reaches.calls started earlier
  by_cases below : index < reachedPosition s.record
  · exact reaches.names_eq resumable below
  have last : index = reachedPosition s.record := by omega
  rcases kept with terminal | low | untried | sameName | ⟨other, found', kind⟩
  · have none := run_of_terminal
      (show isTerminal (s.resumed world).record.status = true from terminal) continued
    rw [none] at member
    cases member
  · have notRunning : s.record.status ≠ .running := by
      rcases reaches.cursor with atCursor | notRunning
      · omega
      · exact notRunning
    have descending : Descending s.record.cursor (s.resumed world) :=
      ⟨notRunning, le_refl _, by simp [RunState.resumed]⟩
    have := (descending.run continued).2.2 made member
    omega
  · exact absurd (atIndex.trans (congrArg Nat.cast last)) (untried started earlier forward)
  · rw [last, sameName]
  · rw [← last, found, Option.some.injEq] at found'
    exact absurd (found' ▸ undoable) kind

section Resumption

variable (config) (definition : SagaDefinition) {next : SagaStep} {owner : String}

theorem act_compensates (s : RunState Unit) (held : s.record.lockedBy = some owner)
    (back : s.record.status = .compensating)
    (resumable : forwardCompleted s.record.log <+: definition.names)
    (found : definition.stepAt s.record.cursor = some next) (undoable : next.kind = .compensatable)
    : ∃ t, s.act config definition .free (.turn owner 0 0 0 .timedOut) = some t ∧
      ∃ made ∈ t.calls, made.direction = .backward ∧ made.index = s.record.cursor ∧
        made.step = next.name := by
  have driving : driven owner s.record = true :=
    (driven_iff _ _).mpr ⟨held, by rw [back]; rfl⟩
  have decided : step definition s.record = .ok (.compensate next) :=
    (step_eq_ok_iff _ _ _).mpr ⟨resumable, next, found, by rw [if_pos back, if_pos undoable]⟩
  refine ⟨_, act_turn driving decided 0 0 0 Settlement.timedOut,
    ⟨.backward, s.record.cursor, next.name, idempotencyKey s.record next⟩, ?_, rfl, rfl, rfl⟩
  simp [callOf]

/-- A runner that holds a saga going forward turns it around when the step throws an unretryable
error. -/
theorem act_turns (s : RunState Unit) (held : s.record.lockedBy = some owner)
    (running : s.record.status = .running)
    (resumable : forwardCompleted s.record.log <+: definition.names)
    (found : definition.stepAt s.record.cursor = some next) (kind : next.kind = .compensatable) :
    ∃ t, s.act config definition .free (.turn owner 0 0 0 (.threw ⟨[], true⟩)) = some t ∧
      t.record.lockedBy = some owner ∧ t.record.status = .compensating ∧
      t.record.cursor = s.record.cursor ∧
      forwardCompleted t.record.log = forwardCompleted s.record.log := by
  have driving : driven owner s.record = true :=
    (driven_iff _ _).mpr ⟨held, by rw [running]; rfl⟩
  have decided : step definition s.record = .ok (.execute next) :=
    (step_eq_ok_iff _ _ _).mpr ⟨resumable, next, found, by rw [running, if_neg (by decide)]⟩
  refine ⟨_, act_turn driving decided 0 0 0 _, ?_⟩
  simp [perform, Participants.free, call, executeStep, retryAt_unretryable, kind, saved,
    forwardCompleted_snoc, entry, isForwardCompleted]

/-- A row in flight at a compensatable step has a continuation that compensates that step. -/
theorem exists_compensation (s : RunState Unit) (inFlight : isTerminal s.record.status = false)
    (resumable : forwardCompleted s.record.log <+: definition.names)
    (found : definition.stepAt s.record.cursor = some next) (undoable : next.kind = .compensatable)
    : ∃ actions t, Runs config definition .free s actions t ∧
      ∃ made ∈ t.calls, made.direction = .backward ∧ made.index = s.record.cursor ∧
        made.step = next.name := by
  obtain ⟨now, claimed⟩ := act_claim s inFlight "runner"
  by_cases back : s.record.status = .compensating
  · obtain ⟨t, taken, called⟩ := act_compensates config definition
      { s with record := s.record.leased ⟨"runner", now, config.leaseMs⟩ } rfl back resumable
      found undoable
    exact ⟨_, t, .cons claimed (.single taken), called⟩
  · have running : s.record.status = .running := by
      cases status : s.record.status <;> simp_all [isTerminal]
    obtain ⟨u, turned, held, back', cursor, log⟩ := act_turns config definition
      { s with record := s.record.leased ⟨"runner", now, config.leaseMs⟩ } rfl running resumable
      found undoable
    change u.record.cursor = s.record.cursor at cursor
    obtain ⟨t, taken, called⟩ := act_compensates config definition u held back'
      (by rw [log]; exact resumable) (by rw [cursor]; exact found) undoable
    rw [cursor] at called
    exact ⟨_, t, .cons claimed (.cons turned (.single taken)), called⟩

end Resumption

theorem reachedKept_of_compensatesWhatRan {W : Type} {limit : Nat}
    {s : RunState W} (invariant : RunInvariant old limit s)
    (resumable : assertResumable new s.record = .ok ()) (high : s.record.cursor < new.size)
    (kept : CompensatesWhatRan config new s) : ReachedKept old new s := by
  have reaches := invariant.reaches
  by_contra lost
  simp only [ReachedKept, not_or, not_forall, not_exists, not_and, not_not, not_lt] at lost
  obtain ⟨inFlight, above, ⟨started, earlier, forward, reached⟩, renamed, undoable⟩ := lost
  have inFlight : isTerminal s.record.status = false := by simpa using inFlight
  have here : s.record.cursor = reachedPosition s.record := by
    have := reaches.high inFlight
    omega
  have inside : reachedPosition s.record < new.steps.length := by
    rw [size] at high
    omega
  have found := List.getElem?_eq_getElem inside
  obtain ⟨actions, t, continued, made, member, backward, index, name⟩ :=
    exists_compensation config new (s.resumed ()) inFlight
      ((assertResumable_eq_ok_iff _ _).mp resumable)
      (by change new.stepAt s.record.cursor = _
          rw [here, stepAt_natCast, found])
      (undoable _ found)
  have same := (kept Unit Settlement .free () actions t continued made member backward started
    earlier forward (reached.trans (here.symm.trans index.symm))).1
  obtain ⟨other, atIndex, named, _⟩ := invariant.named started earlier
  have : other = reachedPosition s.record := by omega
  subst this
  apply renamed
  rw [named, getElem?_names, found, Option.map_some, ← same, name]

/-- Across a deploy, compensations keep the names and keys of what ran exactly when the
reached position is kept. -/
theorem resume_compensates_what_ran_iff {W O : Type} (config : SagaConfig)
    (participants : Participants W O) {name : String} {steps : List SagaStep}
    {old new : SagaDefinition} (accepted : defineSaga name steps = .ok old)
    (positive : 1 ≤ config.policy.maxAttempts) (input : NewSagaInstance) (now : Date)
    (world : W) {actions : List (RunAction O)} {s : RunState W}
    (run : Runs config old participants (.started input now world) actions s)
    (resumable : assertResumable new s.record = .ok ()) (high : s.record.cursor < new.size) :
    CompensatesWhatRan config new s ↔ ReachedKept old new s := by
  have formed := ((defineSaga_eq_ok_iff _ _ _).mp accepted).2
  have invariant := RunInvariant.run formed positive run
  constructor
  · exact reachedKept_of_compensatesWhatRan invariant resumable high
  · exact compensatesWhatRan_of_reachedKept invariant resumable

def chargeSteps : List SagaStep := [⟨"reserve", .compensatable⟩, ⟨"charge", .compensatable⟩]

def chargeSaga : SagaDefinition := ⟨"order", chargeSteps⟩

/-- The charge is refused for good, which turns the saga around at it. -/
def refusedCharge : List (RunAction Settlement) :=
  [.claim "a" 0, .turn "a" 0 10 0 (.returned none),
    .turn "a" 10 20 0 (.threw ⟨Utf16.ofString "refused", true⟩)]

def chargeInput : NewSagaInstance := ⟨"saga-1", "order", [], none⟩

/-- The next build adds a step at the end. -/
def extendedSteps : List SagaStep := chargeSteps ++ [⟨"invoice", .compensatable⟩]

def extendedSaga : SagaDefinition := ⟨"order", extendedSteps⟩

theorem resume_compensates_what_ran_extended :
    ∃ s, Runs defaultConfig chargeSaga .free (.started chargeInput 0 ()) refusedCharge s ∧
      CompensatesWhatRan defaultConfig extendedSaga s :=
  ⟨_, steps_iff_execute.mpr rfl,
    (resume_compensates_what_ran_iff defaultConfig .free
      (show defineSaga "order" chargeSteps = .ok chargeSaga from rfl) (by decide) chargeInput 0 ()
      (show Runs _ _ _ _ refusedCharge _ from steps_iff_execute.mpr rfl) rfl (by decide)).mpr
      (Or.inr (Or.inr (Or.inr (Or.inl rfl))))⟩

def renamedSteps : List SagaStep := [⟨"reserve", .compensatable⟩, ⟨"authorize", .compensatable⟩]

def renamedSaga : SagaDefinition := ⟨"order", renamedSteps⟩

theorem resume_compensates_renamed_step : defineSaga "order" chargeSteps = .ok chargeSaga ∧
    defineSaga "order" renamedSteps = .ok renamedSaga ∧
    ∃ s, Runs defaultConfig chargeSaga .free (.started chargeInput 0 ()) refusedCharge s ∧
      assertResumable renamedSaga s.record = .ok () ∧
      0 ≤ s.record.cursor ∧ s.record.cursor < renamedSaga.size ∧
      ∃ t, Runs defaultConfig renamedSaga .free (s.resumed ())
          [.claim "b" 40000, .turn "b" 40000 40000 0 (.returned none)] t ∧
        ∃ made ∈ t.calls, made.direction = .backward ∧
          ∃ started ∈ s.calls, started.direction = .forward ∧ started.index = made.index ∧
            made.step ≠ started.step ∧ made.key ≠ started.key :=
  ⟨rfl, rfl, _, steps_iff_execute.mpr rfl, rfl, by decide, by decide, _,
    steps_iff_execute.mpr rfl, ⟨.backward, 1, "authorize", "saga-1:authorize"⟩, by decide, rfl,
    ⟨.forward, 1, "charge", "saga-1:charge"⟩, by decide, rfl, rfl, by decide, by decide⟩

end NestApi.Saga
