import NestApi.SagaTermination

namespace NestApi.Saga

/-- What is up to the world in one pass of the loop in `drive`; `kept` says whether the save finds
the runner's lease. -/
structure DrivePass (O : Type) where
  startedAt : Date
  savedAt : Date
  random : ℚ
  choice : O
  kept : Bool

/-- The ways out of `drive`, the last of them its guard. -/
inductive Ending where
  | terminal
  | released
  | lostLease
  | abandoned
  | unsettled
  deriving DecidableEq

variable {W O : Type} (config : SagaConfig) (definition : SagaDefinition)
  (participants : Participants W O) (owner : String) (passes : Nat → DrivePass O)

/-- The loop of `drive`, with the iterations it has left. -/
def driveLoop : Nat → RunState W → Ending × RunState W
  | 0, s => (.unsettled, s)
  | left + 1, s =>
    if isTerminal s.record.status then (.terminal, s)
    else
      match step definition s.record with
      | .error problem =>
        (.abandoned, { s with record := s.record.abandoned (truncate problem.message) })
      | .ok decision =>
        let pass := passes left
        let done := perform config definition participants s.record s.world pass.startedAt
          pass.random pass.choice decision
        let called : RunState W :=
          { s with world := done.world, calls := s.calls ++ (callOf s.record decision).toList }
        if pass.kept then
          let saved : RunState W := { called with
            record := s.record.saved ⟨owner, pass.savedAt, config.leaseMs⟩ done.progress }
          if done.progress.release then (.released, saved) else driveLoop left saved
        else (.lostLease, called)

def drive (registry : SagaRegistry) (s : RunState W) : Ending × RunState W :=
  match registry.find s.record.name with
  | none => (.abandoned, { s with record := s.record.abandoned (truncate (unregistered s.record)) })
  | some definition =>
    driveLoop config definition participants owner passes (maxIterations definition) s

variable {config definition participants owner passes} {record : SagaInstanceRecord} {world : W}
  {now : Date} {random : ℚ} {choice : O} {decision : Decision}
  {outcome : Except StepError (Option SagaStatePatch)}

def settled (config : SagaConfig) (definition : SagaDefinition) (participants : Participants W O)
    (record : SagaInstanceRecord) (world : W) (choice : O) :
    Decision → Option (Except StepError (Option SagaStatePatch))
  | .execute step => some (call config step.name
      (participants.execute step (context record step none) choice world).1)
  | .compensate step => some (call config step.name (participants.compensate step
      (context record step (some (failureFrom definition record))) choice world).1)
  | .skip _ => none

/-- The call failed, and its step is tried again once the row is due. -/
def Retries (config : SagaConfig) (record : SagaInstanceRecord) (now : Date) (random : ℚ)
    (outcome : Option (Except StepError (Option SagaStatePatch))) (attempts : Nat) (due : Date) :
    Prop :=
  ∃ error, outcome = some (.error error) ∧ attempts = record.attempts + 1 ∧
    retryAt config now attempts error random = some due

/-- A pass gives the row back at an end or for a retry, and otherwise leaves fewer steps. -/
def Settles (config : SagaConfig) (definition : SagaDefinition) (record : SagaInstanceRecord)
    (now : Date) (random : ℚ) (outcome : Option (Except StepError (Option SagaStatePatch)))
    (progress : SagaProgress) : Prop :=
  if progress.release then
    isTerminal progress.status = true ∨
      Retries config record now random outcome progress.attempts progress.nextAttemptAt
  else stepsLeft definition progress.cursor progress.status <
    stepsLeft definition record.cursor record.status

theorem undoneStep_settles (back : record.status = .compensating) (step : SagaStep)
    (outcome : Option (Except StepError (Option SagaStatePatch))) (how : SagaStepOutcome) :
    Settles config definition record now random outcome (undoneStep record step now how) := by
  by_cases first : record.cursor - 1 < 0
  · simp [Settles, undoneStep, first, isTerminal]
  · simp only [Settles, undoneStep, first, decide_false, Bool.false_eq_true, ↓reduceIte, back,
      stepsLeft]
    omega

theorem executeStep_settles (forward : record.status = .running) (inside : 0 ≤ record.cursor)
    (below : record.cursor < definition.size) (step : SagaStep) :
    Settles config definition record now random (some outcome)
      (executeStep config definition record step now random outcome) := by
  have size : definition.size = definition.steps.length := rfl
  cases outcome with
  | ok patch =>
    by_cases last : (definition.steps.length : Int) ≤ record.cursor + 1
    · simp [Settles, executeStep, last, isTerminal]
    · simp only [Settles, executeStep, last, decide_false, Bool.false_eq_true, ↓reduceIte, forward,
        stepsLeft]
      omega
  | error error =>
    cases scheduled : retryAt config now (record.attempts + 1) error random with
    | some due =>
      simp only [Settles, executeStep, scheduled, ↓reduceIte]
      exact Or.inr ⟨error, rfl, rfl, scheduled⟩
    | none =>
      by_cases kind : step.kind = .retriable
      · simp [Settles, executeStep, scheduled, kind, isTerminal]
      · simp only [Settles, executeStep, scheduled, kind, ↓reduceIte, Bool.false_eq_true, forward,
          stepsLeft]
        omega

theorem compensateStep_settles (back : record.status = .compensating) (step : SagaStep) :
    Settles config definition record now random (some outcome)
      (compensateStep config record step now random outcome) := by
  cases outcome with
  | ok patch => exact undoneStep_settles back step _ .completed
  | error error =>
    cases scheduled : retryAt config now (record.attempts + 1) error random with
    | some due =>
      simp only [Settles, compensateStep, scheduled, ↓reduceIte]
      exact Or.inr ⟨error, rfl, rfl, scheduled⟩
    | none => simp [Settles, compensateStep, scheduled, isTerminal]

theorem cursor_of_step (decided : step definition record = .ok decision) :
    0 ≤ record.cursor ∧ record.cursor < definition.size := by
  obtain ⟨_, next, found, _⟩ := (step_eq_ok_iff _ _ _).mp decided
  cases cursor : record.cursor with
  | ofNat index =>
    rw [cursor] at found
    have below := lt_of_getElem? found
    exact ⟨Int.natCast_nonneg index, Int.ofNat_lt.mpr below⟩
  | negSucc index =>
    rw [cursor] at found
    cases found

theorem status_cases (inFlight : ¬ isTerminal record.status = true) :
    record.status = .running ∨ record.status = .compensating := by
  cases status : record.status <;> simp_all [isTerminal]

theorem stepsLeft_pos (inFlight : ¬ isTerminal record.status = true)
    (decided : step definition record = .ok decision) :
    0 < stepsLeft definition record.cursor record.status := by
  obtain ⟨inside, below⟩ := cursor_of_step decided
  rcases status_cases inFlight with status | status
  · simp only [status, stepsLeft]
    omega
  · simp only [status, stepsLeft]
    omega

theorem perform_settles (inFlight : ¬ isTerminal record.status = true)
    (decided : step definition record = .ok decision) :
    Settles config definition record now random
      (settled config definition participants record world choice decision)
      (perform config definition participants record world now random choice
        decision).progress := by
  obtain ⟨inside, below⟩ := cursor_of_step decided
  obtain ⟨_, next, _, rfl⟩ := (step_eq_ok_iff _ _ _).mp decided
  rcases status_cases inFlight with forward | back
  · rw [if_neg (by simp [forward])]
    exact executeStep_settles forward inside below _
  · rw [if_pos back]
    split
    · exact compensateStep_settles back _
    · exact undoneStep_settles back _ none _

/-- A pass as a turn of the saga's run, and as one whose save comes too late. -/
def DrivePass.turn (owner : String) (pass : DrivePass O) : RunAction O :=
  .turn owner pass.startedAt pass.savedAt pass.random pass.choice

def DrivePass.crash (owner : String) (pass : DrivePass O) : RunAction O :=
  .crash owner pass.startedAt pass.random pass.choice

/-- What an ending says of the state its last pass began in, of that pass and of the state that
`drive` leaves. -/
def Ending.Decides (config : SagaConfig) (definition : SagaDefinition)
    (participants : Participants W O) (owner : String) (s : RunState W) (pass : DrivePass O)
    (t : RunState W) : Ending → Prop
  | .terminal => isTerminal s.record.status = true ∧ t = s
  | .abandoned => isTerminal s.record.status = false ∧ ∃ problem,
      step definition s.record = .error problem ∧
        t = { s with record := s.record.abandoned (truncate problem.message) }
  | .released => pass.kept = true ∧
      s.act config definition participants (pass.turn owner) = some t ∧ t.record.lockedBy = none ∧
        ∃ decision, step definition s.record = .ok decision ∧ (isTerminal t.record.status = true ∨
          Retries config s.record pass.startedAt pass.random
            (settled config definition participants s.record s.world pass.choice decision)
            t.record.attempts t.record.nextAttemptAt)
  | .lostLease => pass.kept = false ∧ (∃ decision, step definition s.record = .ok decision) ∧
      s.act config definition participants (pass.crash owner) = some t
  | .unsettled => False

/-- The loop goes through turns of the saga's run until one comes to a decision, in no more calls
than there are steps left. -/
theorem driveLoop_decides {left most : Nat} (room : most < left) (s : RunState W)
    (held : s.record.lockedBy = some owner)
    (few : ∀ decision, step definition s.record = .ok decision →
      stepsLeft definition s.record.cursor s.record.status ≤ most) :
    let ended := driveLoop config definition participants owner passes left s
    ∃ n u, Runs config definition participants s
        ((List.range n).map fun i => (passes (left - (i + 1))).turn owner) u ∧
      (∀ i < n, (passes (left - (i + 1))).kept = true) ∧
      ended.1.Decides config definition participants owner u (passes (left - (n + 1))) ended.2 ∧
      ∃ calls, ended.2.calls = s.calls ++ calls ∧ calls.length ≤ most := by
  induction left generalizing s most with
  | zero => omega
  | succ left ih =>
    have here : Runs config definition participants s [] s := .nil s
    simp only [Nat.add_sub_add_right]
    rw [driveLoop]
    split
    · rename_i ended
      exact ⟨0, s, here, by simp, ⟨ended, rfl⟩, [], by simp⟩
    · rename_i inFlight
      split
      · rename_i problem refused
        exact ⟨0, s, here, by simp, ⟨Bool.eq_false_iff.mpr inFlight, problem, refused, rfl⟩, [],
          by simp⟩
      · rename_i decision decided
        have fewer := few decision decided
        have positive := stepsLeft_pos inFlight decided
        have driven : driven owner s.record = true :=
          (driven_iff _ _).mpr ⟨held, Bool.eq_false_iff.mpr inFlight⟩
        have turned : s.act config definition participants ((passes left).turn owner) = some _ :=
          act_turn driven decided ..
        have settles : Settles config definition s.record (passes left).startedAt
            (passes left).random (settled config definition participants s.record s.world
              (passes left).choice decision) (perform config definition participants s.record
              s.world (passes left).startedAt (passes left).random (passes left).choice
              decision).progress :=
          perform_settles inFlight decided
        have one : (callOf s.record decision).toList.length ≤ 1 := by
          cases decision <;> simp [callOf]
        dsimp only
        split
        · rename_i kept
          generalize perform config definition participants s.record s.world _ _ _ decision = done
            at settles turned ⊢
          split
          · rename_i release
            rw [Settles, if_pos release] at settles
            refine ⟨0, s, here, by simp, ⟨kept, turned, ?_, decision, decided, settles⟩, _, rfl,
              by omega⟩
            exact SagaInstanceRecord.saved_lockedBy_of_release _ _ _ release
          · rename_i release
            rw [Settles, if_neg release] at settles
            obtain ⟨n, u, run, each, decides, rest, calls, count⟩ :=
              ih (show most - 1 < left by omega)
                ⟨s.record.saved ⟨owner, _, config.leaseMs⟩ done.progress, done.world, _⟩
                (if_neg release) (fun _ _ => Nat.le_sub_one_of_lt (settles.trans_le fewer))
            refine ⟨n + 1, u, ?_, ?_, decides, _ ++ rest, calls.trans (List.append_assoc ..), ?_⟩
            · rw [List.range_succ_eq_map, List.map_cons, List.map_map]
              exact .cons turned run
            · intro i below
              cases i with
              | zero => exact kept
              | succ i => exact each i (by omega)
            · rw [List.length_append]
              omega
        · rename_i lost
          refine ⟨0, s, here, by simp, ⟨Bool.eq_false_iff.mpr lost, ⟨decision, decided⟩, ?_⟩, _,
            rfl, by omega⟩
          simp [RunState.act, DrivePass.crash, driven, decided]

/-- An advance of a claimed row is turns of the saga's run that save and go on, and then a decision,
never the guard, in at most two calls for each step; a row without a registered definition is
abandoned. -/
theorem drive_decides (config : SagaConfig) (registry : SagaRegistry)
    (participants : Participants W O) (owner : String) (passes : Nat → DrivePass O)
    (s : RunState W) (held : s.record.lockedBy = some owner) :
    let ended := drive config participants owner passes registry s
    (registry.find s.record.name = none → ended = (.abandoned,
      { s with record := s.record.abandoned (truncate (unregistered s.record)) })) ∧
    ∀ definition, registry.find s.record.name = some definition →
      let pass (i : Nat) := passes (maxIterations definition - (i + 1))
      ∃ n u, Runs config definition participants s
          ((List.range n).map fun i => (pass i).turn owner) u ∧
        (∀ i < n, (pass i).kept = true) ∧
        ended.1.Decides config definition participants owner u (pass n) ended.2 ∧
        ∃ calls, ended.2.calls = s.calls ++ calls ∧ calls.length ≤ 2 * definition.steps.length := by
  refine ⟨fun missing => by rw [drive, missing], ?_⟩
  intro definition known
  rw [drive, known]
  have few : ∀ decision, step definition s.record = .ok decision →
      stepsLeft definition s.record.cursor s.record.status ≤ 2 * definition.steps.length := by
    intro decision decided
    obtain ⟨inside, below⟩ := cursor_of_step decided
    have size : definition.size = definition.steps.length := rfl
    cases s.record.status <;> simp only [stepsLeft] <;> omega
  exact driveLoop_decides (by rw [maxIterations]; omega) s held few

/-- The first step of an advance returns, every later one fails for the moment. -/
def oneStep (left : Nat) : DrivePass Settlement :=
  ⟨10, 20, 0, if left = 7 then .returned none else .threw ⟨[], false⟩, true⟩

def claimedShipping : RunState Unit :=
  ⟨(SagaInstanceRecord.created shippingInput 0).leased ⟨"a", 0, 30000⟩, (), []⟩

theorem drive_decides_retry :
    ∃ t, drive defaultConfig .free "a" oneStep shippingRegistry claimedShipping = (.released, t) ∧
      t.record.status = .running ∧ t.record.cursor = 1 ∧ t.record.attempts = 1 ∧
      ∃ n u, Runs defaultConfig shipping .free claimedShipping
          ((List.range n).map fun i => (oneStep (8 - (i + 1))).turn "a") u ∧
        Ending.released.Decides defaultConfig shipping .free "a" u (oneStep (8 - (n + 1))) t := by
  obtain ⟨n, u, run, _, decides, _⟩ := (drive_decides defaultConfig shippingRegistry .free "a"
    oneStep claimedShipping rfl).2 shipping rfl
  exact ⟨_, rfl, rfl, rfl, rfl, n, u, run, decides⟩

end NestApi.Saga
