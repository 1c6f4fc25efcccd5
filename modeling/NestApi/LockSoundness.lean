import NestApi.LockMemory

namespace NestApi.Locking.Memory

open Sessions

variable {R E : Type}

/-- Operations leave their handles alone, and no `extend` is overtaken by the end of its lease
between its readings of the clock. -/
def prompt (s : Sessions memory R E) : Action memory R E → Bool
  | .event event =>
    match s.state.tasks[event.task]? with
    | some (.extending ref _) =>
      (s.state.store.heap[ref]?).all fun entry => s.clock < entry.expiresAt
    | _ => true
  | .touch _ _ => false
  | _ => true

/-- What a session relies on: until it calls `release` its entry is in the map or has run out, and
from then on it is out of the map or has run out. -/
structure Kept (now : ℚ) (state : State) (c : Session memory R E) : Prop where
  seeks : Seeks state c.acquisition c.key
  extending : ∀ ref startedAt task, c.renewal = .extending ref startedAt task → Extends state task
  accepted : ∀ error, c.renewal ≠ .rejected error
  backed : ∀ ref, c.Owns state ref → c.place.Unreleased →
    Current state.store ref ∨ Expired now state.store ref
  gone : ∀ ref, c.Owns state ref → ¬ c.place.Unreleased →
    ¬ Current state.store ref ∨ Expired now state.store ref

variable {now : ℚ} {state state' : State} {c c' : Session memory R E} {event : Event}
  {ref index : Nat} {asks : Session.Asks memory} {about : Option (Request Unit Nat)}

theorem Kept.later {later : ℚ} (kept : Kept now state c) (order : now ≤ later) :
    Kept later state c where
  __ := kept
  backed ref owns early := by
    rcases kept.backed ref owns early with current | ⟨entry, found, isOver⟩
    · exact .inl current
    · exact .inr ⟨entry, found, le_trans isOver order⟩
  gone ref owns late := by
    rcases kept.gone ref owns late with out | ⟨entry, found, isOver⟩
    · exact .inl out
    · exact .inr ⟨entry, found, le_trans isOver order⟩

theorem Kept.turned (kept : Kept now state c) (known : c.acquisition < state.tasks.length)
    (coherent : c.Coherent state) (steady : Steady state) (issued : Issued state)
    (turn : Turned now state index about state')
    (others : ∀ ref, about = some (.release ref) → ¬ c.Owns state ref)
    (prompt : about = none → ∀ ref extendMs, state.tasks[index]? = some (.extending ref extendMs) →
      ¬ Expired now state.store ref) : Kept now state' c := by
  refine ⟨kept.seeks.turned turn known,
    fun ref startedAt task here => (kept.extending ref startedAt task here).turned turn,
    kept.accepted, ?_, ?_⟩
  · intro ref owns early
    rcases answer_of_turned turn owns with old | ⟨_, _, _, _, current⟩
    · exact backed_turned turn steady (fun same => others ref same old) (kept.backed ref old early)
    · exact .inl current
  · intro ref owns late
    rcases answer_of_turned turn owns with old | ⟨_, _, unanswered, _, _⟩
    · rcases kept.gone ref old late with out | isOver
      · exact .inl (not_current_turned turn (issued.made _ ref old) out)
      · exact .inr (expired_turned turn (fun event => prompt event ref) isOver)
    · obtain ⟨answer, answered⟩ := coherent.answered late
      cases unanswered.symm.trans answered

theorem Kept.change (kept : Kept now state c) (same : c'.acquisition = c.acquisition)
    (key : c'.key = c.key)
    (extending : ∀ ref startedAt task, c'.renewal = .extending ref startedAt task →
      Extends state task) (accepted : ∀ error, c'.renewal ≠ .rejected error)
    (phase : c'.place.Unreleased ↔ c.place.Unreleased) : Kept now state c' where
  seeks := by
    rw [same, key]
    exact kept.seeks
  extending := extending
  accepted := accepted
  backed ref owns early := by
    rw [Session.Owns, same] at owns
    exact kept.backed ref owns (phase.mp early)
  gone ref owns late := by
    rw [Session.Owns, same] at owns
    exact kept.gone ref owns (mt phase.mpr late)

theorem released_gone (backed : Current state.store ref ∨ Expired now state.store ref) :
    ¬ Current (state.call now (.release ref)).store ref ∨
      Expired now (state.call now (.release ref)).store ref := by
  obtain ⟨started, store, began, same⟩ := call_began now state (.release ref)
  rw [same]
  cases began with
  | release => exact .inl not_current_delete_self
  | releaseLate _ lost =>
    right
    by_contra live
    rcases backed with current | isOver
    · have held := holds_iff.mpr ⟨current, live⟩
      rw [lost] at held
      cases held
    · exact live isOver

theorem Kept.step (kept : Kept now state c)
    (known : c.acquisition < state.tasks.length) (coherent : c.Coherent state)
    (steady : Steady state) (issued : Issued state)
    (stepped : Session.Stepped now state c c' asks) :
    Kept now (asks.elim state fun request => state.call now request) c' := by
  cases stepped with
  | turnedAway error here answered without =>
    refine ⟨kept.seeks, kept.extending, kept.accepted, fun _ _ early => absurd early id, ?_⟩
    intro ref owns _
    exact absurd (Option.some.inj (answered.symm.trans owns)) (without ref)
  | starting here =>
    refine kept.change rfl rfl ?_ ?_ (by rw [here]; exact Iff.rfl)
    · intro ref startedAt task renewing
      simp only [startRenewal] at renewing
      split at renewing <;> cases renewing
    · intro error renewing
      simp only [startRenewal] at renewing
      split at renewing <;> cases renewing
  | @release ref acquiredAt outcome failed here ended =>
    have owns := coherent.owns (coherent.placed ref (congrArg Place.handle? here))
    change Kept now (state.call now (.release ref)) _
    have turn := call_turned now state (.release ref)
    refine ⟨kept.seeks.turned turn known, fun other startedAt task renewing =>
      (kept.extending other startedAt task renewing).turned turn, kept.accepted,
      fun _ _ early => absurd early id, ?_⟩
    intro other owns' _
    have same : other = ref := by
      have both := (answer_of_call owns').symm.trans owns
      cases both
      rfl
    rw [same]
    exact released_gone (kept.backed ref owns (by rw [here]; trivial))
  | rejected here ended => exact absurd ended (kept.accepted _)
  | @extend ref startedAt here =>
    have asked := kept.turned known coherent steady issued
      (call_turned now state (.extend ref c.options.ttlMs)) ?_ ?_
    · refine asked.change rfl rfl ?_ ?_ Iff.rfl
      · intro ref startedAt task renewing
        cases renewing
        exact extends_began _ _
      · rintro _ ⟨⟩
    · rintro _ ⟨⟩
    · rintro ⟨⟩
  | failed here answered =>
    rcases kept.extending _ _ _ here with ⟨ref, extendMs, found⟩ | ⟨held, found⟩
    · cases found.symm.trans (answer_eq_some.mp answered)
    · cases found.symm.trans (answer_eq_some.mp answered)
  | ended | due | extended | refused =>
    refine kept.change rfl rfl ?_ ?_ Iff.rfl
    · rintro _ _ _ ⟨⟩
    · rintro _ ⟨⟩
  | granted here | acquired here | finish outcome here | threw here
  | released here | lapsed here | resolved here | lost here =>
    exact kept.change rfl rfl kept.extending kept.accepted (by rw [here]; exact Iff.rfl)

structure Sound (s : Sessions memory R E) : Prop where
  orderly : s.Orderly memoryLaws
  steady : Steady s.state
  kept : ∀ (i : Nat) c, s.calls[i]? = some c → Kept s.clock s.state c

variable {s t : Sessions memory R E} {a : Action memory R E}
  {actions : List (Action memory R E)}

theorem not_expired_of_prompt (allowed : prompt s (.event event) = true) {extendMs : ℚ}
    (found : s.state.tasks[event.task]? = some (.extending ref extendMs)) :
    ¬ Expired s.clock s.state.store ref := by
  rintro ⟨entry, made, isOver⟩
  simp only [prompt, found, made, Option.all_some, decide_eq_true_eq] at allowed
  exact absurd allowed (not_lt.mpr isOver)

theorem owns_of_release (coherent : c.Coherent state)
    (stepped : Session.Stepped now state c c' asks)
    (asked : asks = some (.release ref)) : c.Owns state ref := by
  cases stepped with
  | release here =>
    cases asked
    exact coherent.owns (coherent.placed ref (congrArg Place.handle? here))
  | extend => cases asked
  | _ => cases asked

theorem Sound.turned (sound : Sound s) {i : Nat} (found : s.calls[i]? = some c)
    (turn : Turned s.clock s.state index about state')
    (others : ∀ ref, about = some (.release ref) → ¬ c.Owns s.state ref)
    (prompt : about = none → ∀ ref extendMs,
      s.state.tasks[index]? = some (.extending ref extendMs) →
        ¬ Expired s.clock s.state.store ref) : Kept s.clock state' c :=
  (sound.kept i c found).turned (sound.orderly.known i c found)
    (sound.orderly.coherent i c found) sound.steady sound.orderly.sound turn others prompt

theorem Sound.act (sound : Sound s)
    (allowed : prompt s a = true) (taken : s.act a = some t) : Sound t := by
  have orderly := sound.orderly.act taken
  cases moved taken with
  | tick later =>
    exact ⟨orderly, sound.steady, fun i c found => (sound.kept i c found).later later⟩
  | @event event state acted =>
    refine ⟨orderly, sound.steady.act acted, ?_⟩
    intro i c found
    exact sound.turned found (act_turned acted) (fun _ => nofun)
      fun _ ref extendMs => not_expired_of_prompt allowed
  | withLock service key options idle =>
    refine ⟨orderly, Steady.call idle _, ?_⟩
    intro i c found
    rcases getElem?_concat_eq_some found with old | ⟨_, rfl⟩
    · exact sound.turned old (call_turned s.clock s.state
        (.acquire service key options.toLockAcquireOptions)) (fun _ => nofun) nofun
    · exact ⟨seeks_began key _, nofun, nofun, fun ref owns => absurd owns not_given_call,
        fun _ _ late => absurd trivial late⟩
  | @step _ i c c' asks idle found stepped =>
    have coherent := sound.orderly.coherent i c found
    refine ⟨orderly, ?_, ?_⟩
    · cases asks with
      | none => exact sound.steady
      | some request => exact Steady.call idle request
    · intro j d seen
      rcases getElem?_set_eq_some seen with ⟨rfl, rfl⟩ | ⟨different, old⟩
      · have own := (sound.kept i c found).step (sound.orderly.known i c found) coherent
          sound.steady sound.orderly.sound stepped
        cases asks with
        | none | some => exact own
      · cases asks with
        | none => exact sound.kept j d old
        | some request =>
          refine sound.turned old (call_turned s.clock s.state request) ?_ nofun
          rintro ref ⟨⟩ too
          exact different (sound.orderly.owner_unique found old
            (owns_of_release coherent stepped rfl) too)
  | touch => cases allowed

theorem sound_start : Sound (start memory R E) where
  orderly := orderly_start memoryLaws
  steady task ref extendMs found := by simp [start] at found
  kept i c found := by simp [start] at found

theorem sound_of_steps (ran : Steps (Guarded (fun s a => prompt s a = true) (Executes act))
      (start memory R E) actions s) : Sound s :=
  ran.invariant Sound (fun _ _ _ sound taken => sound.act taken.1 taken.2) sound_start

def Holds (s : Sessions memory R E) (key : String) (ref : Nat) : Prop :=
  s.state.store.entries key = some ref ∧
    ∃ entry, s.state.store.heap[ref]? = some entry ∧ s.clock < entry.expiresAt

/-- The entry has run out, and call `i` has not come to a result with it. -/
def Doomed (i ref : Nat) (s : Sessions memory R E) : Prop :=
  Expired s.clock s.state.store ref ∧
    ∀ c result, s.calls[i]? = some c → c.place = .settled (.resolved result) → ref ∉ c.handles

theorem remainingMs_of_expired (late : Expired now state.store ref) :
    state.remainingMs now ref = 0 := by
  obtain ⟨entry, found, isOver⟩ := late
  simp only [State.remainingMs, found]
  exact max_eq_left (sub_nonpos.mpr isOver)

theorem Doomed.act {i ref : Nat} (doomed : Doomed i ref s) (sound : Sound s)
    (allowed : prompt s a = true) (taken : s.act a = some t) : Doomed i ref t := by
  obtain ⟨late, unresolved⟩ := doomed
  cases moved taken with
  | tick later =>
    obtain ⟨entry, found, isOver⟩ := late
    exact ⟨⟨entry, found, le_trans isOver later⟩, unresolved⟩
  | @event event state acted =>
    refine ⟨?_, unresolved⟩
    apply expired_turned (act_turned acted) _ late
    exact fun _ extendMs => not_expired_of_prompt allowed
  | withLock service key options =>
    refine ⟨?_, ?_⟩
    · exact expired_turned (call_turned s.clock s.state
        (.acquire service key options.toLockAcquireOptions)) nofun late
    · intro c result found ends
      rcases getElem?_concat_eq_some found with old | ⟨_, rfl⟩
      · exact unresolved c result old ends
      · cases ends
  | @step _ j c c' asks idle found stepped =>
    refine ⟨?_, ?_⟩
    · cases asks with
      | none => exact late
      | some request =>
        exact expired_turned (call_turned s.clock s.state request) nofun late
    · intro d result seen ends
      rcases getElem?_set_eq_some seen with ⟨rfl, rfl⟩ | ⟨_, old⟩
      · obtain ⟨same, settled | ⟨handle, acquiredAt, checking, live⟩⟩ := stepped.of_resolved ends
        · rw [same]
          exact unresolved c result found settled
        · -- The final check has just found time left, so it was not this entry's.
          have own := (sound.orderly.coherent j c found).placed handle
            (congrArg Place.handle? checking)
          rw [same, own, List.mem_singleton]
          rintro rfl
          have isOver : s.state.remainingMs s.clock ref = 0 := remainingMs_of_expired late
          exact absurd (lt_of_lt_of_eq live isOver) (lt_irrefl _)
      · exact unresolved d result old ends
  | touch => cases allowed

/-- A call that comes to a result has held its entry for as long as its operation ran. -/
theorem held_while_operating {i ref : Nat} {c d : Session memory R E} {result : R} (sound : Sound s)
    (rest : Steps (Guarded (fun s a => prompt s a = true) (Executes act)) s actions t)
    (called : t.calls[i]? = some c) (ends : c.place = .settled (.resolved result))
    (own : ref ∈ c.handles) (earlier : s.calls[i]? = some d) (owns : d.Owns s.state ref)
    (operating : ¬ d.Returned) : Holds s d.key ref := by
  have coherent := sound.orderly.coherent i d earlier
  have kept := sound.kept i d earlier
  have live : ¬ Expired s.clock s.state.store ref := by
    intro late
    have doomed : Doomed i ref s := by
      refine ⟨late, fun e result' found resolved => ?_⟩
      cases earlier.symm.trans found
      exact absurd (coherent.resolved result' resolved) operating
    have after := rest.invariant (fun (u : Sessions memory R E) => Sound u ∧ Doomed i ref u)
      (fun _ _ _ both taken =>
        ⟨both.1.act taken.1 taken.2, both.2.act both.1 taken.1 taken.2⟩) ⟨sound, doomed⟩
    exact after.2.2 c result called ends own
  have early : d.place.Unreleased := by
    rcases coherent.unreturned operating with early | ⟨answer, answered, without⟩
    · exact early
    · exact absurd (Option.some.inj (answered.symm.trans owns)) (without ref)
  obtain ⟨entry, found, same⟩ := kept.seeks.found ref owns
  rcases kept.backed ref owns early with ⟨entry', found', current⟩ | late
  · cases found.symm.trans found'
    rw [same] at current
    refine ⟨current, entry, found, ?_⟩
    by_contra late
    exact live ⟨entry, found, not_lt.mp late⟩
  · exact absurd late live

theorem not_holds_of_settled {i ref : Nat} {c : Session memory R E} {outcome : Outcome R E}
    (sound : Sound s) (called : s.calls[i]? = some c) (ends : c.place = .settled outcome)
    (own : ref ∈ c.handles) : ¬ Holds s c.key ref := by
  rintro ⟨current, entry, found, live⟩
  have kept := sound.kept i c called
  have owns := (sound.orderly.coherent i c called).owned ref own
  obtain ⟨entry', found', same⟩ := kept.seeks.found ref owns
  cases found.symm.trans found'
  rcases kept.gone ref owns (by rw [ends]; exact id) with out | ⟨entry'', found'', isOver⟩
  · exact out ⟨entry, found, by rw [same]; exact current⟩
  · cases found.symm.trans found''
    exact absurd live (not_lt.mpr isOver)

end NestApi.Locking.Memory

namespace NestApi.Locking

open Memory

variable {R E : Type}

/-- In runs where no `extend` is overtaken by the end of its lease and operations leave their
handles alone, a call that comes to a result has held its key without a lapse from its acquisition
until its operation finished, with a handle of its own that it no longer holds once it has settled.
-/
theorem withLock_sound {before after : List (Sessions.Action memory R E)}
    {mid s : Sessions memory R E} {i : Nat} {c : Session memory R E}
    (ran : Steps (Guarded (fun s a => prompt s a = true) (Executes Sessions.act))
      (Sessions.start memory R E) before mid)
    (rest : Steps (Guarded (fun s a => prompt s a = true) (Executes Sessions.act)) mid after s)
    (called : s.calls[i]? = some c) :
    (∀ result, c.place = .settled (.resolved result) → ∃ ref, c.handles = [ref] ∧
      ∀ d, mid.calls[i]? = some d → d.Owns mid.state ref → ¬ d.Returned → Holds mid d.key ref) ∧
    (c.operation ≠ .notRun → ∃ ref, c.handles = [ref] ∧
      (∀ (j : Nat) d, s.calls[j]? = some d → ref ∈ d.handles → j = i) ∧
      ∀ outcome, c.place = .settled outcome → ¬ Holds s c.key ref) := by
  have sound := sound_of_steps ran
  have later := sound_of_steps (ran.append rest)
  have coherent := later.orderly.coherent i c called
  constructor
  · intro result ends
    obtain ⟨outcome, returned⟩ := coherent.resolved result ends
    obtain ⟨ref, own⟩ := coherent.operated (by rw [returned]; nofun)
    refine ⟨ref, own, ?_⟩
    intro d earlier owns operating
    exact held_while_operating sound rest called ends (by simp [own]) earlier owns operating
  · intro run
    obtain ⟨ref, own⟩ := coherent.operated run
    have mem : ref ∈ c.handles := by simp [own]
    refine ⟨ref, own, ?_, ?_⟩
    · intro j d other shared
      exact later.orderly.owner_unique other called
        ((later.orderly.coherent j d other).owned ref shared) (coherent.owned ref mem)
    · intro outcome ends
      exact not_holds_of_settled later called ends mem

/-- A lease of 60 ms, renewed every 20 ms, and `waitMs` to wait for it. -/
def shortLease (waitMs : ℚ) : WithLockOptions :=
  { ttlMs := 60, waitMs := some waitMs, retryDelayMs := none, renew := none,
    renewIntervalMs := some 20, maxHoldMs := none }

def operatesFirst (s : Sessions memory Unit Unit) : Bool :=
  (s.calls[0]?).any fun d =>
    d.acquisition == 0 && d.operation.isRunning && d.key == "orders:o-1" &&
      decide (s.state.answer 0 = some (.handle (some 0)))

theorem operatesFirst_eq_true {s : Sessions memory Unit Unit} (there : operatesFirst s = true) :
    ∃ d, s.calls[0]? = some d ∧ d.key = "orders:o-1" ∧ d.Owns s.state 0 ∧ ¬ d.Returned := by
  obtain ⟨d, found, facts⟩ := (Option.any_eq_true _ _).mp there
  simp only [Bool.and_eq_true, beq_iff_eq, decide_eq_true_eq] at facts
  obtain ⟨⟨⟨first, running⟩, key⟩, owns⟩ := facts
  refine ⟨d, found, key, ?_, ?_⟩
  · rw [Session.Owns, first]
    exact owns
  · rintro ⟨outcome, returned⟩
    rw [returned] at running
    cases running

/-- A call whose lease is renewed while another waits for the key. -/
theorem withLock_sound_renewed : ∃ before after mid s c d,
    Steps (Guarded (fun s a => prompt s a = true) (Executes Sessions.act))
      (Sessions.start memory Unit Unit) before mid ∧
    Steps (Guarded (fun s a => prompt s a = true) (Executes Sessions.act)) mid after s ∧
    s.calls[0]? = some c ∧ c.place = .settled (.resolved ()) ∧
    mid.calls[0]? = some d ∧ ¬ d.Returned ∧ mid.clock = 65 ∧ Holds mid "orders:o-1" 0 ∧
    ¬ Holds s "orders:o-1" 0 := by
  let before : List (Sessions.Action memory Unit Unit) :=
    [.withLock () "orders:o-1" (shortLease 0), .event ⟨0, 0⟩, .main 0, .main 0, .main 0, .tick 10,
      .withLock () "orders:o-1" (shortLease 500), .event ⟨1, 0⟩, .event ⟨1, 1 / 2⟩, .tick 25,
      .loop 0, .loop 0, .tick 26, .event ⟨2, 0⟩, .loop 0, .tick 65]
  let after : List (Sessions.Action memory Unit Unit) :=
    [.event ⟨1, 0⟩, .event ⟨1, 0⟩, .event ⟨1, 0⟩, .finish 0 (.ok ()), .loop 0, .main 0, .main 0,
      .main 0, .event ⟨1, 0⟩, .event ⟨1, 0⟩, .main 1]
  obtain ⟨mid, start, operates, time, s, rest, c, called, result, returned, own, key⟩ : ∃ mid,
      Steps (Guarded (fun s a => prompt s a = true) (Executes Sessions.act))
        (Sessions.start memory Unit Unit) before mid ∧ operatesFirst mid = true ∧ mid.clock = 65 ∧
      ∃ s, Steps (Guarded (fun s a => prompt s a = true) (Executes Sessions.act)) mid after s ∧
      ∃ c, s.calls[0]? = some c ∧ c.place.result? = some () ∧ c.operation.isReturned = true ∧
        c.handles = [0] ∧ c.key = "orders:o-1" := by
    decide +kernel
  obtain ⟨d, found, key', owns, operating⟩ := operatesFirst_eq_true operates
  have place := Place.result?_eq_some.mp result
  have run : c.operation ≠ .notRun := by
    intro notRun
    rw [notRun] at returned
    cases returned
  obtain ⟨held, freed⟩ := withLock_sound start rest called
  obtain ⟨ref, same, throughout⟩ := held () place
  obtain ⟨ref', same', _, free⟩ := freed run
  rw [own] at same same'
  cases same
  cases same'
  refine ⟨before, after, mid, s, c, d, start, rest, called, place, found, operating, time, ?_, ?_⟩
  · rw [← key']
    exact throughout d found owns operating
  · rw [← key]
    exact free _ place

/-- The lease ends between the two readings of an `extend`, and the call comes to its result as if
nothing had happened. -/
theorem withLock_mends_lapse : ∃ before after mid s c d,
    (before ++ after).all (fun a => !Sessions.Action.isTouch a) = true ∧
    Steps (Executes Sessions.act) (Sessions.start memory Unit Unit) before mid ∧
    Steps (Executes Sessions.act) mid after s ∧
    s.calls[0]? = some c ∧ c.place = .settled (.resolved ()) ∧ c.handles = [0] ∧
    mid.calls[0]? = some d ∧ d.Owns mid.state 0 ∧ ¬ d.Returned ∧ ¬ Holds mid d.key 0 := by
  let before : List (Sessions.Action memory Unit Unit) :=
    [.withLock () "orders:o-1" (shortLease 0), .event ⟨0, 0⟩, .main 0, .main 0, .main 0, .tick 59,
      .loop 0, .loop 0, .tick 61]
  let after : List (Sessions.Action memory Unit Unit) :=
    [.event ⟨1, 0⟩, .loop 0, .finish 0 (.ok ()), .loop 0, .main 0, .main 0, .main 0]
  obtain ⟨mid, first, operates, entry, made, isOver, s, second, c, called, result, own⟩ : ∃ mid,
      Steps (Executes Sessions.act) (Sessions.start memory Unit Unit) before mid ∧
        operatesFirst mid = true ∧
      ∃ entry, mid.state.store.heap[0]? = some entry ∧ entry.expiresAt ≤ mid.clock ∧
      ∃ s, Steps (Executes Sessions.act) mid after s ∧
      ∃ c, s.calls[0]? = some c ∧ c.place.result? = some () ∧ c.handles = [0] := by
    decide +kernel
  obtain ⟨d, found, _, owns, operating⟩ := operatesFirst_eq_true operates
  refine ⟨before, after, mid, s, c, d, rfl, first, second, called, Place.result?_eq_some.mp result,
    own, found, owns, operating, ?_⟩
  rintro ⟨_, entry', made', live⟩
  cases made.symm.trans made'
  exact absurd live (not_lt.mpr isOver)

end NestApi.Locking
