import NestApi.LockMemory

namespace NestApi.Locking.Memory

open Sessions Session

variable {R E : Type} {now : ℚ} {state state' : State} {c c' : Session memory R E}

/-- The renewal loop has been started and not been waited for. -/
def Started : Place Nat R E → Prop
  | .operating _ _ | .stopping _ _ _ => True
  | _ => False

/-- What a session's renewals count on: its own `ttlMs` was accepted, and no `extend` of the
operation is left over when that has ended. -/
structure Prepared (state : State) (c : Session memory R E) : Prop where
  extending : ∀ ref startedAt task, c.renewal = .extending ref startedAt task → Extends state task
  started : Started c.place → c.renewal ≠ .notStarted
  valid : 0 < c.options.ttlMs ∨ ∃ error, state.answer c.acquisition = some (.threw error)
  lasting : ∀ ref acquiredAt outcome, c.place = .stopping ref acquiredAt outcome →
    ∀ (task : Nat) extendMs, state.tasks[task]? = some (.extending ref extendMs) → 0 < extendMs

variable {event : Event} {ref index : Nat} {renewal : Renewal Nat} {asks : Asks memory}
  {about : Option (Request Unit Nat)}

section

variable (prepared : Prepared state c)

include prepared

theorem Prepared.turned (turn : Turned now state index about state')
    (positive : ∀ ref acquiredAt outcome extendMs, c.place = .stopping ref acquiredAt outcome →
      about = some (.extend ref extendMs) → 0 < extendMs) : Prepared state' c := by
  refine ⟨fun ref startedAt task here => (prepared.extending ref startedAt task here).turned turn,
    prepared.started, ?_, ?_⟩
  · rcases prepared.valid with positive | ⟨error, threw⟩
    · exact .inl positive
    · exact .inr ⟨error, answer_turned turn threw⟩
  · intro ref acquiredAt outcome here task extendMs found
    cases turn with
    | went _ went =>
      rcases getElem?_set_eq_some found with ⟨_, new⟩ | ⟨_, old⟩
      · cases went <;> cases new
      · exact prepared.lasting ref acquiredAt outcome here task extendMs old
    | began began =>
      rcases getElem?_concat_eq_some found with old | ⟨_, new⟩
      · exact prepared.lasting ref acquiredAt outcome here task extendMs old
      · cases began with
        | extend =>
          cases new
          exact positive ref acquiredAt outcome extendMs here rfl
        | _ => cases new

theorem Prepared.positive (owns : c.Owns state ref) : 0 < c.options.ttlMs := by
  rcases prepared.valid with positive | ⟨error, threw⟩
  · exact positive
  · cases threw.symm.trans owns

theorem Prepared.proceed (acquisition : c'.acquisition = c.acquisition)
    (options : c'.options = c.options) (renewal : c'.renewal = c.renewal)
    (other : ¬ Started c'.place) : Prepared state c' where
  extending := by
    rw [renewal]
    exact prepared.extending
  started here := absurd here other
  valid := by
    rw [options, acquisition]
    exact prepared.valid
  lasting ref acquiredAt outcome here := by
    rw [here] at other
    exact absurd trivial other

theorem Prepared.renew
    (extending : ∀ ref startedAt task, renewal = .extending ref startedAt task → Extends state task)
    (started : renewal ≠ .notStarted) : Prepared state { c with renewal := renewal } where
  __ := prepared
  extending := extending
  started _ := started

theorem Prepared.step (coherent : c.Coherent state) (idle : state.idle = true)
    (stepped : Stepped now state c c' asks) :
    Prepared (asks.elim state fun request => state.call now request) c' := by
  cases stepped with
  | granted | turnedAway | acquired | rejected | threw | released
  | lapsed | resolved | lost => exact prepared.proceed rfl rfl rfl id
  | starting =>
    refine ⟨?_, ?_, prepared.valid, ?_⟩
    · intro ref startedAt task renewing
      simp only [startRenewal] at renewing
      split at renewing <;> cases renewing
    · intro _ renewing
      simp only [startRenewal] at renewing
      split at renewing <;> cases renewing
    · rintro _ _ _ ⟨⟩
  | finish outcome here =>
    refine ⟨prepared.extending, ?_, prepared.valid, ?_⟩
    · intro _
      exact prepared.started (by rw [here]; trivial)
    · intro ref acquiredAt ended _ task extendMs found
      exact absurd found (not_extending_of_idle idle)
  | @release ref acquiredAt outcome failed here ended =>
    have asked : Prepared (state.call now (.release ref)) c := by
      apply prepared.turned (call_turned ..)
      rintro _ _ _ _ _ ⟨⟩
    exact asked.proceed rfl rfl rfl id
  | ended | due | extended | refused | failed =>
    apply prepared.renew
    · rintro _ _ _ ⟨⟩
    · rintro ⟨⟩
  | @extend ref startedAt here =>
    have own := coherent.renewed ref (congrArg Renewal.handle? here)
    have positive := prepared.positive (coherent.owns own)
    have asked : Prepared (state.call now (.extend ref c.options.ttlMs)) c :=
      prepared.turned (call_turned ..) fun _ _ _ _ _ same => by cases same; exact positive
    apply asked.renew
    · intro other startedAt task renewing
      cases renewing
      exact extends_began _ _
    · rintro ⟨⟩

end

structure Ready (s : Sessions memory R E) : Prop where
  orderly : s.Orderly memoryLaws
  steady : Steady s.state
  prepared : ∀ (i : Nat) c, s.calls[i]? = some c → Prepared s.state c

variable {s t : Sessions memory R E} {extendMs : ℚ} {acquiredAt : ℚ}
  {a : Action memory R E} {task : Nat} {answer : Answer Nat}

theorem owns_of_extend (coherent : c.Coherent state) (stepped : Stepped now state c c' asks)
    (asked : asks = some (.extend ref extendMs)) : c.Owns state ref := by
  cases stepped with
  | extend here =>
    cases asked
    exact coherent.owns (coherent.renewed ref (congrArg Renewal.handle? here))
  | release => cases asked
  | _ => cases asked

theorem valid_began (key : String) (options : LockAcquireOptions) : 0 < options.ttlMs ∨
      ∃ error, (state.call now (.acquire () key options)).answer state.tasks.length =
        some (.threw error) := by
  simp only [State.call]
  split
  · right
    refine ⟨.notPositiveInteger "ttlMs" options.ttlMs, answer_eq_some.mpr ?_⟩
    exact List.getElem?_concat_length
  · rename_i positive
    simp only [not_or, not_le] at positive
    exact .inl positive.2

theorem Ready.others (ready : Ready s) {i j : Nat} {c d : Session memory R E}
    (found : s.calls[i]? = some c) (seen : s.calls[j]? = some d) (different : i ≠ j)
    (owns : c.Owns s.state ref) {outcome : Except E R} :
    d.place ≠ .stopping ref acquiredAt outcome := by
  intro here
  have coherent := ready.orderly.coherent j d seen
  have own := coherent.placed ref (congrArg Place.handle? here)
  exact different (ready.orderly.owner_unique found seen owns (coherent.owns own))

theorem Ready.act (ready : Ready s) (taken : s.act a = some t) : Ready t := by
  have orderly := ready.orderly.act taken
  cases moved taken with
  | tick => exact ⟨orderly, ready.steady, ready.prepared⟩
  | event acted =>
    refine ⟨orderly, ready.steady.act acted, fun i c found => ?_⟩
    exact (ready.prepared i c found).turned (act_turned acted) fun _ _ _ _ _ => nofun
  | withLock service key options idle =>
    refine ⟨orderly, Steady.call idle _, ?_⟩
    intro i c found
    rcases getElem?_concat_eq_some found with old | ⟨_, rfl⟩
    · exact (ready.prepared i c old).turned (call_turned s.clock s.state
        (.acquire service key options.toLockAcquireOptions)) fun _ _ _ _ _ => nofun
    · exact ⟨nofun, fun here => absurd here id, valid_began key _, nofun⟩
  | @step _ i c c' asks idle found stepped =>
    have coherent := ready.orderly.coherent i c found
    refine ⟨orderly, ?_, ?_⟩
    · cases asks with
      | none => exact ready.steady
      | some request => exact Steady.call idle request
    · intro j d seen
      rcases getElem?_set_eq_some seen with ⟨rfl, rfl⟩ | ⟨different, old⟩
      · have own := (ready.prepared i c found).step coherent idle stepped
        cases asks with
        | none | some => exact own
      · cases asks with
        | none => exact ready.prepared j d old
        | some request =>
          apply (ready.prepared j d old).turned (call_turned s.clock s.state request)
          rintro ref acquiredAt outcome extendMs here ⟨⟩
          exact absurd here (ready.others found old different (owns_of_extend coherent stepped rfl))
  | @touch i c ref acquiredAt use idle found here =>
    refine ⟨orderly, Steady.call idle _, ?_⟩
    intro j d seen
    apply (ready.prepared j d seen).turned (call_turned s.clock s.state _)
    intro other acquiredAt' outcome extendMs there asked
    by_cases same : i = j
    · subst same
      cases found.symm.trans seen
      cases here.symm.trans there
    · have coherent := ready.orderly.coherent i c found
      have own := coherent.placed ref (congrArg Place.handle? here)
      have about : other = ref := by
        cases use <;> cases asked
        rfl
      subst about
      exact absurd there (ready.others found seen same (coherent.owns own))

theorem ready_start : Ready (start memory R E) where
  orderly := orderly_start memoryLaws
  steady task ref extendMs found := by simp [start] at found
  prepared i c found := by simp [start] at found

theorem ready_of_steps {actions : List (Action memory R E)}
    (ran : Steps (Executes act) (start memory R E) actions s) : Ready s :=
  ran.invariant Ready (fun _ _ _ ready taken => ready.act taken) ready_start

theorem Extends.answer_turned (extends' : Extends state task)
    (turn : Turned now state index about state') (answered : state'.answer task = some answer) :
    state.answer task = some answer ∨ answer = .done true := by
  rw [answer_eq_some] at answered ⊢
  rcases extends' with ⟨ref, extendMs, found⟩ | ⟨held, found⟩
  · rcases task_turned turn found with same | ⟨next, store, done, _, went⟩
    · cases same.symm.trans answered
    · cases went
      cases done.symm.trans answered
      exact .inr rfl
  · rcases task_turned turn found with same | ⟨_, _, _, _, went⟩
    · exact .inl (found.trans (same.symm.trans answered))
    · cases went

theorem unfailed_mono (unfailed : c.Unfailed state)
    (kept : ∀ ref startedAt task answer, c.renewal = .extending ref startedAt task →
      state'.answer task = some answer → state.answer task = some answer ∨ answer = .done true) :
    c.Unfailed state' := by
  unfold Unfailed at unfailed ⊢
  split at unfailed
  case h_4 ref startedAt task here =>
    intro answer answered
    rcases kept ref startedAt task answer here answered with old | new
    · exact unfailed answer old
    · exact new
  all_goals exact unfailed

/-- The entry is out of the map, and the end of its lease is good. -/
def Spent (good : ℚ → Prop) (store : Store) (ref : Nat) : Prop :=
  ¬ Current store ref ∧ ∃ entry, store.heap[ref]? = some entry ∧ good entry.expiresAt

inductive Ending (good : ℚ → Prop) (state : State) (ref : Nat) (result : R)
    (c : Session memory R E) : Prop where
  | stopping (acquiredAt : ℚ) (here : c.place = .stopping ref acquiredAt (.ok result))
      (unfailed : c.Unfailed state)
  | releasing (acquiredAt : ℚ) (task : Nat)
      (here : c.place = .releasing ref acquiredAt (.ok result) false task)
      (answered : ∃ answer, state.answer task = some answer) (spent : Spent good state.store ref)
  | checking (acquiredAt : ℚ) (here : c.place = .checking ref acquiredAt result false)
      (spent : Spent good state.store ref)
  | settled (here : c.place = .settled (.resolved result))

variable {good : ℚ → Prop} {result : R} {better : ℚ → Prop}

theorem Ending.imp (ending : Ending good state ref result c) (place : c'.place = c.place)
    (unfailed : ∀ acquiredAt, c.place = .stopping ref acquiredAt (.ok result) →
      c.Unfailed state → c'.Unfailed state')
    (answered : ∀ task answer, state.answer task = some answer → state'.answer task = some answer)
    (spent : Spent good state.store ref → Spent better state'.store ref) :
    Ending better state' ref result c' := by
  cases ending with
  | stopping acquiredAt here kept =>
    exact .stopping acquiredAt (place.trans here) (unfailed acquiredAt here kept)
  | releasing acquiredAt task here done there =>
    exact .releasing acquiredAt task (place.trans here) (done.imp (answered task)) (spent there)
  | checking acquiredAt here there => exact .checking acquiredAt (place.trans here) (spent there)
  | settled here => exact .settled (place.trans here)

theorem Ending.mono (ending : Ending good state ref result c)
    (weaker : ∀ expiresAt, good expiresAt → better expiresAt) :
    Ending better state ref result c := by
  refine ending.imp rfl (fun _ _ same => same) (fun _ _ same => same) ?_
  rintro ⟨out, entry, found, ends⟩
  exact ⟨out, entry, found, weaker _ ends⟩

theorem Spent.turned (spent : Spent good state.store ref) (steady : Steady state)
    (turn : Turned now state index about state') : Spent good state'.store ref := by
  obtain ⟨out, entry, found, ends⟩ := spent
  obtain ⟨entry', found', _, same⟩ := heap_turned turn found
  have others extendMs : state.tasks[index]? ≠ some (.extending ref extendMs) :=
    fun here => out (steady index ref extendMs here)
  have made := lt_of_getElem? found
  exact ⟨not_current_turned turn made out, entry', found', same (fun _ => others) ▸ ends⟩

theorem Ending.turned (ending : Ending good state ref result c) (prepared : Prepared state c)
    (steady : Steady state) (turn : Turned now state index about state') :
    Ending good state' ref result c := by
  refine ending.imp rfl (fun _ _ unfailed => unfailed_mono unfailed ?_)
    (fun _ _ => answer_turned turn) (·.turned steady turn)
  intro other startedAt task answer renewing answered
  exact (prepared.extending other startedAt task renewing).answer_turned turn answered

theorem spent_release (held : state.store.holds now ref = true)
    (ends : ∀ entry, state.store.heap[ref]? = some entry → good entry.expiresAt) :
    Spent good (state.call now (.release ref)).store ref := by
  obtain ⟨⟨entry, found, _⟩, _⟩ := holds_iff.mp held
  simp only [State.call, held, ↓reduceIte]
  exact ⟨not_current_delete_self, entry, delete_heap.symm ▸ found, ends entry found⟩

theorem remainingMs_pos {entry : Entry} (found : state.store.heap[ref]? = some entry)
    (early : now < entry.expiresAt) : 0 < state.remainingMs now ref := by
  simp only [State.remainingMs, found]
  exact lt_max_of_lt_right (sub_pos.mpr early)

/-- The body is past an operation that came to a result. -/
def Late : Place Nat R E → Prop
  | .stopping _ _ (.ok _) | .releasing _ _ (.ok _) _ _ | .checking _ _ _ _ | .settled _ => True
  | _ => False

theorem Ending.late (ending : Ending good state ref result c) : Late c.place := by
  cases ending with
  | stopping acquiredAt here | releasing acquiredAt task here
  | checking acquiredAt here | settled here => rw [here]; trivial

theorem Ending.renew (ending : Ending good state ref result c)
    (kept : ∀ acquiredAt, c.place = .stopping ref acquiredAt (.ok result) → c.Unfailed state →
      ({ c with renewal := renewal } : Session memory R E).Unfailed state) :
    Ending good state ref result { c with renewal := renewal } :=
  ending.imp rfl kept (fun _ _ same => same) id

theorem answer_extend (held : state.store.holds now ref = true) (extendMs : ℚ) :
    (state.call now (.extend ref extendMs)).answer state.tasks.length = none := by
  simp [State.call, held, State.push, State.answer]

theorem answer_release (state : State) (now : ℚ) (ref : Nat) :
    ∃ answer, (state.call now (.release ref)).answer state.tasks.length = some answer := by
  obtain ⟨started, store, began, same⟩ := call_began now state (.release ref)
  have last : (state.call now (.release ref)).tasks[state.tasks.length]? = some started := by
    rw [same]
    exact List.getElem?_concat_length
  cases began with
  | release | releaseLate => exact ⟨_, answer_eq_some.mpr last⟩

/-- The call's own steps bring it nearer to its result while the entry is held until its release and
the end of its lease has not come. -/
theorem Ending.step (ending : Ending good state ref result c)
    (prepared : Prepared state c) (steady : Steady state) (coherent : c.Coherent state)
    (held : ∀ acquiredAt, c.place = .stopping ref acquiredAt (.ok result) →
      state.store.holds now ref = true ∧
        ∀ entry, state.store.heap[ref]? = some entry → good entry.expiresAt)
    (early : ∀ expiresAt, good expiresAt → now < expiresAt)
    (stepped : Stepped now state c c' asks) :
    Ending good (asks.elim state fun request => state.call now request) ref result c' := by
  have late := ending.late
  cases stepped with
  | granted here | turnedAway error here | acquired here
  | starting here | finish outcome here | threw here | lost here =>
    rw [here] at late
    cases late
  | @release other acquiredAt outcome failed here ended =>
    cases ending with
    | stopping _ at' unfailed =>
      cases at'.symm.trans here
      simp only [Unfailed, ended] at unfailed
      subst unfailed
      obtain ⟨own, ends⟩ := held acquiredAt here
      exact .releasing acquiredAt _ rfl (answer_release state now ref) (spent_release own ends)
    | releasing _ _ at' | checking _ at' | settled at' => cases at'.symm.trans here
  | rejected here ended =>
    cases ending with
    | stopping _ at' unfailed => simp only [Unfailed, ended] at unfailed
    | releasing _ _ at' | checking _ at' | settled at' => cases at'.symm.trans here
  | released here =>
    cases ending with
    | stopping _ at' | checking _ at' | settled at' => cases at'.symm.trans here
    | releasing _ _ at' _ spent =>
      cases at'.symm.trans here
      exact .checking _ rfl spent
  | lapsed here lost =>
    cases ending with
    | stopping _ at' | releasing _ _ at' | settled at' => cases at'.symm.trans here
    | checking _ at' spent =>
      cases at'.symm.trans here
      obtain ⟨_, entry, found, ends⟩ := spent
      have left := remainingMs_pos found (early _ ends)
      rcases lost with wrong | isOver
      · cases wrong
      · exact absurd left (not_lt.mpr isOver)
  | resolved here =>
    cases ending with
    | stopping _ at' | releasing _ _ at' | settled at' => cases at'.symm.trans here
    | checking _ at' =>
      cases at'.symm.trans here
      exact .settled rfl
  | ended => exact ending.renew fun _ _ _ => rfl
  | due | extended => exact ending.renew fun _ _ _ => trivial
  | @extend other startedAt here =>
    have own := coherent.renewed other (congrArg Renewal.handle? here)
    refine (ending.turned prepared steady
      (call_turned now state (.extend other c.options.ttlMs))).renew ?_
    intro acquiredAt at' _ answer answered
    have same := coherent.placed ref (congrArg Place.handle? at')
    rw [own] at same
    cases same
    have none := answer_extend (held acquiredAt at').1 c.options.ttlMs
    cases none.symm.trans answered
  | refused here answered | failed here answered =>
    apply ending.renew
    intro _ _ unfailed
    simp only [Unfailed, here] at unfailed
    cases unfailed _ answered

/-- Until call `i` has released its entry, it holds it, with a good end of its lease. -/
def Secure (good : ℚ → Prop) (s : Sessions memory R E) (ref : Nat) (result : R)
    (c : Session memory R E) : Prop :=
  ∀ acquiredAt, c.place = .stopping ref acquiredAt (.ok result) →
    s.state.store.holds s.clock ref = true ∧
      ∀ entry, s.state.store.heap[ref]? = some entry → good entry.expiresAt

theorem Ready.ending_act (ready : Ready s) {i : Nat} (found : s.calls[i]? = some c)
    (ending : Ending good s.state ref result c) (secure : Secure good s ref result c)
    (early : ∀ expiresAt, good expiresAt → s.clock < expiresAt) (taken : s.act a = some t) :
    ∃ c', t.calls[i]? = some c' ∧ Ending good t.state ref result c' := by
  have prepared := ready.prepared i c found
  cases moved taken with
  | tick => exact ⟨c, found, ending⟩
  | event acted => exact ⟨c, found, ending.turned prepared ready.steady (act_turned acted)⟩
  | withLock service key options =>
    exact ⟨c, getElem?_concat_of_some found _, ending.turned prepared ready.steady
      (call_turned s.clock s.state (.acquire service key options.toLockAcquireOptions))⟩
  | @step _ j d d' asks idle here stepped =>
    by_cases same : j = i
    · subst same
      cases found.symm.trans here
      have own := ending.step prepared ready.steady (ready.orderly.coherent j c found) secure early
        stepped
      refine ⟨d', getElem?_set_of_some found _, ?_⟩
      cases asks with
      | none | some => exact own
    · refine ⟨c, by rw [List.getElem?_set_ne same, found], ?_⟩
      cases asks with
      | none => exact ending
      | some request =>
        exact ending.turned prepared ready.steady (call_turned s.clock s.state request)
  | @touch j d handle acquiredAt use idle here there =>
    exact ⟨c, found, ending.turned prepared ready.steady (call_turned s.clock s.state _)⟩

section Progress

def bodyWork : Place Nat R E → Nat
  | .stopping _ _ _ => 3
  | .releasing _ _ _ _ _ => 2
  | .checking _ _ _ _ => 1
  | _ => 0

/-- The steps of the renewal loop, once it is told to stop, and of its last `extend`. -/
def renewalWork : Renewal Nat → Nat
  | .renewing _ _ => 4
  | .extending _ _ _ => 2
  | .sleeping _ _ _ => 1
  | _ => 0

/-- What is to be done until call `i` has settled. -/
def work (i : Nat) (s : Sessions memory R E) : Nat :=
  s.state.tasks.countP Task.isExtending +
    (s.calls[i]?).elim 0 fun c => bodyWork c.place + renewalWork c.renewal

/-- Call `i` is at its end, with its lease running at the present reading of the clock. -/
structure Closing (now : ℚ) (i ref : Nat) (result : R) (s : Sessions memory R E) : Prop where
  ready : Ready s
  clock : s.clock = now
  ending : ∃ c, s.calls[i]? = some c ∧ Ending (now < ·) s.state ref result c ∧
    ∀ acquiredAt, c.place = .stopping ref acquiredAt (.ok result) →
      s.state.store.holds now ref = true

variable {i : Nat}

theorem Closing.next (closing : Closing now i ref result s)
    (taken : s.act a = some t) (still : t.clock = s.clock)
    (held : ∀ d acquiredAt, t.calls[i]? = some d →
      d.place = .stopping ref acquiredAt (.ok result) → t.state.store.holds now ref = true) :
    Closing now i ref result t := by
  obtain ⟨c, found, ending, own⟩ := closing.ending
  have secure : Secure (now < ·) s ref result c := by
    intro acquiredAt here
    rw [closing.clock]
    refine ⟨own acquiredAt here, fun entry there => ?_⟩
    by_contra late
    exact (holds_iff.mp (own acquiredAt here)).2 ⟨entry, there, not_lt.mp late⟩
  obtain ⟨d, after, ends⟩ := closing.ready.ending_act found ending secure
    (by rw [closing.clock]; exact fun _ later => later) taken
  exact ⟨closing.ready.act taken, still.trans closing.clock, d, after, ends,
    fun acquiredAt here => held d acquiredAt after here⟩

theorem holds_extend {store : Store} {other : Nat} {expiresAt : ℚ}
    (held : store.holds now ref = true) (later : other = ref → now < expiresAt) :
    (store.extend expiresAt other).holds now ref = true := by
  obtain ⟨current, live⟩ := holds_iff.mp held
  refine holds_iff.mpr ⟨current_extend.mpr current, ?_⟩
  obtain ⟨entry, found, _⟩ := current
  rintro ⟨entry', found', isOver⟩
  rw [extend_heap found, Option.some.injEq] at found'
  subst found'
  by_cases same : other = ref
  · rw [if_pos same] at isOver
    exact absurd (later same) (not_lt.mpr isOver)
  · rw [if_neg same] at isOver
    exact live ⟨entry, found, isOver⟩

theorem Closing.extended (closing : Closing now i ref result s) {k other : Nat}
    (extending : s.state.tasks[k]? = some (.extending other extendMs)) :
    ∃ t, s.act (.event ⟨k, 0⟩) = some t ∧ Closing now i ref result t ∧ work i t < work i s := by
  have inside := lt_of_getElem? extending
  have taken : s.act (.event ⟨k, 0⟩) = some { s with
      state := ⟨s.state.store.extend (s.clock + extendMs) other,
        s.state.tasks.set k (.done (.done true))⟩ } := by
    simp [act, State.act, extending, Task.isExtending, State.proceed]
  refine ⟨_, taken, closing.next taken rfl ?_, ?_⟩
  · intro d acquiredAt after here
    obtain ⟨c, found, _, own⟩ := closing.ending
    cases found.symm.trans after
    apply holds_extend (own acquiredAt here)
    rintro rfl
    have positive := (closing.ready.prepared i d after).lasting other acquiredAt _ here k extendMs
      extending
    rw [closing.clock]
    linarith
  · have counted := List.countP_set (p := Task.isExtending) (a := .done (.done true)) inside
    have same : s.state.tasks[k] = .extending other extendMs :=
      (List.getElem?_eq_some_iff.mp extending).2
    have some' : 0 < s.state.tasks.countP Task.isExtending :=
      List.countP_pos_iff.mpr ⟨_, List.mem_of_getElem? extending, rfl⟩
    simp only [same, Task.isExtending, ↓reduceIte, Bool.false_eq_true, Nat.add_zero] at counted
    simp only [work, counted]
    omega

theorem Closing.stepped (closing : Closing now i ref result s) (found : s.calls[i]? = some c)
    (taken : s.act a = some { s with state := s.asked asks, calls := s.calls.set i c' })
    (held : ∀ acquiredAt, c'.place = .stopping ref acquiredAt (.ok result) →
      (s.asked asks).store.holds now ref = true)
    (less : (s.asked asks).tasks.countP Task.isExtending + (bodyWork c'.place +
      renewalWork c'.renewal) < s.state.tasks.countP Task.isExtending + (bodyWork c.place +
      renewalWork c.renewal)) :
    ∃ a t, s.act a = some t ∧ Closing now i ref result t ∧ work i t < work i s := by
  have after := getElem?_set_of_some found c'
  refine ⟨a, _, taken, closing.next taken rfl ?_, ?_⟩
  · intro d acquiredAt there here
    cases after.symm.trans there
    exact held acquiredAt here
  · simp only [work, after, found, Option.elim_some]
    exact less

theorem exists_extending (busy : state.idle = false) :
    ∃ (k ref : Nat) (extendMs : ℚ), state.tasks[k]? = some (.extending ref extendMs) := by
  simp only [State.idle, List.all_eq_false, Bool.not_eq_true, Bool.not_eq_false'] at busy
  obtain ⟨task, mem, extending⟩ := busy
  obtain ⟨k, found⟩ := List.mem_iff_getElem?.mp mem
  cases task with
  | extending ref extendMs => exact ⟨k, ref, extendMs, found⟩
  | _ => cases extending

theorem act_main (idle : s.state.idle = true) (found : s.calls[i]? = some c)
    (went : c.main s.clock s.state = some (c', asks)) :
    s.act (.main i) = some { s with state := s.asked asks, calls := s.calls.set i c' } := by
  simp [act, advance, idle, found, went]

theorem act_loop (idle : s.state.idle = true) (found : s.calls[i]? = some c)
    (went : c.loop s.clock s.state = some (c', asks)) :
    s.act (.loop i) = some { s with state := s.asked asks, calls := s.calls.set i c' } := by
  simp [act, advance, idle, found, went]

theorem Closing.stop (closing : Closing now i ref result s) (idle : s.state.idle = true)
    (found : s.calls[i]? = some c)
    (here : c.place = .stopping ref acquiredAt (.ok result)) (unfailed : c.Unfailed s.state)
    (own : s.state.store.holds now ref = true) :
    ∃ a t, s.act a = some t ∧ Closing now i ref result t ∧ work i t < work i s := by
  have coherent := closing.ready.orderly.coherent i c found
  have prepared := closing.ready.prepared i c found
  have stopped := (coherent.stopping ref acquiredAt _ here).1
  cases renewal : c.renewal with
  | notStarted => exact absurd renewal (prepared.started (by rw [here]; trivial))
  | sleeping =>
    have went : c.loop s.clock s.state = some ({ c with renewal := .finished false }, none) := by
      simp [loop, renewal, stopped]
    apply closing.stepped found (act_loop idle found went)
    · exact fun _ _ => own
    · simp only [asked, renewal, renewalWork]
      omega
  | renewing handle startedAt =>
    have went : c.loop s.clock s.state =
        some ({ c with renewal := .extending handle startedAt s.state.tasks.length },
          some (.extend handle c.options.ttlMs)) := by
      simp only [loop, renewal]
    have same : handle = ref := by
      have first := coherent.renewed handle (congrArg Renewal.handle? renewal)
      rw [coherent.placed ref (congrArg Place.handle? here)] at first
      cases first
      rfl
    subst same
    have asked : s.state.call s.clock (.extend handle c.options.ttlMs) =
        s.state.push (.extending handle c.options.ttlMs) := by
      rw [closing.clock]
      simp [State.call, own]
    apply closing.stepped found (act_loop idle found went)
    · intro _ _
      simp only [Sessions.asked, asked, State.push]
      exact own
    · simp only [Sessions.asked, asked, State.push, renewal, renewalWork, List.countP_append,
        List.countP_singleton, Task.isExtending, ↓reduceIte]
      omega
  | extending handle startedAt task =>
    have answered : s.state.answer task = some (.done true) := by
      rcases prepared.extending handle startedAt task renewal with ⟨_, _, busy⟩ | ⟨held, done⟩
      · exact absurd busy (not_extending_of_idle idle)
      · simp only [Unfailed, renewal] at unfailed
        have last := answer_eq_some.mpr done
        cases unfailed _ last
        exact last
    have went : c.loop s.clock s.state =
        some ({ c with renewal := .sleeping handle startedAt (s.clock + c.options.interval) },
          none) := by
      simp only [loop, renewal, answered]
    apply closing.stepped found (act_loop idle found went)
    · exact fun _ _ => own
    · simp only [asked, renewal, renewalWork]
      omega
  | finished =>
    simp only [Unfailed, renewal] at unfailed
    subst unfailed
    have went : c.main s.clock s.state =
        some ({ c with place := .releasing ref acquiredAt (.ok result) false s.state.tasks.length },
          some (.release ref)) := by
      simp only [main, here, renewal]
    have counted : (s.state.call s.clock (.release ref)).tasks.countP Task.isExtending =
        s.state.tasks.countP Task.isExtending := by
      obtain ⟨started, store, began, same⟩ := call_began s.clock s.state (.release ref)
      rw [same]
      cases began <;> simp [List.countP_append, Task.isExtending]
    apply closing.stepped found (act_main idle found went)
    · rintro _ ⟨⟩
    · simp only [asked, counted, here, bodyWork]
      omega
  | rejected => simp only [Unfailed, renewal] at unfailed

/-- While its lease runs, a call that is at its end can be taken one step further. -/
theorem Closing.closer (closing : Closing now i ref result s)
    (unsettled : ¬ ∃ c, s.calls[i]? = some c ∧ c.place = .settled (.resolved result)) :
    ∃ a t, s.act a = some t ∧ Closing now i ref result t ∧ work i t < work i s := by
  cases idle : s.state.idle with
  | false =>
    obtain ⟨k, other, extendMs, extending⟩ := exists_extending idle
    obtain ⟨t, taken, closer⟩ := closing.extended extending
    exact ⟨_, t, taken, closer⟩
  | true =>
    obtain ⟨c, found, ending, own⟩ := closing.ending
    cases ending with
    | stopping acquiredAt here unfailed =>
      exact closing.stop idle found here unfailed (own acquiredAt here)
    | releasing acquiredAt task here answered =>
      obtain ⟨answer, answered⟩ := answered
      have went : c.main s.clock s.state =
          some ({ c with place := .checking ref acquiredAt result false }, none) := by
        simp only [main, here, answered]
      apply closing.stepped found (act_main idle found went)
      · nofun
      · simp only [asked, here, bodyWork]
        omega
    | checking acquiredAt here spent =>
      obtain ⟨_, entry, there, later⟩ := spent
      have left : 0 < s.state.remainingMs s.clock ref :=
        remainingMs_pos there (by rw [closing.clock]; exact later)
      have went : c.main s.clock s.state =
          some ({ c with place := .settled (.resolved result) }, none) := by
        simp [main, here, not_le.mpr left]
      apply closing.stepped found (act_main idle found went)
      · nofun
      · simp only [asked, here, bodyWork]
        omega
    | settled here => exact absurd ⟨c, found, here⟩ unsettled

theorem Closing.resolves (closing : Closing now i ref result s) :
    ∃ actions t c, Steps (Executes act) s actions t ∧ t.clock = now ∧
      t.calls[i]? = some c ∧ c.place = .settled (.resolved result) := by
  obtain ⟨actions, t, run, there, c, found, ends⟩ := Steps.reach (work i)
    (fun (u : Sessions memory R E) (here : Closing now i ref result u)
      (unsettled : ¬ ∃ c, u.calls[i]? = some c ∧ c.place = .settled (.resolved result)) => by
        obtain ⟨a, v, taken, after, less⟩ := here.closer unsettled
        have single : Executes act u a v := taken
        exact ⟨[a], v, .single single, after, less⟩) closing
  exact ⟨actions, t, c, run, there.clock, found, ends⟩

end Progress

end NestApi.Locking.Memory
