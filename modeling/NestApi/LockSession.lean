import NestApi.Indexed
import NestApi.LockPort

namespace NestApi.Locking

structure WithLockOptions extends LockAcquireOptions where
  renew : Option Bool
  renewIntervalMs : Option ℚ
  maxHoldMs : Option ℚ

inductive SessionError (E : Type) where
  | notAcquired (key : String) (waitedMs : ℚ)
  | lost (key : String) (fencingToken : Nat) (heldMs : ℚ)
  | lock (error : LockError)
  | operation (error : E)
  deriving DecidableEq

inductive Outcome (R E : Type) where
  | resolved (result : R)
  | threw (error : SessionError E)
  deriving DecidableEq

inductive Operation (R E : Type) where
  | notRun
  | running
  | returned (outcome : Except E R)

def Operation.isRunning {R E : Type} : Operation R E → Bool
  | .running => true
  | .notRun | .returned _ => false

def Operation.isReturned {R E : Type} : Operation R E → Bool
  | .returned _ => true
  | .notRun | .running => false

inductive Renewal (Handle : Type) where
  | notStarted
  | sleeping (handle : Handle) (startedAt wakes : ℚ)
  | renewing (handle : Handle) (startedAt : ℚ)
  | extending (handle : Handle) (startedAt : ℚ) (task : Nat)
  | finished (failed : Bool)
  | rejected (error : LockError)

/-- Where the body of `withLock`, with its call of `stop`, stands. -/
inductive Place (Handle R E : Type) where
  | acquiring
  | acquired (handle : Handle)
  | starting (handle : Handle) (acquiredAt : ℚ)
  | operating (handle : Handle) (acquiredAt : ℚ)
  | stopping (handle : Handle) (acquiredAt : ℚ) (outcome : Except E R)
  | releasing (handle : Handle) (acquiredAt : ℚ) (outcome : Except E R) (renewalFailed : Bool)
      (task : Nat)
  | checking (handle : Handle) (acquiredAt : ℚ) (result : R) (renewalFailed : Bool)
  | losing (handle : Handle) (acquiredAt : ℚ)
  | settled (outcome : Outcome R E)

def Place.result? {Handle R E : Type} : Place Handle R E → Option R
  | .settled (.resolved result) => some result
  | _ => none

theorem Place.result?_eq_some {Handle R E : Type} {place : Place Handle R E} {result : R} :
    place.result? = some result ↔ place = .settled (.resolved result) := by
  constructor
  · intro found
    unfold Place.result? at found
    split at found
    · cases found
      rfl
    · cases found
  · rintro rfl
    rfl

structure Session (lock : DistributedLock) (R E : Type) where
  key : String
  options : WithLockOptions
  /-- Its call of `acquire`. -/
  acquisition : Nat
  place : Place lock.Handle R E
  renewal : Renewal lock.Handle
  stopped : Bool
  operation : Operation R E
  handles : List lock.Handle

namespace WithLockOptions

def interval (options : WithLockOptions) : ℚ :=
  options.renewIntervalMs.getD (max 1 ⌊options.ttlMs / 3⌋)

/-- Whether renewing ends because the lock has been held for `maxHoldMs`. -/
def heldLongEnough (options : WithLockOptions) (startedAt now : ℚ) : Bool :=
  options.maxHoldMs.any fun maxHoldMs => maxHoldMs ≤ now - startedAt

end WithLockOptions

def startRenewal {Handle : Type} (handle : Handle) (options : WithLockOptions) (now : ℚ) :
    Renewal Handle :=
  if options.renew = some false then .finished false
  else .sleeping handle now (now + options.interval)

variable {lock : DistributedLock} {R E : Type}

namespace Session

variable (lock) in
abbrev Asks : Type := Option (Request lock.Service lock.Handle)

def main (now : ℚ) (state : lock.State) (c : Session lock R E) :
    Option (Session lock R E × Asks lock) :=
  match c.place with
  | .acquiring =>
    match lock.answer state c.acquisition with
    | some (.handle (some handle)) =>
      some ({ c with place := .acquired handle, handles := c.handles ++ [handle] }, none)
    | some (.handle none) =>
      some ({ c with
        place := .settled (.threw (.notAcquired c.key (c.options.waitMs.getD 0))) }, none)
    | some (.threw error) =>
      some ({ c with place := .settled (.threw (.lock error)) }, none)
    | some (.done _) | none => none
  | .acquired handle => some ({ c with place := .starting handle now }, none)
  | .starting handle acquiredAt =>
    some ({ c with
      place := .operating handle acquiredAt
      renewal := startRenewal handle c.options now
      operation := .running }, none)
  | .operating _ _ => none
  | .stopping handle acquiredAt outcome =>
    match c.renewal with
    | .finished failed =>
      some ({ c with place := .releasing handle acquiredAt outcome failed (lock.tasks state) },
        some (.release handle))
    | .rejected error => some ({ c with place := .settled (.threw (.lock error)) }, none)
    | _ => none
  | .releasing handle acquiredAt outcome failed task =>
    match lock.answer state task, outcome with
    | none, _ => none
    -- A release that throws is logged like one that came too late.
    | some _, .error error =>
      some ({ c with place := .settled (.threw (.operation error)) }, none)
    | some _, .ok result =>
      some ({ c with place := .checking handle acquiredAt result failed }, none)
  | .checking handle acquiredAt result failed =>
    if failed || decide (lock.remainingMs now handle state ≤ 0) then
      some ({ c with place := .losing handle acquiredAt }, none)
    else some ({ c with place := .settled (.resolved result) }, none)
  | .losing handle acquiredAt =>
    some ({ c with
      place := .settled (.threw (.lost c.key (lock.fencingToken handle state)
        (mathRound (now - acquiredAt)))) }, none)
  | .settled _ => none

/-- The renewal loop's next step. Its sleep ends when it is due or when the session stops it. -/
def loop (now : ℚ) (state : lock.State) (c : Session lock R E) :
    Option (Session lock R E × Asks lock) :=
  match c.renewal with
  | .sleeping handle startedAt wakes =>
    if c.stopped then some ({ c with renewal := .finished false }, none)
    else if now < wakes then none
    else if c.options.heldLongEnough startedAt now then
      some ({ c with renewal := .finished false }, none)
    else some ({ c with renewal := .renewing handle startedAt }, none)
  | .renewing handle startedAt =>
    some ({ c with renewal := .extending handle startedAt (lock.tasks state) },
      some (.extend handle c.options.ttlMs))
  | .extending handle startedAt task =>
    match lock.answer state task with
    | some (.done true) =>
      some ({ c with renewal := .sleeping handle startedAt (now + c.options.interval) }, none)
    | some (.done false) => some ({ c with renewal := .finished true }, none)
    | some (.threw error) => some ({ c with renewal := .rejected error }, none)
    | some (.handle _) | none => none
  | .notStarted | .finished _ | .rejected _ => none

/-- The operation settles, and `stop` tells the renewal loop to end. -/
def finish (outcome : Except E R) (c : Session lock R E) : Option (Session lock R E) :=
  match c.place with
  | .operating handle acquiredAt =>
    some { c with
      place := .stopping handle acquiredAt outcome
      stopped := true
      operation := .returned outcome }
  | _ => none

end Session

inductive Use where
  | extend (ttlMs : ℚ)
  | release

def Use.request {Service Handle : Type} (handle : Handle) : Use → Request Service Handle
  | .extend ttlMs => .extend handle ttlMs
  | .release => .release handle

variable (lock R E) in
/-- Calls of `withLock` at work on one lock. -/
structure Sessions where
  clock : ℚ
  state : lock.State
  calls : List (Session lock R E)

namespace Sessions

variable (lock R E) in
inductive Action where
  | tick (reading : ℚ)
  | event (event : lock.Event)
  | withLock (service : lock.Service) (key : String) (options : WithLockOptions)
  | main (call : Nat)
  | loop (call : Nat)
  | finish (call : Nat) (outcome : Except E R)
  /-- The operation uses its handle. -/
  | touch (call : Nat) (use : Use)

def Action.isTouch : Action lock R E → Bool
  | .touch _ _ => true
  | _ => false

variable (lock R E) in
def start : Sessions lock R E := ⟨0, lock.initial, []⟩

def asked (asks : Session.Asks lock) (s : Sessions lock R E) : lock.State :=
  match asks with
  | none => s.state
  | some request => lock.call s.clock request s.state

/-- A step of call `i`, taken when nothing else of the process is running. -/
def advance (i : Nat) (step : Session lock R E → Option (Session lock R E × Session.Asks lock))
    (s : Sessions lock R E) : Option (Sessions lock R E) :=
  if lock.idle s.state then
    (s.calls[i]?).bind fun c => (step c).map fun next =>
      { s with state := s.asked next.2, calls := s.calls.set i next.1 }
  else none

/-- Steps of different calls, and of the two parts of one call, come in any order, which is more
than the event loop allows, but nothing else runs while the lock is not idle. -/
def act (s : Sessions lock R E) : Action lock R E → Option (Sessions lock R E)
  | .tick reading => if s.clock ≤ reading then some { s with clock := reading } else none
  | .event event => (lock.act s.clock event s.state).map fun state => { s with state := state }
  | .withLock service key options =>
    if lock.idle s.state then
      some { s with
        state := lock.call s.clock (.acquire service key options.toLockAcquireOptions) s.state
        calls := s.calls ++ [⟨key, options, lock.tasks s.state, .acquiring, .notStarted, false,
          .notRun, []⟩] }
    else none
  | .main i => s.advance i fun c => c.main s.clock s.state
  | .loop i => s.advance i fun c => c.loop s.clock s.state
  | .finish i outcome => s.advance i fun c => (c.finish outcome).map fun c' => (c', none)
  | .touch i use => s.advance i fun c =>
    match c.place with
    | .operating handle _ => some (c, some (use.request handle))
    | _ => none

end Sessions

namespace Session

inductive Stepped (now : ℚ) (state : lock.State) (c : Session lock R E) :
    Session lock R E → Asks lock → Prop where
  | granted {handle} (here : c.place = .acquiring)
      (answer : lock.answer state c.acquisition = some (.handle (some handle))) :
      Stepped now state c
        { c with place := .acquired handle, handles := c.handles ++ [handle] } none
  | turnedAway {answer} (error : SessionError E) (here : c.place = .acquiring)
      (answered : lock.answer state c.acquisition = some answer)
      (without : ∀ handle, answer ≠ .handle (some handle)) :
      Stepped now state c { c with place := .settled (.threw error) } none
  | acquired {handle} (here : c.place = .acquired handle) :
      Stepped now state c { c with place := .starting handle now } none
  | starting {handle acquiredAt} (here : c.place = .starting handle acquiredAt) :
      Stepped now state c
        { c with
          place := .operating handle acquiredAt
          renewal := startRenewal handle c.options now
          operation := .running } none
  | finish {handle acquiredAt} (outcome : Except E R)
      (here : c.place = .operating handle acquiredAt) :
      Stepped now state c
        { c with
          place := .stopping handle acquiredAt outcome
          stopped := true
          operation := .returned outcome } none
  | release {handle acquiredAt outcome failed}
      (here : c.place = .stopping handle acquiredAt outcome)
      (ended : c.renewal = .finished failed) :
      Stepped now state c
        { c with place := .releasing handle acquiredAt outcome failed (lock.tasks state) }
        (some (.release handle))
  | rejected {handle acquiredAt outcome error}
      (here : c.place = .stopping handle acquiredAt outcome) (ended : c.renewal = .rejected error) :
      Stepped now state c { c with place := .settled (.threw (.lock error)) } none
  | threw {handle acquiredAt error failed task answer}
      (here : c.place = .releasing handle acquiredAt (.error error) failed task)
      (answered : lock.answer state task = some answer) :
      Stepped now state c { c with place := .settled (.threw (.operation error)) } none
  | released {handle acquiredAt result failed task answer}
      (here : c.place = .releasing handle acquiredAt (.ok result) failed task)
      (answered : lock.answer state task = some answer) :
      Stepped now state c { c with place := .checking handle acquiredAt result failed } none
  | lapsed {handle acquiredAt result failed}
      (here : c.place = .checking handle acquiredAt result failed)
      (lost : failed = true ∨ lock.remainingMs now handle state ≤ 0) :
      Stepped now state c { c with place := .losing handle acquiredAt } none
  | resolved {handle acquiredAt result} (here : c.place = .checking handle acquiredAt result false)
      (kept : 0 < lock.remainingMs now handle state) :
      Stepped now state c { c with place := .settled (.resolved result) } none
  | lost {handle acquiredAt} (here : c.place = .losing handle acquiredAt) :
      Stepped now state c
        { c with
          place := .settled (.threw (.lost c.key (lock.fencingToken handle state)
            (mathRound (now - acquiredAt)))) } none
  | ended {handle startedAt wakes} (here : c.renewal = .sleeping handle startedAt wakes) :
      Stepped now state c { c with renewal := .finished false } none
  | due {handle startedAt wakes} (running : c.stopped = false)
      (here : c.renewal = .sleeping handle startedAt wakes) :
      Stepped now state c { c with renewal := .renewing handle startedAt } none
  | extend {handle startedAt} (here : c.renewal = .renewing handle startedAt) :
      Stepped now state c
        { c with renewal := .extending handle startedAt (lock.tasks state) }
        (some (.extend handle c.options.ttlMs))
  | extended {handle startedAt task} (here : c.renewal = .extending handle startedAt task)
      (answered : lock.answer state task = some (.done true)) :
      Stepped now state c
        { c with renewal := .sleeping handle startedAt (now + c.options.interval) } none
  | refused {handle startedAt task} (here : c.renewal = .extending handle startedAt task)
      (answered : lock.answer state task = some (.done false)) :
      Stepped now state c { c with renewal := .finished true } none
  | failed {handle startedAt task error} (here : c.renewal = .extending handle startedAt task)
      (answered : lock.answer state task = some (.threw error)) :
      Stepped now state c { c with renewal := .rejected error } none

variable {now : ℚ} {state : lock.State} {c c' : Session lock R E} {asks : Asks lock}

theorem stepped_of_main (taken : c.main now state = some (c', asks)) :
    Stepped now state c c' asks := by
  unfold main at taken
  split at taken
  case h_1 here =>
    split at taken
    case h_1 handle answer =>
      cases taken
      exact .granted here answer
    case h_2 answered =>
      cases taken
      exact .turnedAway _ here answered nofun
    case h_3 answered =>
      cases taken
      exact .turnedAway _ here answered nofun
    all_goals cases taken
  case h_2 here =>
    cases taken
    exact .acquired here
  case h_3 here =>
    cases taken
    exact .starting here
  case h_4 => cases taken
  case h_5 here =>
    split at taken
    case h_1 ended =>
      cases taken
      exact .release here ended
    case h_2 ended =>
      cases taken
      exact .rejected here ended
    case h_3 => cases taken
  case h_6 here =>
    split at taken
    case h_1 => cases taken
    case h_2 answered =>
      cases taken
      exact .threw here answered
    case h_3 answered =>
      cases taken
      exact .released here answered
  case h_7 here =>
    split at taken
    case isTrue lost =>
      cases taken
      exact .lapsed here (by simpa using lost)
    case isFalse kept =>
      cases taken
      simp only [Bool.or_eq_true, decide_eq_true_eq, not_or, Bool.not_eq_true, not_le] at kept
      exact .resolved (kept.1 ▸ here) kept.2
  case h_8 here =>
    cases taken
    exact .lost here
  case h_9 => cases taken

theorem stepped_of_loop (taken : c.loop now state = some (c', asks)) :
    Stepped now state c c' asks := by
  unfold loop at taken
  split at taken
  case h_1 here =>
    split at taken
    case isTrue =>
      cases taken
      exact .ended here
    case isFalse running =>
      split at taken
      case isTrue => cases taken
      case isFalse =>
        split at taken
        case isTrue =>
          cases taken
          exact .ended here
        case isFalse =>
          cases taken
          exact .due (Bool.eq_false_iff.mpr running) here
  case h_2 here =>
    cases taken
    exact .extend here
  case h_3 here =>
    split at taken
    case h_1 answered =>
      cases taken
      exact .extended here answered
    case h_2 answered =>
      cases taken
      exact .refused here answered
    case h_3 answered =>
      cases taken
      exact .failed here answered
    all_goals cases taken
  all_goals cases taken

theorem stepped_of_finish {outcome : Except E R} (taken : c.finish outcome = some c') :
    Stepped now state c c' none := by
  unfold finish at taken
  split at taken
  case h_1 here =>
    cases taken
    exact .finish outcome here
  case h_2 => cases taken

end Session

namespace Sessions

inductive Moved (s : Sessions lock R E) : Action lock R E → Sessions lock R E → Prop where
  | tick {reading} (later : s.clock ≤ reading) : Moved s (.tick reading) { s with clock := reading }
  | event {event state} (taken : lock.act s.clock event s.state = some state) :
      Moved s (.event event) { s with state := state }
  | withLock (service : lock.Service) (key : String) (options : WithLockOptions)
      (idle : lock.idle s.state = true) :
      Moved s (.withLock service key options)
        { s with
          state := lock.call s.clock (.acquire service key options.toLockAcquireOptions) s.state
          calls := s.calls ++ [⟨key, options, lock.tasks s.state, .acquiring, .notStarted, false,
            .notRun, []⟩] }
  | step {a i c c' asks} (idle : lock.idle s.state = true) (found : s.calls[i]? = some c)
      (stepped : Session.Stepped s.clock s.state c c' asks) :
      Moved s a { s with state := s.asked asks, calls := s.calls.set i c' }
  | touch {i c handle acquiredAt} (use : Use)
      (idle : lock.idle s.state = true) (found : s.calls[i]? = some c)
      (here : c.place = .operating handle acquiredAt) :
      Moved s (.touch i use) { s with state := lock.call s.clock (use.request handle) s.state }

variable {s t : Sessions lock R E}

theorem advance_eq_some {i : Nat}
    {step : Session lock R E → Option (Session lock R E × Session.Asks lock)}
    (taken : s.advance i step = some t) :
    lock.idle s.state = true ∧ ∃ c c' asks, s.calls[i]? = some c ∧ step c = some (c', asks) ∧
      t = { s with state := s.asked asks, calls := s.calls.set i c' } := by
  simp only [advance, Option.ite_none_right_eq_some, Option.bind_eq_some_iff,
    Option.map_eq_some_iff] at taken
  obtain ⟨idle, c, found, ⟨c', asks⟩, stepped, same⟩ := taken
  exact ⟨idle, c, c', asks, found, stepped, same.symm⟩

theorem moved {a : Action lock R E} (taken : s.act a = some t) : Moved s a t := by
  cases a with
  | tick =>
    simp only [act, Option.ite_none_right_eq_some, Option.some.injEq] at taken
    exact taken.2 ▸ .tick taken.1
  | event =>
    simp only [act, Option.map_eq_some_iff] at taken
    obtain ⟨state, acted, same⟩ := taken
    exact same ▸ .event acted
  | withLock service key options =>
    simp only [act, Option.ite_none_right_eq_some, Option.some.injEq] at taken
    exact taken.2 ▸ .withLock service key options taken.1
  | main =>
    obtain ⟨idle, c, c', asks, found, stepped, same⟩ := advance_eq_some taken
    exact same ▸ .step idle found (Session.stepped_of_main stepped)
  | loop =>
    obtain ⟨idle, c, c', asks, found, stepped, same⟩ := advance_eq_some taken
    exact same ▸ .step idle found (Session.stepped_of_loop stepped)
  | finish =>
    obtain ⟨idle, c, c', asks, found, stepped, same⟩ := advance_eq_some taken
    simp only [Option.map_eq_some_iff, Prod.mk.injEq] at stepped
    obtain ⟨_, finished, rfl, rfl⟩ := stepped
    exact same ▸ .step idle found (Session.stepped_of_finish finished)
  | touch i use =>
    obtain ⟨idle, c, c', asks, found, stepped, same⟩ := advance_eq_some taken
    split at stepped
    case h_1 handle acquiredAt here =>
      cases stepped
      have kept : s.calls.set i c = s.calls := by
        obtain ⟨inside, at_i⟩ := List.getElem?_eq_some_iff.mp found
        rw [← at_i, List.set_getElem_self]
      rw [kept] at same
      exact same ▸ .touch use idle found here
    case h_2 => cases stepped

end Sessions

end NestApi.Locking
