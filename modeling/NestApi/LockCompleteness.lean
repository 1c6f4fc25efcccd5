import NestApi.LockProgress
import NestApi.RedlockSessions

namespace NestApi.Locking

open Sessions

variable {R E : Type}

/-- The two implementations of `DistributedLock`. -/
inductive Implementation where
  | inMemory
  | redlock (n : Nat)

namespace Implementation

abbrev lock : Implementation → DistributedLock
  | .inMemory => memory
  | .redlock n => Locking.redlock n

/-- The handle holds the key: its entry is in the map, or a quorum of nodes has its value, and its
lease has not lapsed. -/
def held : (impl : Implementation) → ℚ → impl.lock.State → impl.lock.Handle → Bool
  | .inMemory, now, state, ref => state.store.holds now ref
  | .redlock n, now, state, i =>
    (state.handles[i]?).any fun h => decide (now < h.expiry) &&
      decide (quorum n ≤ ((List.finRange n).filter fun k =>
        (state.nodes k).get now (Redlock.lockKey h.key) == some h.value).length)

/-- The clock has not come to `lease`, and until call `i` releases its handle, that holds the key
with a lease that does not end before. -/
def covers (impl : Implementation) (i : Nat) (lease : ℚ) (s : Sessions impl.lock R E) : Bool :=
  decide (s.clock < lease) && (s.calls[i]?).all fun c =>
    match c.place with
    | .stopping handle _ _ => impl.held s.clock s.state handle &&
        decide (lease ≤ s.clock + impl.lock.remainingMs s.clock handle s.state)
    | _ => true

end Implementation

namespace Memory

variable {s : Sessions memory R E} {c : Session memory R E} {i ref : Nat} {lease : ℚ} {result : R}

theorem secure_of_covers (covers : Implementation.covers .inMemory i lease s = true)
    (found : s.calls[i]? = some c) : Secure (lease ≤ ·) s ref result c := by
  intro acquiredAt here
  simp only [Implementation.covers, found, Option.all_some, here, Bool.and_eq_true,
    decide_eq_true_eq, Implementation.held] at covers
  obtain ⟨early, own, lasts⟩ := covers
  refine ⟨own, fun entry there => ?_⟩
  have live : s.clock < entry.expiresAt := by
    by_contra late
    exact (holds_iff.mp own).2 ⟨entry, there, not_lt.mp late⟩
  simp only [State.remainingMs, there, max_eq_right (sub_nonneg.mpr (le_of_lt live))] at lasts
  linarith

theorem early_of_covers (covers : Implementation.covers .inMemory i lease s = true) :
    s.clock < lease := by
  simp only [Implementation.covers, Bool.and_eq_true, decide_eq_true_eq] at covers
  exact covers.1

theorem completes {before after : List (Sessions.Action memory R E)} {t : Sessions memory R E}
    {acquiredAt : ℚ} (ran : Steps (Executes act) (start memory R E) before s)
    (called : s.calls[i]? = some c) (ended : c.place = .stopping ref acquiredAt (.ok result))
    (renewed : c.Unfailed s.state)
    (rest : Steps (Guarded (fun u _ => Implementation.covers .inMemory i lease u = true)
      (Executes act)) s after t)
    (covered : Implementation.covers .inMemory i lease t = true) :
    ∃ d, t.calls[i]? = some d ∧ Ending (lease ≤ ·) t.state ref result d ∧
      Closing t.clock i ref result t := by
  have ending : Ready t ∧ ∃ d, t.calls[i]? = some d ∧ Ending (lease ≤ ·) t.state ref result d := by
    apply rest.invariant (fun (u : Sessions memory R E) =>
      Ready u ∧ ∃ d, u.calls[i]? = some d ∧ Ending (lease ≤ ·) u.state ref result d)
    · rintro u a v ⟨ready, d, found, ending⟩ ⟨covers, taken⟩
      have early := early_of_covers covers
      exact ⟨ready.act taken, ready.ending_act found ending (secure_of_covers covers found)
        (fun _ later => lt_of_lt_of_le early later) taken⟩
    · exact ⟨ready_of_steps ran, c, called, .stopping acquiredAt ended renewed⟩
  obtain ⟨ready, d, found, ending⟩ := ending
  have early := early_of_covers covered
  refine ⟨d, found, ending, ready, rfl, d, found, ?_, ?_⟩
  · exact ending.mono fun _ later => lt_of_lt_of_le early later
  · intro acquiredAt here
    exact (secure_of_covers covered found acquiredAt here).1

end Memory

/-- Where the operation has a result, its lease covers the rest, every renewal so far has succeeded
and the key stays held until its release, the call comes to that result exactly with the in-memory
lock. With a Redlock it never does, unless the operation itself uses the handle. -/
theorem withLock_complete (impl : Implementation)
    {before after : List (Sessions.Action impl.lock R E)} {s t : Sessions impl.lock R E} {i : Nat}
    {c d : Session impl.lock R E} {handle : impl.lock.Handle} {acquiredAt lease : ℚ} {result : R}
    (ran : Steps (Executes act) (start impl.lock R E) before s)
    (called : s.calls[i]? = some c) (ended : c.place = .stopping handle acquiredAt (.ok result))
    (renewed : c.Unfailed s.state)
    (rest : Steps (Guarded (fun u _ => impl.covers i lease u = true) (Executes act)) s after t)
    (covered : impl.covers i lease t = true) (later : t.calls[i]? = some d) :
    (impl = .inMemory →
      (∃ more u e, Steps (Executes act) t more u ∧ u.clock = t.clock ∧
        u.calls[i]? = some e ∧ e.place = .settled (.resolved result)) ∧
      ∀ outcome, d.place = .settled outcome → outcome = .resolved result) ∧
    ((∀ a ∈ before ++ after, a.isTouch = false) →
      ∀ outcome, d.place = .settled outcome → (outcome = .resolved result ↔ impl = .inMemory)) := by
  cases impl with
  | inMemory =>
    obtain ⟨d', found, ending, closing⟩ := Memory.completes ran called ended renewed rest covered
    cases later.symm.trans found
    have settles : ∀ outcome, d.place = .settled outcome → outcome = .resolved result := by
      intro outcome settled
      cases ending with
      | stopping _ here | releasing _ _ here | checking _ here => cases here.symm.trans settled
      | settled here =>
        cases here.symm.trans settled
        rfl
    refine ⟨fun _ => ⟨?_, settles⟩, ?_⟩
    · obtain ⟨more, u, e, run, still, called, ends⟩ := closing.resolves
      exact ⟨more, u, e, run, still, called, ends⟩
    · intro _ outcome settled
      exact ⟨fun _ => rfl, fun _ => settles outcome settled⟩
  | redlock =>
    refine ⟨nofun, fun untouched outcome settled => ?_⟩
    have run := ran.append rest.of_guarded
    refine ⟨?_, nofun⟩
    rintro rfl
    exact absurd settled (Redlock.never_resolved run untouched later result)

section Runs

def resultAt {lock : DistributedLock} (c : Session lock R E) : Option (lock.Handle × ℚ × R) :=
  match c.place, c.renewal with
  | .stopping handle acquiredAt (.ok result), .sleeping _ _ _
  | .stopping handle acquiredAt (.ok result), .finished false => some (handle, acquiredAt, result)
  | _, _ => none

theorem resultAt_eq_some {lock : DistributedLock} {c : Session lock R E} {state : lock.State}
    {handle : lock.Handle} {acquiredAt : ℚ} {result : R}
    (found : resultAt c = some (handle, acquiredAt, result)) :
    c.place = .stopping handle acquiredAt (.ok result) ∧ c.Unfailed state := by
  unfold resultAt at found
  split at found
  case h_1 here renewal =>
    cases found
    refine ⟨here, ?_⟩
    simp only [Session.Unfailed, renewal]
  case h_2 here renewal =>
    cases found
    refine ⟨here, ?_⟩
    simp only [Session.Unfailed, renewal]
  case h_3 => cases found

def outcomeAt {lock : DistributedLock} (c : Session lock R E) : Option (Outcome R E) :=
  match c.place with
  | .settled outcome => some outcome
  | _ => none

theorem outcomeAt_eq_some {lock : DistributedLock} {c : Session lock R E} {outcome : Outcome R E}
    (found : outcomeAt c = some outcome) : c.place = .settled outcome := by
  unfold outcomeAt at found
  split at found
  · cases found
    assumption
  · cases found

def oneMinute : WithLockOptions :=
  { ttlMs := 60000, waitMs := none, retryDelayMs := none, renew := some false,
    renewIntervalMs := none, maxHoldMs := none }

/-- Every node runs round `r`, and task `t` hears them all. -/
def healthyRound (t r : Nat) : List (Sessions.Action (redlock 3) Unit Unit) :=
  (List.finRange 3).map (fun k => .event (.apply r k)) ++ [.event (.resume t fun _ => true)]

/-- A lease of 60 ms is renewed at 20 and released at 50. -/
theorem withLock_complete_renewed : ∃ before after s t c d handle acquiredAt,
    Steps (Executes act) (start memory Unit Unit) before s ∧
    s.calls[0]? = some c ∧ c.place = .stopping handle acquiredAt (.ok ()) ∧
    Steps (Guarded (fun u _ => Implementation.covers .inMemory 0 80 u = true)
      (Executes act)) s after t ∧
    t.calls[0]? = some d ∧ d.place = .settled (.resolved ()) := by
  let options : WithLockOptions :=
    { ttlMs := 60, waitMs := none, retryDelayMs := none, renew := none,
      renewIntervalMs := some 20, maxHoldMs := none }
  let before : List (Sessions.Action memory Unit Unit) :=
    [.withLock () "orders:o-1" options, .event ⟨0, 0⟩, .main 0, .main 0, .main 0, .tick 20, .loop 0,
      .loop 0, .event ⟨1, 0⟩, .loop 0, .tick 40, .finish 0 (.ok ())]
  let after : List (Sessions.Action memory Unit Unit) :=
    [.loop 0, .tick 50, .main 0, .main 0, .main 0]
  obtain ⟨s, first, c, called, ⟨handle, acquiredAt, result⟩, stops, t, rest, covered, d, later,
      outcome, settles, _⟩ : ∃ s, Steps (Executes act) (start memory Unit Unit) before s ∧
      ∃ c, s.calls[0]? = some c ∧ ∃ stop, resultAt c = some stop ∧
      ∃ t, Steps (Guarded (fun u _ => Implementation.covers .inMemory 0 80 u = true)
        (Executes act)) s after t ∧ Implementation.covers .inMemory 0 80 t = true ∧
      ∃ d, t.calls[0]? = some d ∧ ∃ outcome, outcomeAt d = some outcome ∧ True := by
    decide +kernel
  obtain ⟨ended, renewed⟩ := @resultAt_eq_some _ _ _ _ s.state _ _ _ stops
  have complete := withLock_complete .inMemory first called ended renewed rest covered later
  refine ⟨before, after, s, t, c, d, handle, acquiredAt, first, called, ended, rest, later, ?_⟩
  have here := outcomeAt_eq_some settles
  rw [here, (complete.1 rfl).2 outcome here]

/-- Three healthy nodes, a lease of a minute and an operation that ends at once: `withLock` throws
`LockLostError`. -/
theorem redlock_withLock_lost : ∃ before after s t c d handle acquiredAt,
    Steps (Executes act) (start (redlock 3) Unit Unit) before s ∧
    s.calls[0]? = some c ∧ c.place = .stopping handle acquiredAt (.ok ()) ∧ c.Unfailed s.state ∧
    Steps (Guarded (fun u _ => Implementation.covers (.redlock 3) 0 50000 u = true)
      (Executes act)) s after t ∧
    Implementation.covers (.redlock 3) 0 50000 t = true ∧
    t.calls[0]? = some d ∧ d.place = .settled (.threw (.lost "orders:o-1" 1 0)) := by
  let before : List (Sessions.Action (redlock 3) Unit Unit) :=
    [.withLock Redlock.defaults "orders:o-1" oneMinute, .event (.step 0 0)] ++ healthyRound 0 0 ++
    healthyRound 0 1 ++ [.event (.step 0 0), .main 0, .main 0, .main 0, .finish 0 (.ok ())]
  let after : List (Sessions.Action (redlock 3) Unit Unit) :=
    [.main 0] ++ healthyRound 1 2 ++ [.main 0, .main 0, .main 0]
  obtain ⟨s, first, c, called, ⟨handle, acquiredAt, result⟩, stops, t, rest, covered, d, later,
      settles⟩ : ∃ s, Steps (Executes act) (start (redlock 3) Unit Unit) before s ∧
      ∃ c, s.calls[0]? = some c ∧ ∃ stop, resultAt c = some stop ∧
      ∃ t, Steps (Guarded (fun u _ => Implementation.covers (.redlock 3) 0 50000 u = true)
        (Executes act)) s after t ∧ Implementation.covers (.redlock 3) 0 50000 t = true ∧
      ∃ d, t.calls[0]? = some d ∧ outcomeAt d = some (.threw (.lost "orders:o-1" 1 0)) := by
    decide +kernel
  obtain ⟨ended, renewed⟩ := @resultAt_eq_some _ _ _ _ s.state _ _ _ stops
  exact ⟨before, after, s, t, c, d, handle, acquiredAt, first, called, ended, renewed, rest,
    covered, later, outcomeAt_eq_some settles⟩

end Runs

end NestApi.Locking
