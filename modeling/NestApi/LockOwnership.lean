import NestApi.LockSession

namespace NestApi.Locking

/-- Laws of an implementation: an answer stays, and a handle is the answer to one task only, under
an invariant of the implementation's own. -/
structure DistributedLock.Lawful (lock : DistributedLock) where
  sound : lock.State → Prop
  initial : sound lock.initial
  sound_call : ∀ now request s, sound s → sound (lock.call now request s)
  sound_act : ∀ now event s s', sound s → lock.act now event s = some s' → sound s'
  tasks_call : ∀ now request s, lock.tasks (lock.call now request s) = lock.tasks s + 1
  tasks_act : ∀ now event s s', lock.act now event s = some s' → lock.tasks s' = lock.tasks s
  answer_call : ∀ now request s task answer, lock.answer s task = some answer →
    lock.answer (lock.call now request s) task = some answer
  answer_act : ∀ now event s s' task answer, lock.act now event s = some s' →
    lock.answer s task = some answer → lock.answer s' task = some answer
  granted_once : ∀ s first second handle, sound s →
    lock.answer s first = some (.handle (some handle)) →
    lock.answer s second = some (.handle (some handle)) → first = second

variable {lock : DistributedLock} {R E : Type} {handle : lock.Handle}

def Place.handle? {Handle : Type} : Place Handle R E → Option Handle
  | .acquiring | .settled _ => none
  | .acquired handle | .starting handle _ | .operating handle _ | .stopping handle _ _
  | .releasing handle _ _ _ _ | .checking handle _ _ _ | .losing handle _ => some handle

/-- The body has not called `release` yet. -/
def Place.Unreleased {Handle : Type} : Place Handle R E → Prop
  | .acquiring | .acquired _ | .starting _ _ | .operating _ _ | .stopping _ _ _ => True
  | .releasing _ _ _ _ _ | .checking _ _ _ _ | .losing _ _ | .settled _ => False

def Renewal.handle? {Handle : Type} : Renewal Handle → Option Handle
  | .sleeping handle _ _ | .renewing handle _ | .extending handle _ _ => some handle
  | .notStarted | .finished _ | .rejected _ => none

/-- The session's call of `acquire` was answered with this handle. -/
def Session.Owns (state : lock.State) (c : Session lock R E) (handle : lock.Handle) : Prop :=
  lock.answer state c.acquisition = some (.handle (some handle))

def Session.TurnedAway (state : lock.State) (c : Session lock R E) : Prop :=
  ∃ answer, lock.answer state c.acquisition = some answer ∧ ∀ handle, answer ≠ .handle (some handle)

def Session.Returned (c : Session lock R E) : Prop :=
  ∃ outcome, c.operation = .returned outcome

def Session.Unfailed (state : lock.State) (c : Session lock R E) : Prop :=
  match c.renewal with
  | .notStarted | .sleeping _ _ _ | .renewing _ _ => True
  | .extending _ _ task => ∀ answer, lock.answer state task = some answer → answer = .done true
  | .finished failed => failed = false
  | .rejected _ => False

/-- The parts of a session agree about its one handle and about how far it is. -/
structure Session.Coherent (state : lock.State) (c : Session lock R E) : Prop where
  owned : ∀ handle ∈ c.handles, c.Owns state handle
  waiting : c.place = .acquiring → c.handles = []
  placed : ∀ handle, c.place.handle? = some handle → c.handles = [handle]
  renewed : ∀ handle, c.renewal.handle? = some handle → c.handles = [handle]
  operated : c.operation ≠ .notRun → ∃ handle, c.handles = [handle]
  stopping : ∀ handle acquiredAt outcome, c.place = .stopping handle acquiredAt outcome →
    c.stopped = true ∧ c.operation = .returned outcome
  resolved : ∀ result, c.place = .settled (.resolved result) → c.Returned
  unreturned : ¬ c.Returned → c.place.Unreleased ∨ c.TurnedAway state

namespace Session

variable {now : ℚ} {state state' : lock.State} {c c' : Session lock R E} {asks : Asks lock}

section

variable (coherent : c.Coherent state)

include coherent

theorem Coherent.mono (kept : ∀ answer, lock.answer state c.acquisition = some answer →
      lock.answer state' c.acquisition = some answer) : c.Coherent state' where
  __ := coherent
  owned handle mem := kept _ (coherent.owned handle mem)
  unreturned running := by
    rcases coherent.unreturned running with early | ⟨answer, answered, without⟩
    · exact .inl early
    · exact .inr ⟨answer, kept _ answered, without⟩

theorem Coherent.owns (own : c.handles = [handle]) : c.Owns state handle :=
  coherent.owned handle (by simp [own])

theorem Coherent.returned
    (own : c.handles = [handle]) (late : ¬ c.place.Unreleased) : c.Returned := by
  by_contra running
  rcases coherent.unreturned running with early | ⟨answer, answered, without⟩
  · exact late early
  · exact without handle (Option.some.inj (answered.symm.trans (coherent.owns own)))

theorem Coherent.answered (late : ¬ c.place.Unreleased) :
    ∃ answer, lock.answer state c.acquisition = some answer := by
  by_cases returned : c.Returned
  · obtain ⟨outcome, ended⟩ := returned
    obtain ⟨handle, own⟩ := coherent.operated (by rw [ended]; nofun)
    exact ⟨_, coherent.owns own⟩
  · rcases coherent.unreturned returned with early | ⟨answer, answered, _⟩
    · exact absurd early late
    · exact ⟨answer, answered⟩

/-- After the operation the body goes on with the same handle or settles. -/
theorem Coherent.proceed (returned : c.Returned)
    {place : Place lock.Handle R E} (late : ¬ place.Unreleased)
    (own : ∀ handle, place.handle? = some handle → c.handles = [handle]) :
    ({ c with place := place } : Session lock R E).Coherent state where
  __ := coherent
  waiting here := by
    dsimp only at here
    rw [here] at late
    exact absurd trivial late
  placed := own
  stopping handle acquiredAt outcome here := by
    dsimp only at here
    rw [here] at late
    exact absurd trivial late
  resolved _ _ := returned
  unreturned running := absurd returned running

theorem Coherent.renew {renewal : Renewal lock.Handle}
    (own : ∀ handle, renewal.handle? = some handle → c.handles = [handle]) :
    ({ c with renewal := renewal } : Session lock R E).Coherent state :=
  ⟨coherent.owned, coherent.waiting, coherent.placed, own, coherent.operated, coherent.stopping,
    coherent.resolved, coherent.unreturned⟩

end

theorem Stepped.acquisition (stepped : Stepped now state c c' asks) :
    c'.acquisition = c.acquisition := by
  cases stepped <;> rfl

theorem Stepped.of_resolved (stepped : Stepped now state c c' asks) {result : R}
    (ends : c'.place = .settled (.resolved result)) :
    c'.handles = c.handles ∧ (c.place = .settled (.resolved result) ∨
      ∃ handle acquiredAt, c.place = .checking handle acquiredAt result false ∧
        0 < lock.remainingMs now handle state) := by
  cases stepped with
  | resolved here kept =>
    cases ends
    exact ⟨rfl, .inr ⟨_, _, here, kept⟩⟩
  | ended | due | extend | extended | refused | failed => exact ⟨rfl, .inl ends⟩
  | _ => cases ends

theorem Coherent.step (coherent : c.Coherent state) (stepped : Stepped now state c c' asks) :
    c'.Coherent state := by
  cases stepped with
  | @granted handle here answer =>
    have before := coherent.waiting here
    refine ⟨?_, nofun, ?_, ?_, ?_, nofun, nofun, fun _ => .inl trivial⟩
    · intro other mem
      rw [before] at mem
      cases List.mem_singleton.mp mem
      exact answer
    · intro other same
      rw [before, Option.some.inj same]
      rfl
    · intro other renewing
      have none := coherent.renewed other renewing
      rw [before] at none
      cases none
    · intro running
      obtain ⟨other, none⟩ := coherent.operated running
      rw [before] at none
      cases none
  | turnedAway error here answered without =>
    exact ⟨coherent.owned, nofun, nofun, coherent.renewed, coherent.operated, nofun, nofun,
      fun _ => .inr ⟨_, answered, without⟩⟩
  | acquired here =>
    have own := coherent.placed _ (congrArg Place.handle? here)
    exact ⟨coherent.owned, nofun, fun _ same => Option.some.inj same ▸ own, coherent.renewed,
      coherent.operated, nofun, nofun, fun _ => .inl trivial⟩
  | starting here =>
    have own := coherent.placed _ (congrArg Place.handle? here)
    refine ⟨coherent.owned, nofun, fun _ same => Option.some.inj same ▸ own, ?_,
      fun _ => ⟨_, own⟩, nofun, nofun, fun _ => .inl trivial⟩
    intro other renewing
    simp only [startRenewal] at renewing
    split at renewing
    · cases renewing
    · exact Option.some.inj renewing ▸ own
  | finish outcome here =>
    have own := coherent.placed _ (congrArg Place.handle? here)
    refine ⟨coherent.owned, nofun, fun _ same => Option.some.inj same ▸ own, coherent.renewed,
      fun _ => ⟨_, own⟩, ?_, nofun, fun running => absurd ⟨outcome, rfl⟩ running⟩
    intro handle acquiredAt ended same
    cases same
    exact ⟨rfl, rfl⟩
  | release here =>
    have own := coherent.placed _ (congrArg Place.handle? here)
    have returned := (coherent.stopping _ _ _ here).2
    exact coherent.proceed ⟨_, returned⟩ id fun _ same => Option.some.inj same ▸ own
  | rejected here =>
    have returned := (coherent.stopping _ _ _ here).2
    exact coherent.proceed ⟨_, returned⟩ id nofun
  | threw here | resolved here | lost here =>
    have own := coherent.placed _ (congrArg Place.handle? here)
    have returned := coherent.returned own (by rw [here]; exact id)
    exact coherent.proceed returned id nofun
  | released here | lapsed here =>
    have own := coherent.placed _ (congrArg Place.handle? here)
    have returned := coherent.returned own (by rw [here]; exact id)
    exact coherent.proceed returned id fun _ same => Option.some.inj same ▸ own
  | ended | refused | failed => exact coherent.renew nofun
  | due running here | extend here | extended here =>
    have own := coherent.renewed _ (congrArg Renewal.handle? here)
    exact coherent.renew fun _ same => Option.some.inj same ▸ own

end Session

namespace Sessions

/-- Every call of `withLock` has its own call of `acquire`, and its parts agree. -/
structure Orderly (laws : lock.Lawful) (s : Sessions lock R E) : Prop where
  sound : laws.sound s.state
  known : ∀ (i : Nat) c, s.calls[i]? = some c → c.acquisition < lock.tasks s.state
  distinct : ∀ (i j : Nat) c d, s.calls[i]? = some c → s.calls[j]? = some d →
    c.acquisition = d.acquisition → i = j
  coherent : ∀ (i : Nat) c, s.calls[i]? = some c → c.Coherent s.state

variable {laws : lock.Lawful} {s t : Sessions lock R E}

theorem Orderly.owner_unique (orderly : Orderly laws s) {i j : Nat} {c d : Session lock R E}
    (first : s.calls[i]? = some c) (second : s.calls[j]? = some d)
    (owns : c.Owns s.state handle) (too : d.Owns s.state handle) : i = j := by
  apply orderly.distinct i j c d first second
  exact laws.granted_once _ _ _ handle orderly.sound owns too

theorem Orderly.locked (orderly : Orderly laws s) {state : lock.State} {clock : ℚ}
    (sound : laws.sound state) (grown : lock.tasks s.state ≤ lock.tasks state)
    (kept : ∀ task answer, lock.answer s.state task = some answer →
      lock.answer state task = some answer) : Orderly laws ⟨clock, state, s.calls⟩ where
  __ := orderly
  sound := sound
  known i c found := Nat.lt_of_lt_of_le (orderly.known i c found) grown
  coherent i c found := (orderly.coherent i c found).mono (kept c.acquisition)

theorem Orderly.called (orderly : Orderly laws s) (request : Request lock.Service lock.Handle) :
    Orderly laws { s with state := lock.call s.clock request s.state } := by
  apply orderly.locked (laws.sound_call _ _ _ orderly.sound)
  · rw [laws.tasks_call]
    omega
  · exact laws.answer_call _ _ _

theorem Orderly.act (orderly : Orderly laws s) {a : Action lock R E} (taken : s.act a = some t) :
    Orderly laws t := by
  cases moved taken with
  | tick => exact ⟨orderly.sound, orderly.known, orderly.distinct, orderly.coherent⟩
  | event acted =>
    apply orderly.locked (laws.sound_act _ _ _ _ orderly.sound acted)
    · exact Nat.le_of_eq (laws.tasks_act _ _ _ _ acted).symm
    · exact fun task answer => laws.answer_act _ _ _ _ task answer acted
  | withLock service key options =>
    have after := orderly.called (.acquire service key options.toLockAcquireOptions)
    have fresh := laws.tasks_call s.clock (.acquire service key options.toLockAcquireOptions)
      s.state
    refine ⟨after.sound, ?_, ?_, ?_⟩
    · intro i c found
      rcases getElem?_concat_eq_some found with old | ⟨_, rfl⟩
      · exact after.known i c old
      · dsimp only
        omega
    · intro i j c d first second same
      rcases getElem?_concat_eq_some first with old | ⟨place, rfl⟩ <;>
        rcases getElem?_concat_eq_some second with older | ⟨other, rfl⟩
      · exact orderly.distinct i j c d old older same
      · have before := orderly.known i c old
        dsimp only at same
        omega
      · have before := orderly.known j d older
        dsimp only at same
        omega
      · omega
    · intro i c found
      rcases getElem?_concat_eq_some found with old | ⟨_, rfl⟩
      · exact after.coherent i c old
      · exact ⟨nofun, fun _ => rfl, nofun, nofun, fun run => absurd rfl run, nofun,
          nofun, fun _ => .inl trivial⟩
  | @step _ i c c' asks idle found stepped =>
    have after : Orderly laws { s with state := s.asked asks } := by
      cases asks with
      | none => exact orderly
      | some request => exact orderly.called request
    have kept := stepped.acquisition
    refine ⟨after.sound, ?_, ?_, ?_⟩
    · intro j d seen
      rcases getElem?_set_eq_some seen with ⟨rfl, rfl⟩ | ⟨_, old⟩
      · rw [kept]
        exact after.known i c found
      · exact after.known j d old
    · intro j k d e first second same
      rcases getElem?_set_eq_some first with ⟨rfl, rfl⟩ | ⟨_, old⟩ <;>
        rcases getElem?_set_eq_some second with ⟨rfl, rfl⟩ | ⟨_, older⟩
      · rfl
      · rw [kept] at same
        exact orderly.distinct i k c e found older same
      · rw [kept] at same
        exact orderly.distinct j i d c old found same
      · exact orderly.distinct j k d e old older same
    · intro j d seen
      rcases getElem?_set_eq_some seen with ⟨rfl, rfl⟩ | ⟨_, old⟩
      · have own := (orderly.coherent i c found).step stepped
        apply own.mono
        intro answer answered
        cases asks with
        | none => exact answered
        | some => exact laws.answer_call _ _ _ _ _ answered
      · exact after.coherent j d old
  | touch => exact orderly.called _

theorem orderly_start (laws : lock.Lawful) : Orderly laws (start lock R E) where
  sound := laws.initial
  known i c found := by simp [start] at found
  distinct i j c d found := by simp [start] at found
  coherent i c found := by simp [start] at found

end Sessions

end NestApi.Locking
