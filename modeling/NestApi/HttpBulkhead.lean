import NestApi.HttpClient

namespace NestApi.ResilientHttp

open Call

variable {B : Type} {options : ResilientHttpOptions} {s t : Client B} {i : Nat}
  {call after : Call B} {next : Effect × Call B} {event : Event B}

def Call.isQueued (call : Call B) : Bool :=
  match call.stage with
  | .queued _ _ => true
  | _ => false

theorem Call.permit_grant (queued : call.isQueued = true) :
    call.permit = false ∧ call.grant.permit = true := by
  unfold isQueued at queued
  unfold grant permit
  split at queued
  · rename_i stage
    simp [stage]
  · cases queued

variable (options) in
/-- The bulkhead counts the calls with a permit, and those in its queue wait for one. -/
structure Seats (s : Client B) : Prop where
  distinct : s.waiting.Nodup
  queued : ∀ j ∈ s.waiting, ∃ call, s.calls[j]? = some call ∧ call.isQueued = true
  counted : s.inFlight = s.calls.countP permit
  room : s.inFlight ≤ options.bulkhead.maxConcurrent

variable (options) in
inductive Trades (inFlight : Nat) (permit : Bool) : Effect × Call B → Prop where
  | keep {after : Call B} (same : after.permit = permit) : Trades inFlight permit (.keep, after)
  | take {after : Call B} (before : permit = false) (now : after.permit = true)
      (free : inFlight < options.bulkhead.maxConcurrent) : Trades inFlight permit (.take, after)
  | join {after : Call B} (before : permit = false) (queued : after.isQueued = true) :
      Trades inFlight permit (.join, after)
  | give {after : Call B} (before : permit = true) (now : after.permit = false) :
      Trades inFlight permit (.give, after)
  | leave {after : Call B} (before : permit = false) (now : after.permit = false) :
      Trades inFlight permit (.leave, after)

namespace Seats

theorem start (now : ℚ) : Seats options (.start now : Client B) := by
  constructor <;> simp [Client.start]

theorem set (found : s.calls[i]? = some call) (distinct : s.waiting.Nodup)
    (queued : ∀ j ∈ s.waiting, i = j ∧ after.isQueued = true ∨
      i ≠ j ∧ ∃ call, s.calls[j]? = some call ∧ call.isQueued = true)
    (counted : s.inFlight + (if call.permit then 1 else 0) =
      s.calls.countP permit + if after.permit then 1 else 0)
    (room : s.inFlight ≤ options.bulkhead.maxConcurrent) :
    Seats options { s with calls := s.calls.set i after } where
  distinct := distinct
  queued := by
    intro j member
    rcases queued j member with ⟨rfl, waits⟩ | ⟨other, call, there, waits⟩
    · exact ⟨after, getElem?_set_of_some found _, waits⟩
    · exact ⟨call, by rw [List.getElem?_set_ne other, there], waits⟩
  counted := by
    have changed : (s.calls.set i after).countP permit + (if call.permit then 1 else 0) =
        s.calls.countP permit + if after.permit then 1 else 0 := countP_set_add _ found
    dsimp only
    omega
  room := room

theorem move (seats : Seats options s) (found : s.calls[i]? = some call)
    (trades : Trades options s.inFlight call.permit next)
    (own : call.isQueued = true → next.1 = .leave) : Seats options (s.move i next) := by
  have others : next.1 ≠ .leave → ∀ j ∈ s.waiting,
      i ≠ j ∧ ∃ call, s.calls[j]? = some call ∧ call.isQueued = true := by
    intro stays j member
    obtain ⟨call', there, queued⟩ := seats.queued j member
    refine ⟨?_, call', there, queued⟩
    rintro rfl
    cases found.symm.trans there
    exact stays (own queued)
  have counted := seats.counted
  cases trades with
  | keep same =>
    refine set found seats.distinct (fun j member => .inr (others (by simp) j member)) ?_ seats.room
    exact congrArg₂ (fun x y => x + if y = true then 1 else 0) counted same.symm
  | take before now free =>
    refine set (s := s.apply i .take) found seats.distinct
      (fun j member => .inr (others (by simp) j member)) ?_ free
    simp [Client.apply, before, now, counted]
  | join before queued =>
    refine set (s := s.apply i .join) found ?_ ?_ ?_ seats.room
    · exact seats.distinct.append (List.nodup_singleton i)
        (List.disjoint_singleton.mpr fun member => (others (by simp) i member).1 rfl)
    · intro j member
      rcases List.mem_append.mp member with before | new
      · exact .inr (others (by simp) j before)
      · exact .inl ⟨(List.mem_singleton.mp new).symm, queued⟩
    · simp [Client.apply, before, (permit_grant queued).1, counted]
  | leave before now =>
    refine set (s := s.apply i .leave) found (seats.distinct.erase i) ?_ ?_ seats.room
    · intro j member
      have stays := seats.distinct.mem_erase_iff.mp member
      exact .inr ⟨Ne.symm stays.1, seats.queued j stays.2⟩
    · simp [Client.apply, before, now, counted]
  | give before now =>
    cases waiting : s.waiting with
    | nil =>
      have one : 0 < s.calls.countP permit :=
        List.countP_pos_iff.mpr ⟨call, List.mem_of_getElem? found, before⟩
      have free : s.apply i .give = { s with inFlight := s.inFlight - 1 } := by
        simp only [Client.apply, waiting]
      rw [Client.move, free]
      refine set (s := { s with inFlight := s.inFlight - 1 }) found seats.distinct
        (fun j member => .inr (others (by simp) j member)) ?_ ((Nat.sub_le _ _).trans seats.room)
      simp only [before, now, if_true, Bool.false_eq_true, if_false]
      omega
    | cons first rest =>
      have distinct := seats.distinct
      rw [waiting, List.nodup_cons] at distinct
      obtain ⟨other, old, there, queued⟩ := others (by simp) first (waiting ▸ List.mem_cons_self)
      have granted : s.calls.modify first grant = s.calls.set first old.grant := by
        rw [List.modify_eq_set_getElem?, there]
        rfl
      have more : (s.calls.set first old.grant).countP permit = s.calls.countP permit + 1 := by
        have changed : (s.calls.set first old.grant).countP permit +
            (if old.permit then 1 else 0) = s.calls.countP permit +
              if old.grant.permit then 1 else 0 := countP_set_add _ there
        rwa [(permit_grant queued).1, (permit_grant queued).2] at changed
      rw [Client.move, Client.apply, waiting]
      dsimp only
      rw [granted]
      refine set (s := { s with waiting := rest, calls := _ })
        ((List.getElem?_set_ne other.symm).trans found) distinct.2 ?_ ?_ seats.room
      · intro j member
        obtain ⟨apart, call', there', queued'⟩ :=
          others (by simp) j (waiting ▸ List.mem_cons_of_mem first member)
        have later : first ≠ j := by
          rintro rfl
          exact distinct.1 member
        exact .inr ⟨apart, call', by rw [List.getElem?_set_ne later, there'], queued'⟩
      · simp only [before, now, if_true, Bool.false_eq_true, if_false, more, counted]

end Seats

theorem Enters.trades (enters : Enters options s call next) :
    Trades options s.inFlight false next := by
  cases enters with
  | settles => exact .keep rfl
  | admitted _ free => exact .take rfl rfl free
  | queues => exact .join rfl rfl

theorem Goes.trades (goes : Goes options s call event next) :
    Trades options s.inFlight call.permit next ∧ (call.isQueued = true → next.1 = .leave) := by
  unfold permit isQueued
  cases goes with
  | stops stage | ends stage | sleeps stage =>
    rw [stage]
    exact ⟨.give rfl rfl, nofun⟩
  | sends stage =>
    rw [stage]
    exact ⟨.keep rfl, nofun⟩
  | expires stage =>
    rw [stage]
    exact ⟨.leave rfl rfl, fun _ => rfl⟩
  | wakes stage enters =>
    rw [stage]
    exact ⟨enters.trades, nofun⟩

theorem Seats.act {action : Action B} (seats : Seats options s)
    (taken : s.act options action = some t) : Seats options t := by
  cases action with
  | tick =>
    cases taken
    exact ⟨seats.distinct, seats.queued, seats.counted, seats.room⟩
  | request request =>
    cases taken
    let first : Call B := .begin request s.clock
    have joined : Seats options { s with calls := s.calls ++ [first] } := by
      refine ⟨seats.distinct, ?_, ?_, seats.room⟩
      · intro j member
        obtain ⟨call, there, queued⟩ := seats.queued j member
        exact ⟨call, getElem?_concat_of_some there _, queued⟩
      · simp [seats.counted, first, begin, permit]
    have found : (s.calls ++ [first])[s.calls.length]? = some first := by simp
    have trades : Trades options s.inFlight first.permit (s.enter options first) :=
      Client.enter_enters.trades
    exact joined.move found trades nofun
  | event =>
    obtain ⟨call, found, taken⟩ := Option.bind_eq_some_iff.mp taken
    obtain ⟨next, goes, rfl⟩ := Option.map_eq_some_iff.mp taken
    obtain ⟨trades, own⟩ := (Client.next_goes goes).trades
    exact seats.move found trades own

end NestApi.ResilientHttp
