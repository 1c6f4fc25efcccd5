import NestApi.IdempotencyStore
import NestApi.Indexed
import NestApi.JsonText
import NestApi.Program
import NestApi.Transition

namespace NestApi.Idempotency

open Store

def replayableStatusCeiling : ℚ := 500

/-- What `res.send` is called with. -/
inductive Payload where
  | string (text : Utf16)
  | json (value : JsonText.Value ℚ)
  | buffer (bytes : ByteArray)
  | null
  | undefined

/-- The body that the patched `send` keeps. -/
def capture (body : Option Utf16) : Payload → Option Utf16
  | .string text => some text
  | .null | .undefined => none
  | .json _ | .buffer _ => body

inductive Answer where
  | unavailable
  | mismatch
  | conflict
  | replayed (response : RecordedResponse)
  deriving DecidableEq

inductive RequestStage where
  | reserving
  | answered (answer : Answer)
  | owner
  deriving DecidableEq

inductive HandlerPhase where
  | waiting
  | running
  | returned
  deriving DecidableEq

/-- How far a response is: being written, finished with a status and through `send` or not, or cut
off. -/
inductive ResponsePhase where
  | writing
  | finished (status : ℚ) (wroteThroughSend : Bool)
  | closed
  deriving DecidableEq

inductive Settlement where
  | pending
  | completing (response : RecordedResponse)
  | releasing
  | settled
  deriving DecidableEq

structure Request where
  fingerprint : Utf16
  stage : RequestStage
  handler : HandlerPhase
  /-- Whether the handler's side effect has taken place. -/
  effect : Bool
  body : Option Utf16
  wroteThroughSend : Bool
  response : ResponsePhase
  settlement : Settlement
  recorded : Option RecordedResponse
  /-- Whether the store reported an error for that. -/
  recordFailed : Bool
  deriving DecidableEq

def Request.arrived (fingerprint : Utf16) : Request :=
  ⟨fingerprint, .reserving, .waiting, false, none, false, .writing, .pending, none, false⟩

/-- What happens to one request. The three calls of the store may take effect and still report an
error. -/
inductive RequestAction where
  | reserve (fate : Fate Unit)
  | start
  | effect
  | send (payload : Payload)
  | finish (status : ℚ) (contentType : Option Utf16)
  | close
  | returns
  | complete (fate : Fate Unit)
  | release (fate : Fate Unit)

def answerFor {L : Type} (fingerprint : Utf16) (existing : IdempotencyRecord L) : Answer :=
  if existing.fingerprint ≠ fingerprint then .mismatch
  else
    match existing.state with
    | .inFlight => .conflict
    | .completed response => .replayed response

namespace Request

def settle (r : Request) (status : ℚ) (contentType : Option Utf16) : Request :=
  if replayableStatusCeiling ≤ status then { r with settlement := .releasing }
  else if r.wroteThroughSend = false then { r with settlement := .releasing }
  else
    { r with
      settlement := .completing ⟨status, contentType, r.body⟩
      recorded := some ⟨status, contentType, r.body⟩ }

def act (lease : Nat) (cell : Option (IdempotencyRecord Nat)) (r : Request) :
    RequestAction → Option (Request × Option (IdempotencyRecord Nat))
  | .reserve fate =>
    if r.stage ≠ .reserving then none
    else
      let reserved := reserve cell ⟨r.fingerprint, lease, .inFlight⟩
      match fate with
      | .answered =>
        match reserved.1 with
        | none => some ({ r with stage := .owner }, reserved.2)
        | some existing =>
          some ({ r with stage := .answered (answerFor r.fingerprint existing) }, reserved.2)
      | .lost _ => some ({ r with stage := .answered .unavailable }, reserved.2)
      | .dropped _ => some ({ r with stage := .answered .unavailable }, cell)
  | .start =>
    if r.stage = .owner ∧ r.handler = .waiting then some ({ r with handler := .running }, cell)
    else none
  | .effect => if r.handler = .running then some ({ r with effect := true }, cell) else none
  | .send payload =>
    if r.stage = .owner then
      some ({ r with body := capture r.body payload, wroteThroughSend := true }, cell)
    else none
  | .finish status contentType =>
    if r.stage = .owner ∧ r.response = .writing then
      some ({ r with response := .finished status r.wroteThroughSend }.settle status contentType,
        cell)
    else none
  | .close =>
    if r.response ≠ .writing then none
    else if r.stage = .owner then
      some ({ r with response := .closed, settlement := .releasing }, cell)
    else some ({ r with response := .closed }, cell)
  | .returns => if r.handler = .running then some ({ r with handler := .returned }, cell) else none
  | .complete fate =>
    match r.settlement with
    | .completing response =>
      let completed := (complete cell lease response).2
      match fate with
      | .answered => some ({ r with settlement := .settled }, completed)
      | .lost _ => some ({ r with settlement := .releasing, recordFailed := true }, completed)
      | .dropped _ => some ({ r with settlement := .releasing, recordFailed := true }, cell)
    | _ => none
  | .release fate =>
    if r.settlement ≠ .releasing then none
    else
      match fate with
      | .dropped _ => some ({ r with settlement := .settled }, cell)
      | _ => some ({ r with settlement := .settled }, (release cell lease).2)

/-- The request has given its key up, or is about to: its connection closed early, the response has
a status from 500 on or did not go through `send`, or recording it reported an error. -/
def GaveUp (r : Request) : Prop :=
  r.response = .closed ∨
    (∃ status sent, r.response = .finished status sent ∧
      (replayableStatusCeiling ≤ status ∨ sent = false)) ∨
    r.recordFailed = true

/-- The request has ended with a response below 500 that was recorded, as far as is known. -/
def Recorded (r : Request) : Prop :=
  (∃ status, r.response = .finished status true ∧ status < replayableStatusCeiling) ∧
    r.recordFailed = false

section Act

variable {lease : Nat} {cell after : Option (IdempotencyRecord Nat)} {r t : Request}
  {action : RequestAction}

section

variable (status : ℚ) (contentType : Option Utf16)

include status contentType

@[simp] theorem settle_kept : (r.settle status contentType).stage = r.stage ∧
    (r.settle status contentType).response = r.response ∧
    (r.settle status contentType).handler = r.handler ∧
    (r.settle status contentType).effect = r.effect ∧
    (r.settle status contentType).recordFailed = r.recordFailed := by
  unfold settle
  split <;> try split
  all_goals exact ⟨rfl, rfl, rfl, rfl, rfl⟩

end

theorem settle_releasing {status : ℚ} {contentType : Option Utf16}
    (releasing : (r.settle status contentType).settlement = .releasing) :
    replayableStatusCeiling ≤ status ∨ r.wroteThroughSend = false := by
  unfold settle at releasing
  split at releasing
  · rename_i high
    exact .inl high
  split at releasing
  · rename_i unsent
    exact .inr unsent
  · cases releasing

inductive Moved (lease : Nat) (cell : Option (IdempotencyRecord Nat)) (r : Request) :
    Request → Option (IdempotencyRecord Nat) → Prop where
  | granted (reserving : r.stage = .reserving)
      (free : (reserve cell ⟨r.fingerprint, lease, .inFlight⟩).1 = none) :
      Moved lease cell r { r with stage := .owner }
        (reserve cell ⟨r.fingerprint, lease, .inFlight⟩).2
  | answered {answer after} (reserving : r.stage = .reserving)
      (kept : after = cell ∨ after = (reserve cell ⟨r.fingerprint, lease, .inFlight⟩).2) :
      Moved lease cell r { r with stage := .answered answer } after
  | inside {handler effect body wroteThroughSend} (begun : handler ≠ .waiting ∨ effect = true →
        r.stage = .owner ∨ r.handler ≠ .waiting ∨ r.effect = true) :
      Moved lease cell r { r with handler, effect, body, wroteThroughSend } cell
  | finished {status contentType} (writing : r.response = .writing) :
      Moved lease cell r
        ({ r with response := .finished status r.wroteThroughSend }.settle status contentType) cell
  | closed {settlement} (writing : r.response = .writing) :
      Moved lease cell r { r with response := .closed, settlement } cell
  | completed {response} (asked : r.settlement = .completing response) :
      Moved lease cell r { r with settlement := .settled } (complete cell lease response).2
  | failed {response : RecordedResponse} {after : Option (IdempotencyRecord Nat)}
      (asked : r.settlement = .completing response)
      (kept : after = cell ∨ after = (complete cell lease response).2) :
      Moved lease cell r { r with settlement := .releasing, recordFailed := true } after
  | released {after : Option (IdempotencyRecord Nat)} (releasing : r.settlement = .releasing)
      (kept : after = cell ∨ after = (release cell lease).2) :
      Moved lease cell r { r with settlement := .settled } after

theorem moved_of_act (taken : r.act lease cell action = some (t, after)) :
    Moved lease cell r t after := by
  cases action with
  | reserve fate =>
    simp only [act, Option.ite_none_left_eq_some, ne_eq, not_not] at taken
    obtain ⟨reserving, taken⟩ := taken
    cases fate with
    | answered =>
      dsimp only at taken
      split at taken
      · rename_i free
        cases taken
        exact .granted reserving free
      · cases taken
        exact .answered reserving (.inr rfl)
    | lost =>
      cases taken
      exact .answered reserving (.inr rfl)
    | dropped =>
      cases taken
      exact .answered reserving (.inl rfl)
  | start =>
    simp only [act, Option.ite_none_right_eq_some] at taken
    cases taken.2
    exact .inside fun _ => .inl taken.1.1
  | effect | returns =>
    simp only [act, Option.ite_none_right_eq_some] at taken
    cases taken.2
    exact .inside fun _ => .inr (.inl (by simp [taken.1]))
  | send =>
    simp only [act, Option.ite_none_right_eq_some] at taken
    cases taken.2
    exact .inside fun _ => .inl taken.1
  | finish =>
    simp only [act, Option.ite_none_right_eq_some] at taken
    cases taken.2
    exact .finished taken.1.2
  | close =>
    simp only [act, Option.ite_none_left_eq_some, ne_eq, not_not] at taken
    obtain ⟨writing, taken⟩ := taken
    split at taken <;>
    · cases taken
      exact .closed writing
  | complete fate =>
    simp only [act] at taken
    split at taken
    · rename_i asked
      cases fate with
      | answered =>
        cases taken
        exact .completed asked
      | lost =>
        cases taken
        exact .failed asked (.inr rfl)
      | dropped =>
        cases taken
        exact .failed asked (.inl rfl)
    · cases taken
  | release fate =>
    simp only [act, Option.ite_none_left_eq_some, ne_eq, not_not] at taken
    obtain ⟨releasing, taken⟩ := taken
    cases fate with
    | answered | lost =>
      cases taken
      exact .released releasing (.inr rfl)
    | dropped =>
      cases taken
      exact .released releasing (.inl rfl)

theorem Moved.frame (moved : Moved lease cell r t after) {other : Nat}
    (different : other ≠ lease) (holds : Holds cell other) : Holds after other := by
  cases moved with
  | granted => exact holds.reserve _
  | answered _ kept =>
    rcases kept with rfl | rfl
    · exact holds
    · exact holds.reserve _
  | inside | finished | closed => exact holds
  | completed => exact holds.complete _ _
  | failed _ kept =>
    rcases kept with rfl | rfl
    · exact holds
    · exact holds.complete _ _
  | released _ kept =>
    rcases kept with rfl | rfl
    · exact holds
    · exact holds.release different

theorem Moved.gaveUp (moved : Moved lease cell r t after) (gaveUp : r.GaveUp) : t.GaveUp := by
  cases moved with
  | granted | answered | inside | completed | released => exact gaveUp
  | finished writing =>
    rcases gaveUp with closed | ⟨status, sent, finished, -⟩ | failed
    · rw [closed] at writing
      cases writing
    · rw [finished] at writing
      cases writing
    · exact .inr (.inr (by simpa using failed))
  | closed => exact .inl rfl
  | failed => exact .inr (.inr rfl)

/-- A request that has not given up its key holds it. -/
structure Firm (lease : Nat) (cell : Option (IdempotencyRecord Nat)) (r : Request) : Prop where
  begun : r.handler ≠ .waiting ∨ r.effect = true → r.stage = .owner
  releasing : r.settlement = .releasing → r.GaveUp
  holds : r.stage = .owner → ¬ r.GaveUp → Holds cell lease

theorem Firm.moved (firm : Firm lease cell r) (moved : Moved lease cell r t after) :
    Firm lease after t := by
  -- Until it gives up, it had not given up before, so it held the key before this step.
  have before : r.stage = .owner → ¬ t.GaveUp → Holds cell lease := by
    intro owner firmly
    exact firm.holds owner fun gaveUp => firmly (moved.gaveUp gaveUp)
  cases moved with
  | granted reserving free =>
    exact ⟨fun _ => rfl, firm.releasing, fun _ _ => holds_of_reserved free⟩
  | answered reserving =>
    refine ⟨fun begun => ?_, firm.releasing, nofun⟩
    have owner := firm.begun begun
    rw [reserving] at owner
    cases owner
  | inside begun =>
    refine ⟨fun now => ?_, firm.releasing, before⟩
    rcases begun now with owner | earlier
    · exact owner
    · exact firm.begun earlier
  | @finished status contentType writing =>
    refine ⟨?_, ?_, ?_⟩
    · simpa using firm.begun
    · intro releasing
      have reason := settle_releasing releasing
      exact .inr (.inl ⟨status, r.wroteThroughSend, by simp, reason⟩)
    · intro owner
      simp only [settle_kept] at owner
      exact before owner
  | closed => exact ⟨firm.begun, fun _ => .inl rfl, before⟩
  | completed =>
    exact ⟨firm.begun, nofun, fun owner firmly => (before owner firmly).complete _ _⟩
  | failed =>
    exact ⟨firm.begun, fun _ => .inr (.inr rfl), fun _ firmly => absurd (.inr (.inr rfl)) firmly⟩
  | released releasing =>
    exact ⟨firm.begun, nofun, fun _ firmly => absurd (firm.releasing releasing) firmly⟩

theorem Recorded.not_gaveUp (recorded : r.Recorded) : ¬ r.GaveUp := by
  obtain ⟨⟨status, finished, below⟩, noError⟩ := recorded
  rintro (closed | ⟨status', sent, finished', high | unsent⟩ | failed)
  · rw [finished] at closed
    cases closed
  · rw [finished] at finished'
    cases finished'
    exact absurd high (Rat.not_le.mpr below)
  · rw [finished] at finished'
    cases finished'
    cases unsent
  · rw [noError] at failed
    cases failed

end Act

end Request

structure System where
  cell : Option (IdempotencyRecord Nat)
  requests : List Request
  deriving DecidableEq

inductive SystemAction where
  | arrive (fingerprint : Utf16)
  | request (index : Nat) (action : RequestAction)

namespace System

def empty : System := ⟨none, []⟩

def act (s : System) : SystemAction → Option System
  | .arrive fingerprint => some { s with requests := s.requests ++ [.arrived fingerprint] }
  | .request index action =>
    match s.requests[index]? with
    | none => none
    | some r =>
      (r.act index s.cell action).map fun (after, cell) =>
        ⟨cell, s.requests.set index after⟩

def Firm (s : System) : Prop :=
  ∀ index (r : Request), s.requests[index]? = some r → r.Firm index s.cell

variable {s t : System}

theorem Firm.act {action : SystemAction} (firm : s.Firm) (taken : s.act action = some t) :
    t.Firm := by
  cases action with
  | arrive =>
    cases taken
    intro index r found
    rcases getElem?_concat_eq_some found with earlier | ⟨-, rfl⟩
    · exact firm index r earlier
    · exact ⟨nofun, nofun, nofun⟩
  | request index =>
    simp only [System.act] at taken
    split at taken
    · cases taken
    rename_i r here
    obtain ⟨⟨after, cell⟩, moved, rfl⟩ := Option.map_eq_some_iff.mp taken
    replace moved := Request.moved_of_act moved
    intro other q found
    rcases getElem?_set_eq_some found with ⟨rfl, rfl⟩ | ⟨different, found⟩
    · exact (firm index r here).moved moved
    · have before := firm other q found
      exact ⟨before.begun, before.releasing,
        fun owner firmly => moved.frame (Ne.symm different) (before.holds owner firmly)⟩

theorem Firm.unique (firm : s.Firm) {i j : Nat} {r q : Request}
    (first : s.requests[i]? = some r) (second : s.requests[j]? = some q)
    (owner : r.stage = .owner) (owner' : q.stage = .owner) (firmly : ¬ r.GaveUp)
    (firmly' : ¬ q.GaveUp) : i = j :=
  ((firm i r first).holds owner firmly).unique ((firm j q second).holds owner' firmly')

theorem firm_of_run {actions : List SystemAction}
    (run : Steps (Executes System.act) .empty actions s) : s.Firm := by
  apply run.invariant Firm
  · intro s action t firm taken
    exact firm.act taken
  · intro index r found
    cases found

end System

/-- Among the requests with a key, the side effect takes place in at most one whose response is
recorded; and a handler starts while another is running only if one of the two has given the key up.
-/
theorem key_runs_once_unless_given_up {actions : List SystemAction} {s : System}
    (run : Steps (Executes System.act) .empty actions s) :
    (∀ (i j : Nat) (r q : Request), s.requests[i]? = some r → s.requests[j]? = some q →
      r.effect = true → q.effect = true → r.Recorded → q.Recorded → i = j) ∧
    ∀ (i j : Nat) (r q : Request) t, s.act (.request j .start) = some t → s.requests[i]? = some r →
      s.requests[j]? = some q → r.handler = .running → r.GaveUp ∨ q.GaveUp := by
  have firm := System.firm_of_run run
  constructor
  · intro i j r q first second effect effect' recorded recorded'
    exact firm.unique first second ((firm i r first).begun (.inr effect))
      ((firm j q second).begun (.inr effect')) recorded.not_gaveUp recorded'.not_gaveUp
  · intro i j r q t started first second running
    simp only [System.act, second, Option.map_eq_some_iff, Request.act,
      Option.ite_none_right_eq_some] at started
    obtain ⟨_, ⟨⟨owner, waiting⟩, -⟩, -⟩ := started
    by_contra kept
    rw [not_or] at kept
    have begun := (firm i r first).begun (.inl (by simp [running]))
    have same := firm.unique first second begun owner kept.1 kept.2
    rw [same, second] at first
    cases first
    rw [waiting] at running
    cases running

/-- Two requests that both take effect and end with 200; the first could not tell that its response
was recorded. -/
def recordLost : List SystemAction :=
  [.arrive [102], .request 0 (.reserve .answered), .request 0 .start, .request 0 .effect,
    .request 0 (.send .null), .request 0 .returns, .request 0 (.finish 200 none),
    .request 0 (.complete (.lost ())), .request 0 (.release .answered), .arrive [102],
    .request 1 (.reserve .answered), .request 1 .start, .request 1 .effect,
    .request 1 (.send .null), .request 1 .returns, .request 1 (.finish 200 none)]

/-- A request whose connection closes while its handler runs, and its retry. -/
def closedEarly : List SystemAction :=
  [.arrive [102], .request 0 (.reserve .answered), .request 0 .start, .request 0 .close,
    .request 0 (.release .answered), .arrive [102], .request 1 (.reserve .answered),
    .request 1 .start]

/-- Requests that give their key up may take effect twice, and run at the same time. -/
theorem key_runs_twice : (∃ s, Steps (Executes System.act) .empty recordLost s ∧
      (s.requests.map fun r => (r.fingerprint, r.effect, r.response)) =
        [([102], true, .finished 200 true), ([102], true, .finished 200 true)]) ∧
    ∃ s, Steps (Executes System.act) .empty closedEarly s ∧
      s.requests.map Request.handler = [.running, .running] := by
  decide +kernel

/-- A request whose response is recorded, and a retry that is answered with it. -/
def replay : List SystemAction :=
  recordLost.take 7 ++ [.request 0 (.complete .answered), .arrive [102],
    .request 1 (.reserve .answered)]

theorem key_runs_once_in_retries : ∃ s, Steps (Executes System.act) .empty replay s ∧
    (s.requests.map fun r => (r.stage, r.effect, r.response, r.recordFailed)) =
      [(.owner, true, .finished 200 true, false),
        (.answered (.replayed ⟨200, none, none⟩), false, .writing, false)] ∧
    ∀ (i j : Nat) (r q : Request), s.requests[i]? = some r → s.requests[j]? = some q →
      r.effect = true → q.effect = true → r.Recorded → q.Recorded → i = j :=
  exists_and_of (by decide +kernel) fun _ run _ => (key_runs_once_unless_given_up run).1

end NestApi.Idempotency
