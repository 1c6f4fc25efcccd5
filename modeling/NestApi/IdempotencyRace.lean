import NestApi.IdempotencyRedis
import NestApi.Indexed
import NestApi.Transition

namespace NestApi.Idempotency.Redis

open JsonText (Numbers)

def reserveAttempts : Nat := 3

/-- Where a `reserve` call is, between the commands it sends. -/
inductive Place where
  | claiming (attempt : Nat)
  | reading (attempt : Nat)
  | replacing
  | returned (found : Option (IdempotencyRecord Utf16))
  | unavailable
  deriving DecidableEq

structure Reservation where
  fingerprint : Utf16
  lease : Utf16
  place : Place
  deriving DecidableEq

def Reservation.record (call : Reservation) : IdempotencyRecord Utf16 :=
  ⟨call.fingerprint, call.lease, .inFlight⟩

structure Contest where
  raw : Option (List Char)
  calls : List Reservation

section

variable (numbers : Numbers ℚ)

/-- One command of a call: what it leaves at the key, and where it takes the call. -/
def command (raw : Option (List Char)) (record : IdempotencyRecord Utf16) :
    Place → Option (Option (List Char) × Place)
  | .claiming attempt =>
    match raw with
    | none => some (some (recordText numbers record), .returned none)
    | some _ => some (raw, .reading attempt)
  | .reading attempt =>
    match raw with
    | none =>
      -- The holder's key expired between the two commands.
      some (raw, if attempt + 1 < reserveAttempts then .claiming (attempt + 1) else .unavailable)
    | some text =>
      match parseRecord numbers text with
      | some existing => some (raw, .returned (some existing))
      | none => some (raw, .replacing)
  | .replacing => some (some (recordText numbers record), .returned none)
  | .returned _ | .unavailable => none

def Contest.act (s : Contest) (index : Nat) : Option Contest :=
  (s.calls[index]?).bind fun call =>
    (command numbers s.raw call.record call.place).map fun sent =>
      ⟨sent.1, s.calls.set index { call with place := sent.2 }⟩

/-- At most one call is told to run its handler, and its record is the one stored. -/
structure Contest.Exclusive (s : Contest) : Prop where
  one : ∀ (i j : Nat) (first second : Reservation), s.calls[i]? = some first →
    s.calls[j]? = some second → first.place = .returned none → second.place = .returned none → i = j
  stored : ∀ call ∈ s.calls, call.place = .returned none →
    ∃ text record, s.raw = some text ∧ parseRecord numbers text = some record ∧
      record.lease = call.lease

def Fresh (calls : List Reservation) : Prop :=
  (∀ call ∈ calls, call.place = .claiming 0) ∧ (calls.map Reservation.lease).Nodup
  deriving Decidable

def Readable (raw : Option (List Char)) : Prop :=
  raw = none ∨ ∃ text record, raw = some text ∧ parseRecord numbers text = some record

end

variable {numbers : Numbers ℚ} {s t : Contest} {index : Nat}

theorem parseRecord_reservation (call : Reservation) :
    parseRecord numbers (recordText numbers call.record) = some call.record := by
  have distinct : ((recordFields call.record).map Prod.fst).Nodup := by
    simp only [recordFields, Reservation.record, List.map_cons, List.map_nil]
    decide
  have exact : JsonText.Exact numbers (.obj (recordFields call.record)) :=
    ⟨distinct, trivial, trivial, trivial, trivial⟩
  rw [parseRecord, recordText, JsonText.parse_print exact, Option.bind_some]
  exact readRecord_of_agrees fun _ => rfl

theorem act_eq_some (taken : s.act numbers index = some t) : ∃ call raw place,
    s.calls[index]? = some call ∧ command numbers s.raw call.record call.place = some (raw, place) ∧
      t = ⟨raw, s.calls.set index { call with place }⟩ := by
  obtain ⟨call, found, sent⟩ := Option.bind_eq_some_iff.mp taken
  obtain ⟨⟨raw, place⟩, command, rfl⟩ := Option.map_eq_some_iff.mp sent
  exact ⟨call, raw, place, found, command, rfl⟩

/-- What is at the key can be read, so that nobody ever replaces it. -/
structure Orderly (numbers : Numbers ℚ) (s : Contest) : Prop where
  readable : Readable numbers s.raw
  patient : ∀ call ∈ s.calls, call.place ≠ .replacing
  unread : s.raw = none → ∀ call ∈ s.calls, ∃ attempt, call.place = .claiming attempt
  stored : ∀ call ∈ s.calls, call.place = .returned none →
    s.raw = some (recordText numbers call.record)
  leases : (s.calls.map Reservation.lease).Nodup

theorem Orderly.act (orderly : Orderly numbers s) (taken : s.act numbers index = some t) :
    Orderly numbers t := by
  obtain ⟨call, raw, place, found, sent, rfl⟩ := act_eq_some taken
  have member := List.mem_of_getElem? found
  have same : (s.calls.set index { call with place }).map Reservation.lease =
      s.calls.map Reservation.lease := map_set_of_eq Reservation.lease found rfl
  have leases := same ▸ orderly.leases
  cases here : call.place with
  | claiming attempt =>
    cases free : s.raw with
    | none =>
      rw [here, free] at sent
      cases sent
      have first : ∀ other ∈ s.calls, other.place ≠ .replacing ∧ other.place ≠ .returned none := by
        intro other present
        obtain ⟨attempt, waits⟩ := orderly.unread free other present
        rw [waits]
        exact ⟨nofun, nofun⟩
      refine ⟨.inr ⟨_, _, rfl, parseRecord_reservation call⟩, ?_, nofun, ?_, leases⟩
      · exact forall_mem_set orderly.patient nofun
      · exact forall_mem_set (fun other present granted => absurd granted (first other present).2)
          fun _ => rfl
    | some =>
      rw [here, free] at sent
      cases sent
      exact ⟨free ▸ orderly.readable, forall_mem_set orderly.patient nofun, nofun,
        forall_mem_set (free ▸ orderly.stored) nofun, leases⟩
  | reading =>
    rcases orderly.readable with free | ⟨text, record, holds, read⟩
    · obtain ⟨_, waits⟩ := orderly.unread free call member
      cases here.symm.trans waits
    · rw [here, holds] at sent
      simp only [command, read] at sent
      cases sent
      exact ⟨.inr ⟨text, record, rfl, read⟩, forall_mem_set orderly.patient nofun, nofun,
        forall_mem_set (holds ▸ orderly.stored) nofun, leases⟩
  | replacing => exact absurd here (orderly.patient call member)
  | returned | unavailable =>
    rw [here] at sent
    cases sent

theorem Orderly.exclusive (orderly : Orderly numbers s) : s.Exclusive numbers where
  one := by
    intro i j first second here there granted granted'
    have stored := orderly.stored first (List.mem_of_getElem? here) granted
    rw [orderly.stored second (List.mem_of_getElem? there) granted'] at stored
    have read := congrArg (parseRecord numbers) (Option.some.inj stored)
    rw [parseRecord_reservation, parseRecord_reservation] at read
    have same : second.lease = first.lease := congrArg (·.lease) (Option.some.inj read)
    have inside : i < (s.calls.map Reservation.lease).length := by
      rw [List.length_map]
      exact lt_of_getElem? here
    rw [← List.getElem?_inj inside orderly.leases]
    rw [List.getElem?_map, List.getElem?_map, here, there, Option.map_some, Option.map_some, same]
  stored := by
    intro call member granted
    exact ⟨_, _, orderly.stored call member granted, parseRecord_reservation call, rfl⟩

def rivals : List Reservation := [⟨[], [], .claiming 0⟩, ⟨[], [1], .claiming 0⟩]

/-- Both find the key taken, both find what is there unreadable, and both replace it. -/
theorem both_replace {text : List Char} (unread : parseRecord numbers text = none) :
    ∃ t, Steps (Executes (Contest.act numbers)) ⟨some text, rivals⟩ [0, 0, 1, 1, 0, 1] t ∧
      ¬ t.Exclusive numbers := by
  refine ⟨_, steps_iff_execute.mpr (by simp [execute, Contest.act, command, rivals, unread]; rfl),
    ?_⟩
  intro exclusive
  exact absurd (exclusive.one 0 1 _ _ rfl rfl rfl rfl) (by decide)

/-- A reservation has one owner unless what the key holds at first cannot be read. -/
theorem one_owner_iff (numbers : Numbers ℚ) (raw : Option (List Char)) :
    (∀ calls, Fresh calls → ∀ actions s,
      Steps (Executes (Contest.act numbers)) ⟨raw, calls⟩ actions s → s.Exclusive numbers) ↔
    Readable numbers raw := by
  constructor
  · intro exclusive
    cases raw with
    | none => exact .inl rfl
    | some text =>
      cases read : parseRecord numbers text with
      | some record => exact .inr ⟨text, record, rfl, read⟩
      | none =>
        obtain ⟨t, run, both⟩ := both_replace read
        exact absurd (exclusive rivals (by decide) _ t run) both
  · intro readable calls fresh actions s run
    have orderly : Orderly numbers s := by
      refine run.invariant (Orderly numbers) (fun _ _ _ orderly taken => orderly.act taken) ?_
      refine ⟨readable, ?_, fun _ call member => ⟨0, fresh.1 call member⟩, ?_, fresh.2⟩
      · intro call member
        rw [fresh.1 call member]
        nofun
      · intro call member
        rw [fresh.1 call member]
        nofun
    exact orderly.exclusive

/-- A key that holds something else: both requests are told to run their handler. -/
theorem two_owners_of_unreadable : ∃ t,
    Steps (Executes (Contest.act plainNumbers)) ⟨some "oops".toList, rivals⟩ [0, 0, 1, 1, 0, 1] t ∧
      ¬ t.Exclusive plainNumbers :=
  both_replace (by decide +kernel)

end NestApi.Idempotency.Redis
