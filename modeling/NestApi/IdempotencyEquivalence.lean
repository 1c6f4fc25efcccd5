import NestApi.IdempotencyRedis

namespace NestApi.Idempotency

open JsonText (Numbers)

abbrev Expiring (α : Type) := OrderedMap Utf16 (α × Int)

namespace Expiring

variable {α : Type}

/-- What is under a key, which is gone from the instant its time to live has elapsed. -/
def live (entries : Expiring α) (now : Int) (key : Utf16) : Option α :=
  (entries.get key).bind fun entry => if now < entry.2 then some entry.1 else none

theorem live_set (entries : Expiring α) (now : Int) (key other : Utf16) (entry : α × Int) :
    live (entries.set key entry) now other =
      if other = key then if now < entry.2 then some entry.1 else none
      else entries.live now other := by
  rw [live, OrderedMap.get_set]
  split <;> rfl

theorem live_delete (entries : Expiring α) (now : Int) (key other : Utf16) :
    live (entries.delete key) now other = if other = key then none else entries.live now other := by
  rw [live, OrderedMap.get_delete]
  split <;> rfl

end Expiring

inductive TimedCall where
  | reserve (key : Utf16) (record : IdempotencyRecord Utf16) (ttlMs : Int)
  | complete (key lease : Utf16) (response : RecordedResponse) (ttlMs : Int)
  | release (key lease : Utf16)
  | get (key : Utf16)

inductive StoreAnswer where
  | found (record : Option (IdempotencyRecord Utf16))
  | done (held : Bool)

/-- Well-formed strings, and whole times to live of at least a millisecond. -/
def TimedCall.Clean : TimedCall → Prop
  | reserve _ record ttlMs => Redis.Clean record ∧ 1 ≤ ttlMs
  | complete _ _ response ttlMs => Redis.CleanResponse response ∧ 1 ≤ ttlMs
  | release .. | get _ => True

namespace Memory

abbrev Entries := Expiring (IdempotencyRecord Utf16)

variable (entries : Entries) (now : Int)

/-- Expiry is swept on read. -/
def read (key : Utf16) : Option (IdempotencyRecord Utf16) × Entries :=
  match entries.get key with
  | none => (none, entries)
  | some (record, expiresAt) =>
    if expiresAt ≤ now then (none, entries.delete key) else (some record, entries)

def call : TimedCall → StoreAnswer × Entries
  | .reserve key record ttlMs =>
    match read entries now key with
    | (some existing, swept) => (.found (some existing), swept)
    | (none, swept) => (.found none, swept.set key (record, now + ttlMs))
  | .complete key lease response ttlMs =>
    match read entries now key with
    | (some existing, swept) =>
      if existing.lease = lease then
        (.done true, swept.set key
          (⟨existing.fingerprint, lease, .completed response⟩, now + ttlMs))
      else (.done false, swept)
    | (none, swept) => (.done false, swept)
  | .release key lease =>
    match read entries now key with
    | (some existing, swept) =>
      if existing.lease = lease then (.done true, swept.delete key) else (.done false, swept)
    | (none, swept) => (.done false, swept)
  | .get key => (.found (read entries now key).1, (read entries now key).2)

end Memory

namespace Redis

def keyPrefix : Utf16 := Utf16.ofString "idempotency:"

/-- `PX` rejects zero. -/
def normaliseTtl (ttlMs : Int) : Int := max 1 ttlMs

variable {numbers : Numbers ℚ} (cjson : Cjson numbers) (server : Expiring (List Char)) (now : Int)

/-- A call whose commands all reach the server at one instant. -/
def call : TimedCall → StoreAnswer × Expiring (List Char)
  | .reserve key record ttlMs =>
    match reserve numbers (server.live now (keyPrefix ++ key)) record with
    | (none, some text) =>
      (.found none, server.set (keyPrefix ++ key) (text, now + normaliseTtl ttlMs))
    | (found, _) => (.found found, server)
  | .complete key lease response ttlMs =>
    match completeIfLeased cjson (server.live now (keyPrefix ++ key)) lease response with
    | (true, some text) =>
      (.done true, server.set (keyPrefix ++ key) (text, now + normaliseTtl ttlMs))
    | (held, _) => (.done held, server)
  | .release key lease =>
    match releaseIfLeased cjson (server.live now (keyPrefix ++ key)) lease with
    | (true, _) => (.done true, server.delete (keyPrefix ++ key))
    | (false, _) => (.done false, server)
  | .get key => (.found ((server.live now (keyPrefix ++ key)).bind (parseRecord numbers)), server)

end Redis

def answers {σ : Type} (call : σ → Int → TimedCall → StoreAnswer × σ) :
    σ → List (Int × TimedCall) → List StoreAnswer
  | _, [] => []
  | state, (now, made) :: rest =>
    (call state now made).1 :: answers call (call state now made).2 rest

section Alike

variable {numbers : Numbers ℚ} {cjson : Redis.Cjson numbers} {before now : Int}
  {entries : Memory.Entries} {server : Expiring (List Char)} {key : Utf16}

/-- From now on, what either store has under a key stands for what the other has. -/
def Alike (cjson : Redis.Cjson numbers) (now : Int) (entries : Memory.Entries)
    (server : Expiring (List Char)) : Prop :=
  ∀ later, now ≤ later → ∀ key,
    Redis.Related cjson (server.live later (Redis.keyPrefix ++ key)) (entries.live later key)

/-- What is swept had expired, so that nothing is missed later. -/
theorem Memory.read_sweeps (entries : Memory.Entries) (now : Int) (key : Utf16) :
    ∃ swept, Memory.read entries now key = (entries.live now key, swept) ∧
      ∀ later, now ≤ later → ∀ other, swept.live later other = entries.live later other := by
  cases found : entries.get key with
  | none => exact ⟨entries, by simp [Memory.read, Expiring.live, found], fun _ _ _ => rfl⟩
  | some entry =>
    by_cases expired : entry.2 ≤ now
    · have gone : ∀ later, now ≤ later → entries.live later key = none := by
        intro later after
        simp only [Expiring.live, found, Option.bind_some]
        exact if_neg (by omega)
      refine ⟨entries.delete key, ?_, ?_⟩
      · simp [Memory.read, found, expired, gone now le_rfl]
      · intro later after other
        rw [Expiring.live_delete]
        split
        · rename_i same
          rw [same, gone later after]
        · rfl
    · refine ⟨entries, ?_, fun _ _ _ => rfl⟩
      simp [Memory.read, Expiring.live, found, expired, not_le.mp expired]

/-- Both stores find nothing under a key, or a record and its text. -/
theorem Alike.read (alike : Alike cjson before entries server) (after : before ≤ now)
    (key : Utf16) : ∃ swept, Alike cjson now swept server ∧
      (Memory.read entries now key = (none, swept) ∧
          server.live now (Redis.keyPrefix ++ key) = none ∨
        ∃ text existing, Memory.read entries now key = (some existing, swept) ∧
          server.live now (Redis.keyPrefix ++ key) = some text ∧ Redis.Clean existing ∧
          Redis.Reads cjson text existing) := by
  obtain ⟨swept, read, same⟩ := Memory.read_sweeps entries now key
  refine ⟨swept, ?_, ?_⟩
  · intro later more other
    rw [same later more]
    exact alike later (after.trans more) other
  · rw [read]
    rcases Redis.related_cases (alike now after key) with
      ⟨free, none⟩ | ⟨text, existing, taken, found, clean, reads⟩
    · exact .inl ⟨by rw [none], free⟩
    · exact .inr ⟨text, existing, by rw [found], taken, clean, reads⟩

theorem Alike.set (alike : Alike cjson now entries server) {text : List Char}
    {record : IdempotencyRecord Utf16} (related : Redis.Related cjson (some text) (some record))
    (expiresAt : Int) : Alike cjson now (entries.set key (record, expiresAt))
      (server.set (Redis.keyPrefix ++ key) (text, expiresAt)) := by
  intro later more other
  rw [Expiring.live_set, Expiring.live_set]
  simp only [List.append_cancel_left_eq]
  by_cases same : other = key
  · rw [if_pos same, if_pos same]
    by_cases present : later < expiresAt
    · rw [if_pos present, if_pos present]
      exact related
    · rw [if_neg present, if_neg present]
      trivial
  · rw [if_neg same, if_neg same]
    exact alike later more other

theorem Alike.delete (alike : Alike cjson now entries server) :
    Alike cjson now (entries.delete key) (server.delete (Redis.keyPrefix ++ key)) := by
  intro later more other
  rw [Expiring.live_delete, Expiring.live_delete]
  simp only [List.append_cancel_left_eq]
  by_cases same : other = key
  · rw [if_pos same, if_pos same]
    trivial
  · rw [if_neg same, if_neg same]
    exact alike later more other

theorem Alike.call (alike : Alike cjson before entries server) (after : before ≤ now)
    {made : TimedCall} (clean : made.Clean) :
    (Memory.call entries now made).1 = (Redis.call cjson server now made).1 ∧
      Alike cjson now (Memory.call entries now made).2 (Redis.call cjson server now made).2 := by
  cases made with
  | reserve key record ttlMs =>
    have whole : Redis.normaliseTtl ttlMs = ttlMs := max_eq_right clean.2
    obtain ⟨swept, kept, ⟨none, free⟩ | ⟨text, existing, found, taken, -, reads⟩⟩ :=
      alike.read after key
    · simp only [Memory.call, none, Redis.call, Redis.reserve, free, whole]
      exact ⟨trivial, kept.set ⟨clean.1, Redis.reads_recordText clean.1⟩ _⟩
    · simp only [Memory.call, found, Redis.call, Redis.reserve, taken, reads.parsed]
      exact ⟨trivial, kept⟩
  | complete key lease response ttlMs =>
    have whole : Redis.normaliseTtl ttlMs = ttlMs := max_eq_right clean.2
    obtain ⟨swept, kept, ⟨none, free⟩ | ⟨text, existing, found, taken, own, reads⟩⟩ :=
      alike.read after key
    · simp only [Memory.call, none, Redis.call, free, Redis.completeIfLeased, Redis.leased,
        Option.bind_none]
      exact ⟨trivial, kept⟩
    · have related : Redis.Related cjson (some text) (some existing) := ⟨own, reads⟩
      obtain ⟨held, written⟩ := Redis.complete_refines related lease clean.1
      simp only [Memory.call, found, Redis.call, taken]
      generalize Redis.completeIfLeased cjson (some text) lease response = sent at held written
      obtain ⟨granted, raw⟩ := sent
      by_cases mine : existing.lease = lease
      · simp only [Store.complete, if_pos mine] at held written
        subst held
        cases raw with
        | none => cases written
        | some =>
          simp only [if_pos mine, whole]
          exact ⟨trivial, kept.set written _⟩
      · simp only [Store.complete, if_neg mine] at held
        subst held
        simp only [if_neg mine]
        exact ⟨trivial, kept⟩
  | release key lease =>
    obtain ⟨swept, kept, ⟨none, free⟩ | ⟨text, existing, found, taken, own, reads⟩⟩ :=
      alike.read after key
    · simp only [Memory.call, none, Redis.call, free, Redis.releaseIfLeased, Redis.leased,
        Option.bind_none]
      exact ⟨trivial, kept⟩
    · have related : Redis.Related cjson (some text) (some existing) := ⟨own, reads⟩
      have held := (Redis.release_refines related lease).1
      simp only [Memory.call, found, Redis.call, taken]
      generalize Redis.releaseIfLeased cjson (some text) lease = sent at held
      obtain ⟨granted, raw⟩ := sent
      by_cases mine : existing.lease = lease
      · simp only [Store.release, if_pos mine] at held
        subst held
        simp only [if_pos mine]
        exact ⟨trivial, kept.delete⟩
      · simp only [Store.release, if_neg mine] at held
        subst held
        simp only [if_neg mine]
        exact ⟨trivial, kept⟩
  | get key =>
    obtain ⟨swept, kept, ⟨none, free⟩ | ⟨text, existing, found, taken, -, reads⟩⟩ :=
      alike.read after key
    · simp only [Memory.call, none, Redis.call, free, Option.bind_none]
      exact ⟨trivial, kept⟩
    · simp only [Memory.call, found, Redis.call, taken, Option.bind_some, reads.parsed]
      exact ⟨trivial, kept⟩

theorem Alike.answers {calls : List (Int × TimedCall)}
    (inOrder : calls.Pairwise fun one two => one.1 ≤ two.1)
    (clean : ∀ made ∈ calls, made.2.Clean) (alike : Alike cjson before entries server)
    (after : ∀ made ∈ calls, before ≤ made.1) :
    answers Memory.call entries calls = answers (Redis.call cjson) server calls := by
  induction calls generalizing before entries server with
  | nil => rfl
  | cons made rest ih =>
    obtain ⟨first, inOrder⟩ := List.pairwise_cons.mp inOrder
    obtain ⟨own, clean⟩ := List.forall_mem_cons.mp clean
    obtain ⟨answer, next⟩ := alike.call (List.forall_mem_cons.mp after).1 own
    exact congrArg₂ List.cons answer (ih inOrder clean next first)

end Alike

/-- The two stores answer every sequence of calls alike. -/
theorem stores_interchangeable {numbers : Numbers ℚ} (cjson : Redis.Cjson numbers)
    (calls : List (Int × TimedCall)) (inOrder : calls.Pairwise fun one two => one.1 ≤ two.1)
    (clean : ∀ made ∈ calls, made.2.Clean) :
    answers Memory.call .empty calls = answers (Redis.call cjson) .empty calls := by
  cases calls with
  | nil => rfl
  | cons made =>
    have alike : Alike cjson made.1 .empty .empty := fun _ _ _ => trivial
    have first := (List.pairwise_cons.mp inOrder).1
    exact alike.answers inOrder clean (List.forall_mem_cons.mpr ⟨le_rfl, first⟩)

/-- A key that is reserved, completed and released, and one that expires. -/
theorem stores_agree_on_a_day : ∃ calls : List (Int × TimedCall), calls.length = 5 ∧
    answers Memory.call .empty calls = answers (Redis.call plainCjson) .empty calls := by
  let reserved : IdempotencyRecord Utf16 := ⟨[], [], .inFlight⟩
  have clean : Redis.Clean reserved := ⟨⟨"", rfl⟩, ⟨"", rfl⟩, nofun⟩
  let calls : List (Int × TimedCall) :=
    [(0, .reserve [1] reserved 10), (0, .reserve [2] reserved 5),
      (4, .complete [1] [] ⟨200, none, none⟩ 10), (5, .get [2]), (14, .release [1] [])]
  refine ⟨calls, rfl, stores_interchangeable plainCjson calls (by simp [calls]) ?_⟩
  simp only [calls, List.forall_mem_cons]
  exact ⟨⟨clean, by decide⟩, ⟨clean, by decide⟩,
    ⟨⟨⟨200, by decide, rfl⟩, nofun, nofun⟩, by decide⟩, trivial, trivial, nofun⟩

end NestApi.Idempotency
