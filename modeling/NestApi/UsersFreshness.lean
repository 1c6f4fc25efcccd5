import NestApi.Indexed
import NestApi.UsersApi
import Mathlib.Data.List.Chain

namespace NestApi.Users

/-- A row as it was read, with the number of the commit that left it so. -/
structure Snapshot where
  commit : Nat
  user : User
  deriving DecidableEq

inductive Answer where
  | found (snapshot : Snapshot)
  | notFound (commit : Nat)
  deriving DecidableEq

/-- A `GET /users/:id` under way. `since` is the newest commit whose command had returned when
it started. -/
inductive Reader where
  | looking (since : Nat)
  | reading (since : Nat)
  | storing (since : Nat) (snapshot : Snapshot)
  | answered (since : Nat) (answer : Answer)
  deriving DecidableEq

inductive Writer where
  | checking (change : Change) (expected : ExpectedVersion) (now : Nat)
  | merging (dto : PreferencesPatch) (expected : ExpectedVersion) (now : Nat)
  | writing (statement : UserStatement)
  | evictingPreferences (commit : Nat)
  | evicting (commit : Nat)
  | removed
  | removedAndEvicted
  | returned
  | failed

/-- One user and its cache entry. The log has the row after each commit, oldest first. -/
structure Cell where
  id : String
  log : List (Option User)
  cache : Option Snapshot
  lock : Option Nat
  readers : List Reader
  writers : List Writer
  returned : Nat

namespace Cell

def opening (id : String) (row : Option User) : Cell where
  id
  log := [row]
  cache := none
  lock := none
  readers := []
  writers := []
  returned := 0

def row (cell : Cell) : Option User := cell.log.getLast?.join

def newest (cell : Cell) : Nat := cell.log.length - 1

def commit (cell : Cell) (row : Option User) : Cell := { cell with log := cell.log ++ [row] }

def evict (cell : Cell) : Cell := { cell with cache := none }

def acknowledge (cell : Cell) (commit : Nat) : Cell :=
  { cell with returned := max cell.returned commit }

def setLock (cell : Cell) (lock : Option Nat) : Cell := { cell with lock }

def setReader (cell : Cell) (i : Nat) (reader : Reader) : Cell :=
  { cell with readers := cell.readers.set i reader }

def setWriter (cell : Cell) (j : Nat) (writer : Writer) : Cell :=
  { cell with writers := cell.writers.set j writer }

end Cell

/-- `assertPrecondition` on the row. -/
def preconditionMet (row : Option User) (expected : ExpectedVersion) : Bool :=
  expected ≠ .unconditional && row.any fun user => isSatisfiedBy expected user.version

/-- The next step of a `GET`: the lookup, the read, the store. -/
def stepReader (cell : Cell) (i : Nat) : Reader → Option Cell
  | .looking since => some (cell.setReader i (match cell.cache with
      | some snapshot => .answered since (.found snapshot)
      | none => .reading since))
  | .reading since => some (cell.setReader i (match cell.row with
      | some user => .storing since ⟨cell.newest, user⟩
      | none => .answered since (.notFound cell.newest)))
  | .storing since snapshot => some ({ cell with cache := some snapshot }.setReader i
      (.answered since (.found snapshot)))
  | .answered .. => none

def afterUpdate (statement : UserStatement) (commit : Nat) : Writer :=
  match statement with
  | .setPreferences .. => .evictingPreferences commit
  | _ => .evicting commit

/-- The next step of a write command. An update commits and then evicts; a delete evicts inside its
transaction, which keeps the row locked, and then commits. -/
def stepWriter (cell : Cell) (j : Nat) : Writer → Option Cell
  | .checking change expected now =>
    some (cell.setWriter j (
      if preconditionMet cell.row expected then
        match change with
        | .update data => .writing (.update cell.id data expected now)
        | .patch dto => .merging dto expected now
        | .delete => .writing (.delete cell.id expected)
      else .failed))
  | .merging dto expected now => some (cell.setWriter j (match cell.row with
      | some user => .writing (.setPreferences cell.id
          (mergePreferences user.storedPreferences dto) expected now)
      | none => .failed))
  | .writing statement =>
    if cell.lock.isSome then none
    else some (match cell.row.filter statement.admits with
      | none => cell.setWriter j .failed
      | some user =>
        match statement.assign user with
        | some user' => (cell.commit (some user')).setWriter j
            (afterUpdate statement cell.log.length)
        | none => (cell.setLock (some j)).setWriter j .removed)
  | .evictingPreferences commit => some (cell.setWriter j (.evicting commit))
  | .evicting commit => some ((cell.evict.acknowledge commit).setWriter j .returned)
  | .removed => some (cell.evict.setWriter j .removedAndEvicted)
  | .removedAndEvicted => some ((((cell.commit none).acknowledge cell.log.length).setLock
      none).setWriter j .returned)
  | .returned => none
  | .failed => none

/-- A command gives up: its statement, its transaction or its eviction failed, or its process. -/
def failWriter (cell : Cell) (j : Nat) : Writer → Option Cell
  | .returned => none
  | _ => some ((cell.setLock (if cell.lock = some j then none else cell.lock)).setWriter j .failed)

inductive Move where
  | get
  | read (i : Nat)
  | command (change : Change) (expected : ExpectedVersion) (now : Nat)
  | write (j : Nat)
  | fail (j : Nat)
  | register (user : User)
  | evict

/-- A request takes its next step, a row is created under the id, or the entry expires or is evicted
by the projector. -/
def move (cell : Cell) : Move → Option Cell
  | .get => some { cell with readers := cell.readers ++ [.looking cell.returned] }
  | .read i => cell.readers[i]?.bind (stepReader cell i)
  | .command change expected now =>
    some { cell with writers := cell.writers ++ [.checking change expected now] }
  | .write j => cell.writers[j]?.bind (stepWriter cell j)
  | .fail j => cell.writers[j]?.bind (failWriter cell j)
  | .register user =>
    if cell.row = none then some (cell.commit (some { user with id := cell.id, version := 0 }))
    else none
  | .evict => some cell.evict

/-- A command that nothing comes between runs the statement that the handler of its route plans. -/
theorem command_runs_plan {list : ListStatement} {request : Request} {rows : Table User.id}
    {statement : UserStatement} {body : User → Body}
    (planned : plan list request rows = .ok (.write statement body)) :
    ∃ id change expected, request.write = some (id, change, expected) ∧
      ∀ cell j, cell.id = id → cell.row = rows.find id →
        cell.writers[j]? = some (.checking change expected request.now) →
        ∃ moves, Steps (Executes move) cell moves (cell.setWriter j (.writing statement)) := by
  obtain ⟨id, change, expected, user, asked, met, rfl⟩ := plan_eq_write planned
  obtain ⟨found, conditional, satisfied⟩ := assertPrecondition_eq_ok.mp met
  refine ⟨id, change, expected, asked, ?_⟩
  rintro cell j rfl row here
  rw [found] at row
  have checks : preconditionMet cell.row expected = true := by
    simp [preconditionMet, conditional, row, satisfied]
  cases change with
  | update | delete =>
    exact ⟨[.write j], .single (by simp [Executes, move, here, stepWriter, checks,
      Change.statement])⟩
  | patch dto =>
    refine ⟨[.write j, .write j], .cons (t := cell.setWriter j (.merging dto expected request.now))
      (by simp [Executes, move, here, stepWriter, checks]) (.single ?_)⟩
    have there : (cell.setWriter j (.merging dto expected request.now)).writers[j]? = some _ :=
      getElem?_set_of_some here _
    simp only [Executes, move, there, Option.bind_some, stepWriter,
      show (cell.setWriter j (.merging dto expected request.now)).row = some user from row]
    simp [Cell.setWriter, Change.statement]

section Freshness

def Shown (log : List (Option User)) (snapshot : Snapshot) : Prop :=
  log[snapshot.commit]? = some (some snapshot.user)

/-- A `GET` is answered with the row, or its absence, as some commit left it that is no older than
any command that had returned before. -/
def Reader.Fresh (log : List (Option User)) : Reader → Prop
  | .answered since (.found snapshot) => since ≤ snapshot.commit ∧ Shown log snapshot
  | .answered since (.notFound commit) => since ≤ commit ∧ log[commit]? = some none
  | _ => True

def Reader.Sound (log : List (Option User)) (returned : Nat) : Reader → Prop
  | .looking since => since ≤ returned
  | .reading since => since ≤ returned
  | .storing since snapshot => since ≤ snapshot.commit ∧ Shown log snapshot
  | reader => reader.Fresh log

def Writer.Sound (log : List (Option User)) : Writer → Prop
  | .evictingPreferences commit => commit < log.length
  | .evicting commit => commit < log.length
  | _ => True

structure Coherent (cell : Cell) : Prop where
  committed : cell.returned < cell.log.length
  cached : ∀ snapshot ∈ cell.cache, Shown cell.log snapshot ∧ cell.returned ≤ snapshot.commit
  readers : ∀ reader ∈ cell.readers, reader.Sound cell.log cell.returned
  writers : ∀ writer ∈ cell.writers, writer.Sound cell.log

/-- A `GET` stores no row older than a command that has returned. -/
def Reader.Orderly (cell : Cell) : Reader → Prop
  | .storing _ snapshot => cell.returned ≤ snapshot.commit
  | _ => True

/-- A delete does not commit under a cached row. -/
def Writer.Orderly (cell : Cell) : Writer → Prop
  | .removedAndEvicted => cell.cache = none
  | _ => True

def Orderly (cell : Cell) : Move → Prop
  | .read i => ∀ reader ∈ cell.readers[i]?, reader.Orderly cell
  | .write j => ∀ writer ∈ cell.writers[j]?, writer.Orderly cell
  | _ => True

instance (cell : Cell) : DecidablePred (Reader.Orderly cell)
  | .storing _ snapshot => inferInstanceAs (Decidable (cell.returned ≤ snapshot.commit))
  | .looking _ => isTrue trivial
  | .reading _ => isTrue trivial
  | .answered .. => isTrue trivial

instance (cell : Cell) : DecidablePred (Writer.Orderly cell)
  | .removedAndEvicted => inferInstanceAs (Decidable (cell.cache = none))
  | .checking .. => isTrue trivial
  | .merging .. => isTrue trivial
  | .writing _ => isTrue trivial
  | .evictingPreferences _ => isTrue trivial
  | .evicting _ => isTrue trivial
  | .removed => isTrue trivial
  | .returned => isTrue trivial
  | .failed => isTrue trivial

instance (cell : Cell) : DecidablePred (Orderly cell)
  | .read i => inferInstanceAs (Decidable (∀ reader ∈ cell.readers[i]?, reader.Orderly cell))
  | .write j => inferInstanceAs (Decidable (∀ writer ∈ cell.writers[j]?, writer.Orderly cell))
  | .get => isTrue trivial
  | .command .. => isTrue trivial
  | .fail _ => isTrue trivial
  | .register _ => isTrue trivial
  | .evict => isTrue trivial

variable {cell after : Cell} {log : List (Option User)} {returned : Nat} {action : Move}
  {snapshot : Snapshot} {reader : Reader} {writer : Writer}

theorem Shown.append (shown : Shown log snapshot) (row : Option User) :
    Shown (log ++ [row]) snapshot :=
  getElem?_concat_of_some shown row

theorem Reader.Fresh.append (fresh : reader.Fresh log) (row : Option User) :
    reader.Fresh (log ++ [row]) := by
  cases reader with
  | answered since answer =>
    cases answer with
    | found => exact ⟨fresh.1, fresh.2.append row⟩
    | notFound => exact ⟨fresh.1, getElem?_concat_of_some fresh.2 row⟩
  | _ => trivial

theorem Reader.Sound.append (sound : reader.Sound log returned) (row : Option User) :
    reader.Sound (log ++ [row]) returned := by
  cases reader with
  | looking | reading => exact sound
  | storing => exact ⟨sound.1, sound.2.append row⟩
  | answered => exact Reader.Fresh.append sound row

theorem Reader.Sound.later {returned' : Nat} (sound : reader.Sound log returned)
    (later : returned ≤ returned') : reader.Sound log returned' := by
  cases reader with
  | looking | reading => exact Nat.le_trans sound later
  | storing | answered => exact sound

theorem Reader.Sound.fresh (sound : reader.Sound log returned) : reader.Fresh log := by
  cases reader with
  | answered => exact sound
  | _ => trivial

namespace Coherent

section

variable (coherent : Coherent cell)

include coherent

theorem commit (row : Option User) : Coherent (cell.commit row) where
  committed := by
    have := coherent.committed
    simp only [Cell.commit, List.length_append, List.length_singleton]
    omega
  cached snapshot held := by
    obtain ⟨shown, recent⟩ := coherent.cached snapshot held
    exact ⟨shown.append row, recent⟩
  readers reader member := (coherent.readers reader member).append row
  writers writer member := by
    have sound := coherent.writers writer member
    cases writer with
    | evictingPreferences | evicting =>
      simp only [Writer.Sound, Cell.commit, List.length_append] at sound ⊢
      omega
    | _ => trivial

theorem evict : Coherent cell.evict where
  __ := coherent
  cached snapshot held := by cases held

theorem acknowledge {commit : Nat} (empty : cell.cache = none)
    (made : commit < cell.log.length) : Coherent (cell.acknowledge commit) where
  __ := coherent
  committed := by
    have := coherent.committed
    simp only [Cell.acknowledge]
    omega
  cached snapshot held := by
    rw [Cell.acknowledge, empty] at held
    cases held
  readers reader member := (coherent.readers reader member).later (Nat.le_max_left _ _)

theorem setLock (lock : Option Nat) : Coherent (cell.setLock lock) :=
  ⟨coherent.committed, coherent.cached, coherent.readers, coherent.writers⟩

theorem setReader (i : Nat)
    (sound : reader.Sound cell.log cell.returned) : Coherent (cell.setReader i reader) where
  __ := coherent
  readers other member := by
    rcases List.mem_or_eq_of_mem_set member with old | rfl
    · exact coherent.readers other old
    · exact sound

theorem setWriter (j : Nat)
    (sound : writer.Sound cell.log) : Coherent (cell.setWriter j writer) where
  __ := coherent
  writers other member := by
    rcases List.mem_or_eq_of_mem_set member with old | rfl
    · exact coherent.writers other old
    · exact sound

theorem row_newest : cell.log[cell.newest]? = some cell.row := by
  have inside : cell.log.length - 1 < cell.log.length := by
    have := coherent.committed
    omega
  rw [Cell.row, Cell.newest, List.getLast?_eq_getElem?, List.getElem?_eq_getElem inside]
  rfl

end

theorem stepReader {i : Nat} (coherent : Coherent cell)
    (sound : reader.Sound cell.log cell.returned) (orderly : reader.Orderly cell)
    (taken : Users.stepReader cell i reader = some after) : Coherent after := by
  have newest := coherent.committed
  cases reader with
  | looking =>
    cases taken
    apply coherent.setReader
    cases held : cell.cache with
    | none => exact sound
    | some snapshot =>
      obtain ⟨shown, recent⟩ := coherent.cached snapshot held
      exact ⟨Nat.le_trans sound recent, shown⟩
  | reading since =>
    have read := coherent.row_newest
    have recent : since ≤ cell.newest := by
      simp only [Reader.Sound] at sound
      simp only [Cell.newest]
      omega
    cases taken
    apply coherent.setReader
    cases held : cell.row with
    | none => exact ⟨recent, by rw [read, held]⟩
    | some => exact ⟨recent, by rw [Shown, read, held]⟩
  | storing since snapshot =>
    cases taken
    have stored : Coherent { cell with cache := some snapshot } := by
      refine ⟨coherent.committed, ?_, coherent.readers, coherent.writers⟩
      intro other held
      cases held
      exact ⟨sound.2, orderly⟩
    exact stored.setReader i sound
  | answered => cases taken

theorem stepWriter {j : Nat} (coherent : Coherent cell)
    (sound : writer.Sound cell.log) (orderly : writer.Orderly cell)
    (taken : Users.stepWriter cell j writer = some after) : Coherent after := by
  cases writer with
  | checking =>
    cases taken
    apply coherent.setWriter
    split
    · split <;> trivial
    · trivial
  | merging =>
    cases taken
    apply coherent.setWriter
    split <;> trivial
  | writing statement =>
    obtain ⟨-, rfl⟩ := of_ite_none taken
    split
    · exact coherent.setWriter j trivial
    · split
      · apply (coherent.commit _).setWriter
        cases statement <;> simp [afterUpdate, Writer.Sound, Cell.commit]
      · exact (coherent.setLock _).setWriter j trivial
  | evictingPreferences =>
    cases taken
    exact coherent.setWriter j sound
  | evicting =>
    cases taken
    exact (coherent.evict.acknowledge rfl sound).setWriter j trivial
  | removed =>
    cases taken
    exact coherent.evict.setWriter j trivial
  | removedAndEvicted =>
    cases taken
    have made : cell.log.length < (cell.commit none).log.length := by simp [Cell.commit]
    exact (((coherent.commit none).acknowledge orderly made).setLock none).setWriter j trivial
  | returned | failed => cases taken

theorem move {action : Move} (coherent : Coherent cell) (orderly : Orderly cell action)
    (taken : Users.move cell action = some after) : Coherent after := by
  cases action with
  | get =>
    cases taken
    refine ⟨coherent.committed, coherent.cached, ?_, coherent.writers⟩
    exact forall_mem_concat coherent.readers (Nat.le_refl cell.returned)
  | read =>
    obtain ⟨reader, here, taken⟩ := Option.bind_eq_some_iff.mp taken
    exact coherent.stepReader (coherent.readers reader (List.mem_of_getElem? here))
      (orderly reader here) taken
  | command =>
    cases taken
    exact ⟨coherent.committed, coherent.cached, coherent.readers,
      forall_mem_concat coherent.writers trivial⟩
  | write =>
    obtain ⟨writer, here, taken⟩ := Option.bind_eq_some_iff.mp taken
    exact coherent.stepWriter (coherent.writers writer (List.mem_of_getElem? here))
      (orderly writer here) taken
  | fail j =>
    obtain ⟨writer, -, taken⟩ := Option.bind_eq_some_iff.mp taken
    unfold failWriter at taken
    split at taken
    · cases taken
    · cases taken
      exact (coherent.setLock _).setWriter j trivial
  | register =>
    obtain ⟨-, rfl⟩ := of_ite_some taken
    exact coherent.commit _
  | evict =>
    cases taken
    exact coherent.evict

end Coherent

theorem coherent_opening (id : String) (row : Option User) : Coherent (.opening id row) where
  committed := Nat.zero_lt_one
  cached snapshot held := by cases held
  readers reader member := by cases member
  writers writer member := by cases member

theorem coherent_run {id : String} {row : Option User} {moves : List Move}
    (run : Steps (Guarded Orderly (Executes move)) (.opening id row) moves cell) : Coherent cell :=
  run.invariant Coherent (fun _ _ _ coherent taken => coherent.move taken.1 taken.2)
    (coherent_opening id row)

/-- One commit after another: an update raises the version by one. -/
def Successive : Option User → Option User → Prop
  | some before, some after => after.version = before.version + 1
  | _, _ => True

/-- The log stays, or gets a row that succeeds the committed one. -/
def Extends (cell after : Cell) : Prop :=
  after.log = cell.log ∨ ∃ row, after.log = cell.log ++ [row] ∧ Successive cell.row row

theorem stepWriter_extends {j : Nat}
    (taken : stepWriter cell j writer = some after) : Extends cell after := by
  cases writer with
  | writing =>
    obtain ⟨-, rfl⟩ := of_ite_none taken
    split
    · exact .inl rfl
    · rename_i user found
      split
      · rename_i user' assigned
        have held : cell.row = some user := (Option.filter_eq_some_iff.mp found).1
        refine .inr ⟨some user', rfl, ?_⟩
        rw [held]
        exact UserStatement.assign_version assigned
      · exact .inl rfl
  | removedAndEvicted =>
    cases taken
    refine .inr ⟨none, rfl, ?_⟩
    cases cell.row <;> trivial
  | returned | failed => cases taken
  | _ =>
    cases taken
    exact .inl rfl

theorem move_extends (taken : move cell action = some after) : Extends cell after := by
  cases action with
  | read =>
    obtain ⟨reader, -, taken⟩ := Option.bind_eq_some_iff.mp taken
    cases reader with
    | answered => cases taken
    | _ =>
      cases taken
      exact .inl rfl
  | write =>
    obtain ⟨writer, -, taken⟩ := Option.bind_eq_some_iff.mp taken
    exact stepWriter_extends taken
  | fail =>
    obtain ⟨writer, -, taken⟩ := Option.bind_eq_some_iff.mp taken
    unfold failWriter at taken
    split at taken
    · cases taken
    · cases taken
      exact .inl rfl
  | register =>
    obtain ⟨absent, rfl⟩ := of_ite_some taken
    exact .inr ⟨_, rfl, absent ▸ trivial⟩
  | _ =>
    cases taken
    exact .inl rfl

theorem successive_move (chain : cell.log.IsChain Successive)
    (taken : move cell action = some after) : after.log.IsChain Successive := by
  rcases move_extends taken with same | ⟨row, grown, next⟩
  · rwa [same]
  · rw [grown]
    refine chain.append (List.isChain_singleton row) ?_
    intro before final after first
    cases first
    rw [Cell.row, Option.mem_def.mp final] at next
    exact next

theorem version_le (chain : log.IsChain Successive) {n m : Nat} {before after : User}
    (order : n ≤ m) (early : log[n]? = some (some before)) (late : log[m]? = some (some after)) :
    before.version ≤ after.version ∨ ∃ k, n < k ∧ k < m ∧ log[k]? = some none := by
  induction m, order using Nat.le_induction generalizing after with
  | base =>
    rw [early] at late
    cases late
    exact .inl (Nat.le_refl _)
  | succ m order ih =>
    obtain ⟨inside, last⟩ := List.getElem?_eq_some_iff.mp late
    have step := List.isChain_iff_getElem.mp chain m inside
    rw [last] at step
    have here : log[m]? = some log[m] := List.getElem?_eq_getElem (by omega)
    cases middle : log[m] with
    | none =>
      rw [middle] at here
      have apart : n ≠ m := by
        rintro rfl
        rw [early] at here
        cases here
      exact .inr ⟨m, by omega, by omega, here⟩
    | some =>
      rw [middle] at here step
      simp only [Successive] at step
      rcases ih here with grown | ⟨k, above, below, gone⟩
      · exact .inl (by omega)
      · exact .inr ⟨k, above, by omega, gone⟩

/-- A `GET` that starts now and looks the entry up. -/
def lookup (cell : Cell) : List Move := [.get, .read cell.readers.length]

theorem lookup_orderly (cell : Cell) (run : Steps (Executes move) cell (lookup cell) after) :
    Steps (Guarded Orderly (Executes move)) cell (lookup cell) after := by
  cases run with
  | cons first rest =>
    cases rest with
    | cons second last =>
      refine .cons ⟨trivial, first⟩ (.cons ⟨?_, second⟩ ?_)
      · cases first
        simp [Orderly, Reader.Orderly]
      · cases last
        exact .nil _

theorem lookup_hit (held : cell.cache = some snapshot) :
    Steps (Executes move) cell (lookup cell) { cell with
      readers := cell.readers ++ [.answered cell.returned (.found snapshot)] } := by
  refine .cons rfl (.single ?_)
  simp [Executes, move, stepReader, Cell.setReader, held]

/-- After a step out of order a `GET` finds a row older than a command that has returned. -/
theorem stale_of_not_orderly (coherent : Coherent cell) (taken : move cell action = some after)
    (disorderly : ¬ Orderly cell action) :
    ∃ snapshot, after.cache = some snapshot ∧ snapshot.commit < after.returned := by
  cases action with
  | read =>
    obtain ⟨reader, here, taken⟩ := Option.bind_eq_some_iff.mp taken
    have stored : ¬ reader.Orderly cell := by simpa [Orderly, here] using disorderly
    cases reader with
    | storing since snapshot =>
      cases taken
      exact ⟨snapshot, rfl, Nat.lt_of_not_le stored⟩
    | _ => exact absurd trivial stored
  | write =>
    obtain ⟨writer, here, taken⟩ := Option.bind_eq_some_iff.mp taken
    have committed : ¬ writer.Orderly cell := by simpa [Orderly, here] using disorderly
    cases writer with
    | removedAndEvicted =>
      cases taken
      obtain ⟨snapshot, held⟩ := Option.ne_none_iff_exists'.mp committed
      have inside := lt_of_getElem? (coherent.cached snapshot held).1
      refine ⟨snapshot, held, ?_⟩
      simp only [Cell.setWriter, Cell.setLock, Cell.acknowledge]
      omega
    | _ => exact absurd trivial committed
  | _ => exact absurd trivial disorderly

end Freshness

/-- In every run whose stores and deletes come in order, each `GET` is answered with a version at
least as new as every command that returned before it started, or with not-found as of then. The
order is needed: a step out of order leaves an entry that the next `GET` gets although a newer
command has returned. -/
theorem read_your_writes {id : String} {row : Option User} {moves : List Move} {cell : Cell}
    (run : Steps (Guarded Orderly (Executes move)) (.opening id row) moves cell) :
    (∀ reader ∈ cell.readers, reader.Fresh cell.log) ∧
    (∀ (n m : Nat) (before after : User), n ≤ m → cell.log[n]? = some (some before) →
      cell.log[m]? = some (some after) →
      before.version ≤ after.version ∨ ∃ k, n < k ∧ k < m ∧ cell.log[k]? = some none) ∧
    ∀ action next, move cell action = some next →
      (Orderly cell action ↔ ∀ final, Steps (Executes move) next (lookup next) final →
        ∀ reader ∈ final.readers, reader.Fresh final.log) := by
  have coherent := coherent_run run
  have chain : cell.log.IsChain Successive :=
    run.invariant (fun cell => cell.log.IsChain Successive)
      (fun _ _ _ chain taken => successive_move chain taken.2) (List.isChain_singleton row)
  refine ⟨?_, ?_, ?_⟩
  · intro reader member
    exact (coherent.readers reader member).fresh
  · intro n m before after order early late
    exact version_le chain order early late
  · intro action next taken
    constructor
    · intro orderly final looked reader member
      have after := (lookup_orderly next looked).invariant Coherent
        (fun _ _ _ coherent taken => coherent.move taken.1 taken.2)
        (coherent.move orderly taken)
      exact (after.readers reader member).fresh
    · intro fresh
      by_contra disorderly
      obtain ⟨snapshot, held, stale⟩ := stale_of_not_orderly coherent taken disorderly
      have answered := fresh _ (lookup_hit held) _
        (List.mem_append_right _ (List.mem_singleton_self _))
      exact Nat.not_le_of_lt stale answered.1

/-- A profile update as its client sends it, from the check to the return. -/
def profileUpdate (j : Nat) : List Move :=
  [.command (.update { name := some "Jane" }) .any 1, .write j, .write j, .write j]

theorem read_your_writes_in_turn :
    ∃ cell, Steps (Guarded Orderly (Executes move)) (.opening "u" (some (member "u")))
        ([.get, .read 0, .read 0, .read 0] ++ profileUpdate 0 ++ [.get, .read 1, .read 1]) cell ∧
      ∀ reader ∈ cell.readers, reader.Fresh cell.log := by
  obtain ⟨cell, run, _⟩ : ∃ cell, Steps (Guarded Orderly (Executes move))
      (.opening "u" (some (member "u")))
      ([.get, .read 0, .read 0, .read 0] ++ profileUpdate 0 ++ [.get, .read 1, .read 1]) cell ∧
      cell.row.map User.version = some 1 := by
    decide +kernel
  exact ⟨cell, run, (read_your_writes run).1⟩

/-- A `GET` that read before an update stores after its eviction: the next one gets version 0
although the update to version 1 has returned. And a `GET` between the eviction and the commit of a
delete brings the deleted user back. -/
theorem stale_after_return : (∃ cell, Steps (Executes move) (.opening "u" (some (member "u")))
        ([.get, .read 0, .read 0] ++ profileUpdate 0 ++ [.read 0, .get, .read 1]) cell ∧
      cell.row.map User.version = some 1 ∧
      cell.readers[1]? = some (.answered 1 (.found ⟨0, member "u"⟩)) ∧
      ¬ ∀ reader ∈ cell.readers, reader.Fresh cell.log) ∧
    ∃ cell, Steps (Executes move) (.opening "u" (some (member "u")))
        [.command .delete .any 1, .write 0, .write 0, .write 0, .get, .read 0, .read 0, .read 0,
          .write 0, .get, .read 1] cell ∧
      cell.row = none ∧
      cell.readers[1]? = some (.answered 1 (.found ⟨0, member "u"⟩)) ∧
      ¬ ∀ reader ∈ cell.readers, reader.Fresh cell.log := by
  have stale : ∀ cell : Cell, cell.readers[1]? = some (.answered 1 (.found ⟨0, member "u"⟩)) →
      ¬ ∀ reader ∈ cell.readers, reader.Fresh cell.log := by
    intro cell answered fresh
    have old := (fresh _ (List.mem_of_getElem? answered)).1
    exact absurd old (by decide)
  exact ⟨exists_and_of_and (by decide +kernel) fun cell _ _ => stale cell,
    exists_and_of_and (by decide +kernel) fun cell _ _ => stale cell⟩

end NestApi.Users
