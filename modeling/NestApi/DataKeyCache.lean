import NestApi.Indexed
import NestApi.KeyedCache
import NestApi.Transition
import Mathlib.Data.Rat.Floor

namespace NestApi.Crypto

/-- `/^[A-Za-z_][A-Za-z0-9_]*$/`. -/
def isIdentifier (text : String) : Bool :=
  match text.toList with
  | [] => false
  | first :: rest =>
    (first.isAlpha || first == '_') && rest.all fun c => c.isAlphanum || c == '_'

structure EncryptedField where
  table : String
  column : String
  tableNamed : isIdentifier table = true
  columnNamed : isIdentifier column = true
  deriving DecidableEq

def fieldName (field : EncryptedField) : String := field.table ++ "." ++ field.column

structure DataKeyCacheOptions where
  ttlMs : ℚ
  maxUses : Nat
  maxDecryptEntries : Nat
  refreshFraction : ℚ
  ttlPositive : 0 < ttlMs
  usesPositive : 0 < maxUses
  entriesPositive : 0 < maxDecryptEntries
  fractionPositive : 0 < refreshFraction
  fractionBelowOne : refreshFraction < 1

structure ActiveKey (κ : Type) where
  key : κ
  uses : Nat
  expiresAt : ℚ
  refreshAt : ℚ
  maxUses : Nat
  refreshAfterUses : Nat

/-- How far a call of the source's `mint` has come. `minted` is between the callbacks that `then`
and `finally` were given. -/
inductive MintStage where
  | pending
  | minted (entry : Nat)
  | failed
  | settled (entry : Option Nat)
  deriving DecidableEq

structure Mint where
  field : EncryptedField
  stage : MintStage
  deriving DecidableEq

inductive CallStage where
  | waiting (mint : Nat)
  | returned (entry : Nat)
  | finished
  deriving DecidableEq

/-- A call of `encryptionKey`, or of `prepare`, which wants no key. -/
structure CacheCall where
  field : EncryptedField
  encrypts : Bool
  stage : CallStage
  deriving DecidableEq

/-- The encryption side of the cache. Entries are shared objects, known by number to `active` and to
the promises of `minting`; `returned` says whose key was returned, and when. -/
structure DataKeyCache (κ : Type) where
  now : ℚ
  entries : List (ActiveKey κ)
  active : Cache String Nat
  minting : Cache String Nat
  mints : List Mint
  calls : List CacheCall
  returned : List (Nat × ℚ)

inductive CacheAction (κ : Type) where
  | tick (now : ℚ)
  | encryptionKey (field : EncryptedField)
  | prepare (field : EncryptedField)
  | resolve (mint : Nat) (key : κ)
  | reject (mint : Nat)
  | settle (mint : Nat)
  | resume (call : Nat)
  | clear

variable {κ : Type}

def isSpent (now : ℚ) (entry : ActiveKey κ) : Bool :=
  decide (entry.expiresAt ≤ now) || decide (entry.maxUses ≤ entry.uses)

def shouldRefresh (now : ℚ) (entry : ActiveKey κ) : Bool :=
  decide (entry.refreshAt ≤ now) || decide (entry.refreshAfterUses ≤ entry.uses)

def newEntry (options : DataKeyCacheOptions) (now : ℚ) (key : κ) : ActiveKey κ :=
  { key
    uses := 0
    expiresAt := now + options.ttlMs
    refreshAt := now + ⌊options.ttlMs * options.refreshFraction⌋
    maxUses := options.maxUses
    refreshAfterUses := max 1 ⌊options.maxUses * options.refreshFraction⌋.toNat }

namespace DataKeyCache

def start (now : ℚ) : DataKeyCache κ := ⟨now, [], .cold, .cold, [], [], []⟩

def existing (c : DataKeyCache κ) (field : EncryptedField) : Option (Nat × ActiveKey κ) := do
  let i ← c.active (fieldName field)
  let entry ← c.entries[i]?
  if isSpent c.now entry then none else some (i, entry)

def beginMint (c : DataKeyCache κ) (field : EncryptedField) : DataKeyCache κ :=
  { c with
    mints := c.mints ++ [⟨field, .pending⟩]
    minting := c.minting.store (fieldName field) c.mints.length }

def mint (c : DataKeyCache κ) (field : EncryptedField) : DataKeyCache κ × Nat :=
  match c.minting (fieldName field) with
  | some inFlight => (c, inFlight)
  | none => (c.beginMint field, c.mints.length)

def refreshInBackground (c : DataKeyCache κ) (field : EncryptedField) : DataKeyCache κ :=
  if (c.minting (fieldName field)).isSome then c else (c.mint field).1

def use (c : DataKeyCache κ) (i : Nat) : DataKeyCache κ :=
  { c with
    entries := c.entries.modify i fun entry => { entry with uses := entry.uses + 1 }
    returned := c.returned ++ [(i, c.now)] }

def call (c : DataKeyCache κ) (call : CacheCall) : DataKeyCache κ :=
  { c with calls := c.calls ++ [call] }

def setCall (c : DataKeyCache κ) (j : Nat) (call : CacheCall) : DataKeyCache κ :=
  { c with calls := c.calls.set j call }

/-- The part of `encryptionKey` before its `await`. -/
def encryptionKey (c : DataKeyCache κ) (field : EncryptedField) : DataKeyCache κ :=
  match c.existing field with
  | some (i, entry) =>
    let used := c.use i
    let refreshed :=
      if shouldRefresh c.now { entry with uses := entry.uses + 1 } then
        used.refreshInBackground field
      else used
    refreshed.call ⟨field, true, .returned i⟩
  | none => (c.mint field).1.call ⟨field, true, .waiting (c.mint field).2⟩

/-- The part of `prepare` before its `await`. -/
def prepare (c : DataKeyCache κ) (field : EncryptedField) : DataKeyCache κ :=
  match c.existing field with
  | some _ => c
  | none => (c.mint field).1.call ⟨field, false, .waiting (c.mint field).2⟩

/-- The callback of `then`: a new entry, which is the active one from now on. -/
def resolve (options : DataKeyCacheOptions) (c : DataKeyCache κ) (m : Nat) (field : EncryptedField)
    (key : κ) : DataKeyCache κ :=
  { c with
    entries := c.entries ++ [newEntry options c.now key]
    active := c.active.store (fieldName field) c.entries.length
    mints := c.mints.set m ⟨field, .minted c.entries.length⟩ }

/-- The callback of `finally`. -/
def settle (c : DataKeyCache κ) (m : Nat) (field : EncryptedField) (entry : Option Nat) :
    DataKeyCache κ :=
  { c with
    minting := c.minting.drop [fieldName field]
    mints := c.mints.set m ⟨field, .settled entry⟩ }

def quiet (c : DataKeyCache κ) : Bool :=
  (c.mints.all fun mint =>
    match mint.stage with
    | .minted _ | .failed => false
    | .pending | .settled _ => true) &&
  c.calls.all fun call =>
    match call.stage with
    | .waiting m => !(c.mints[m]?.any fun mint => mint.stage matches .settled _)
    | .returned _ | .finished => true

def act (options : DataKeyCacheOptions) (c : DataKeyCache κ) :
    CacheAction κ → Option (DataKeyCache κ)
  | .tick now => if c.now ≤ now ∧ c.quiet = true then some { c with now := now } else none
  | .encryptionKey field => some (c.encryptionKey field)
  | .prepare field => some (c.prepare field)
  | .resolve m key =>
    match c.mints[m]? with
    | some ⟨field, .pending⟩ => some (c.resolve options m field key)
    | _ => none
  | .reject m =>
    match c.mints[m]? with
    | some ⟨field, .pending⟩ => some { c with mints := c.mints.set m ⟨field, .failed⟩ }
    | _ => none
  | .settle m =>
    match c.mints[m]? with
    | some ⟨field, .minted i⟩ => some (c.settle m field (some i))
    | some ⟨field, .failed⟩ => some (c.settle m field none)
    | _ => none
  | .resume j =>
    match c.calls[j]? with
    | some ⟨field, encrypts, .waiting m⟩ =>
      match c.mints[m]?.map Mint.stage with
      | some (.settled (some i)) =>
        if encrypts then some ((c.use i).setCall j ⟨field, encrypts, .returned i⟩)
        else some (c.setCall j ⟨field, encrypts, .finished⟩)
      | some (.settled none) => some (c.setCall j ⟨field, encrypts, .finished⟩)
      | _ => none
    | _ => none
  | .clear => some { c with active := .cold, minting := .cold }

end DataKeyCache

inductive Acts (options : DataKeyCacheOptions) (c : DataKeyCache κ) :
    CacheAction κ → DataKeyCache κ → Prop where
  | tick {now} (quiet : c.quiet = true) : Acts options c (.tick now) { c with now := now }
  | encryptionKey (field : EncryptedField) :
      Acts options c (.encryptionKey field) (c.encryptionKey field)
  | prepare (field : EncryptedField) : Acts options c (.prepare field) (c.prepare field)
  | resolve {m field key} (found : c.mints[m]? = some ⟨field, .pending⟩) :
      Acts options c (.resolve m key) (c.resolve options m field key)
  | reject {m field} (found : c.mints[m]? = some ⟨field, .pending⟩) :
      Acts options c (.reject m) { c with mints := c.mints.set m ⟨field, .failed⟩ }
  | settle {m i field} (found : c.mints[m]? = some ⟨field, .minted i⟩) :
      Acts options c (.settle m) (c.settle m field (some i))
  | abandon {m field} (found : c.mints[m]? = some ⟨field, .failed⟩) :
      Acts options c (.settle m) (c.settle m field none)
  | gets {j m i field owner} (call : c.calls[j]? = some ⟨field, true, .waiting m⟩)
      (mint : c.mints[m]? = some ⟨owner, .settled (some i)⟩) :
      Acts options c (.resume j) ((c.use i).setCall j ⟨field, true, .returned i⟩)
  | ends {j call} (found : c.calls[j]? = some call) :
      Acts options c (.resume j) (c.setCall j { call with stage := .finished })
  | clear : Acts options c .clear { c with active := .cold, minting := .cold }

section Act

variable {options : DataKeyCacheOptions} {c c' : DataKeyCache κ} {field : EncryptedField}
  {action : CacheAction κ}

theorem existing_eq_some {i : Nat} {entry : ActiveKey κ}
    (found : c.existing field = some (i, entry)) :
    c.entries[i]? = some entry ∧ isSpent c.now entry = false := by
  simp only [DataKeyCache.existing, Option.bind_eq_bind, Option.bind_eq_some_iff] at found
  obtain ⟨i', _, entry', here, unspent⟩ := found
  split at unspent
  · cases unspent
  · rename_i fresh
    cases unspent
    exact ⟨here, Bool.eq_false_iff.mpr fresh⟩

theorem act_acts (taken : c.act options action = some c') : Acts options c action c' := by
  cases action with
  | tick now =>
    obtain ⟨allowed, rfl⟩ := of_ite_some taken
    exact .tick allowed.2
  | encryptionKey field =>
    cases taken
    exact .encryptionKey field
  | prepare field =>
    cases taken
    exact .prepare field
  | resolve m key =>
    simp only [DataKeyCache.act] at taken
    split at taken
    · rename_i field found
      cases taken
      exact .resolve found
    · cases taken
  | reject m =>
    simp only [DataKeyCache.act] at taken
    split at taken
    · rename_i field found
      cases taken
      exact .reject found
    · cases taken
  | settle m =>
    simp only [DataKeyCache.act] at taken
    split at taken
    · rename_i field i found
      cases taken
      exact .settle found
    · rename_i field found
      cases taken
      exact .abandon found
    · cases taken
  | resume j =>
    simp only [DataKeyCache.act] at taken
    split at taken
    · rename_i field encrypts m found
      split at taken
      · rename_i i settled
        obtain ⟨⟨owner, stage⟩, here, rfl⟩ := Option.map_eq_some_iff.mp settled
        cases encrypts with
        | true =>
          cases taken
          exact .gets found here
        | false =>
          cases taken
          exact .ends found
      · cases taken
        exact .ends found
      · cases taken
    · cases taken
  | clear =>
    cases taken
    exact .clear

end Act

end NestApi.Crypto
