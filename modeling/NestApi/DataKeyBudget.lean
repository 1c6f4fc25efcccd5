import NestApi.DataKeyCache

namespace NestApi.Crypto

open DataKeyCache

variable {κ : Type} {options : DataKeyCacheOptions} {c c' : DataKeyCache κ} {i j m : Nat}
  {entry : ActiveKey κ} {field : EncryptedField}

def DataKeyCache.returns (c : DataKeyCache κ) (i : Nat) : Nat :=
  c.returned.countP fun use => use.1 == i

/-- A key that somebody is to get: the one of a mint without an entry, or the one of an entry. -/
inductive KeyRef where
  | unminted (mint : Nat)
  | made (entry : Nat)
  deriving DecidableEq

def MintStage.made : MintStage → Option Nat
  | .minted i => some i
  | .settled outcome => outcome
  | .pending | .failed => none

def DataKeyCache.keyOf (c : DataKeyCache κ) (m : Nat) : KeyRef :=
  match c.mints[m]?.bind fun mint => mint.stage.made with
  | some i => .made i
  | none => .unminted m

theorem keyOf_beginMint (m : Nat) : (c.beginMint field).keyOf m = c.keyOf m := by
  unfold keyOf beginMint
  dsimp only
  by_cases inside : m < c.mints.length
  · rw [List.getElem?_append_left inside]
  · rw [List.getElem?_append_right (not_lt.mp inside), List.getElem?_eq_none (not_lt.mp inside)]
    cases m - c.mints.length <;> rfl

theorem keyOf_set {before : MintStage} (after : MintStage)
    (mints : c'.mints = c.mints.set m ⟨field, after⟩)
    (found : c.mints[m]? = some ⟨field, before⟩) (same : after.made = before.made) (m' : Nat) :
    c'.keyOf m' = c.keyOf m' := by
  unfold keyOf
  rw [mints]
  by_cases this : m = m'
  · subst this
    rw [getElem?_set_of_some found, found, Option.bind_some, Option.bind_some, same]
  · rw [List.getElem?_set_ne this]

theorem keyOf_resolve {key : κ} (found : c.mints[m]? = some ⟨field, .pending⟩) (m' : Nat) :
    (c.resolve options m field key).keyOf m' =
      if m = m' then .made c.entries.length else c.keyOf m' := by
  unfold keyOf resolve
  by_cases this : m = m'
  · subst this
    rw [getElem?_set_of_some found, if_pos rfl]
    rfl
  · rw [List.getElem?_set_ne this, if_neg this]

theorem keyOf_eq_made (made : c.keyOf m = .made i) : ∃ owner,
    c.mints[m]? = some ⟨owner, .minted i⟩ ∨ c.mints[m]? = some ⟨owner, .settled (some i)⟩ := by
  unfold keyOf at made
  split at made
  · rename_i entry found
    cases made
    obtain ⟨⟨owner, stage⟩, here, made⟩ := Option.bind_eq_some_iff.mp found
    refine ⟨owner, ?_⟩
    cases stage with
    | pending | failed => cases made
    | minted =>
      cases made
      exact .inl here
    | settled =>
      cases made
      exact .inr here
  · cases made

/-- The key of a mint is still to be returned to somebody, or to be in the slot. -/
def DataKeyCache.Awaits (c : DataKeyCache κ) (m : Nat) : Prop :=
  (∀ mint, c.mints[m]? = some mint → ∀ outcome, mint.stage ≠ .settled outcome) ∨
    ∃ call ∈ c.calls, call.stage = .waiting m

/-- The counters are right, and a key that is about to be returned has not expired. -/
structure Sound (options : DataKeyCacheOptions) (c : DataKeyCache κ) : Prop where
  counted : ∀ ⦃i entry⦄, c.entries[i]? = some entry →
    entry.maxUses = options.maxUses ∧ c.returns i = entry.uses ∧
      ∀ at', (i, at') ∈ c.returned → at' < entry.expiresAt
  known : ∀ use ∈ c.returned, use.1 < c.entries.length
  flying : ∀ ⦃name m⦄, c.minting name = some m →
    ∃ mint, c.mints[m]? = some mint ∧ fieldName mint.field = name ∧
      ∀ outcome, mint.stage ≠ .settled outcome
  awaited : ∀ ⦃m i⦄, c.keyOf m = .made i → c.Awaits m →
    ∃ entry, c.entries[i]? = some entry ∧ c.now < entry.expiresAt

theorem sound_start (now : ℚ) : Sound options (.start now : DataKeyCache κ) where
  counted := by
    intro i entry found
    simp [start] at found
  known := by
    intro use mem
    simp [start] at mem
  flying := by
    intro name m flying
    cases flying
  awaited := by
    intro m i made
    cases made

theorem Sound.tick (sound : Sound options c) {now : ℚ} (quiet : c.quiet = true) :
    Sound options { c with now := now } where
  __ := sound
  awaited := by
    -- nobody is about to be given a key while time passes
    intro m i made awaits
    simp only [DataKeyCache.quiet, Bool.and_eq_true, List.all_eq_true] at quiet
    obtain ⟨owner, minted | settled⟩ := keyOf_eq_made made
    · simpa using quiet.1 _ (List.mem_of_getElem? minted)
    · rcases awaits with unsettled | ⟨call, member, stage⟩
      · exact absurd rfl (unsettled _ settled _)
      · simpa [stage, settled] using quiet.2 _ member

theorem awaits_set {before after : MintStage} (found : c.mints[m]? = some ⟨field, before⟩)
    (unsettled : ∀ outcome, before ≠ .settled outcome) {m' : Nat} :
    ({ c with mints := c.mints.set m ⟨field, after⟩ } : DataKeyCache κ).Awaits m' →
      c.Awaits m' := by
  rintro (open' | waits)
  · refine .inl ?_
    intro mint here
    by_cases this : m = m'
    · subst this
      cases found.symm.trans here
      exact unsettled
    · exact open' mint ((List.getElem?_set_ne this).trans here)
  · exact .inr waits

theorem Sound.beginMint (sound : Sound options c) (field : EncryptedField) :
    Sound options (c.beginMint field) where
  __ := sound
  flying := by
    intro name m flying
    rcases Cache.store_eq_some.mp flying with ⟨rfl, rfl⟩ | ⟨_, before⟩
    · exact ⟨⟨field, .pending⟩, by simp [DataKeyCache.beginMint], rfl, nofun⟩
    · obtain ⟨mint, found, same, unsettled⟩ := sound.flying before
      exact ⟨mint, getElem?_concat_of_some found _, same, unsettled⟩
  awaited := by
    intro m i made awaits
    rw [keyOf_beginMint] at made
    apply sound.awaited made
    rcases awaits with open' | waits
    · exact .inl fun mint here => open' mint (getElem?_concat_of_some here _)
    · exact .inr waits

theorem getElem?_use {i' : Nat} {entry' : ActiveKey κ}
    (found : (c.use i).entries[i']? = some entry') : ∃ entry, c.entries[i']? = some entry ∧
      entry' = { entry with uses := entry.uses + if i = i' then 1 else 0 } := by
  simp only [use, List.getElem?_modify, Option.map_eq_map, Option.map_eq_some_iff] at found
  obtain ⟨entry, here, same⟩ := found
  refine ⟨entry, here, ?_⟩
  split at same
  · rename_i this
    rw [← same, if_pos this]
  · rename_i other
    rw [← same, if_neg other]
    rfl

theorem returns_use (i' : Nat) : (c.use i).returns i' = c.returns i' + if i = i' then 1 else 0 := by
  simp [returns, use, List.countP_append, List.countP_singleton]

section

variable (sound : Sound options c)

include sound

namespace Sound

/-- A key may be returned while it has not expired; the counters do not say how often. -/
theorem use (found : c.entries[i]? = some entry)
    (fresh : c.now < entry.expiresAt) : Sound options (c.use i) where
  __ := sound
  counted := by
    intro i' entry' found'
    obtain ⟨old, here, rfl⟩ := getElem?_use found'
    obtain ⟨budget, count, times⟩ := sound.counted here
    refine ⟨budget, by rw [returns_use, count], ?_⟩
    intro at' mem
    rcases List.mem_append.mp mem with before | new
    · exact times at' before
    · cases List.mem_singleton.mp new
      cases found.symm.trans here
      exact fresh
  known := by
    rw [DataKeyCache.use, List.length_modify]
    exact forall_mem_concat sound.known (lt_of_getElem? found)
  awaited := by
    intro m i' made awaits
    obtain ⟨entry', here, fresh⟩ := sound.awaited made awaits
    refine ⟨{ entry' with uses := entry'.uses + if i = i' then 1 else 0 }, ?_, fresh⟩
    simp only [DataKeyCache.use, List.getElem?_modify, here]
    split <;> rfl

theorem call {call : CacheCall}
    (flying : ∀ m, call.stage = .waiting m → ∃ name, c.minting name = some m) :
    Sound options (c.call call) where
  __ := sound
  awaited := by
    intro m i made awaits
    apply sound.awaited made
    rcases awaits with open' | ⟨waiter, member, stage⟩
    · exact .inl open'
    · rcases List.mem_append.mp member with before | new
      · exact .inr ⟨waiter, before, stage⟩
      · obtain ⟨name, flying⟩ := flying m (List.mem_singleton.mp new ▸ stage)
        obtain ⟨mint, here, _, unsettled⟩ := sound.flying flying
        exact .inl fun mint' there => Option.some.inj (here.symm.trans there) ▸ unsettled

theorem setCall {call : CacheCall}
    (done : ∀ m, call.stage ≠ .waiting m) : Sound options (c.setCall j call) where
  __ := sound
  awaited := by
    intro m i made awaits
    apply sound.awaited made
    rcases awaits with open' | ⟨waiter, member, stage⟩
    · exact .inl open'
    · rcases List.mem_or_eq_of_mem_set member with before | rfl
      · exact .inr ⟨waiter, before, stage⟩
      · exact absurd stage (done m)

theorem flying_set {before stage : MintStage}
    (found : c.mints[m]? = some ⟨field, before⟩) (unsettled : ∀ outcome, stage ≠ .settled outcome)
    {name : String} {m' : Nat} (flying : c.minting name = some m') :
    ∃ mint, (c.mints.set m ⟨field, stage⟩)[m']? = some mint ∧ fieldName mint.field = name ∧
      ∀ outcome, mint.stage ≠ .settled outcome := by
  obtain ⟨mint, here, same, open'⟩ := sound.flying flying
  by_cases this : m = m'
  · subst this
    cases found.symm.trans here
    exact ⟨⟨field, stage⟩, getElem?_set_of_some here _, same, unsettled⟩
  · exact ⟨mint, by rw [List.getElem?_set_ne this, here], same, open'⟩

theorem resolve {key : κ} (found : c.mints[m]? = some ⟨field, .pending⟩) :
    Sound options (c.resolve options m field key) where
  counted := by
    intro i entry here
    rcases getElem?_concat_eq_some here with before | ⟨rfl, rfl⟩
    · exact sound.counted before
    · have unused : ∀ use ∈ c.returned, use.1 ≠ c.entries.length := by
        intro use mem
        have older := sound.known use mem
        omega
      refine ⟨rfl, ?_, ?_⟩
      · apply List.countP_eq_zero.mpr
        intro use mem counted
        exact unused use mem (beq_iff_eq.mp counted)
      · intro at' mem
        exact absurd rfl (unused _ mem)
  known := by
    intro use mem
    have older := sound.known use mem
    simp only [DataKeyCache.resolve, List.length_append, List.length_singleton]
    omega
  flying := by
    intro name m' flying
    refine sound.flying_set found ?_ flying
    intro outcome same
    cases same
  awaited := by
    have newer : ∃ entry, (c.resolve options m field key).entries[c.entries.length]? = some entry ∧
        c.now < entry.expiresAt := by
      refine ⟨newEntry options c.now key, by simp [DataKeyCache.resolve], ?_⟩
      have positive := options.ttlPositive
      simp only [newEntry]
      linarith
    intro m' i made awaits
    rw [keyOf_resolve found] at made
    split at made
    · cases made
      exact newer
    · obtain ⟨entry, here, fresh⟩ := sound.awaited made (awaits_set found nofun awaits)
      exact ⟨entry, getElem?_concat_of_some here _, fresh⟩

theorem reject (found : c.mints[m]? = some ⟨field, .pending⟩) :
    Sound options { c with mints := c.mints.set m ⟨field, .failed⟩ } where
  __ := sound
  flying := by
    intro name m' flying
    refine sound.flying_set found ?_ flying
    intro outcome same
    cases same
  awaited := by
    intro m' i made awaits
    have same : keyOf { c with mints := c.mints.set m ⟨field, .failed⟩ } m' =
        c.keyOf m' := keyOf_set .failed rfl found rfl m'
    exact sound.awaited (same.symm.trans made) (awaits_set found nofun awaits)

theorem settle {stage : MintStage} {outcome : Option Nat}
    (found : c.mints[m]? = some ⟨field, stage⟩) (same : stage.made = outcome)
    (unsettled : ∀ outcome, stage ≠ .settled outcome) :
    Sound options (c.settle m field outcome) where
  __ := sound
  flying := by
    intro name m' flying
    obtain ⟨other, flying⟩ := Cache.drop_eq_some.mp flying
    obtain ⟨mint, here, same, unsettled⟩ := sound.flying flying
    have different : m ≠ m' := by
      rintro rfl
      cases found.symm.trans here
      exact other (List.mem_singleton.mpr same.symm)
    exact ⟨mint, by rw [DataKeyCache.settle, List.getElem?_set_ne different, here], same, unsettled⟩
  awaited := by
    intro m' i made awaits
    have same : (c.settle m field outcome).keyOf m' = c.keyOf m' :=
      keyOf_set (.settled outcome) rfl found same.symm m'
    exact sound.awaited (same.symm.trans made) (awaits_set found unsettled awaits)

theorem clear : Sound options { c with active := .cold, minting := .cold } where
  __ := sound
  flying := by
    intro name m flying
    cases flying
  awaited := sound.awaited

theorem mint (field : EncryptedField) : Sound options (c.mint field).1 ∧
    (c.mint field).1.minting (fieldName field) = some (c.mint field).2 := by
  unfold DataKeyCache.mint
  split
  · rename_i flying
    exact ⟨sound, flying⟩
  · exact ⟨sound.beginMint field, by simp [DataKeyCache.beginMint, Cache.store]⟩

theorem waits (field : EncryptedField) (encrypts : Bool) :
    Sound options ((c.mint field).1.call ⟨field, encrypts, .waiting (c.mint field).2⟩) := by
  obtain ⟨minting, flying⟩ := sound.mint field
  apply minting.call
  intro m same
  cases same
  exact ⟨_, flying⟩

theorem awaited_of_call {owner : EncryptedField}
    (call : c.calls[j]? = some ⟨field, true, .waiting m⟩)
    (mint : c.mints[m]? = some ⟨owner, .settled (some i)⟩) :
    ∃ entry, c.entries[i]? = some entry ∧ c.now < entry.expiresAt := by
  have made : c.keyOf m = .made i := by simp [keyOf, mint, MintStage.made]
  exact sound.awaited made (.inr ⟨_, List.mem_of_getElem? call, rfl⟩)

theorem encryptionKey (field : EncryptedField) : Sound options (c.encryptionKey field) := by
  unfold DataKeyCache.encryptionKey
  split
  · rename_i i entry found
    obtain ⟨here, unspent⟩ := existing_eq_some found
    simp only [isSpent, Bool.or_eq_false_iff, decide_eq_false_iff_not, not_le] at unspent
    have used := sound.use here unspent.1
    dsimp only
    split
    · unfold refreshInBackground
      split
      · exact used.call nofun
      · exact (used.mint field).1.call nofun
    · exact used.call nofun
  · exact sound.waits field true

theorem prepare (field : EncryptedField) : Sound options (c.prepare field) := by
  unfold DataKeyCache.prepare
  split
  · exact sound
  · exact sound.waits field false

theorem acts {action : CacheAction κ} (acts : Acts options c action c') : Sound options c' := by
  cases acts with
  | tick quiet => exact sound.tick quiet
  | encryptionKey field => exact sound.encryptionKey field
  | prepare field => exact sound.prepare field
  | resolve found => exact sound.resolve found
  | reject found => exact sound.reject found
  | settle found | abandon found => exact sound.settle found rfl nofun
  | gets call mint =>
    obtain ⟨entry, here, fresh⟩ := sound.awaited_of_call call mint
    exact (sound.use here fresh).setCall nofun
  | ends => exact sound.setCall nofun
  | clear => exact sound.clear

end Sound

end

namespace DataKeyCache

/-- The key that a call of `encryptionKey` gets. -/
def keyFor (c : DataKeyCache κ) (field : EncryptedField) : KeyRef :=
  match c.existing field with
  | some (i, _) => .made i
  | none => c.keyOf (c.mint field).2

def waitsFor (c : DataKeyCache κ) (key : KeyRef) (call : CacheCall) : Bool :=
  match call.stage with
  | .waiting m => call.encrypts && decide (c.keyOf m = key)
  | .returned _ | .finished => false

def waiting (c : DataKeyCache κ) (key : KeyRef) : Nat := c.calls.countP (c.waitsFor key)

def uses (c : DataKeyCache κ) : KeyRef → Nat
  | .unminted _ => 0
  | .made i => (c.entries[i]?.map ActiveKey.uses).getD 0

/-- A call joins a mint, or is served from the slot while others wait for its key, only while the
uses of the key and those who wait for it are fewer than `maxUses`. -/
def roomy (options : DataKeyCacheOptions) (c : DataKeyCache κ) : CacheAction κ → Bool
  | .encryptionKey field =>
    (c.existing field).isSome && c.waiting (c.keyFor field) == 0 ||
      decide (c.uses (c.keyFor field) + c.waiting (c.keyFor field) < options.maxUses)
  | _ => true

/-- No key has more uses and callers that wait for it than its budget. -/
def Within (options : DataKeyCacheOptions) (c : DataKeyCache κ) : Prop :=
  ∀ key, c.uses key + c.waiting key ≤ options.maxUses

end DataKeyCache

theorem waitsFor_eq_true {key : KeyRef} {call : CacheCall} : c.waitsFor key call = true ↔
    ∃ field m, call = ⟨field, true, .waiting m⟩ ∧ c.keyOf m = key := by
  obtain ⟨field, encrypts, stage⟩ := call
  cases stage <;> simp [waitsFor]

theorem waiting_congr {c c' : DataKeyCache κ} (calls : c'.calls = c.calls)
    (keys : ∀ m, c'.keyOf m = c.keyOf m) (key : KeyRef) : c'.waiting key = c.waiting key := by
  unfold waiting waitsFor
  simp only [calls, keys]

theorem uses_use (found : c.entries[i]? = some entry) (key : KeyRef) :
    (c.use i).uses key = c.uses key + if key = .made i then 1 else 0 := by
  cases key with
  | unminted => rfl
  | made i' =>
    simp only [uses, use, List.getElem?_modify, KeyRef.made.injEq]
    by_cases this : i = i'
    · subst this
      simp [found]
    · simp [this, Ne.symm this]

theorem waiting_call (call : CacheCall) (key : KeyRef) :
    (c.call call).waiting key = c.waiting key + if c.waitsFor key call then 1 else 0 := by
  have counted : (c.call call).waiting key = (c.calls ++ [call]).countP (c.waitsFor key) := rfl
  rw [counted, List.countP_append, List.countP_singleton]
  rfl

theorem mint_keeps (field : EncryptedField) :
    (∀ m, (c.mint field).1.keyOf m = c.keyOf m) ∧ (∀ key, (c.mint field).1.uses key = c.uses key) ∧
      ∀ key, (c.mint field).1.waiting key = c.waiting key := by
  unfold mint
  split
  · exact ⟨fun _ => rfl, fun _ => rfl, fun _ => rfl⟩
  · refine ⟨keyOf_beginMint, fun key => ?_, waiting_congr rfl keyOf_beginMint⟩
    cases key <;> rfl

namespace DataKeyCache.Within

variable (within : c.Within options)

include within

theorem waits (encrypts : Bool) (room : encrypts = true →
    c.uses (c.keyOf (c.mint field).2) + c.waiting (c.keyOf (c.mint field).2) < options.maxUses) :
    ((c.mint field).1.call ⟨field, encrypts, .waiting (c.mint field).2⟩).Within options := by
  obtain ⟨keys, uses, waiting⟩ := mint_keeps (c := c) field
  intro key
  have before := within key
  have same : ((c.mint field).1.call ⟨field, encrypts, .waiting (c.mint field).2⟩).uses key =
      c.uses key := by
    rw [← uses key]
    cases key <;> rfl
  rw [same, waiting_call, waiting]
  simp only [waitsFor, keys, Bool.and_eq_true, decide_eq_true_eq]
  split
  · rename_i joins
    obtain ⟨wants, rfl⟩ := joins
    have free := room wants
    omega
  · exact before

theorem serves (found : c.entries[i]? = some entry)
    (room : c.uses (.made i) + c.waiting (.made i) < options.maxUses) :
    (c.use i).Within options := by
  intro key
  have same : (c.use i).waiting key = c.waiting key := rfl
  have before := within key
  rw [uses_use found, same]
  split
  · rename_i this
    subst this
    omega
  · exact before

theorem encryptionKey (sound : Sound options c)
    (room : c.roomy options (.encryptionKey field) = true) :
    (c.encryptionKey field).Within options := by
  simp only [roomy, Bool.or_eq_true, Bool.and_eq_true, beq_iff_eq, decide_eq_true_eq] at room
  unfold DataKeyCache.keyFor at room
  unfold DataKeyCache.encryptionKey
  split
  · rename_i i entry found
    rw [found] at room
    dsimp only at room
    obtain ⟨here, unspent⟩ := existing_eq_some found
    have room : c.uses (.made i) + c.waiting (.made i) < options.maxUses := by
      rcases room with ⟨-, alone⟩ | room
      · have uses : c.uses (.made i) = entry.uses := by simp [uses, here]
        have budget := (sound.counted here).1
        simp only [isSpent, Bool.or_eq_false_iff, decide_eq_false_iff_not, not_le] at unspent
        omega
      · exact room
    have used := within.serves here room
    have returned : ∀ {s : DataKeyCache κ}, s.Within options →
        (s.call ⟨field, true, .returned i⟩).Within options := by
      intro s fits key
      have most := fits key
      have same : (s.call ⟨field, true, .returned i⟩).uses key = s.uses key := by cases key <;> rfl
      rw [waiting_call, same]
      exact most
    apply returned
    split
    · unfold refreshInBackground
      split
      · exact used
      · intro key
        obtain ⟨-, uses, waiting⟩ := mint_keeps (c := c.use i) field
        rw [uses, waiting]
        exact used key
    · exact used
  · rename_i absent
    rw [absent] at room
    apply within.waits true
    intro _
    rcases room with ⟨hit, -⟩ | room
    · cases hit
    · exact room

theorem resolve {key : κ} (sound : Sound options c) (found : c.mints[m]? = some ⟨field, .pending⟩) :
    (c.resolve options m field key).Within options := by
  have unmade : c.keyOf m = .unminted m := by
    rw [keyOf, found]
    rfl
  intro ref
  have uses : (c.resolve options m field key).uses ref = c.uses ref := by
    cases ref with
    | unminted => rfl
    | made i =>
      simp only [DataKeyCache.uses, DataKeyCache.resolve, List.getElem?_append]
      split
      · rfl
      · rename_i beyond
        rw [List.getElem?_eq_none (not_lt.mp beyond)]
        cases i - c.entries.length <;> rfl
  by_cases new : ref = .made c.entries.length
  · subst new
    have unused : c.uses (.made c.entries.length) = 0 := by simp [DataKeyCache.uses]
    have joined : (c.resolve options m field key).waiting (.made c.entries.length) ≤
        c.waiting (.unminted m) := by
      apply List.countP_mono_left
      intro call member waits
      obtain ⟨field', m', rfl, gets⟩ := waitsFor_eq_true.mp waits
      rw [keyOf_resolve found] at gets
      split at gets
      · rename_i this
        exact waitsFor_eq_true.mpr ⟨field', m', rfl, this ▸ unmade⟩
      · obtain ⟨entry, here, _⟩ := sound.awaited gets (.inr ⟨_, member, rfl⟩)
        exact absurd (lt_of_getElem? here) (lt_irrefl _)
    have before := within (.unminted m)
    omega
  · have fewer : (c.resolve options m field key).waiting ref ≤ c.waiting ref := by
      apply List.countP_mono_left
      intro call member waits
      obtain ⟨field', m', rfl, gets⟩ := waitsFor_eq_true.mp waits
      rw [keyOf_resolve found] at gets
      split at gets
      · exact absurd gets.symm new
      · exact waitsFor_eq_true.mpr ⟨field', m', rfl, gets⟩
    have before := within ref
    omega

/-- A caller that waited gets the key that it was counted for. -/
theorem gets (sound : Sound options c) {owner : EncryptedField}
    (call : c.calls[j]? = some ⟨field, true, .waiting m⟩)
    (mint : c.mints[m]? = some ⟨owner, .settled (some i)⟩) :
    ((c.use i).setCall j ⟨field, true, .returned i⟩).Within options := by
  obtain ⟨entry, here, _⟩ := sound.awaited_of_call call mint
  intro key
  have before := within key
  have fewer : ((c.use i).setCall j ⟨field, true, .returned i⟩).waiting key +
      (if key = .made i then 1 else 0) = c.waiting key := by
    have counted : ((c.use i).setCall j ⟨field, true, .returned i⟩).waiting key +
        (if c.waitsFor key ⟨field, true, .waiting m⟩ then 1 else 0) = c.waiting key + 0 :=
      countP_set_add (c.waitsFor key) call
    rw [← Nat.add_zero (c.waiting key), ← counted]
    simp [waitsFor, keyOf, mint, MintStage.made, eq_comm]
  have more : ((c.use i).setCall j ⟨field, true, .returned i⟩).uses key =
      c.uses key + if key = .made i then 1 else 0 := by
    rw [← uses_use here key]
    cases key <;> rfl
  omega

theorem acts {action : CacheAction κ} (sound : Sound options c) (acts : Acts options c action c')
    (room : c.roomy options action = true) : c'.Within options := by
  have moved : ∀ {s : DataKeyCache κ}, s.entries = c.entries → s.calls = c.calls →
      (∀ m, s.keyOf m = c.keyOf m) → s.Within options := by
    intro s entries calls keys key
    have uses : s.uses key = c.uses key := by cases key <;> simp only [uses, entries]
    rw [waiting_congr calls keys, uses]
    exact within key
  cases acts with
  | tick => exact moved rfl rfl fun _ => rfl
  | encryptionKey => exact within.encryptionKey sound room
  | prepare field =>
    unfold prepare
    split
    · exact within
    · exact within.waits false nofun
  | resolve found => exact within.resolve sound found
  | reject found | settle found | abandon found => exact moved rfl rfl (keyOf_set _ rfl found rfl)
  | gets call mint => exact within.gets sound call mint
  | ends found =>
    rename_i j call
    intro key
    have fewer : (c.setCall j { call with stage := .finished }).waiting key +
        (if c.waitsFor key call then 1 else 0) = c.waiting key + 0 :=
      countP_set_add (c.waitsFor key) found
    have same : (c.setCall j { call with stage := .finished }).uses key = c.uses key := by
      cases key <;> rfl
    have before := within key
    omega
  | clear => exact moved rfl rfl fun _ => rfl

end DataKeyCache.Within

/-- No key is returned from its expiry on; and where calls join a mint, or a slot whose key is
waited for, only while there is room, each key is returned at most `maxUses` times. -/
theorem budget_kept {now : ℚ} {actions : List (CacheAction κ)}
    (run : Steps (Executes (act options)) (.start now) actions c) :
    (∀ i entry, c.entries[i]? = some entry → ∀ at', (i, at') ∈ c.returned → at' < entry.expiresAt) ∧
    (Steps (Guarded (fun c action => c.roomy options action = true)
        (Executes (act options))) (.start now) actions c →
      ∀ i, c.returns i + c.waiting (.made i) ≤ options.maxUses) := by
  have sound : Sound options c := run.invariant (fun (c : DataKeyCache κ) => Sound options c)
    (fun _ _ _ sound taken => sound.acts (act_acts taken)) (sound_start now)
  refine ⟨fun i entry here => (sound.counted here).2.2, ?_⟩
  intro guarded i
  have kept : Sound options c ∧ c.Within options := by
    apply guarded.invariant (fun (c : DataKeyCache κ) => Sound options c ∧ c.Within options)
    · intro s action t ⟨sound, within⟩ ⟨room, taken⟩
      exact ⟨sound.acts (act_acts taken), within.acts sound (act_acts taken) room⟩
    · refine ⟨sound_start now, ?_⟩
      intro key
      cases key <;> simp [uses, waiting, start]
  have most := kept.2 (.made i)
  have counted : c.returns i = c.uses (.made i) := by
    simp only [uses]
    cases here : c.entries[i]? with
    | some entry => exact (sound.counted here).2.1
    | none =>
      apply List.countP_eq_zero.mpr
      intro use member same
      have known := sound.known use member
      rw [beq_iff_eq.mp same] at known
      exact absurd (List.getElem?_eq_none_iff.mp here) (not_le.mpr known)
  omega

def minuteOptions (maxUses : Nat) (positive : 0 < maxUses) : DataKeyCacheOptions :=
  ⟨60000, maxUses, 3, 4 / 5, by norm_num, positive, by norm_num, by norm_num, by norm_num⟩

def itemsField : EncryptedField := ⟨"orders", "itemsCiphertext", by decide, by decide⟩

/-- Two callers wait for the first key, and one that comes after its mint is served before them. -/
theorem budget_kept_cold : ∃ actions c,
    Steps (Guarded (fun c action => c.roomy (minuteOptions 3 (Nat.succ_pos 2)) action = true)
      (Executes (act (minuteOptions 3 (Nat.succ_pos 2))))) (.start 0) actions c ∧
    c.returns 0 = 3 ∧ (∀ i, c.returns i + c.waiting (.made i) ≤ 3) ∧
    ∀ i (entry : ActiveKey Nat), c.entries[i]? = some entry → ∀ at', (i, at') ∈ c.returned →
      at' < entry.expiresAt := by
  let actions : List (CacheAction Nat) :=
    [.encryptionKey itemsField, .encryptionKey itemsField, .tick 5, .resolve 0 7, .settle 0,
      .resume 1, .encryptionKey itemsField, .resume 0, .tick 9, .encryptionKey itemsField]
  obtain ⟨c, guarded, count⟩ :
      ∃ c, Steps (Guarded (fun c action => c.roomy (minuteOptions 3 (Nat.succ_pos 2)) action = true)
        (Executes (act (minuteOptions 3 (Nat.succ_pos 2))))) (.start 0) actions c ∧
      c.returns 0 = 3 := by
    decide +kernel
  obtain ⟨unexpired, most⟩ := budget_kept guarded.of_guarded
  exact ⟨actions, c, guarded, count, most guarded, unexpired⟩

/-- A budget of one use, and two callers that wait for the first key: both get it. -/
theorem waiting_callers_exceed_budget : ∃ actions c,
    Steps (Executes (act (minuteOptions 1 (by decide)))) (.start 0) actions c ∧
    ∃ entry : ActiveKey Nat, c.entries[0]? = some entry ∧ c.returns 0 = 2 := by
  refine ⟨[.encryptionKey itemsField, .encryptionKey itemsField, .resolve 0 7, .settle 0,
    .resume 0, .resume 1], ?_⟩
  decide +kernel

end NestApi.Crypto
