import NestApi.MessagingEffects

namespace NestApi.Messaging

open Broker

variable {topics : List String} {fromBeginning : Bool} {before after broker : Broker}
  {key : PartitionKey} {place offset : Nat} {log : List StoredRecord} {member : Member}

/-- What the group owes a handler call: what was produced to its topics since its first member
subscribed, or ever. -/
def Due (topics : List String) (fromBeginning : Bool) (broker : Broker) (key : PartitionKey)
    (offset : Nat) : Prop :=
  key.topic ∈ topics ∧ offset < broker.ends key ∧
    (fromBeginning = true ∨ broker.joinedAt.any (fun joined => joined key ≤ offset) = true)

instance (topics : List String) (fromBeginning : Bool) (broker : Broker) (key : PartitionKey)
    (offset : Nat) : Decidable (Due topics fromBeginning broker key offset) :=
  inferInstanceAs (Decidable (_ ∧ _ ∧ _))

/-- Neither the group nor the owner of the partition is past a message that is due and not resolved
for. -/
def NoneSkipped (topics : List String) (fromBeginning : Bool) (broker : Broker) : Prop :=
  ∀ key offset, Due topics fromBeginning broker key offset → (key, offset) ∉ broker.resolved →
    (∀ place, broker.committed key = some place → place ≤ offset) ∧
    ∀ index ∈ broker.present, ∀ member, broker.members[index]? = some member →
      key ∈ member.assigned → ∀ place, member.positions key = some place → place ≤ offset

/-- Everyone in the group subscribes to the same topics in the same way. -/
def BrokerAction.Uniform (topics : List String) (fromBeginning : Bool) : BrokerAction → Prop
  | .subscribe others beginning => others = topics ∧ beginning = fromBeginning
  | _ => True

instance (topics : List String) (fromBeginning : Bool) (action : BrokerAction) :
    Decidable (action.Uniform topics fromBeginning) :=
  match action with
  | .subscribe .. => inferInstanceAs (Decidable (_ ∧ _))
  | .ensureTopics .. | .produce .. | .produceElsewhere .. | .step | .settle .. | .timer ..
  | .wake .. | .stop .. | .leave .. | .disconnect | .disconnected => isTrue trivial

/-- A member that starts at the end of a log, with neither a position nor a commit, finds it as it
was when the group's first member subscribed. -/
def Broker.StartsInTime (broker : Broker) : BrokerAction → Prop
  | .step =>
    (broker.current.all fun (member, key) =>
      member.fromBeginning || (member.positions key).isSome || (broker.committed key).isSome ||
        broker.joinedAt.any fun joined => broker.ends key ≤ joined key) = true
  | _ => True

instance (broker : Broker) (action : BrokerAction) : Decidable (broker.StartsInTime action) :=
  match action with
  | .step => inferInstanceAs (Decidable (_ = true))
  | .ensureTopics .. | .produce .. | .produceElsewhere .. | .subscribe .. | .settle .. | .timer ..
  | .wake .. | .stop .. | .leave .. | .disconnect | .disconnected => isTrue trivial

/-- A place in a log before which no due message is left. -/
structure Behind (topics : List String) (fromBeginning : Bool) (broker : Broker)
    (key : PartitionKey) (place : Nat) : Prop where
  within : place ≤ broker.ends key
  resolved : ∀ offset < place, Due topics fromBeginning broker key offset →
    (key, offset) ∈ broker.resolved

/-- Nothing that was not due becomes so, and what was resolved for stays so. -/
structure Later (topics : List String) (fromBeginning : Bool) (before after : Broker) : Prop where
  ends : ∀ key, before.ends key ≤ after.ends key
  due : ∀ key offset, offset < before.ends key → Due topics fromBeginning after key offset →
    Due topics fromBeginning before key offset
  resolved : before.resolved ⊆ after.resolved

theorem Behind.later (behind : Behind topics fromBeginning before key place)
    (later : Later topics fromBeginning before after) :
    Behind topics fromBeginning after key place := by
  refine ⟨behind.within.trans (later.ends key), ?_⟩
  intro offset less due
  apply later.resolved
  exact behind.resolved offset less (later.due key offset (by have := behind.within; omega) due)

theorem Behind.zero : Behind topics fromBeginning broker key 0 :=
  ⟨Nat.zero_le _, fun _ less => absurd less (Nat.not_lt_zero _)⟩

theorem Broker.ends_eq (here : broker.log key = some log) : broker.ends key = log.length := by
  simp [ends, here]

theorem Grows.ends (grows : Grows before after) (key : PartitionKey) :
    before.ends key ≤ after.ends key := by
  cases here : before.log key with
  | none => simp [Broker.ends, here]
  | some log =>
    obtain ⟨log', there, less⟩ := grows key log here
    rw [Broker.ends_eq here, Broker.ends_eq there]
    exact less

theorem Later.of_joinedAt (grows : ∀ key, before.ends key ≤ after.ends key)
    (joinedAt : after.joinedAt = before.joinedAt) (resolved : before.resolved ⊆ after.resolved) :
    Later topics fromBeginning before after := by
  refine ⟨grows, ?_, resolved⟩
  intro key offset less due
  exact ⟨due.1, less, joinedAt ▸ due.2.2⟩

/-- The first member owes nothing that was there before it. -/
theorem Later.join (broker : Broker) (others : List String) (beginning : Bool) :
    Later topics fromBeginning broker (broker.join others beginning) := by
  refine ⟨fun _ => Nat.le_refl _, ?_, fun _ => id⟩
  intro key offset less due
  refine ⟨due.1, less, due.2.2.imp_right ?_⟩
  intro since
  cases joinedAt : broker.joinedAt with
  | some => simpa [Broker.join, joinedAt] using since
  | none =>
    simp only [Broker.join, joinedAt, Option.none_or, Option.any_some, decide_eq_true_eq] at since
    omega

/-- Nothing a member has noted down is past a due message. -/
structure Careful (topics : List String) (fromBeginning : Bool) (broker : Broker)
    (member : Member) : Prop where
  uniform : member.fromBeginning = fromBeginning
  positions : ∀ key place, member.positions key = some place →
    Behind topics fromBeginning broker key place
  handling : ∀ key offset rest delivered failed,
    member.phase = .handling key offset rest delivered failed →
      Behind topics fromBeginning broker key offset ∧ offset < broker.ends key

structure InOrder (topics : List String) (fromBeginning : Bool) (broker : Broker) : Prop where
  committed : ∀ key place, broker.committed key = some place →
    Behind topics fromBeginning broker key place
  members : ∀ member ∈ broker.members, Careful topics fromBeginning broker member

namespace Careful

variable {member' : Member}

theorem later (careful : Careful topics fromBeginning before member)
    (later : Later topics fromBeginning before after) :
    Careful topics fromBeginning after member where
  uniform := careful.uniform
  positions := fun key place found => (careful.positions key place found).later later
  handling := by
    intro key offset rest delivered failed phase
    obtain ⟨behind, less⟩ := careful.handling key offset rest delivered failed phase
    exact ⟨behind.later later, less.trans_le (later.ends key)⟩

theorem still (careful : Careful topics fromBeginning broker member)
    (still : Still member member') : Careful topics fromBeginning broker member' where
  uniform := still.fromBeginning.trans careful.uniform
  positions := still.positions ▸ careful.positions
  handling := by
    intro key offset rest delivered failed phase
    apply careful.handling key offset rest delivered failed
    exact (still.handling key offset rest delivered failed phase).symm.trans phase

theorem joined (others : List String) :
    Careful topics fromBeginning broker (Member.joined others fromBeginning) where
  uniform := rfl
  positions := fun _ _ found => nomatch found
  handling := fun _ _ _ _ _ phase => nomatch phase

theorem takeOver (careful : Careful topics fromBeginning broker member)
    (share : List PartitionKey) : Careful topics fromBeginning broker (member.takeOver share) := by
  refine Careful.still ?_ (Still.notify _)
  refine ⟨careful.uniform, ?_, careful.handling⟩
  intro key place found
  simp only [Option.ite_none_right_eq_some] at found
  exact careful.positions key place found.2

theorem moved (careful : Careful topics fromBeginning broker member)
    (uniform : member'.fromBeginning = member.fromBeginning)
    (positions : member'.positions = Function.update member.positions key (some place))
    (behind : Behind topics fromBeginning broker key place)
    (handling : ∀ key' offset rest delivered failed,
      member'.phase = .handling key' offset rest delivered failed →
        key' = key ∧ offset = place ∧ offset < broker.ends key) :
    Careful topics fromBeginning broker member' where
  uniform := uniform.trans careful.uniform
  positions := by
    intro other found
    rw [positions]
    by_cases same : other = key
    · subst same
      simp only [Function.update_self, Option.some.injEq]
      rintro rfl
      exact behind
    · simp only [Function.update_of_ne same]
      exact careful.positions other found
  handling := by
    intro other offset rest delivered failed calls
    obtain ⟨rfl, rfl, less⟩ := handling other offset rest delivered failed calls
    exact ⟨behind, less⟩

end Careful

theorem InOrder.readOffset (order : InOrder topics fromBeginning broker)
    (careful : Careful topics fromBeginning broker member)
    (current : broker.current = some (member, key)) (here : broker.log key = some log)
    (inTime : broker.StartsInTime .step) :
    Behind topics fromBeginning broker key (broker.readOffset member key log) := by
  unfold Broker.readOffset
  cases position : member.positions key with
  | some place => exact careful.positions key place position
  | none =>
    cases committed : broker.committed key with
    | some place => exact order.committed key place committed
    | none =>
      cases beginning : member.fromBeginning with
      | true => simpa [startOffset, beginning] using Behind.zero
      | false =>
        simp only [StartsInTime, current, Option.all_some, beginning, position,
          committed, Option.isSome_none, Bool.or_self, Bool.false_or] at inTime
        simp only [Option.or_none, Option.getD_none, startOffset, beginning, ← ends_eq here]
        refine ⟨Nat.le_refl _, ?_⟩
        intro offset less due
        rcases due.2.2 with whole | since
        · rw [← careful.uniform, beginning] at whole
          cases whole
        · cases joinedAt : broker.joinedAt with
          | none => simp [joinedAt] at since
          | some =>
            simp only [joinedAt, Option.any_some, decide_eq_true_eq] at inTime since
            have within := due.2.1
            omega

theorem InOrder.later (order : InOrder topics fromBeginning before)
    (later : Later topics fromBeginning before after)
    (committed : after.committed = before.committed)
    (members : ∀ member ∈ after.members, Careful topics fromBeginning before member) :
    InOrder topics fromBeginning after := by
  refine ⟨?_, fun member listed => (members member listed).later later⟩
  intro key place found
  rw [committed] at found
  exact (order.committed key place found).later later

/-- The order holds after a handler call has resolved, wherever its partition is by then. -/
theorem InOrder.commit (order : InOrder topics fromBeginning broker) {index : Nat}
    {rest : List PartitionKey} {delivered failed : Bool}
    (found : broker.members[index]? = some member)
    (phase : member.phase = .handling key offset rest delivered failed) :
    InOrder topics fromBeginning (broker.commit index member key offset rest failed) := by
  have careful := order.members member (List.mem_of_getElem? found)
  obtain ⟨behind, less⟩ := careful.handling key offset rest delivered failed phase
  have later : Later topics fromBeginning broker
      (broker.commit index member key offset rest failed) :=
    .of_joinedAt (fun _ => Nat.le_refl _) rfl (List.subset_append_left _ _)
  have next : Behind topics fromBeginning (broker.commit index member key offset rest failed) key
      (offset + 1) := by
    refine ⟨less, ?_⟩
    intro earlier before due
    by_cases here : earlier = offset
    · simp [Broker.commit, here]
    · exact (behind.later later).resolved earlier (by omega) due
  refine ⟨?_, ?_⟩
  · intro other place
    by_cases same : other = key
    · subst same
      simp only [commit, Function.update_self, Option.some.injEq]
      rintro rfl
      exact next
    · simp only [Broker.commit, Function.update_of_ne same]
      intro committed
      exact (order.committed other place committed).later later
  · intro member' listed
    rcases List.mem_or_eq_of_mem_set listed with old | rfl
    · exact (order.members member' old).later later
    · exact (careful.later later).moved rfl rfl next (fun _ _ _ _ _ calls => nomatch calls)

theorem inOrder_kept :
    Kept (fun broker action => action.Uniform topics fromBeginning ∧ broker.StartsInTime action)
      (InOrder topics fromBeginning) where
  calm := by
    intro before after calm order
    refine order.later (.of_joinedAt calm.grows.ends calm.joinedAt (by simp [calm.resolved]))
      calm.committed ?_
    intro member' listed
    obtain ⟨index, found⟩ := List.mem_iff_getElem?.mp listed
    obtain ⟨member, here, still⟩ := calm.still index member' found
    exact (order.members member (List.mem_of_getElem? here)).still still
  join := by
    intro broker others beginning uniform order
    refine order.later (.join broker others beginning) rfl ?_
    apply forall_mem_concat order.members
    rw [uniform.1.2]
    exact .joined others
  deal := by
    intro broker order
    refine order.later (.of_joinedAt (fun _ => Nat.le_refl _) rfl (fun _ => id)) rfl ?_
    intro member' listed
    obtain ⟨index, found⟩ := List.mem_iff_getElem?.mp listed
    obtain ⟨member, here, rfl⟩ := deal_members found
    have careful := order.members member (List.mem_of_getElem? here)
    split
    · exact careful.takeOver _
    · exact careful
  depart := by
    intro before after departed order
    rw [departed.rest]
    exact order.later (.of_joinedAt (fun _ => Nat.le_refl _) rfl (fun _ => id)) rfl order.members
  place := by
    intro broker index member key log phase permitted current found here handling order
    have careful := order.members member (List.mem_of_getElem? found)
    have behind := order.readOffset careful current here permitted.2
    refine order.later (.of_joinedAt (fun _ => Nat.le_refl _) rfl (fun _ => id)) rfl ?_
    intro member' listed
    rcases List.mem_or_eq_of_mem_set listed with old | rfl
    · exact order.members member' old
    · exact careful.moved rfl rfl behind (ends_eq here ▸ handling)
  commit := by
    intro broker index member key offset rest delivered failed _ found phase order
    exact order.commit found phase

theorem InOrder.booted (partitions : Nat) : InOrder topics fromBeginning (.booted partitions) :=
  ⟨fun _ _ found => (nomatch found), fun _ listed => (nomatch listed)⟩

theorem InOrder.noneSkipped (order : InOrder topics fromBeginning broker) :
    NoneSkipped topics fromBeginning broker := by
  intro key offset due unresolved
  have below : ∀ place, Behind topics fromBeginning broker key place → place ≤ offset := by
    intro place behind
    by_contra past
    exact unresolved (behind.resolved offset (by omega) due)
  refine ⟨fun place found => below place (order.committed key place found), ?_⟩
  intro index _ member found _ place position
  have careful := order.members member (List.mem_of_getElem? found)
  exact below place (careful.positions key place position)

/-- No due message is passed over in a run in which nobody starts at the end of a log too late. -/
theorem no_due_message_skipped (topics : List String) (fromBeginning : Bool) (partitions : Nat)
    (actions : List BrokerAction) (broker : Broker) (run : Steps (Guarded (fun broker action =>
        action.Uniform topics fromBeginning ∧ broker.StartsInTime action)
      (Executes act)) (.booted partitions) actions broker) :
    NoneSkipped topics fromBeginning broker := by
  apply InOrder.noneSkipped
  refine run.invariant (InOrder topics fromBeginning) ?_ (InOrder.booted partitions)
  intro before action after order taken
  exact inOrder_kept.act taken.1 order taken.2

def message (key : String) : OutgoingMessage := ⟨"orders", some key, [], []⟩

/-- The first member handles a message and leaves, and the next finds one where it left off. -/
def afterACommit : List BrokerAction :=
  [.subscribe ["orders"] false, .step, .step, .wake 0, .step, .step, .produce [message "a"] 0,
    .wake 0, .step, .settle 0 true, .step, .step, .step, .stop 0, .wake 0, .leave 0,
    .produce [message "a"] 0, .subscribe ["orders"] false, .step]

theorem no_due_message_skipped_after_a_commit :
    ∃ broker, broker.committed ⟨"orders", 0⟩ = some 1 ∧ broker.ends ⟨"orders", 0⟩ = 2 ∧
      NoneSkipped ["orders"] false broker := by
  obtain ⟨broker, run, committed, ends⟩ : ∃ broker, Steps (Guarded
      (fun broker action => action.Uniform ["orders"] false ∧ broker.StartsInTime action)
      (Executes act)) (.booted 1) afterACommit broker ∧
      broker.committed ⟨"orders", 0⟩ = some 1 ∧ broker.ends ⟨"orders", 0⟩ = 2 := by
    decide +kernel
  exact ⟨broker, committed, ends, no_due_message_skipped ["orders"] false 1 afterACommit broker run⟩

/-- A handler rejects the first message of a partition, which then goes to a new member. -/
def beforeACommit : List BrokerAction :=
  [.ensureTopics [("orders", 2)], .subscribe ["orders"] false, .step, .step, .step, .wake 0,
    .step, .step, .step, .produce [message "b"] 0, .wake 0, .step, .step, .settle 0 false, .step,
    .subscribe ["orders"] false, .step]

theorem rejected_message_skipped :
    ∃ broker, Steps (Guarded (fun _ action => action.Uniform ["orders"] false)
        (Executes act)) (.booted 1) beforeACommit broker ∧
      ¬ NoneSkipped ["orders"] false broker := by
  obtain ⟨broker, run, due, unresolved, present, member, found, assigned, position⟩ : ∃ broker,
      Steps (Guarded (fun _ action => action.Uniform ["orders"] false) (Executes act))
        (.booted 1) beforeACommit broker ∧
      Due ["orders"] false broker ⟨"orders", 1⟩ 0 ∧ (⟨"orders", 1⟩, 0) ∉ broker.resolved ∧
      1 ∈ broker.present ∧ ∃ member, broker.members[1]? = some member ∧
        ⟨"orders", 1⟩ ∈ member.assigned ∧ member.positions ⟨"orders", 1⟩ = some 1 := by
    decide +kernel
  refine ⟨broker, run, ?_⟩
  intro none
  have passed := (none _ 0 due unresolved).2 1 present member found assigned 1 position
  omega

end NestApi.Messaging
