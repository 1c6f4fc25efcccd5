import NestApi.MessagingEffects

namespace NestApi.Messaging

open Broker

variable {before after broker : Broker} {member member' : Member} {key : PartitionKey}
  {place offset : Nat} {committed' : PartitionKey → Option Nat} {index : Nat}
  {log : List StoredRecord}

def Forward (before after : Broker) : Prop :=
  ∀ key place, before.committed key = some place →
    ∃ place', after.committed key = some place' ∧ place ≤ place'

/-- A member that turns to a partition it was given since it last read it reads where the group has
committed, if it has. -/
def ReadsCommitted (broker : Broker) : Prop :=
  ∀ member key log, broker.current = some (member, key) → key ∈ member.gained →
    broker.log key = some log →
      broker.readOffset member key log = (broker.committed key).getD (startOffset member log)

/-- The running code turns only to a partition its member still holds, and a handler call resolves
only while its member is where it was when the call began. -/
def Broker.Undisturbed (broker : Broker) : BrokerAction → Prop
  | .step => (broker.current.all fun (member, key) => key ∈ member.assigned) = true
  | .settle index true =>
    ((broker.members[index]?).all fun member =>
      match member.phase with
      | .handling key offset _ _ _ => member.positions key = some offset
      | .reading .. | .idle .. | .ended => true) = true
  | _ => True

instance (broker : Broker) (action : BrokerAction) : Decidable (broker.Undisturbed action) :=
  match action with
  | .step | .settle _ true => inferInstanceAs (Decidable (_ = true))
  | .settle _ false | .ensureTopics .. | .produce .. | .produceElsewhere .. | .subscribe ..
  | .timer .. | .wake .. | .stop .. | .leave .. | .disconnect | .disconnected => isTrue trivial

structure InStep (committed : PartitionKey → Option Nat) (member : Member) : Prop where
  assigned : ∀ key place, member.positions key = some place → key ∈ member.assigned
  committed : ∀ key place place', member.positions key = some place →
    committed key = some place' → place' = place
  gained : ∀ key ∈ member.gained, member.positions key = none

structure Orderly (broker : Broker) : Prop extends Seated broker where
  inStep : ∀ index ∈ broker.present, ∀ member, broker.members[index]? = some member →
    InStep broker.committed member

namespace InStep

variable {committed : PartitionKey → Option Nat}

theorem still (inStep : InStep committed member) (still : Still member member') :
    InStep committed member' where
  assigned := by
    rw [still.positions, still.assigned]
    exact inStep.assigned
  committed := by
    rw [still.positions]
    exact inStep.committed
  gained := by
    rw [still.positions, still.gained]
    exact inStep.gained

theorem joined (topics : List String) (fromBeginning : Bool) :
    InStep committed (Member.joined topics fromBeginning) where
  assigned := fun _ _ found => nomatch found
  committed := fun _ _ _ found => nomatch found
  gained := fun _ listed => nomatch listed

/-- A partition that a member is given is one it has no position in. -/
theorem takeOver (inStep : InStep committed member) (share : List PartitionKey) :
    InStep committed (member.takeOver share) := by
  refine InStep.still ?_ (Still.notify _)
  refine ⟨?_, ?_, ?_⟩
  · intro key place found
    simp only [Option.ite_none_right_eq_some] at found
    exact found.1
  · intro key place place' found
    simp only [Option.ite_none_right_eq_some] at found
    exact inStep.committed key place place' found.2
  · intro key listed
    simp only [List.mem_filter, decide_eq_true_eq] at listed
    simp only [listed.1, if_true]
    rcases listed.2 with gained | new
    · exact inStep.gained key gained
    · cases position : member.positions key with
      | none => rfl
      | some place => exact absurd (inStep.assigned key place position) new

theorem moved (inStep : InStep committed member) (assigned : member'.assigned = member.assigned)
    (positions : member'.positions = Function.update member.positions key (some place))
    (gained : ∀ other ∈ member'.gained, other ∈ member.gained ∧ other ≠ key)
    (elsewhere : ∀ other, other ≠ key → committed' other = committed other)
    (here : ∀ place', committed' key = some place' → place' = place)
    (held : key ∈ member.assigned) : InStep committed' member' where
  assigned := by
    intro other there found
    rw [assigned]
    by_cases same : other = key
    · exact same ▸ held
    · rw [positions, Function.update_of_ne same] at found
      exact inStep.assigned other there found
  committed := by
    intro other there there' found now
    by_cases same : other = key
    · subst same
      rw [positions, Function.update_self] at found
      cases found
      exact here there' now
    · rw [positions, Function.update_of_ne same] at found
      rw [elsewhere other same] at now
      exact inStep.committed other there there' found now
  gained := by
    intro other listed
    obtain ⟨old, same⟩ := gained other listed
    rw [positions, Function.update_of_ne same]
    exact inStep.gained other old

end InStep

namespace Orderly

theorem booted (partitions : Nat) : Orderly (.booted partitions) :=
  ⟨.booted partitions, fun _ present => nomatch present⟩

theorem calm (orderly : Orderly before) (calm : Calm before after) : Orderly after := by
  refine ⟨orderly.toSeated.calm calm, ?_⟩
  rw [calm.present, calm.committed]
  intro index present member' found
  obtain ⟨member, here, still⟩ := calm.still index member' found
  exact (orderly.inStep index present member here).still still

theorem join (orderly : Orderly broker) (topics : List String) (fromBeginning : Bool) :
    Orderly (broker.join topics fromBeginning) := by
  refine ⟨orderly.toSeated.join topics fromBeginning, ?_⟩
  intro index present member found
  rcases getElem?_concat_eq_some found with old | ⟨_, rfl⟩
  · exact orderly.inStep index (Seated.present_of_join present old) member old
  · exact .joined topics fromBeginning

theorem depart (orderly : Orderly before) (departed : Departed before after) : Orderly after := by
  refine ⟨orderly.toSeated.depart departed, ?_⟩
  rw [departed.rest]
  intro index present
  exact orderly.inStep index (departed.present.subset present)

theorem deal (orderly : Orderly broker) : Orderly broker.deal := by
  refine ⟨orderly.toSeated.deal, ?_⟩
  intro index (present : index ∈ broker.present) member' found
  obtain ⟨member, here, rfl⟩ := deal_members found
  rw [if_pos present]
  exact (orderly.inStep index present member here).takeOver _

theorem set (orderly : Orderly broker)
    {resolved' : List (PartitionKey × Nat)} (found : broker.members[index]? = some member)
    (running : member.phase ≠ .ended) (assigned : member'.assigned = member.assigned)
    (inStep : InStep committed' member')
    (others : ∀ other ∈ broker.present, other ≠ index → ∀ third,
      broker.members[other]? = some third → InStep committed' third) : Orderly { broker with
      committed := committed'
      resolved := resolved'
      members := broker.members.set index member' } := by
  refine ⟨orderly.toSeated.set found running assigned, ?_⟩
  intro i present third found'
  rcases getElem?_set_eq_some found' with ⟨rfl, rfl⟩ | ⟨different, old⟩
  · exact inStep
  · exact others i present (Ne.symm different) third old

theorem readOffset_eq (inStep : InStep broker.committed member)
    (committed : broker.committed key = some place) : broker.readOffset member key log = place := by
  unfold readOffset
  cases position : member.positions key with
  | none => simp [committed]
  | some there =>
    have same := inStep.committed key there place position committed
    simp [same]

theorem visited (orderly : Orderly broker) {phase : Phase}
    (undisturbed : broker.Undisturbed .step) (current : broker.current = some (member, key))
    (found : broker.members[index]? = some member) : Orderly (broker.place index
      (member.placed key (broker.readOffset member key log) phase)) := by
  obtain ⟨_, _, _, _, _, reading⟩ := current_eq_some current
  have running : member.phase ≠ .ended := by simp [reading]
  have present := orderly.running index member found running
  have inStep := orderly.inStep index present member found
  simp only [Broker.Undisturbed, current, Option.all_some, decide_eq_true_eq] at undisturbed
  refine orderly.set found running rfl ?_ ?_
  · refine inStep.moved rfl rfl ?_ (fun _ _ => rfl) ?_ undisturbed
    · intro other listed
      simpa [Member.placed] using listed
    · intro place committed
      exact (readOffset_eq inStep committed).symm
  · intro other present' _ third found'
    exact orderly.inStep other present' third found'

theorem commit (orderly : Orderly broker) {rest : List PartitionKey}
    {delivered failed : Bool} (found : broker.members[index]? = some member)
    (phase : member.phase = .handling key offset rest delivered failed)
    (position : member.positions key = some offset) :
    Orderly (broker.commit index member key offset rest failed) := by
  have running : member.phase ≠ .ended := by simp [phase]
  have present := orderly.running index member found running
  have inStep := orderly.inStep index present member found
  have held := inStep.assigned key offset position
  refine orderly.set found running rfl ?_ ?_
  · refine inStep.moved rfl rfl ?_ (fun other different => Function.update_of_ne different _ _) ?_
      held
    · intro other listed
      refine ⟨listed, ?_⟩
      rintro rfl
      exact absurd ((inStep.gained other listed).symm.trans position) (by simp)
    · intro place committed
      rw [Function.update_self] at committed
      exact (Option.some.inj committed).symm
  · intro other present' different third found'
    have theirs := orderly.inStep other present' third found'
    refine ⟨theirs.assigned, ?_, theirs.gained⟩
    intro key' there place position' committed
    have apart : key' ≠ key := by
      rintro rfl
      exact different (orderly.apart other present' index present third member found' found key'
        (theirs.assigned key' there position') held)
    rw [Function.update_of_ne apart] at committed
    exact theirs.committed key' there place position' committed

end Orderly

/-- The commits of an orderly group only move on. -/
theorem orderly_kept (start : Broker) :
    Kept Broker.Undisturbed fun broker => Orderly broker ∧ Forward start broker where
  calm := by
    intro before after calm holds
    refine ⟨holds.1.calm calm, ?_⟩
    unfold Forward
    rw [calm.committed]
    exact holds.2
  join := fun broker topics fromBeginning _ holds =>
    ⟨holds.1.join topics fromBeginning, holds.2⟩
  deal := fun broker holds => ⟨holds.1.deal, holds.2⟩
  depart := by
    intro before after departed holds
    refine ⟨holds.1.depart departed, ?_⟩
    rw [departed.rest]
    exact holds.2
  place := by
    intro broker index member key log phase undisturbed current found _ _ holds
    exact ⟨holds.1.visited undisturbed current found, holds.2⟩
  commit := by
    intro broker index member key offset rest delivered failed undisturbed found phase holds
    simp only [Broker.Undisturbed, found, Option.all_some, phase, decide_eq_true_eq] at undisturbed
    refine ⟨holds.1.commit found phase undisturbed, ?_⟩
    intro other place earlier
    obtain ⟨place', now, less⟩ := holds.2 other place earlier
    by_cases same : other = key
    · subst same
      have present := holds.1.running index member found (by simp [phase])
      have inStep := holds.1.inStep index present member found
      have here := inStep.committed other offset place' undisturbed now
      exact ⟨offset + 1, Function.update_self _ _ _, by omega⟩
    · exact ⟨place', (Function.update_of_ne same _ _).trans now, less⟩

theorem Orderly.readsCommitted (orderly : Orderly broker) : ReadsCommitted broker := by
  intro member key log current gained _
  obtain ⟨index, _, _, _, found, phase⟩ := current_eq_some current
  have present := orderly.running index member found (by simp [phase])
  have unread := (orderly.inStep index present member found).gained key gained
  simp [readOffset, unread]

/-- In a run that no rebalance disturbs, commits only move forward, and a partition is next read by
a new member where the group has committed. -/
theorem commits_move_forward (partitions : Nat) (first second : List BrokerAction)
    (before after : Broker)
    (reached : Steps (Guarded Broker.Undisturbed (Executes act)) (.booted partitions) first
      before) (run : Steps (Guarded Broker.Undisturbed (Executes act)) before second after) :
    Forward before after ∧ ReadsCommitted after := by
  have keeps : ∀ start s action t, Orderly s ∧ Forward start s →
      Guarded Broker.Undisturbed (Executes act) s action t → Orderly t ∧ Forward start t :=
    fun start s action t holds taken => (orderly_kept start).act taken.1 holds taken.2
  have earlier := reached.invariant _ (keeps (.booted partitions))
    ⟨.booted partitions, fun key place found => nomatch found⟩
  have later := run.invariant _ (keeps before)
    ⟨earlier.1, fun key place found => ⟨place, found, Nat.le_refl place⟩⟩
  exact ⟨later.2, later.1.readsCommitted⟩

/-- The only member handles a message, and fails at the next one. -/
def alone : List BrokerAction :=
  [.ensureTopics [("orders", 2)], .subscribe ["orders"] true, .step, .step, .step, .wake 0, .step,
    .step, .step, .produce (List.replicate 3 ⟨"orders", some "b", [], []⟩) 0, .wake 0, .step,
    .step, .settle 0 true, .step, .step, .step, .settle 0 false, .step]

/-- Another member takes the partition over, handles the rest of it and leaves. -/
def helped : List BrokerAction :=
  [.subscribe ["orders"] true, .step, .settle 1 true, .step, .step, .stop 1, .settle 1 true, .step,
    .leave 1, .wake 0, .step]

theorem commits_move_forward_when_helped : ∃ before after, before.committed ⟨"orders", 1⟩ = some 1 ∧
      after.committed ⟨"orders", 1⟩ = some 3 ∧
      (∃ member, after.current = some (member, ⟨"orders", 1⟩) ∧ ⟨"orders", 1⟩ ∈ member.gained) ∧
      Forward before after ∧ ReadsCommitted after := by
  obtain ⟨before, first, committed, after, second, committed', ⟨member, _⟩, current, rfl, gained⟩ :
      ∃ before, Steps (Guarded Undisturbed (Executes act)) (.booted 1) alone before ∧
        before.committed ⟨"orders", 1⟩ = some 1 ∧
      ∃ after, Steps (Guarded Undisturbed (Executes act)) before helped after ∧
        after.committed ⟨"orders", 1⟩ = some 3 ∧
      ∃ turn, after.current = some turn ∧ turn.2 = ⟨"orders", 1⟩ ∧ turn.2 ∈ turn.1.gained := by
    decide +kernel
  exact ⟨before, after, committed, committed', ⟨member, current, gained⟩,
    commits_move_forward 1 alone helped before after first second⟩

/-- A member takes a partition over while a message of it is being handled, and handles that message
and the next before the first call resolves. -/
def overtaken : List BrokerAction :=
  [.ensureTopics [("orders", 2)], .subscribe ["orders"] true, .step, .step, .step, .wake 0, .step,
    .step, .step, .produce (List.replicate 3 ⟨"orders", some "b", [], []⟩) 0, .wake 0, .step,
    .step, .subscribe ["orders"] true, .step, .settle 1 true, .step, .step, .settle 1 true, .step,
    .step]

/-- The new member handles the last message and leaves. -/
def returned : List BrokerAction :=
  [.step, .step, .step, .settle 1 true, .step, .step, .step, .wake 1, .step, .step, .stop 1,
    .wake 1, .leave 1, .wake 0, .step]

theorem commit_moved_back : (∃ before after, Steps (Executes act) (.booted 1) overtaken before ∧
      Steps (Executes act) before [.settle 0 true] after ∧ ¬ Forward before after) ∧
    ∃ broker, Steps (Executes act) (.booted 1) (overtaken ++ [.settle 0 true] ++ returned)
      broker ∧ ¬ ReadsCommitted broker := by
  constructor
  · obtain ⟨before, run, committed, after, settled, moved⟩ :
        ∃ before, Steps (Executes act) (.booted 1) overtaken before ∧
          before.committed ⟨"orders", 1⟩ = some 2 ∧
        ∃ after, Steps (Executes act) before [.settle 0 true] after ∧
          after.committed ⟨"orders", 1⟩ = some 1 := by
      decide +kernel
    refine ⟨before, after, run, settled, ?_⟩
    intro forward
    obtain ⟨place, now, less⟩ := forward _ 2 committed
    rw [moved] at now
    cases now
    omega
  · obtain ⟨broker, run, committed, ⟨member, _⟩, current, rfl, gained, log, here, offset⟩ :
        ∃ broker, Steps (Executes act) (.booted 1) (overtaken ++ [.settle 0 true] ++ returned)
          broker ∧ broker.committed ⟨"orders", 1⟩ = some 3 ∧
        ∃ turn, broker.current = some turn ∧ turn.2 = ⟨"orders", 1⟩ ∧ turn.2 ∈ turn.1.gained ∧
        ∃ log, broker.log turn.2 = some log ∧ broker.readOffset turn.1 turn.2 log = 1 := by
      decide +kernel
    refine ⟨broker, run, ?_⟩
    intro reads
    have same := reads member _ log current gained here
    rw [offset, committed] at same
    cases same

end NestApi.Messaging
