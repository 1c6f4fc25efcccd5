import NestApi.MessagingWakeups

namespace NestApi.Messaging

open Broker

variable {before after broker : Broker} {member : Member} {index : Nat}

/-- Every partition of every topic someone in the group subscribed to belongs to one of its members,
who is running and subscribed to the topic. -/
def Owned (broker : Broker) : Prop :=
  ∀ index ∈ broker.present, ∀ subscriber, broker.members[index]? = some subscriber →
    ∀ topic ∈ subscriber.topics, ∀ partition < (broker.logs topic).length,
      ∃ owner ∈ broker.present, ∃ member, broker.members[owner]? = some member ∧
        member.stopped = false ∧ topic ∈ member.topics ∧ ⟨topic, partition⟩ ∈ member.assigned ∧
        ∀ other ∈ broker.present, ∀ member', broker.members[other]? = some member' →
          ⟨topic, partition⟩ ∈ member'.assigned → other = owner

/-- The handler call the running code is about to make, if it is about to make one, is for a
partition its member holds. -/
def HandlesAssigned (broker : Broker) : Prop :=
  ∀ member key log, broker.current = some (member, key) → broker.log key = some log →
    broker.readOffset member key log < log.length → key ∈ member.assigned

/-- Nobody who sleeps until woken holds a partition with something left to read in it. -/
def NoneOverslept (broker : Broker) : Prop :=
  ∀ index ∈ broker.present, ∀ member, broker.members[index]? = some member →
    member.phase = .idle true false → member.pending = false → ∀ key ∈ member.assigned, ∀ log,
      broker.log key = some log → log.length ≤ broker.readOffset member key log

def BrokerAction.Rebalances : BrokerAction → Prop
  | .subscribe .. | .leave _ => True
  | _ => False

theorem Broker.topics_of_member {topic : String} (present : index ∈ broker.present)
    (found : broker.members[index]? = some member) (listed : topic ∈ member.topics) :
    topic ∈ broker.topics := by
  simp only [topics, List.mem_insertionSort, List.mem_dedup, List.mem_flatMap]
  exact ⟨index, present, by simpa [found] using listed⟩

theorem Member.stopped_notify (member : Member) : member.notify.stopped = member.stopped := by
  unfold Member.notify
  split <;> rfl

section

variable (seated : Seated broker) (unanimous : broker.Unanimous)
  (running : ∀ index ∈ broker.present, ∀ member, broker.members[index]? = some member →
    member.stopped = false)

include seated unanimous running

theorem Owned.deal : Owned broker.deal := by
  intro index (present : index ∈ broker.present) subscriber' found topic listed partition inside
  obtain ⟨subscriber, here, rfl⟩ := deal_members found
  rw [if_pos present, subscriber.takeOver_topics] at listed
  have due : (⟨topic, partition⟩ : PartitionKey) ∈ broker.keys :=
    mem_keys.mpr ⟨topics_of_member present here listed, inside⟩
  obtain ⟨place, small, share⟩ := RoundRobin.exists_place due (List.length_pos_of_mem present)
  have present' : broker.present.get ⟨place, small⟩ ∈ broker.present := List.get_mem _ _
  generalize named : broker.present.get ⟨place, small⟩ = owner at present'
  have turn : broker.present.idxOf owner = place := by
    rw [← named]
    exact List.Nodup.idxOf_getElem seated.nodup place small
  obtain ⟨member, there⟩ : ∃ member, broker.members[owner]? = some member :=
    ⟨_, List.getElem?_eq_getElem (seated.listed owner present')⟩
  have found' : broker.deal.members[owner]? = some (member.takeOver
      (RoundRobin.share broker.keys broker.present.length (broker.present.idxOf owner))) := by
    simp [Broker.deal, List.getElem?_mapIdx, there, present']
  have held : (⟨topic, partition⟩ : PartitionKey) ∈ (member.takeOver (RoundRobin.share broker.keys
      broker.present.length (broker.present.idxOf owner))).assigned := by
    rw [Member.takeOver_assigned, turn]
    exact share
  refine ⟨owner, present', _, found', ?_, ?_, held, ?_⟩
  · rw [Member.takeOver, Member.stopped_notify]
    exact running owner present' member there
  · rw [member.takeOver_topics]
    exact unanimous index present owner present' subscriber member here there topic listed
  · intro other present'' third found'' held'
    exact seated.deal.apart other present'' owner present' third _ found'' found' _ held' held

theorem Owned.rebalance : Owned broker.rebalance := by
  unfold Broker.rebalance
  split
  · rename_i nobody
    intro index present
    simp [nobody] at present
  · apply Owned.deal
    · exact seated.calm (Calm.foldl (fun broker topic => Calm.ensure broker topic _) _ broker)
    · unfold Unanimous
      rw [present_foldl_logsFor, members_foldl_logsFor]
      exact unanimous
    · rw [present_foldl_logsFor, members_foldl_logsFor]
      exact running

end

theorem Owned.modify (owned : Owned broker) {f : Member → Member}
    (same : ∀ member, (f member).topics = member.topics ∧ (f member).assigned = member.assigned ∧
      (f member).stopped = member.stopped) : Owned (broker.modify index f) := by
  have earlier : ∀ (i : Nat) (member' : Member),
      (broker.modify index f).members[i]? = some member' → ∃ member : Member,
        broker.members[i]? = some member ∧ member'.topics = member.topics ∧
          member'.assigned = member.assigned := by
    intro i member' found
    simp only [Broker.modify, List.getElem?_modify] at found
    obtain ⟨member, here, rfl⟩ := Option.map_eq_some_iff.mp found
    refine ⟨member, here, ?_⟩
    split
    · exact ⟨(same member).1, (same member).2.1⟩
    · exact ⟨rfl, rfl⟩
  intro i present subscriber' found topic listed partition inside
  obtain ⟨subscriber, here, topics, _⟩ := earlier i subscriber' found
  obtain ⟨owner, present', member, there, running, subscribed, held, only⟩ :=
    owned i present subscriber here topic (topics ▸ listed) partition inside
  refine ⟨owner, present', if index = owner then f member else member, ?_, ?_, ?_, ?_, ?_⟩
  · simp [Broker.modify, List.getElem?_modify, there]
  · split
    · exact (same member).2.2.trans running
    · exact running
  · split
    · exact (same member).1 ▸ subscribed
    · exact subscribed
  · split
    · exact (same member).2.1 ▸ held
    · exact held
  · intro other present'' third' found' held'
    obtain ⟨third, here', _, assigned⟩ := earlier other third' found'
    exact only other present'' third here' (assigned ▸ held')

theorem Manned.owned {action : BrokerAction} (manned : Manned before) (seated : Seated before)
    (settled : before.Settled action) (rebalances : action.Rebalances)
    (taken : before.act action = some after) : Owned after := by
  cases action with
  | subscribe topics fromBeginning =>
    obtain ⟨-, rfl⟩ := of_ite_some taken
    obtain ⟨unanimous, steady⟩ := settled.join manned
    have dealt : Owned (before.join topics fromBeginning).rebalance :=
      .rebalance (seated.join topics fromBeginning) unanimous
        (fun index present member found => (steady index present member found).1)
    refine Owned.modify dealt ?_
    intro member
    unfold Member.loop
    split <;> exact ⟨rfl, rfl, rfl⟩
  | leave =>
    obtain ⟨departed, rfl⟩ := Departed.leave taken
    obtain ⟨unanimous, steady⟩ := settled.depart seated manned
    exact .rebalance (seated.depart departed) unanimous
      (fun other present member found => (steady other present member found).1)
  | _ => exact rebalances.elim

theorem Manned.handlesAssigned (manned : Manned broker) (seated : Seated broker) :
    HandlesAssigned broker := by
  intro member key log current _ _
  obtain ⟨index, rest, delivered, failed, found, reading⟩ := current_eq_some current
  have present := seated.running index member found (by simp [reading])
  apply (manned.attended index present member found).ahead
  simp [Member.ahead, reading]

theorem Manned.noneOverslept (manned : Manned broker) : NoneOverslept broker := by
  intro index present member found asleep _ key held log here
  have watchful := (manned.attended index present member found).watchful
  simp only [Watchful, asleep] at watchful
  obtain ⟨place, position, less⟩ := watchful key held log here
  simpa [readOffset, position] using less

/-- Where everyone asks for the same topics, and joins and leaves only while the others are steady,
every rebalance leaves each partition with one running subscriber, handlers are called for
partitions their members hold, and nobody sleeps through a record. -/
theorem partitions_owned_and_read (partitions : Nat) (actions : List BrokerAction) (broker : Broker)
    (run : Steps (Guarded Settled (Executes act)) (.booted partitions) actions
      broker) : (∀ past last, actions = past ++ [last] → last.Rebalances → Owned broker) ∧
      HandlesAssigned broker ∧ NoneOverslept broker := by
  have kept : ∀ s action t, Seated s ∧ Manned s →
      Guarded Settled (Executes act) s action t → Seated t ∧ Manned t := by
    intro s action t holds taken
    exact ⟨seated_kept.act trivial holds.1 taken.2, holds.2.act holds.1 taken.1 taken.2⟩
  have start : Seated (.booted partitions) ∧ Manned (.booted partitions) :=
    ⟨.booted partitions, .booted partitions⟩
  have reached := run.invariant _ kept start
  refine ⟨?_, reached.2.handlesAssigned reached.1, reached.2.noneOverslept⟩
  rintro past last rfl rebalances
  obtain ⟨before, earlier, onward⟩ := run.split
  have holds := earlier.invariant _ kept start
  cases onward with
  | cons taken rest =>
    cases rest
    exact holds.2.owned holds.1 taken.1 rebalances taken.2

/-- A second member joins, and the two share the partitions of a topic. -/
def sharing : List BrokerAction :=
  [.ensureTopics [("orders", 2)], .subscribe ["orders"] true, .step, .step, .step, .wake 0, .step,
    .step, .step, .subscribe ["orders"] true]

theorem partitions_owned_when_sharing :
    ∃ broker, broker.present = [0, 1] ∧ (broker.logs "orders").length = 2 ∧ Owned broker ∧
      HandlesAssigned broker ∧ NoneOverslept broker := by
  obtain ⟨broker, run, present, two⟩ : ∃ broker,
      Steps (Guarded Settled (Executes act)) (.booted 1) sharing broker ∧
      broker.present = [0, 1] ∧ (broker.logs "orders").length = 2 := by
    decide +kernel
  obtain ⟨owned, handles, awake⟩ := partitions_owned_and_read 1 sharing broker run
  have last : Owned broker :=
    owned (sharing.take 9) (.subscribe ["orders"] true) rfl trivial
  exact ⟨broker, present, two, last, handles, awake⟩

/-- A member who asked for one topic is given the partition of another. -/
def crossed : List BrokerAction :=
  [.subscribe ["shipments"] true, .step, .step, .wake 0, .step, .step, .subscribe ["orders"] true]

/-- Both read what they were given and fall asleep, and a message comes. -/
def unheard : List BrokerAction :=
  [.step, .step, .wake 0, .step, .step, .wake 1, .step, .step,
    .produce [⟨"orders", none, [], []⟩] 0]

/-- A member joins while another is handling the first message of its pass. -/
def outdated : List BrokerAction :=
  [.ensureTopics [("orders", 2)], .produce (List.replicate 2 ⟨"orders", none, [], []⟩) 0,
    .subscribe ["orders"] true, .step, .subscribe ["orders"] true, .step, .settle 0 true]

theorem partitions_crossed_and_unheard :
    (∃ broker, Steps (Executes act) (.booted 1) crossed broker ∧ ¬ Owned broker) ∧
    (∃ broker, Steps (Executes act) (.booted 1) outdated broker ∧ ¬ HandlesAssigned broker) ∧
    ∃ broker, Steps (Executes act) (.booted 1) (crossed ++ unheard) broker ∧
      ¬ NoneOverslept broker := by
  refine ⟨?_, ?_, ?_⟩
  · obtain ⟨broker, run, present, inside, subscriber, there, subscribed, holder, here, unsubscribed,
        held⟩ : ∃ broker, Steps (Executes act) (.booted 1) crossed broker ∧
        broker.present = [0, 1] ∧ 0 < (broker.logs "orders").length ∧
        ∃ subscriber, broker.members[1]? = some subscriber ∧ "orders" ∈ subscriber.topics ∧
        ∃ holder, broker.members[0]? = some holder ∧ "orders" ∉ holder.topics ∧
          ⟨"orders", 0⟩ ∈ holder.assigned := by
      decide +kernel
    refine ⟨broker, run, ?_⟩
    intro owned
    obtain ⟨owner, _, member, found, _, topics, _, only⟩ := owned 1 (by simp [present]) subscriber
      there "orders" subscribed 0 inside
    have same := only 0 (by simp [present]) holder here held
    subst same
    cases found.symm.trans here
    exact unsubscribed topics
  · obtain ⟨broker, run, ⟨member, key⟩, current, lost, log, here, less⟩ : ∃ broker,
        Steps (Executes act) (.booted 1) outdated broker ∧
        ∃ turn, broker.current = some turn ∧ turn.2 ∉ turn.1.assigned ∧
        ∃ log, broker.log turn.2 = some log ∧ broker.readOffset turn.1 turn.2 log < log.length := by
      decide +kernel
    refine ⟨broker, run, ?_⟩
    intro handles
    exact lost (handles member key log current here less)
  · obtain ⟨broker, run, present, member, found, asleep, pending, held, log, here, unread⟩ :
        ∃ broker, Steps (Executes act) (.booted 1) (crossed ++ unheard) broker ∧
        0 ∈ broker.present ∧ ∃ member, broker.members[0]? = some member ∧
        member.phase = .idle true false ∧ member.pending = false ∧
        ⟨"orders", 0⟩ ∈ member.assigned ∧ ∃ log, broker.log ⟨"orders", 0⟩ = some log ∧
          broker.readOffset member ⟨"orders", 0⟩ log < log.length := by
      decide +kernel
    refine ⟨broker, run, ?_⟩
    intro awake
    have read := awake 0 present member found asleep pending _ held log here
    omega

end NestApi.Messaging
