import NestApi.Indexed
import NestApi.MessagingBroker

namespace NestApi.Messaging

open Broker

variable {before middle after broker : Broker} {member member' : Member} {roundRobin : Nat}

structure Still (member member' : Member) : Prop where
  topics : member'.topics = member.topics
  fromBeginning : member'.fromBeginning = member.fromBeginning
  assigned : member'.assigned = member.assigned
  positions : member'.positions = member.positions
  gained : member'.gained = member.gained
  handling : ∀ key offset rest delivered failed,
    member'.phase = .handling key offset rest delivered failed → member'.phase = member.phase
  ended : member.phase = .ended → member'.phase = .ended

theorem Still.refl (member : Member) : Still member member :=
  ⟨rfl, rfl, rfl, rfl, rfl, fun _ _ _ _ _ _ => rfl, id⟩

theorem Still.trans {third : Member} (first : Still member member') (second : Still member' third) :
    Still member third where
  topics := second.topics.trans first.topics
  fromBeginning := second.fromBeginning.trans first.fromBeginning
  assigned := second.assigned.trans first.assigned
  positions := second.positions.trans first.positions
  gained := second.gained.trans first.gained
  handling := by
    intro key offset rest delivered failed same
    have earlier := second.handling key offset rest delivered failed same
    exact earlier.trans (first.handling key offset rest delivered failed (earlier ▸ same))
  ended := fun ended => second.ended (first.ended ended)

theorem Still.phase (member : Member) {stopped leaving pending : Bool} {phase : Phase}
    (handling : ∀ key offset rest delivered failed,
      phase = .handling key offset rest delivered failed → phase = member.phase)
    (ended : member.phase = .ended → phase = .ended) :
    Still member { member with stopped, leaving, pending, phase } :=
  ⟨rfl, rfl, rfl, rfl, rfl, handling, ended⟩

theorem Still.notify (member : Member) : Still member member.notify := by
  unfold Member.notify
  split
  · rename_i asleep
    exact .phase member (by simp) (by simp [asleep])
  · exact .phase member (fun _ _ _ _ _ _ => rfl) id

theorem Still.loop (member : Member) (running : member.phase ≠ .ended) :
    Still member member.loop := by
  unfold Member.loop
  split
  · exact .phase member (by simp) (fun _ => rfl)
  · exact .phase member (by simp) (fun ended => absurd ended running)

theorem Still.endPass (member : Member) (running : member.phase ≠ .ended)
    (delivered failed : Bool) : Still member (member.endPass delivered failed) := by
  unfold Member.endPass
  split
  · exact .phase member (by simp) (fun _ => rfl)
  · split
    · exact .loop member running
    · split <;> exact .phase member (by simp) (fun ended => absurd ended running)

def Grows (before after : Broker) : Prop :=
  ∀ key log, before.log key = some log →
    ∃ log', after.log key = some log' ∧ log.length ≤ log'.length

/-- What an action leaves of the group when nothing is assigned, read or committed in it. -/
structure Calm (before after : Broker) : Prop where
  grows : Grows before after
  committed : after.committed = before.committed
  present : after.present = before.present
  joinedAt : after.joinedAt = before.joinedAt
  resolved : after.resolved = before.resolved
  length : after.members.length = before.members.length
  still : ∀ (index : Nat) (member' : Member), after.members[index]? = some member' →
    ∃ member, before.members[index]? = some member ∧ Still member member'

theorem Grows.refl (broker : Broker) : Grows broker broker :=
  fun _ log found => ⟨log, found, Nat.le_refl _⟩

theorem Grows.trans (first : Grows before middle) (second : Grows middle after) :
    Grows before after := by
  intro key log found
  obtain ⟨log₁, found₁, less₁⟩ := first key log found
  obtain ⟨log₂, found₂, less₂⟩ := second key log₁ found₁
  exact ⟨log₂, found₂, less₁.trans less₂⟩

theorem Calm.refl (broker : Broker) : Calm broker broker :=
  ⟨.refl broker, rfl, rfl, rfl, rfl, rfl, fun _ member found => ⟨member, found, .refl member⟩⟩

theorem Calm.trans (first : Calm before middle) (second : Calm middle after) :
    Calm before after where
  grows := first.grows.trans second.grows
  committed := second.committed.trans first.committed
  present := second.present.trans first.present
  joinedAt := second.joinedAt.trans first.joinedAt
  resolved := second.resolved.trans first.resolved
  length := second.length.trans first.length
  still := by
    intro index third found
    obtain ⟨member', found', still'⟩ := second.still index third found
    obtain ⟨member, found, still⟩ := first.still index member' found'
    exact ⟨member, found, still.trans still'⟩

theorem Calm.foldl {α : Type} {f : Broker → α → Broker}
    (each : ∀ broker item, Calm broker (f broker item)) (items : List α) (broker : Broker) :
    Calm broker (items.foldl f broker) := by
  induction items generalizing broker with
  | nil => exact .refl broker
  | cons item rest ih => exact (each broker item).trans (ih (f broker item))

theorem Calm.of_logs {partitions : String → Option (List (List StoredRecord))}
    (grows : Grows broker { broker with partitions, roundRobin }) :
    Calm broker { broker with partitions, roundRobin } :=
  ⟨grows, rfl, rfl, rfl, rfl, rfl, fun _ member found => ⟨member, found, .refl member⟩⟩

theorem Calm.ensure (broker : Broker) (topic : String) (partitions : Nat) :
    Calm broker (broker.ensure topic partitions) := by
  unfold Broker.ensure
  split
  · exact .refl broker
  · rename_i missing
    apply Calm.of_logs
    intro key log found
    by_cases same : key.topic = topic
    · simp [Broker.log, Broker.logs, same, missing] at found
    · refine ⟨log, ?_, Nat.le_refl _⟩
      simpa [Broker.log, Broker.logs, same] using found

theorem Calm.append (broker : Broker) (now : Date) (message : OutgoingMessage) :
    Calm broker (broker.append now message) := by
  refine (Calm.ensure broker message.topic broker.defaultPartitions).trans ?_
  apply Calm.of_logs
  intro key log found
  by_cases same : key.topic = message.topic
  · simp only [Broker.log, Broker.logs, same] at found
    simp only [Broker.log, Broker.logs, same, Function.update_self, Option.getD_some,
      List.getElem?_modify, Broker.logsFor, found, Option.map_eq_map, Option.map_some]
    have longer : ∀ (here : Prop) [Decidable here] (record : StoredRecord),
        log.length ≤ (if here then log ++ [record] else log).length := by
      intro here _ record
      split <;> simp
    exact ⟨_, rfl, longer _ _⟩
  · refine ⟨log, ?_, Nat.le_refl _⟩
    simpa [Broker.log, Broker.logs, same, Broker.logsFor] using found

theorem Calm.mapIdx {turn : Option Nat} {closed : Bool} {f : Nat → Member → Member}
    (still : ∀ index member, Still member (f index member)) :
    Calm broker { broker with members := broker.members.mapIdx f, turn, closed } := by
  refine ⟨.refl broker, rfl, rfl, rfl, rfl, by simp, ?_⟩
  intro index member' found
  simp only [List.getElem?_mapIdx, Option.map_eq_some_iff] at found
  obtain ⟨member, here, rfl⟩ := found
  exact ⟨member, here, still index member⟩

variable {index : Nat} {f : Member → Member} {key : PartitionKey}
  {topics : List String} {fromBeginning : Bool}

theorem Calm.modify
    (still : ∀ member, broker.members[index]? = some member → Still member (f member)) :
    Calm broker (broker.modify index f) := by
  refine ⟨.refl broker, rfl, rfl, rfl, rfl, by simp [Broker.modify], ?_⟩
  intro i member' found
  simp only [Broker.modify, List.getElem?_modify] at found
  obtain ⟨member, here, rfl⟩ := Option.map_eq_some_iff.mp found
  refine ⟨member, here, ?_⟩
  split
  · rename_i same
    exact still member (same ▸ here)
  · exact .refl member

theorem Calm.run (broker : Broker) (index : Nat) : Calm broker (broker.run index) :=
  ⟨.refl broker, rfl, rfl, rfl, rfl, rfl, fun _ member found => ⟨member, found, .refl member⟩⟩

theorem Calm.loop (running : ∀ member, broker.members[index]? = some member → member.phase ≠ .ended)
    : Calm broker ((broker.modify index Member.loop).run index) := by
  refine Calm.trans (Calm.modify ?_) (Calm.run _ index)
  intro member found
  exact Still.loop member (running member found)

section Quiet

theorem Calm.ensureTopics {specs : List (String × Nat)}
    (taken : before.act (.ensureTopics specs) = some after) : Calm before after := by
  obtain ⟨_, rfl⟩ := of_ite_some taken
  exact Calm.foldl (fun broker spec => Calm.ensure broker spec.1 spec.2) specs before

theorem Calm.wakeSubscribersOf (broker : Broker) (topic : String) :
    Calm broker (broker.wakeSubscribersOf topic) := by
  apply Calm.mapIdx
  intro index member
  split
  · exact Still.notify member
  · exact Still.refl member

theorem Calm.produce {messages : List OutgoingMessage} {now : Date}
    (taken : before.act (.produce messages now) = some after) : Calm before after := by
  obtain ⟨_, rfl⟩ := of_ite_some taken
  exact (Calm.foldl (fun broker => Calm.append broker now) messages before).trans
    (Calm.foldl Calm.wakeSubscribersOf _ _)

theorem Calm.produceElsewhere
    (taken : before.act (.produceElsewhere roundRobin) = some after) : Calm before after := by
  obtain ⟨_, rfl⟩ := of_ite_some taken
  exact Calm.of_logs (Grows.refl before)

theorem Calm.timer (taken : before.act (.timer index) = some after) : Calm before after := by
  obtain ⟨asleep, rfl⟩ := of_ite_some taken
  refine Calm.modify ?_
  intro member found
  simp only [found, Option.any_some, decide_eq_true_eq] at asleep
  exact Still.phase member (by simp) (by simp [asleep.2])

theorem Calm.wake (taken : before.act (.wake index) = some after) : Calm before after := by
  obtain ⟨awake, rfl⟩ := of_ite_some taken
  refine Calm.loop ?_
  intro member found ended
  simp [found, ended] at awake

theorem Still.stop (member : Member) (leaving : Bool) :
    Still member (Member.notify { member with stopped := true, leaving }) :=
  Still.trans (Still.phase member (fun _ _ _ _ _ _ => rfl) id) (Still.notify _)

theorem Calm.stop (taken : before.act (.stop index) = some after) : Calm before after := by
  obtain ⟨_, rfl⟩ := of_ite_some taken
  exact Calm.modify (fun member _ => Still.stop member true)

theorem Calm.disconnect (taken : before.act .disconnect = some after) : Calm before after := by
  obtain ⟨_, rfl⟩ := of_ite_some taken
  apply Calm.mapIdx
  intro index member
  split
  · exact Still.stop member member.leaving
  · exact Still.refl member

end Quiet

structure Departed (before after : Broker) : Prop where
  present : after.present.Sublist before.present
  ended : ∀ index ∈ before.present, index ∉ after.present →
    ∀ member ∈ before.members[index]?, member.phase = .ended
  rest : after = { before with present := after.present }

theorem Departed.leave (taken : before.act (.leave index) = some after) :
    Departed before { before with present := before.present.erase index } ∧
      after = { before with present := before.present.erase index }.rebalance := by
  obtain ⟨⟨_, _, ended⟩, rfl⟩ := of_ite_some taken
  refine ⟨⟨List.erase_sublist, ?_, rfl⟩, rfl⟩
  intro other present gone member found
  by_cases same : other = index
  · subst same
    rw [Option.mem_def.mp found, Option.any_some, decide_eq_true_eq] at ended
    exact ended.2
  · exact absurd ((List.mem_erase_of_ne same).mpr present) gone

theorem Departed.disconnected (taken : before.act .disconnected = some after) :
    Departed before after := by
  obtain ⟨⟨_, _, ended⟩, rfl⟩ := of_ite_some taken
  refine ⟨List.nil_sublist _, ?_, rfl⟩
  intro index present _ member found
  simpa [Option.mem_def.mp found] using ended index present

def Broker.current (broker : Broker) : Option (Member × PartitionKey) :=
  broker.turn.bind fun index => (broker.members[index]?).bind fun member =>
    match member.phase with
    | .reading (key :: _) _ _ => if member.stopped then none else some (member, key)
    | .reading [] _ _ | .handling .. | .idle .. | .ended => none

theorem Broker.current_eq_some (current : broker.current = some (member, key)) :
    ∃ (index : Nat) (rest : List PartitionKey) (delivered failed : Bool),
      broker.members[index]? = some member ∧
        member.phase = .reading (key :: rest) delivered failed := by
  simp only [Broker.current, Option.bind_eq_some_iff] at current
  obtain ⟨index, _, found, here, reads⟩ := current
  split at reads
  · rename_i rest delivered failed phase
    split at reads
    · cases reads
    · cases reads
      exact ⟨index, rest, delivered, failed, here, phase⟩
  all_goals cases reads

def Member.placed (member : Member) (key : PartitionKey) (offset : Nat) (phase : Phase) : Member :=
  { member with
      positions := Function.update member.positions key (some offset)
      gained := member.gained.filter fun other => other ≠ key
      phase }

def Broker.place (broker : Broker) (index : Nat) (member : Member) : Broker :=
  { broker with members := broker.members.set index member }

theorem Broker.place_eq_modify (found : broker.members[index]? = some member)
    : broker.modify index f = broker.place index (f member) := by
  simp [modify, place, List.modify_eq_set_getElem?, found]

theorem Broker.visit_eq_placed {log : List StoredRecord}
    {rest : List PartitionKey} {delivered failed : Bool} (running : ¬ member.stopped = true)
    (here : broker.log key = some log) : broker.visit member key rest delivered failed =
      member.placed key (broker.readOffset member key log)
        (if log.length ≤ broker.readOffset member key log then .reading rest delivered failed
        else .handling key (broker.readOffset member key log) rest delivered failed) := by
  unfold visit
  rw [if_neg running, here]
  rfl

theorem Broker.members_foldl_logsFor (topics : List String) (broker : Broker) :
    (topics.foldl logsFor broker).members = broker.members := by
  induction topics generalizing broker with
  | nil => rfl
  | cons topic rest ih =>
    have unchanged : (broker.logsFor topic).members = broker.members := by
      unfold logsFor ensure
      split <;> rfl
    exact (ih _).trans unchanged

theorem Broker.deal_members (found : broker.deal.members[index]? = some member') :
    ∃ member, broker.members[index]? = some member ∧ member' =
      if index ∈ broker.present then
        member.takeOver
          (RoundRobin.share broker.keys broker.present.length (broker.present.idxOf index))
      else member := by
  simp only [deal, List.getElem?_mapIdx, Option.map_eq_some_iff] at found
  obtain ⟨member, here, same⟩ := found
  exact ⟨member, here, same.symm⟩

theorem Member.takeOver_assigned (member : Member) (share : List PartitionKey) :
    (member.takeOver share).assigned = share :=
  (Still.notify _).assigned

theorem Member.takeOver_ended (member : Member) (share : List PartitionKey) :
    (member.takeOver share).phase = .ended ↔ member.phase = .ended := by
  unfold Member.takeOver Member.notify
  split
  · rename_i asleep
    simp_all
  · rfl

theorem Broker.deal_ended (found : broker.deal.members[index]? = some member') :
    ∃ member, broker.members[index]? = some member ∧
      (member'.phase = .ended ↔ member.phase = .ended) := by
  obtain ⟨member, here, rfl⟩ := deal_members found
  refine ⟨member, here, ?_⟩
  split
  · exact member.takeOver_ended _
  · rfl

theorem Broker.rebalance_ended (found : broker.rebalance.members[index]? = some member') :
    ∃ member, broker.members[index]? = some member ∧
      (member'.phase = .ended ↔ member.phase = .ended) := by
  unfold rebalance at found
  split at found
  · exact ⟨member', found, Iff.rfl⟩
  · obtain ⟨member, here, same⟩ := deal_ended found
    exact ⟨member, members_foldl_logsFor _ broker ▸ here, same⟩

/-- What an invariant has to survive to hold of a group whatever happens to it. -/
structure Kept (allowed : Broker → BrokerAction → Prop) (holds : Broker → Prop) : Prop where
  calm : ∀ before after, Calm before after → holds before → holds after
  join : ∀ broker topics fromBeginning, allowed broker (.subscribe topics fromBeginning) →
    holds broker → holds (broker.join topics fromBeginning)
  deal : ∀ broker, holds broker → holds broker.deal
  depart : ∀ before after, Departed before after → holds before → holds after
  place : ∀ broker index member key log phase, allowed broker .step →
    broker.current = some (member, key) → broker.members[index]? = some member →
    broker.log key = some log →
    (∀ key' offset rest delivered failed, phase = .handling key' offset rest delivered failed →
      key' = key ∧ offset = broker.readOffset member key log ∧ offset < log.length) →
    holds broker →
      holds (broker.place index (member.placed key (broker.readOffset member key log) phase))
  commit : ∀ broker index member key offset rest delivered failed,
    allowed broker (.settle index true) → broker.members[index]? = some member →
    member.phase = .handling key offset rest delivered failed → holds broker →
      holds (broker.commit index member key offset rest failed)

namespace Kept

variable {allowed : Broker → BrokerAction → Prop} {holds : Broker → Prop}
  (kept : Kept allowed holds)

include kept

theorem rebalance (start : holds broker) : holds broker.rebalance := by
  unfold Broker.rebalance
  split
  · exact start
  · apply kept.deal
    exact kept.calm _ _ (Calm.foldl (fun broker topic => Calm.ensure broker topic _) _ _) start

theorem advance (permitted : allowed broker .step)
    (turn : broker.turn = some index) (found : broker.members[index]? = some member)
    (start : holds broker) : holds (broker.modify index broker.advance) := by
  have calmly : Still member (broker.advance member) →
      holds (broker.modify index broker.advance) := by
    intro still
    refine kept.calm _ _ (Calm.modify ?_) start
    intro member' found'
    cases found.symm.trans found'
    exact still
  cases phase : member.phase with
  | reading rest delivered failed =>
    cases rest with
    | nil =>
      apply calmly
      simp only [Broker.advance, phase]
      exact Still.endPass member (by simp [phase]) delivered failed
    | cons key =>
      by_cases stopped : member.stopped = true
      · apply calmly
        simp only [Broker.advance, phase, Broker.visit, stopped, if_true]
        exact Still.phase member (by simp) (by simp)
      · cases here : broker.log key with
        | none =>
          apply calmly
          simp only [Broker.advance, phase, Broker.visit, stopped, here]
          exact Still.phase member (by simp) (by simp [phase])
        | some log =>
          rw [Broker.place_eq_modify found]
          simp only [Broker.advance, phase, Broker.visit_eq_placed stopped here]
          refine kept.place broker index member key log _ permitted ?_ found here ?_ start
          · simp [Broker.current, turn, found, phase, stopped]
          · split <;> grind
  | handling | idle | ended =>
    apply calmly
    simp only [Broker.advance, phase]
    exact Still.refl member

theorem step (permitted : allowed before .step) (start : holds before)
    (taken : before.act .step = some after) : holds after := by
  simp only [act] at taken
  split at taken
  · cases taken
  · rename_i index turn
    cases taken
    refine kept.calm _ _ (Calm.run _ index) ?_
    cases found : before.members[index]? with
    | none => exact kept.calm _ _ (Calm.modify (by simp [found])) start
    | some => exact kept.advance permitted turn found start

theorem subscribe
    (permitted : allowed before (.subscribe topics fromBeginning)) (start : holds before)
    (taken : before.act (.subscribe topics fromBeginning) = some after) : holds after := by
  obtain ⟨_, rfl⟩ := of_ite_some taken
  have dealt := kept.rebalance (kept.join before topics fromBeginning permitted start)
  refine kept.calm _ _ (Calm.loop ?_) dealt
  intro member found ended
  obtain ⟨new, found, same⟩ := Broker.rebalance_ended found
  simp only [Broker.join, List.getElem?_concat_length, Option.some.injEq] at found
  simp [← found, same, Member.joined] at ended

theorem settle {resolves : Bool} (permitted : allowed before (.settle index resolves))
    (start : holds before) (taken : before.act (.settle index resolves) = some after) :
    holds after := by
  simp only [act, Option.ite_none_right_eq_some] at taken
  obtain ⟨_, taken⟩ := taken
  split at taken
  · cases taken
  · rename_i member found
    split at taken
    · rename_i key offset rest delivered failed phase
      cases resolves with
      | true =>
        cases taken
        refine kept.calm _ _ (Calm.run _ index) ?_
        exact kept.commit before index member key offset rest delivered failed permitted found
          phase start
      | false =>
        cases taken
        refine kept.calm _ _ (Calm.trans (Calm.modify ?_) (Calm.run _ index)) start
        intro member' found'
        cases found.symm.trans found'
        exact Still.phase member (by simp) (by simp [phase])
    · cases taken

theorem act {action : BrokerAction} (permitted : allowed before action) (start : holds before)
    (taken : before.act action = some after) : holds after := by
  cases action with
  | ensureTopics => exact kept.calm _ _ (Calm.ensureTopics taken) start
  | produce => exact kept.calm _ _ (Calm.produce taken) start
  | produceElsewhere => exact kept.calm _ _ (Calm.produceElsewhere taken) start
  | subscribe => exact kept.subscribe permitted start taken
  | step => exact kept.step permitted start taken
  | settle => exact kept.settle permitted start taken
  | timer => exact kept.calm _ _ (Calm.timer taken) start
  | wake => exact kept.calm _ _ (Calm.wake taken) start
  | stop => exact kept.calm _ _ (Calm.stop taken) start
  | leave =>
    obtain ⟨departed, rfl⟩ := Departed.leave taken
    exact kept.rebalance (kept.depart before _ departed start)
  | disconnect => exact kept.calm _ _ (Calm.disconnect taken) start
  | disconnected => exact kept.depart _ _ (Departed.disconnected taken) start

end Kept

theorem Broker.topics_nodup (broker : Broker) : broker.topics.Nodup :=
  ((List.perm_insertionSort _ _).nodup_iff).mpr (List.nodup_dedup _)

theorem Broker.keys_nodup (broker : Broker) : broker.keys.Nodup := by
  refine List.nodup_flatMap.mpr ⟨?_, ?_⟩
  · intro topic _
    apply List.nodup_range.map
    intro first second same
    simpa using same
  · refine broker.topics_nodup.imp ?_
    intro first second different key here there
    simp only [List.mem_map] at here there
    obtain ⟨_, _, rfl⟩ := here
    obtain ⟨_, _, same⟩ := there
    simp_all

/-- Everyone whose loop has not ended is in the group, once, and no two of them hold the same
partition. -/
structure Seated (broker : Broker) : Prop where
  nodup : broker.present.Nodup
  listed : ∀ index ∈ broker.present, index < broker.members.length
  running : ∀ index member, broker.members[index]? = some member →
    member.phase ≠ .ended → index ∈ broker.present
  apart : ∀ first ∈ broker.present, ∀ second ∈ broker.present, ∀ member member' : Member,
    broker.members[first]? = some member → broker.members[second]? = some member' →
      ∀ key ∈ member.assigned, key ∈ member'.assigned → first = second

namespace Seated

theorem booted (partitions : Nat) : Seated (.booted partitions) where
  nodup := List.nodup_nil
  listed := fun _ present => nomatch present
  running := fun _ _ found => nomatch found
  apart := fun _ present => nomatch present

theorem calm (seated : Seated before) (calm : Calm before after) : Seated after where
  nodup := calm.present ▸ seated.nodup
  listed := by
    rw [calm.present, calm.length]
    exact seated.listed
  running := by
    intro index member' found running
    obtain ⟨member, here, still⟩ := calm.still index member' found
    rw [calm.present]
    exact seated.running index member here (fun ended => running (still.ended ended))
  apart := by
    rw [calm.present]
    intro first present second present' member' other' found found' key held held'
    obtain ⟨member, here, still⟩ := calm.still first member' found
    obtain ⟨other, there, still'⟩ := calm.still second other' found'
    exact seated.apart first present second present' member other here there key
      (still.assigned ▸ held) (still'.assigned ▸ held')

theorem present_of_join (present : index ∈ (broker.join topics fromBeginning).present)
    (old : broker.members[index]? = some member) : index ∈ broker.present := by
  rcases List.mem_append.mp present with here | last
  · exact here
  · have less := lt_of_getElem? old
    have same := List.mem_singleton.mp last
    omega

theorem join (seated : Seated broker) (topics : List String) (fromBeginning : Bool) :
    Seated (broker.join topics fromBeginning) where
  nodup := by
    refine List.nodup_append.mpr ⟨seated.nodup, List.nodup_singleton _, ?_⟩
    intro index present other last
    have less := seated.listed index present
    have same := List.mem_singleton.mp last
    omega
  listed := by
    intro index present
    simp only [Broker.join, List.mem_append, List.mem_singleton, List.length_append,
      List.length_singleton] at present ⊢
    rcases present with old | last
    · have less := seated.listed index old
      omega
    · omega
  running := by
    intro index member found running
    rcases getElem?_concat_eq_some found with old | ⟨last, _⟩
    · exact List.mem_append_left _ (seated.running index member old running)
    · exact List.mem_append_right _ (List.mem_singleton.mpr last)
  apart := by
    intro first present second present' member other found found' key held held'
    rcases getElem?_concat_eq_some found with old | ⟨_, rfl⟩
    · rcases getElem?_concat_eq_some found' with old' | ⟨_, rfl⟩
      · exact seated.apart first (present_of_join present old) second
          (present_of_join present' old') member other old old' key held held'
      · cases held'
    · cases held

theorem depart (seated : Seated before) (departed : Departed before after) : Seated after := by
  rw [departed.rest]
  refine ⟨seated.nodup.sublist departed.present,
    fun index present => seated.listed index (departed.present.subset present), ?_, ?_⟩
  · intro index member found running
    by_contra gone
    have present := seated.running index member found running
    exact running (departed.ended index present gone member found)
  · intro first present second present'
    exact seated.apart first (departed.present.subset present) second
      (departed.present.subset present')

theorem deal (seated : Seated broker) : Seated broker.deal where
  nodup := seated.nodup
  listed := by
    intro index present
    simpa [Broker.deal] using seated.listed index present
  running := by
    intro index member' found running
    obtain ⟨member, here, same⟩ := Broker.deal_ended found
    exact seated.running index member here (mt same.mpr running)
  apart := by
    intro first (present : first ∈ broker.present) second (present' : second ∈ broker.present)
      member' other' found found' key held held'
    obtain ⟨member, _, rfl⟩ := deal_members found
    obtain ⟨other, _, rfl⟩ := deal_members found'
    rw [if_pos present, Member.takeOver_assigned] at held
    rw [if_pos present', Member.takeOver_assigned] at held'
    have same := RoundRobin.place_unique broker.keys_nodup held held'
    exact (List.idxOf_inj present).mp same

theorem set (seated : Seated broker) {committed' : PartitionKey → Option Nat}
    {resolved' : List (PartitionKey × Nat)} (found : broker.members[index]? = some member)
    (running : member.phase ≠ .ended) (assigned : member'.assigned = member.assigned) :
    Seated { broker with
      committed := committed'
      resolved := resolved'
      members := broker.members.set index member' } := by
  have earlier : ∀ (i : Nat) (third' : Member),
      (broker.members.set index member')[i]? = some third' →
        ∃ third, broker.members[i]? = some third ∧ third'.assigned = third.assigned := by
    intro i third' found'
    rcases getElem?_set_eq_some found' with ⟨rfl, rfl⟩ | ⟨_, old⟩
    · exact ⟨member, found, assigned⟩
    · exact ⟨third', old, rfl⟩
  refine ⟨seated.nodup, by simpa using seated.listed, ?_, ?_⟩
  · intro i third found' running'
    rcases getElem?_set_eq_some found' with ⟨rfl, _⟩ | ⟨_, old⟩
    · exact seated.running index member found running
    · exact seated.running i third old running'
  · intro first present second present' one two found' found'' key held held'
    obtain ⟨one', old, same⟩ := earlier first one found'
    obtain ⟨two', old', same'⟩ := earlier second two found''
    exact seated.apart first present second present' one' two' old old' key (same ▸ held)
      (same' ▸ held')

end Seated

theorem seated_kept : Kept (fun _ _ => True) Seated where
  calm := fun _ _ calm seated => seated.calm calm
  join := fun _ topics fromBeginning _ seated => seated.join topics fromBeginning
  deal := fun _ seated => seated.deal
  depart := fun _ _ departed seated => seated.depart departed
  place := by
    intro broker index member key log phase _ current found _ _ seated
    obtain ⟨_, _, _, _, _, reading⟩ := current_eq_some current
    exact seated.set found (by simp [reading]) rfl
  commit := by
    intro broker index member key offset rest delivered failed _ found phase seated
    exact seated.set found (by simp [phase]) rfl

end NestApi.Messaging
