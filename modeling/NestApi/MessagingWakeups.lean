import NestApi.MessagingEffects

namespace NestApi.Messaging

open Broker Member

variable {before after broker : Broker} {member member' : Member} {key : PartitionKey}

def Member.ahead (member : Member) : List PartitionKey :=
  match member.phase with
  | .reading rest _ _ | .handling _ _ rest _ _ => rest
  | .idle .. | .ended => []

/-- A member a rebalance finds running, with nothing left in its pass. -/
def Member.Steady (member : Member) : Prop := member.stopped = false ∧ member.ahead = []

instance (member : Member) : Decidable member.Steady := inferInstanceAs (Decidable (_ ∧ _))

/-- Whoever joins asks for the topics the group has, and joins and leaves only while the others
are steady. -/
def Broker.Settled (broker : Broker) : BrokerAction → Prop
  | .subscribe topics _ => ∀ index ∈ broker.present, ∀ member ∈ broker.members[index]?,
      member.Steady ∧ (∀ topic ∈ topics, topic ∈ member.topics) ∧
        ∀ topic ∈ member.topics, topic ∈ topics
  | .leave index => ∀ other ∈ broker.present, other ≠ index →
      ∀ member ∈ broker.members[other]?, member.Steady
  | _ => True

instance (broker : Broker) (action : BrokerAction) : Decidable (broker.Settled action) :=
  match action with
  | .subscribe .. | .leave _ => inferInstanceAs (Decidable (∀ index ∈ broker.present, _))
  | .step | .settle .. | .ensureTopics .. | .produce .. | .produceElsewhere .. | .timer ..
  | .wake .. | .stop .. | .disconnect | .disconnected => isTrue trivial

abbrev Logs := PartitionKey → Option (List StoredRecord)

variable {logs logs' : Logs} {delivered failed : Bool} {rest : List PartitionKey}
  {log : List StoredRecord} {index : Nat}

def CaughtUp (logs : Logs) (member : Member) (key : PartitionKey) : Prop :=
  ∀ log, logs key = some log → ∃ place, member.positions key = some place ∧ log.length ≤ place

/-- A member that could fall asleep until woken has no more to read than its pass will show, unless
a wake-up is pending. -/
def Watchful (logs : Logs) (member : Member) : Prop :=
  match member.phase with
  | .reading rest false false =>
    member.pending = true ∨ ∀ key ∈ member.assigned, key ∈ rest ∨ CaughtUp logs member key
  | .idle true false => ∀ key ∈ member.assigned, CaughtUp logs member key
  | _ => True

structure Attended (logs : Logs) (member : Member) : Prop where
  subscribed : ∀ key ∈ member.assigned, key.topic ∈ member.topics
  stored : ∀ key ∈ member.assigned, ∃ log, logs key = some log
  ahead : ∀ key ∈ member.ahead, key ∈ member.assigned
  watchful : Watchful logs member

theorem watchful_notify (logs : Logs) (member : Member) : Watchful logs member.notify := by
  unfold notify
  split
  · trivial
  · rename_i awake
    unfold Watchful
    split
    · exact .inl rfl
    · rename_i asleep
      exact absurd asleep (awake false)
    · trivial

theorem Member.ahead_notify (member : Member) : member.notify.ahead = member.ahead := by
  unfold notify
  split
  · rename_i asleep
    simp [ahead, asleep]
  · rfl

theorem Member.takeOver_topics (member : Member) (share : List PartitionKey) :
    (member.takeOver share).topics = member.topics :=
  (Still.notify _).topics

namespace Attended

section

variable (attended : Attended logs member)

include attended

theorem notify (grows : ∀ key log, logs key = some log → ∃ log', logs' key = some log') :
    Attended logs' member.notify where
  subscribed := by
    rw [(Still.notify member).assigned, (Still.notify member).topics]
    exact attended.subscribed
  stored := by
    rw [(Still.notify member).assigned]
    intro key held
    obtain ⟨log, found⟩ := attended.stored key held
    exact grows key log found
  ahead := by
    rw [member.ahead_notify, (Still.notify member).assigned]
    exact attended.ahead
  watchful := watchful_notify logs' member

theorem unchanged
    (same : ∀ key log, logs key = some log → key.topic ∈ member.topics → logs' key = some log) :
    Attended logs' member := by
  have kept : ∀ key ∈ member.assigned, ∃ log, logs key = some log ∧ logs' key = some log := by
    intro key held
    obtain ⟨log, found⟩ := attended.stored key held
    exact ⟨log, found, same key log found (attended.subscribed key held)⟩
  have caughtUp : ∀ key ∈ member.assigned, CaughtUp logs member key →
      CaughtUp logs' member key := by
    intro key held caught log' found'
    obtain ⟨log, found, still⟩ := kept key held
    have same := Option.some.inj (still.symm.trans found')
    exact caught log' (same ▸ found)
  refine ⟨attended.subscribed, ?_, attended.ahead, ?_⟩
  · intro key held
    obtain ⟨log, _, still⟩ := kept key held
    exact ⟨log, still⟩
  · have watchful := attended.watchful
    unfold Watchful at watchful ⊢
    split
    · rename_i rest phase
      simp only [phase] at watchful
      refine watchful.imp_right ?_
      intro seen key held
      exact (seen key held).imp_right (caughtUp key held)
    · rename_i phase
      simp only [phase] at watchful
      intro key held
      exact caughtUp key held (watchful key held)
    · trivial

theorem phase {stopped leaving pending : Bool} {phase : Phase}
    (ahead : ∀ key ∈ ({ member with stopped, leaving, pending, phase } : Member).ahead,
      key ∈ member.assigned)
    (watchful : Watchful logs { member with stopped, leaving, pending, phase }) :
    Attended logs { member with stopped, leaving, pending, phase } :=
  ⟨attended.subscribed, attended.stored, ahead, watchful⟩

theorem loop : Attended logs member.loop := by
  unfold Member.loop
  split
  · exact attended.phase (fun _ listed => nomatch listed) trivial
  · refine attended.phase ?_ (.inr fun key held => .inl held)
    exact fun _ listed => listed

theorem endPass (reading : member.phase = .reading [] delivered failed) :
    Attended logs (member.endPass delivered failed) := by
  unfold Member.endPass
  split
  · exact attended.phase (fun _ listed => nomatch listed) trivial
  · split
    · exact attended.loop
    · split
      · exact attended.phase (fun _ listed => nomatch listed) trivial
      · rename_i undelivered awake
        refine attended.phase (fun _ listed => nomatch listed) ?_
        cases failed with
        | true => trivial
        | false =>
          have watchful := attended.watchful
          simp only [Watchful, reading, Bool.not_eq_true _ ▸ undelivered] at watchful
          intro key held
          rcases watchful with pending | seen
          · exact absurd pending awake
          · exact (seen key held).resolve_left (by simp)

theorem placed {offset : Nat} (reading : member.phase = .reading (key :: rest) delivered failed)
    (here : logs key = some log) : Attended logs (member.placed key offset
      (if log.length ≤ offset then .reading rest delivered failed
      else .handling key offset rest delivered failed)) := by
  have ahead : ∀ other ∈ rest, other ∈ member.assigned := by
    intro other listed
    apply attended.ahead
    simp [Member.ahead, reading, listed]
  refine ⟨attended.subscribed, attended.stored, ?_, ?_⟩
  · split <;> exact ahead
  · split
    · rename_i done
      have watchful := attended.watchful
      cases delivered with
      | true => trivial
      | false =>
        cases failed with
        | true => trivial
        | false =>
          simp only [Watchful, reading] at watchful
          refine watchful.imp_right ?_
          intro seen other held
          by_cases same : other = key
          · subst same
            right
            intro log' found
            cases here.symm.trans found
            exact ⟨offset, Function.update_self _ _ _, done⟩
          · refine (seen other held).imp (fun listed => ?_) (fun caught => ?_)
            · exact (List.mem_cons.mp listed).resolve_left same
            · intro log' found
              obtain ⟨place, position, less⟩ := caught log' found
              exact ⟨place, (Function.update_of_ne same _ _).trans position, less⟩
    · trivial

end

theorem visit (attended : Attended broker.log member)
    (reading : member.phase = .reading (key :: rest) delivered failed) :
    Attended broker.log (broker.visit member key rest delivered failed) := by
  by_cases stopped : member.stopped = true
  · rw [Broker.visit, if_pos stopped]
    exact attended.phase (List.forall_mem_nil _) trivial
  · have held : key ∈ member.assigned := by
      apply attended.ahead
      simp [Member.ahead, reading]
    obtain ⟨log, here⟩ := attended.stored key held
    rw [visit_eq_placed stopped here]
    exact attended.placed reading here

theorem advance (attended : Attended broker.log member) :
    Attended broker.log (broker.advance member) := by
  unfold Broker.advance
  split
  · rename_i reading
    exact attended.endPass reading
  · rename_i reading
    exact attended.visit reading
  all_goals exact attended

theorem takeOver {share : List PartitionKey} (still : member.ahead = [])
    (subscribed : ∀ key ∈ share, key.topic ∈ member.topics)
    (stored : ∀ key ∈ share, ∃ log, logs key = some log) :
    Attended logs (member.takeOver share) where
  subscribed := by
    rw [member.takeOver_assigned, member.takeOver_topics]
    exact subscribed
  stored := by
    rw [member.takeOver_assigned]
    exact stored
  ahead := by
    intro key listed
    rw [Member.takeOver, Member.ahead_notify] at listed
    exact absurd (show key ∈ member.ahead from listed) (by simp [still])
  watchful := watchful_notify logs _

end Attended

def Broker.Unanimous (broker : Broker) : Prop :=
  ∀ first ∈ broker.present, ∀ second ∈ broker.present, ∀ member member',
    broker.members[first]? = some member → broker.members[second]? = some member' →
      ∀ topic ∈ member.topics, topic ∈ member'.topics

def Broker.BetweenPasses (broker : Broker) : Prop :=
  ∀ index ∈ broker.present, ∀ member, broker.members[index]? = some member → member.ahead = []

structure Manned (broker : Broker) : Prop where
  unanimous : broker.Unanimous
  attended : ∀ index ∈ broker.present, ∀ member, broker.members[index]? = some member →
    Attended broker.log member

theorem Broker.mem_topics {topic : String} (listed : topic ∈ broker.topics) :
    ∃ index ∈ broker.present, ∃ member,
      broker.members[index]? = some member ∧ topic ∈ member.topics := by
  simp only [topics, List.mem_insertionSort, List.mem_dedup, List.mem_flatMap] at listed
  obtain ⟨index, present, here⟩ := listed
  cases found : broker.members[index]? with
  | none => simp [found] at here
  | some member => exact ⟨index, present, member, found, by simpa [found] using here⟩

theorem Broker.mem_keys : key ∈ broker.keys ↔
    key.topic ∈ broker.topics ∧ key.partition < (broker.logs key.topic).length := by
  obtain ⟨topic, partition⟩ := key
  simp [keys]

theorem Broker.present_foldl_logsFor (topics : List String) (broker : Broker) :
    (topics.foldl logsFor broker).present = broker.present :=
  (Calm.foldl (fun broker topic => Calm.ensure broker topic _) topics broker).present

section Deal

theorem Manned.deal (still : broker.BetweenPasses) (unanimous : broker.Unanimous) :
    Manned broker.deal := by
  have dealt : ∀ index ∈ broker.present, ∀ member',
      broker.deal.members[index]? = some member' → ∃ member,
        broker.members[index]? = some member ∧ member'.topics = member.topics ∧
          Attended broker.log member' := by
    intro index present member' found
    obtain ⟨member, here, rfl⟩ := deal_members found
    rw [if_pos present]
    refine ⟨member, here, member.takeOver_topics _, ?_⟩
    apply Attended.takeOver (still index present member here)
    · intro key share
      have listed := (mem_keys.mp (RoundRobin.mem_of_mem_share share)).1
      obtain ⟨other, present', subscriber, found', subscribed⟩ := mem_topics listed
      exact unanimous other present' index present subscriber member found' here _ subscribed
    · intro key share
      have inside := (mem_keys.mp (RoundRobin.mem_of_mem_share share)).2
      exact ⟨_, List.getElem?_eq_getElem inside⟩
  refine ⟨?_, ?_⟩
  · intro first present second present' one two found found' topic listed
    obtain ⟨member, here, same, _⟩ := dealt first present one found
    obtain ⟨member', here', same', _⟩ := dealt second present' two found'
    rw [same'] at *
    exact unanimous first present second present' member member' here here' topic (same ▸ listed)
  · intro index present member' found
    obtain ⟨_, _, _, attended⟩ := dealt index present member' found
    exact attended

theorem Manned.of_nobody (nobody : broker.present = []) : Manned broker := by
  constructor
  · intro first present
    simp [nobody] at present
  · intro index present
    simp [nobody] at present

theorem Manned.rebalance (still : broker.BetweenPasses) (unanimous : broker.Unanimous) :
    Manned broker.rebalance := by
  unfold Broker.rebalance
  split
  · rename_i nobody
    exact .of_nobody nobody
  · apply Manned.deal
    · unfold BetweenPasses
      rw [present_foldl_logsFor, members_foldl_logsFor]
      exact still
    · unfold Unanimous
      rw [present_foldl_logsFor, members_foldl_logsFor]
      exact unanimous

end Deal

namespace Manned

theorem booted (partitions : Nat) : Manned (.booted partitions) := .of_nobody rfl

theorem map (manned : Manned before)
    (each : ∀ index ∈ after.present, ∀ member', after.members[index]? = some member' →
      index ∈ before.present ∧ ∃ member, before.members[index]? = some member ∧
        member'.topics = member.topics ∧
          (Attended before.log member → Attended after.log member')) : Manned after := by
  constructor
  · intro first present second present' one two found found' topic listed
    obtain ⟨old, member, here, same, _⟩ := each first present one found
    obtain ⟨old', member', here', same', _⟩ := each second present' two found'
    rw [same'] at *
    exact manned.unanimous first old second old' member member' here here' topic (same ▸ listed)
  · intro index present member' found
    obtain ⟨old, member, here, _, attends⟩ := each index present member' found
    exact attends (manned.attended index old member here)

theorem modify (manned : Manned broker) {f : Member → Member}
    (topics : ∀ member, (f member).topics = member.topics)
    (attends : ∀ member, broker.members[index]? = some member → Attended broker.log member →
      Attended broker.log (f member)) : Manned (broker.modify index f) := by
  apply manned.map
  intro i present member' found
  simp only [Broker.modify, List.getElem?_modify] at found
  obtain ⟨member, here, rfl⟩ := Option.map_eq_some_iff.mp found
  refine ⟨present, member, here, ?_, ?_⟩
  · split
    · exact topics member
    · rfl
  · split
    · rename_i same
      exact attends member (same ▸ here)
    · exact id

theorem run (manned : Manned broker) (index : Nat) : Manned (broker.run index) :=
  ⟨manned.unanimous, manned.attended⟩

theorem ensure (manned : Manned broker) (topic : String) (partitions : Nat) :
    Manned (broker.ensure topic partitions) := by
  unfold Broker.ensure
  split
  · exact manned
  · rename_i missing
    apply manned.map
    intro index present member found
    refine ⟨present, member, found, rfl, ?_⟩
    intro attended
    refine attended.unchanged ?_
    intro key log here _
    have other : key.topic ≠ topic := by
      intro same
      simp [Broker.log, Broker.logs, same, missing] at here
    simpa [Broker.log, Broker.logs, other] using here

theorem ensureTopics {specs : List (String × Nat)} (manned : Manned before)
    (taken : before.act (.ensureTopics specs) = some after) : Manned after := by
  simp only [act, Option.ite_none_right_eq_some, Option.some.injEq] at taken
  obtain ⟨-, rfl⟩ := taken
  induction specs generalizing before with
  | nil => exact manned
  | cons spec rest ih => exact ih (manned.ensure spec.1 spec.2)

end Manned

section Produce

theorem Broker.append_log (broker : Broker) (now : Date) (message : OutgoingMessage)
    (other : key.topic ≠ message.topic) (here : broker.log key = some log) :
    (broker.append now message).log key = some log := by
  have made : (broker.logsFor message.topic).log key = some log := by
    unfold logsFor ensure
    split
    · exact here
    · simpa [Broker.log, Broker.logs, other] using here
  simpa [Broker.append, Broker.log, Broker.logs, other] using made

theorem Broker.append_members (broker : Broker) (now : Date) (message : OutgoingMessage) :
    (broker.append now message).members = broker.members :=
  members_foldl_logsFor [message.topic] broker

theorem Broker.foldl_append (messages : List OutgoingMessage) (now : Date) (broker : Broker) :
    (messages.foldl (fun broker message => broker.append now message) broker).members =
        broker.members ∧
      ∀ key log, broker.log key = some log → key.topic ∉ messages.map BrokerMessage.topic →
        (messages.foldl (fun broker message => broker.append now message) broker).log key =
          some log := by
  induction messages generalizing broker with
  | nil => exact ⟨rfl, fun key log here _ => here⟩
  | cons message rest ih =>
    obtain ⟨members, logs⟩ := ih (broker.append now message)
    refine ⟨members.trans (broker.append_members now message), ?_⟩
    intro key log here other
    simp only [List.map_cons, List.mem_cons, not_or] at other
    exact logs key log (broker.append_log now message other.1 here) other.2

/-- A member of the group is told of every topic it subscribed to, so it need only have kept up
with the rest. -/
theorem wakes_attend {topics : List String} (present : index ∈ broker.present)
    (found : (topics.foldl wakeSubscribersOf broker).members[index]? = some member') :
    ∃ member, broker.members[index]? = some member ∧ member'.topics = member.topics ∧
      ∀ logs logs' : Logs, Attended logs member →
        (∀ key log, logs key = some log → ∃ log', logs' key = some log') →
        (∀ key log, logs key = some log → key.topic ∈ member.topics → key.topic ∉ topics →
          logs' key = some log) → Attended logs' member' := by
  induction topics generalizing broker with
  | nil =>
    refine ⟨member', found, rfl, ?_⟩
    intro logs logs' attended _ same
    exact attended.unchanged fun key log here subscribed => same key log here subscribed (by simp)
  | cons topic rest ih =>
    have later := @ih (broker.wakeSubscribersOf topic) present found
    obtain ⟨_, here, same, attends⟩ := later
    simp only [wakeSubscribersOf, List.getElem?_mapIdx, Option.map_eq_some_iff] at here
    obtain ⟨member, here, rfl⟩ := here
    by_cases told : topic ∈ member.topics
    · rw [if_pos ⟨present, told⟩] at same attends
      refine ⟨member, here, same.trans (Still.notify member).topics, ?_⟩
      intro logs logs' attended grows _
      have woken : Attended logs' member.notify := attended.notify grows
      exact attends logs' logs' woken (fun _ log here => ⟨log, here⟩) (fun _ _ here _ _ => here)
    · rw [if_neg (fun both => told both.2)] at same attends
      refine ⟨member, here, same, ?_⟩
      intro logs logs' attended grows unchanged
      apply attends logs logs' attended grows
      intro key log here subscribed untouched
      apply unchanged key log here subscribed
      rw [List.mem_cons, not_or]
      refine ⟨?_, untouched⟩
      rintro rfl
      exact told subscribed

theorem Manned.produce {messages : List OutgoingMessage} {now : Date} (manned : Manned before)
    (taken : before.act (.produce messages now) = some after) : Manned after := by
  obtain ⟨-, rfl⟩ := of_ite_some taken
  obtain ⟨members, unchanged⟩ := before.foldl_append messages now
  have calm := Calm.foldl (fun broker => Calm.append broker now) messages before
  generalize messages.foldl (fun broker message => broker.append now message) before = appended
    at members unchanged calm
  have quiet := Calm.foldl Calm.wakeSubscribersOf
    (messages.map BrokerMessage.topic).eraseDups appended
  have logs : ∀ topics : List String, (topics.foldl wakeSubscribersOf appended).log =
      appended.log := by
    intro topics
    generalize appended = start
    induction topics generalizing start with
    | nil => rfl
    | cons topic rest ih => exact ih (start.wakeSubscribersOf topic)
  apply manned.map
  intro index present member' found
  have here : index ∈ appended.present := quiet.present ▸ present
  obtain ⟨member, old, topics, attends⟩ := wakes_attend here found
  refine ⟨calm.present ▸ here, member, members ▸ old, topics, ?_⟩
  intro attended
  rw [logs]
  apply attends before.log appended.log attended
  · intro key log found
    obtain ⟨log', found', _⟩ := calm.grows key log found
    exact ⟨log', found'⟩
  · intro key log found _ other
    exact unchanged key log found (by simpa using other)

end Produce

theorem Member.loop_topics (member : Member) : member.loop.topics = member.topics := by
  unfold loop
  split <;> rfl

theorem Broker.advance_topics (broker : Broker) (member : Member) :
    (broker.advance member).topics = member.topics := by
  unfold advance
  split
  · unfold endPass
    split
    · rfl
    · split
      · exact member.loop_topics
      · split <;> rfl
  · unfold visit
    split
    · rfl
    · split <;> rfl
  all_goals rfl

namespace Manned

theorem step (manned : Manned before) (taken : before.act .step = some after) : Manned after := by
  simp only [act] at taken
  split at taken
  · cases taken
  · cases taken
    apply Manned.run
    apply manned.modify before.advance_topics
    intro member _ attended
    exact attended.advance

theorem settle {resolves : Bool} (manned : Manned before)
    (taken : before.act (.settle index resolves) = some after) : Manned after := by
  simp only [act, Option.ite_none_right_eq_some] at taken
  obtain ⟨-, taken⟩ := taken
  split at taken
  · cases taken
  · rename_i member found
    split at taken
    · rename_i key offset rest delivered failed phase
      have ahead : Attended before.log member → ∀ other ∈ rest, other ∈ member.assigned := by
        intro attended other listed
        apply attended.ahead
        simp [ahead, phase, listed]
      cases resolves with
      | true =>
        cases taken
        apply Manned.run
        apply manned.map
        intro i present member' found'
        refine ⟨present, ?_⟩
        rcases getElem?_set_eq_some found' with ⟨rfl, rfl⟩ | ⟨_, old⟩
        · refine ⟨member, found, rfl, ?_⟩
          intro attended
          exact ⟨attended.subscribed, attended.stored, ahead attended, trivial⟩
        · exact ⟨member', old, rfl, id⟩
      | false =>
        cases taken
        apply Manned.run
        apply manned.modify
        · intro member
          rfl
        · intro member' found' attended
          cases found.symm.trans found'
          refine attended.phase (ahead attended) ?_
          cases delivered <;> trivial
    · cases taken

theorem timer (manned : Manned before)
    (taken : before.act (.timer index) = some after) : Manned after := by
  obtain ⟨-, rfl⟩ := of_ite_some taken
  apply manned.modify
  · intro member
    rfl
  · intro member _ attended
    exact attended.phase (fun _ listed => nomatch listed) trivial

theorem wake (manned : Manned before)
    (taken : before.act (.wake index) = some after) : Manned after := by
  obtain ⟨-, rfl⟩ := of_ite_some taken
  apply Manned.run
  apply manned.modify loop_topics
  intro member _ attended
  exact attended.loop

end Manned

theorem Attended.stop (attended : Attended logs member) (leaving : Bool) :
    Attended logs (Member.notify { member with stopped := true, leaving }) := by
  have flagged : Attended logs { member with stopped := true, leaving } :=
    attended.phase attended.ahead attended.watchful
  exact flagged.notify fun _ log here => ⟨log, here⟩

namespace Manned

theorem stop (manned : Manned before)
    (taken : before.act (.stop index) = some after) : Manned after := by
  obtain ⟨-, rfl⟩ := of_ite_some taken
  apply manned.modify
  · intro member
    exact (Still.stop member true).topics
  · intro member _ attended
    exact attended.stop true

theorem disconnect (manned : Manned before) (taken : before.act .disconnect = some after) :
    Manned after := by
  obtain ⟨-, rfl⟩ := of_ite_some taken
  apply manned.map
  intro index present member' found
  simp only [List.getElem?_mapIdx, Option.map_eq_some_iff] at found
  obtain ⟨member, here, rfl⟩ := found
  rw [if_pos present]
  refine ⟨present, member, here, (Still.stop member member.leaving).topics, ?_⟩
  intro attended
  exact attended.stop member.leaving

theorem disconnected (taken : before.act .disconnected = some after) : Manned after := by
  obtain ⟨-, rfl⟩ := of_ite_some taken
  exact .of_nobody rfl

end Manned

section Rebalance

variable {topics : List String} {fromBeginning : Bool}

theorem Broker.Settled.join (settled : before.Settled (.subscribe topics fromBeginning))
    (manned : Manned before) : (before.join topics fromBeginning).Unanimous ∧
      ∀ index ∈ (before.join topics fromBeginning).present, ∀ member,
        (before.join topics fromBeginning).members[index]? = some member → member.Steady := by
  constructor
  · intro first present second present' one two found found' topic listed
    rcases getElem?_concat_eq_some found with old | ⟨_, rfl⟩
    · have here := Seated.present_of_join present old
      rcases getElem?_concat_eq_some found' with old' | ⟨_, rfl⟩
      · have here' := Seated.present_of_join present' old'
        exact manned.unanimous first here second here' one two old old' topic listed
      · exact (settled first here one old).2.2 topic listed
    · rcases getElem?_concat_eq_some found' with old' | ⟨_, rfl⟩
      · have here' := Seated.present_of_join present' old'
        exact (settled second here' two old').2.1 topic listed
      · exact listed
  · intro index present member found
    rcases getElem?_concat_eq_some found with old | ⟨_, rfl⟩
    · exact (settled index (Seated.present_of_join present old) member old).1
    · exact ⟨rfl, rfl⟩

theorem Manned.subscribe (manned : Manned before)
    (settled : before.Settled (.subscribe topics fromBeginning))
    (taken : before.act (.subscribe topics fromBeginning) = some after) : Manned after := by
  obtain ⟨-, rfl⟩ := of_ite_some taken
  obtain ⟨unanimous, steady⟩ := settled.join manned
  have dealt : Manned (before.join topics fromBeginning).rebalance :=
    .rebalance (fun index present member found => (steady index present member found).2) unanimous
  apply Manned.run
  apply dealt.modify loop_topics
  intro member _ attended
  exact attended.loop

theorem Broker.Settled.depart (settled : before.Settled (.leave index)) (seated : Seated before)
    (manned : Manned before) : { before with present := before.present.erase index }.Unanimous ∧
      ∀ other ∈ before.present.erase index, ∀ member,
        before.members[other]? = some member → member.Steady := by
  constructor
  · intro first present second present'
    exact manned.unanimous first (List.mem_of_mem_erase present) second
      (List.mem_of_mem_erase present')
  · intro other present member found
    have stays := (seated.nodup.mem_erase_iff).mp present
    exact settled other stays.2 stays.1 member found

theorem Manned.leave (manned : Manned before) (seated : Seated before)
    (settled : before.Settled (.leave index)) (taken : before.act (.leave index) = some after) :
    Manned after := by
  obtain ⟨-, rfl⟩ := Departed.leave taken
  obtain ⟨unanimous, steady⟩ := settled.depart seated manned
  exact .rebalance (fun index present member found => (steady index present member found).2)
    unanimous

theorem Manned.act {action : BrokerAction} (manned : Manned before) (seated : Seated before)
    (settled : before.Settled action) (taken : before.act action = some after) : Manned after := by
  cases action with
  | ensureTopics => exact manned.ensureTopics taken
  | produce => exact manned.produce taken
  | produceElsewhere =>
    obtain ⟨-, rfl⟩ := of_ite_some taken
    exact ⟨manned.unanimous, manned.attended⟩
  | subscribe => exact manned.subscribe settled taken
  | step => exact manned.step taken
  | settle => exact manned.settle taken
  | timer => exact manned.timer taken
  | wake => exact manned.wake taken
  | stop => exact manned.stop taken
  | leave => exact manned.leave seated settled taken
  | disconnect => exact manned.disconnect taken
  | disconnected => exact .disconnected taken

end Rebalance

end NestApi.Messaging
