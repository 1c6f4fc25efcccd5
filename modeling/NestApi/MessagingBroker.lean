import NestApi.Common
import NestApi.Transition
import NestApi.Utf16
import Mathlib.Data.List.Sort
import Mathlib.Data.List.Dedup
import Mathlib.Data.List.Nodup

namespace NestApi.RoundRobin

variable {α : Type} {items : List α} {item : α} {count first second place : Nat}

/-- What the holder of a place gets when the items are dealt out one by one. -/
def share (items : List α) (count place : Nat) : List α :=
  (items.zipIdx.filter fun entry => entry.2 % count = place).map Prod.fst

theorem mem_share : item ∈ share items count place ↔
    ∃ index, items[index]? = some item ∧ index % count = place := by
  simp [share, List.mem_zipIdx_iff_getElem?]

theorem mem_of_mem_share (here : item ∈ share items count place) : item ∈ items := by
  obtain ⟨index, found, _⟩ := mem_share.mp here
  exact List.mem_of_getElem? found

theorem exists_place (listed : item ∈ items) (some : 0 < count) :
    ∃ place < count, item ∈ share items count place := by
  obtain ⟨index, found⟩ := List.mem_iff_getElem?.mp listed
  exact ⟨index % count, Nat.mod_lt _ some, mem_share.mpr ⟨index, found, rfl⟩⟩

theorem place_unique (nodup : items.Nodup) (here : item ∈ share items count first)
    (there : item ∈ share items count second) : first = second := by
  obtain ⟨index, found, rfl⟩ := mem_share.mp here
  obtain ⟨other, found', rfl⟩ := mem_share.mp there
  have inside := (List.getElem?_eq_some_iff.mp found).1
  rw [(List.getElem?_inj inside nodup).mp (found.trans found'.symm)]

end NestApi.RoundRobin

namespace NestApi.Messaging

abbrev OutgoingMessage := BrokerMessage String (List UInt8) (List (String × String))

abbrev StoredRecord := BrokerRecord String (List UInt8) (List (String × String))

/-- What `topic#partition` names. -/
structure PartitionKey where
  topic : String
  partition : Nat
  deriving DecidableEq

def fnv1a (key : String) : Nat :=
  (Utf16.ofString key).foldl (fun hash unit => (hash ^^^ unit.toNat) * 0x01000193 % 2 ^ 32)
    0x811c9dc5

/-- The partition of a message, and the counter that spreads those without a key. -/
def partitionFor (key : Option String) (partitions roundRobin : Nat) : Nat × Nat :=
  match key with
  | none =>
    let counter := (roundRobin + 1) % maxSafeInteger
    (counter % partitions, counter)
  | some text => (fnv1a text % partitions, roundRobin)

inductive Phase where
  /-- In a pass over the partitions it found assigned when the pass began. -/
  | reading (rest : List PartitionKey) (delivered failed : Bool)
  /-- Waiting for the handler of the record at an offset. -/
  | handling (key : PartitionKey) (offset : Nat) (rest : List PartitionKey)
      (delivered failed : Bool)
  /-- In `idle`: asleep, with a retry timer or without, or about to return. -/
  | idle (asleep retry : Bool)
  | ended
  deriving DecidableEq

structure Member where
  topics : List String
  fromBeginning : Bool
  assigned : List PartitionKey
  positions : PartitionKey → Option Nat
  stopped : Bool
  /-- Stopped by a `stop()` that is waiting for the loop to end. -/
  leaving : Bool
  pending : Bool
  phase : Phase
  /-- Not in the source: the partitions it was given by a rebalance and has not read since. -/
  gained : List PartitionKey

namespace Member

def joined (topics : List String) (fromBeginning : Bool) : Member where
  topics
  fromBeginning
  assigned := []
  positions := fun _ => none
  stopped := false
  leaving := false
  pending := false
  phase := .reading [] false false
  gained := []

/-- Wakes a member, or records that it should not go to sleep. -/
def notify (member : Member) : Member :=
  match member.phase with
  | .idle true retry => { member with phase := .idle false retry, pending := false }
  | _ => { member with pending := true }

/-- Takes over its share. A partition it no longer holds takes its position with it. -/
def takeOver (member : Member) (share : List PartitionKey) : Member :=
  notify { member with
    assigned := share
    positions := fun key => if key ∈ share then member.positions key else none
    gained := share.filter fun key => key ∈ member.gained ∨ key ∉ member.assigned }

/-- The head of the `while` loop. -/
def loop (member : Member) : Member :=
  if member.stopped then { member with phase := .ended }
  else { member with phase := .reading member.assigned false false }

/-- The end of a pass: the next one, or `idle`. -/
def endPass (member : Member) (delivered failed : Bool) : Member :=
  if member.stopped then { member with phase := .ended }
  else if delivered then member.loop
  else if member.pending then { member with pending := false, phase := .idle false failed }
  else { member with phase := .idle true failed }

def isReading (member : Member) : Bool :=
  match member.phase with
  | .reading .. => true
  | .handling .. | .idle .. | .ended => false

end Member

structure Broker where
  defaultPartitions : Nat
  partitions : String → Option (List (List StoredRecord))
  roundRobin : Nat
  closed : Bool
  committed : PartitionKey → Option Nat
  members : List Member
  present : List Nat
  /-- Whose code is running. It runs until it waits for something. -/
  turn : Option Nat
  /-- Not in the source: the ends of the logs when the group's first member subscribed. -/
  joinedAt : Option (PartitionKey → Nat)
  /-- Not in the source: the records a handler call resolved for. -/
  resolved : List (PartitionKey × Nat)

inductive BrokerAction where
  | ensureTopics (specs : List (String × Nat))
  | produce (messages : List OutgoingMessage) (now : Date)
  /-- Another broker of the process has moved the counter, which is the module's. -/
  | produceElsewhere (roundRobin : Nat)
  | subscribe (topics : List String) (fromBeginning : Bool)
  /-- The code that is running goes on to its next partition. -/
  | step
  /-- A handler call resolves, or it rejects or times out. -/
  | settle (index : Nat) (resolves : Bool)
  | timer (index : Nat)
  | wake (index : Nat)
  | stop (index : Nat)
  | leave (index : Nat)
  | disconnect
  | disconnected

namespace Broker

variable (broker : Broker)

def booted (defaultPartitions : Nat) : Broker where
  defaultPartitions
  partitions := fun _ => none
  roundRobin := 0
  closed := false
  committed := fun _ => none
  members := []
  present := []
  turn := none
  joinedAt := none
  resolved := []

def logs (topic : String) : List (List StoredRecord) := (broker.partitions topic).getD []

def log (key : PartitionKey) : Option (List StoredRecord) := (broker.logs key.topic)[key.partition]?

def ensure (topic : String) (partitions : Nat) : Broker :=
  match broker.partitions topic with
  | some _ => broker
  | none =>
    { broker with
        partitions := Function.update broker.partitions topic
          (some (List.replicate partitions [])) }

/-- `logsFor`, for its effect. -/
def logsFor (topic : String) : Broker := broker.ensure topic broker.defaultPartitions

def append (now : Date) (message : OutgoingMessage) : Broker :=
  let made := broker.logsFor message.topic
  let logs := made.logs message.topic
  let (partition, roundRobin) := partitionFor message.key logs.length made.roundRobin
  let record : StoredRecord :=
    { key := message.key, value := message.value, headers := message.headers, timestamp := now }
  { made with
      roundRobin
      partitions := Function.update made.partitions message.topic
        (some (logs.modify partition fun log => log ++ [record])) }

def modify (index : Nat) (f : Member → Member) : Broker :=
  { broker with members := broker.members.modify index f }

def wakeSubscribersOf (topic : String) : Broker :=
  { broker with
      members := broker.members.mapIdx fun index member =>
        if index ∈ broker.present ∧ topic ∈ member.topics then member.notify else member }

/-- The topics of the group, in the order of their code units. -/
def topics : List String :=
  ((broker.present.flatMap fun index => (broker.members[index]?.map Member.topics).getD []).dedup
    ).insertionSort fun first second => Utf16.ofString first ≤ Utf16.ofString second

def keys : List PartitionKey :=
  broker.topics.flatMap fun topic =>
    (List.range (broker.logs topic).length).map fun partition => { topic, partition }

/-- Gives every member of the group its share, by its place in the join order. -/
def deal : Broker :=
  { broker with
      members := broker.members.mapIdx fun index member =>
        if index ∈ broker.present then
          member.takeOver
            (RoundRobin.share broker.keys broker.present.length (broker.present.idxOf index))
        else member }

def rebalance : Broker :=
  if broker.present = [] then broker else (broker.topics.foldl logsFor broker).deal

def run (index : Nat) : Broker :=
  { broker with turn := if (broker.members[index]?).any Member.isReading then some index else none }

/-- Where a member starts in a partition its group has never committed. -/
def startOffset (member : Member) (log : List StoredRecord) : Nat :=
  if member.fromBeginning then 0 else log.length

/-- Where a member reads a partition: at its position, which is settled on its first visit. -/
def readOffset (member : Member) (key : PartitionKey) (log : List StoredRecord) : Nat :=
  ((member.positions key).or (broker.committed key)).getD (startOffset member log)

/-- One turn of the `for` loop. -/
def visit (member : Member) (key : PartitionKey) (rest : List PartitionKey)
    (delivered failed : Bool) : Member :=
  if member.stopped then { member with phase := .ended }
  else
    match broker.log key with
    | none => { member with phase := .reading rest delivered failed }
    | some log =>
      let offset := broker.readOffset member key log
      { member with
          positions := Function.update member.positions key (some offset)
          gained := member.gained.filter fun other => other ≠ key
          phase :=
            if log.length ≤ offset then .reading rest delivered failed
            else .handling key offset rest delivered failed }

def advance (member : Member) : Member :=
  match member.phase with
  | .reading [] delivered failed => member.endPass delivered failed
  | .reading (key :: rest) delivered failed => broker.visit member key rest delivered failed
  | .handling .. | .idle .. | .ended => member

/-- A handler call resolved: committed and advanced, in that order. -/
def commit (index : Nat) (member : Member) (key : PartitionKey) (offset : Nat)
    (rest : List PartitionKey) (failed : Bool) : Broker :=
  { broker with
      committed := Function.update broker.committed key (some (offset + 1))
      resolved := broker.resolved ++ [(key, offset)]
      members := broker.members.set index
        { member with
            positions := Function.update member.positions key (some (offset + 1))
            phase := .reading rest true failed } }

def ends (key : PartitionKey) : Nat := ((broker.log key).map List.length).getD 0

def join (topics : List String) (fromBeginning : Bool) : Broker :=
  { broker with
      members := broker.members ++ [Member.joined topics fromBeginning]
      present := broker.present ++ [broker.members.length]
      joinedAt := broker.joinedAt.or (some broker.ends) }

def act : BrokerAction → Option Broker
  | .ensureTopics specs =>
    if broker.turn = none ∧ broker.closed = false then
      some (specs.foldl (fun broker spec => broker.ensure spec.1 spec.2) broker)
    else none
  | .produce messages now =>
    if broker.turn = none ∧ broker.closed = false then
      some (((messages.map BrokerMessage.topic).eraseDups).foldl wakeSubscribersOf
        (messages.foldl (fun broker message => broker.append now message) broker))
    else none
  | .produceElsewhere roundRobin =>
    if broker.turn = none then some { broker with roundRobin } else none
  | .subscribe topics fromBeginning =>
    if broker.turn = none ∧ broker.closed = false then
      let index := broker.members.length
      some (((broker.join topics fromBeginning).rebalance.modify index Member.loop).run index)
    else none
  | .step =>
    match broker.turn with
    | none => none
    | some index => some ((broker.modify index broker.advance).run index)
  | .settle index resolves =>
    if broker.turn = none then
      match broker.members[index]? with
      | none => none
      | some member =>
        match member.phase with
        | .handling key offset rest delivered failed =>
          if resolves then
            some ((broker.commit index member key offset rest failed).run index)
          else
            some ((broker.modify index fun member =>
              { member with phase := .reading rest delivered true }).run index)
        | _ => none
    else none
  | .timer index =>
    if broker.turn = none ∧
        (broker.members[index]?).any (fun member => member.phase = .idle true true) then
      some (broker.modify index fun member =>
        { member with phase := .idle false true, pending := false })
    else none
  | .wake index =>
    if broker.turn = none ∧ (broker.members[index]?).any (fun member =>
        member.phase = .idle false true ∨ member.phase = .idle false false) then
      some ((broker.modify index Member.loop).run index)
    else none
  | .stop index =>
    if broker.turn = none ∧ (broker.members[index]?).any (fun member => !member.stopped) then
      some (broker.modify index fun member =>
        Member.notify { member with stopped := true, leaving := true })
    else none
  | .leave index =>
    if broker.turn = none ∧ index ∈ broker.present ∧ (broker.members[index]?).any (fun member =>
        member.leaving ∧ member.phase = .ended) then
      some ({ broker with present := broker.present.erase index }.rebalance)
    else none
  | .disconnect =>
    if broker.turn = none ∧ broker.closed = false then
      some { broker with
        closed := true
        members := broker.members.mapIdx fun index member =>
          if index ∈ broker.present then Member.notify { member with stopped := true }
          else member }
    else none
  | .disconnected =>
    if broker.turn = none ∧ broker.closed = true ∧
        ∀ index ∈ broker.present, (broker.members[index]?).any (fun member =>
          member.phase = .ended) = true then
      some { broker with present := [] }
    else none

end Broker

end NestApi.Messaging
