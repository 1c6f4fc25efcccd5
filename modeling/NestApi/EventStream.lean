import NestApi.DomainEvents
import NestApi.UsersApi
import Mathlib.Data.List.Basic

namespace NestApi

variable {α : Type}

/-- A ring of the last entries appended: the entry number `n` is in the slot `n % capacity`. -/
structure ReplayBuffer (α : Type) where
  capacity : Nat
  positive : 1 ≤ capacity
  slots : Nat → Option α
  /-- How many entries were ever appended. -/
  appended : Nat

namespace ReplayBuffer

def empty (capacity : Nat) (positive : 1 ≤ capacity) : ReplayBuffer α where
  capacity
  positive
  slots := fun _ => none
  appended := 0

def append (buffer : ReplayBuffer α) (entry : α) : ReplayBuffer α where
  capacity := buffer.capacity
  positive := buffer.positive
  slots := Function.update buffer.slots (buffer.appended % buffer.capacity) (some entry)
  appended := buffer.appended + 1

def oldestIndex (buffer : ReplayBuffer α) : Nat := buffer.appended - buffer.capacity

def oldest (buffer : ReplayBuffer α) : Option α :=
  buffer.slots (buffer.oldestIndex % buffer.capacity)

def retained (buffer : ReplayBuffer α) : List α :=
  (List.range' buffer.oldestIndex (buffer.appended - buffer.oldestIndex)).filterMap fun index =>
    buffer.slots (index % buffer.capacity)

/-- The retained entries numbered after `seq`. -/
def since (buffer : ReplayBuffer α) (seqOf : α → Nat) (seq : Nat) : List α :=
  buffer.retained.filter fun entry => seq < seqOf entry

end ReplayBuffer

end NestApi

namespace NestApi.Streaming

open Events Users

/-- Whom a connection writes to: what it keeps of the authenticated user. -/
structure StreamAudience where
  id : String
  role : Role
  deriving DecidableEq

def isVisibleTo (event : DomainEvent) (audience : StreamAudience) : Bool :=
  if audience.role = .admin then true
  else
    match event.payload with
    | .userRegistered userId .. => userId = audience.id
    | .userDeleted userId _ => userId = audience.id
    | .orderPlaced _ userId .. => userId = audience.id
    | .orderConfirmed _ userId .. => userId = audience.id
    | .orderCancelled _ userId _ => userId = audience.id

theorem isVisibleTo_iff {event : DomainEvent} {audience : StreamAudience} :
    isVisibleTo event audience ↔ audience.role = .admin ∨ event.userId = audience.id := by
  unfold isVisibleTo DomainEvent.userId
  split
  · rename_i admin
    simp [admin]
  · rename_i other
    cases event.payload <;> simp [other]

structure StreamCursor where
  epoch : String
  seq : Nat
  deriving DecidableEq

def isHexDigit (c : Char) : Bool := c.isDigit || ('a' ≤ c && c ≤ 'f')

/-- `0|[1-9][0-9]{0,14}`. -/
def isSeqText (text : List Char) : Bool :=
  text = ['0'] || text.all Char.isDigit && text.head?.any (· ≠ '0') && text.length ≤ 15

/-- Thirty-two hexadecimal digits, a dot and a sequence number. -/
def parseCursor (raw : String) : Option StreamCursor :=
  let text := (JsString.trim raw).toList
  let epoch := text.take 32
  match text.drop 32 with
  | '.' :: digits =>
    if epoch.length = 32 ∧ epoch.all isHexDigit ∧ isSeqText digits then
      some { epoch := String.ofList epoch, seq := Nat.ofDigitChars 10 digits 0 }
    else none
  | _ => none

structure SequencedEvent where
  seq : Nat
  event : DomainEvent
  deriving DecidableEq

inductive ResumeGap where
  | noCursor
  | malformedCursor
  | epochChanged
  | cursorAhead
  | bufferEvicted
  deriving DecidableEq

structure Resume where
  start : Nat
  backlog : List SequencedEvent
  gap : Option ResumeGap
  deriving DecidableEq

structure OpenStream (κ : Type) where
  caller : κ
  cursor : Nat
  deriving DecidableEq

/-- The hub of one process, over whatever identifies the callers of its streams. -/
structure EventStreamHub (κ : Type) where
  epoch : String
  maxConnections : Nat
  buffer : ReplayBuffer SequencedEvent
  seq : Nat
  streams : List (OpenStream κ)
  stopping : Bool

namespace EventStreamHub

variable {κ : Type} (audienceOf : κ → StreamAudience) (hub : EventStreamHub κ)

def listensTo (event : DomainEvent) : Bool :=
  match event.name with
  | .userRegistered | .userDeleted => true
  | .orderPlaced | .orderConfirmed | .orderCancelled => false

def resolveResume (lastEventId : Option String) : Resume :=
  let live := fun gap => { start := hub.seq, backlog := [], gap := some gap : Resume }
  match lastEventId with
  | none => live .noCursor
  | some raw =>
    if JsString.trim raw = "" then live .noCursor
    else
      match parseCursor raw with
      | none => live .malformedCursor
      | some cursor =>
        if cursor.epoch ≠ hub.epoch then live .epochChanged
        else if hub.seq < cursor.seq then live .cursorAhead
        -- `oldest - 1` is the newest position that can still be served in full.
        else if hub.buffer.oldest.any fun oldest => cursor.seq + 1 < oldest.seq then
          live .bufferEvicted
        else
          { start := cursor.seq
            backlog := hub.buffer.since SequencedEvent.seq cursor.seq
            gap := none }

def capacityMessage : String :=
  "Event stream is at capacity (" ++ toString hub.maxConnections ++ " connections)"

/-- Opens a stream and replays the backlog to it. Once the process is stopping only the opening and
the closing frame are written. -/
def connect (caller : κ) (lastEventId : Option String) :
    Except String (EventStreamHub κ × List DomainEvent) :=
  if hub.maxConnections ≤ hub.streams.length then .error hub.capacityMessage
  else if hub.stopping then .ok (hub, [])
  else
    let resume := hub.resolveResume lastEventId
    let cursor := (resume.backlog.getLast?.map SequencedEvent.seq).getD resume.start
    .ok ({ hub with streams := hub.streams ++ [{ caller, cursor }] },
      (resume.backlog.map SequencedEvent.event).filter fun event =>
        isVisibleTo event (audienceOf caller))

/-- Numbers an event, keeps it for later resumes and passes it to every open stream. -/
def record (event : DomainEvent) : EventStreamHub κ × List (κ × DomainEvent) :=
  let seq := hub.seq + 1
  ({ hub with
      seq
      buffer := hub.buffer.append { seq, event }
      streams := hub.streams.map fun stream => { stream with cursor := seq } },
    ((hub.streams.map OpenStream.caller).filter fun caller =>
      isVisibleTo event (audienceOf caller)).map fun caller => (caller, event))

def onDomainEvent (event : DomainEvent) : EventStreamHub κ × List (κ × DomainEvent) :=
  if listensTo event then hub.record audienceOf event else (hub, [])

theorem mem_onDomainEvent {event : DomainEvent} {frame : κ × DomainEvent} :
    frame ∈ (hub.onDomainEvent audienceOf event).2 ↔
      listensTo event ∧ ∃ stream ∈ hub.streams,
        isVisibleTo event (audienceOf stream.caller) ∧ frame = (stream.caller, event) := by
  unfold onDomainEvent
  split
  · rename_i listens
    simp only [record, List.mem_map, List.mem_filter, listens, true_and]
    constructor
    · rintro ⟨_, ⟨⟨stream, member, rfl⟩, visible⟩, rfl⟩
      exact ⟨stream, member, visible, rfl⟩
    · rintro ⟨stream, member, visible, rfl⟩
      exact ⟨stream.caller, ⟨⟨stream, member, rfl⟩, visible⟩, rfl⟩
  · rename_i deaf
    simp [deaf]

/-- The end of a subscription, when the client goes away. -/
def disconnect (index : Nat) : EventStreamHub κ :=
  { hub with streams := hub.streams.eraseIdx index }

def onApplicationShutdown : EventStreamHub κ := { hub with stopping := true, streams := [] }

end EventStreamHub

end NestApi.Streaming
