import NestApi.Indexed
import NestApi.Realtime

/- What one caller is told of the events on the bus by an event stream and by a socket. Connections
are told apart by whatever identifies the callers of both channels. -/
namespace NestApi.Realtime

open Events Users Streaming EventStreamHub OpenStream

variable {κ : Type} [DecidableEq κ] (audienceOf : κ → StreamAudience)

def received (connection : κ) (frames : List (κ × DomainEvent)) : List DomainEvent :=
  frames.filterMap fun frame => if frame.1 = connection then some frame.2 else none

def streamed : EventStreamHub κ → List DomainEvent → List (κ × DomainEvent)
  | _, [] => []
  | hub, event :: rest =>
    (hub.onDomainEvent audienceOf event).2 ++ streamed (hub.onDomainEvent audienceOf event).1 rest

/-- The frames of the sockets while events are published, none of which is dropped. -/
def broadcasts (gateway : RealtimeGateway κ) (events : List DomainEvent) :
    List (κ × DomainEvent) :=
  events.flatMap (gateway.broadcast audienceOf fun _ => true)

structure OnDefaultRooms (gateway : RealtimeGateway κ) (connection : κ) (socket : Nat) : Prop where
  own : ∀ other object, gateway.registry.objects[other]? = some object →
    (object.caller = connection ↔ other = socket)
  registered : socket < gateway.registry.objects.length
  rooms : ∀ room, socket ∈ gateway.registry.membersOf room ↔
    room ∈ defaultRoomsFor (audienceOf connection)

variable {audienceOf} {connection : κ} {socket : Nat} {hub : EventStreamHub κ}
  {gateway : RealtimeGateway κ}

theorem received_append (first second : List (κ × DomainEvent)) :
    received connection (first ++ second) =
      received connection first ++ received connection second := by
  simp [received]

theorem received_same (event : DomainEvent) (callers : List κ) :
    received connection (callers.map fun caller => (caller, event)) =
      List.replicate (callers.count connection) event := by
  induction callers with
  | nil => rfl
  | cons caller callers ih =>
    rw [List.map_cons, ← List.singleton_append, received_append, ih, List.count_cons]
    by_cases same : caller = connection
    · simp [received, same, List.replicate_succ]
    · simp [received, same]

theorem received_record (event : DomainEvent)
    (once : (hub.streams.map caller).count connection = 1) :
    received connection (hub.onDomainEvent audienceOf event).2 =
      [event].filter fun event => listensTo event && isVisibleTo event (audienceOf connection) := by
  unfold onDomainEvent
  by_cases listens : listensTo event = true
  · rw [if_pos listens, record, received_same]
    by_cases visible : isVisibleTo event (audienceOf connection) = true
    · have kept := List.count_filter (p := fun caller => isVisibleTo event (audienceOf caller))
        (l := hub.streams.map caller) visible
      rw [kept, once]
      simp [listens, visible]
    · rw [List.count_eq_zero.mpr (by simp [visible])]
      simp [visible]
  · rw [if_neg listens]
    simp [received, listens]

omit [DecidableEq κ] in
theorem callers_onDomainEvent (event : DomainEvent) :
    (hub.onDomainEvent audienceOf event).1.streams.map caller = hub.streams.map caller := by
  unfold onDomainEvent
  split
  · simp [record, Function.comp_def]
  · rfl

theorem received_streamed (events : List DomainEvent)
    (once : (hub.streams.map caller).count connection = 1) :
    received connection (streamed audienceOf hub events) =
      events.filter fun event => listensTo event && isVisibleTo event (audienceOf connection) := by
  induction events generalizing hub with
  | nil => rfl
  | cons event rest ih =>
    have still : ((hub.onDomainEvent audienceOf event).1.streams.map caller).count
        connection = 1 := by
      rw [callers_onDomainEvent, once]
    rw [streamed, received_append, received_record event once, ih still]
    exact (List.filter_append [event] rest).symm

omit [DecidableEq κ] in
theorem considered_iff (on : OnDefaultRooms audienceOf gateway connection socket)
    (event : DomainEvent) :
    socket ∈ gateway.considered event ↔ event.userId = (audienceOf connection).id := by
  rw [RealtimeGateway.mem_considered]
  simp only [on.rooms, defaultRoomsFor, List.mem_singleton, exists_eq_right]
  unfold roomsFor DomainEvent.userId
  cases event.payload <;> simp [eq_comm]

section

variable (on : OnDefaultRooms audienceOf gateway connection socket)
  (other : (audienceOf connection).role ≠ .admin)

include on other

theorem received_broadcast (event : DomainEvent) :
    received connection (gateway.broadcast audienceOf (fun _ => true) event) =
      [event].filter fun event => isVisibleTo event (audienceOf connection) := by
  obtain ⟨object, found⟩ : ∃ object, gateway.registry.objects[socket]? = some object :=
    ⟨_, List.getElem?_eq_getElem on.registered⟩
  have caller : object.caller = connection := (on.own socket object found).mpr rfl
  have seen : isVisibleTo event (audienceOf connection) = true ↔
      socket ∈ gateway.considered event := by
    rw [isVisibleTo_iff, considered_iff on event, or_iff_right other]
  unfold received RealtimeGateway.broadcast
  rw [List.filterMap_filterMap]
  generalize shape : (fun member => _) = told
  have strange : ∀ member, member ≠ socket → told member = none := by
    intro member different
    subst shape
    dsimp only
    cases there : gateway.registry.objects[member]? with
    | none => rfl
    | some held =>
      have another := mt (on.own member held there).mp different
      dsimp only
      split
      · exact if_neg another
      · rfl
  by_cases visible : isVisibleTo event (audienceOf connection) = true
  · have distinct : (gateway.considered event).Nodup := nodup_eraseDups _
    rw [filterMap_of_only distinct (seen.mp visible) strange, ← shape]
    simp [found, caller, visible]
  · have none : (gateway.considered event).filterMap told = [] := by
      apply List.filterMap_eq_nil_iff.mpr
      intro member listed
      exact strange member fun same => visible (seen.mpr (same ▸ listed))
    simp [none, visible]

theorem received_broadcasts (events : List DomainEvent) :
    received connection (broadcasts audienceOf gateway events) =
      events.filter fun event => isVisibleTo event (audienceOf connection) := by
  induction events with
  | nil => rfl
  | cons event rest ih =>
    rw [broadcasts, List.flatMap_cons, received_append, received_broadcast on other event]
    exact (congrArg _ ih).trans (List.filter_append [event] rest).symm

end

/-- Both channels tell a caller the same, and what it may see, exactly if the event stream listens
to every event the caller may see. -/
theorem channels_agree_iff (once : (hub.streams.map caller).count connection = 1)
    (on : OnDefaultRooms audienceOf gateway connection socket) (events : List DomainEvent) :
    (((audienceOf connection).role ≠ .admin →
        received connection (streamed audienceOf hub events) =
          received connection (broadcasts audienceOf gateway events) ∧
        received connection (broadcasts audienceOf gateway events) =
          events.filter fun event => isVisibleTo event (audienceOf connection)) ∧
      ((audienceOf connection).role = .admin →
        received connection (streamed audienceOf hub events) = events)) ↔
    ∀ event ∈ events, isVisibleTo event (audienceOf connection) = true →
      event.name = .userRegistered ∨ event.name = .userDeleted := by
  have listens : ∀ event, listensTo event = true ↔
      event.name = .userRegistered ∨ event.name = .userDeleted := by
    intro event
    unfold listensTo
    cases event.name <;> decide
  have complete : received connection (streamed audienceOf hub events) =
      (events.filter fun event => isVisibleTo event (audienceOf connection)) ↔
      ∀ event ∈ events, isVisibleTo event (audienceOf connection) = true →
        event.name = .userRegistered ∨ event.name = .userDeleted := by
    rw [received_streamed events once, ← List.filter_filter, List.filter_eq_self]
    simp [listens]
  rw [← complete]
  by_cases admin : (audienceOf connection).role = .admin
  · have all : (events.filter fun event => isVisibleTo event (audienceOf connection)) = events :=
      List.filter_eq_self.mpr fun event _ => isVisibleTo_iff.mpr (.inl admin)
    simp [admin, all]
  · simp [admin, received_broadcasts on admin events]

section Example

def adasStream : EventStreamHub StreamAudience where
  epoch := "00000000000000000000000000000000"
  maxConnections := 2
  buffer := .empty 4 (by decide)
  seq := 0
  streams := [⟨⟨"ada", .user⟩, 0⟩]
  stopping := false

def adasSocket : RealtimeGateway StreamAudience :=
  RealtimeGateway.handleConnection id ⟨2, 4, .empty⟩ ⟨"ada", .user⟩

theorem adasSocket_onDefaultRooms : OnDefaultRooms id adasSocket ⟨"ada", .user⟩ 0 where
  own := by
    intro other object found
    cases other with
    | zero =>
      cases found
      simp
    | succ => cases found
  registered := by decide
  rooms := by
    intro room
    by_cases same : room = .user "ada"
    · subst same
      decide
    · have unequal : (room == .user "ada") = false := beq_eq_false_iff_ne.mpr same
      simp [adasSocket, RealtimeGateway.handleConnection, ConnectionRegistry.empty,
        ConnectionRegistry.add, ConnectionRegistry.membersOf, ConnectionRegistry.index,
        defaultRoomsFor, List.lookup_cons, same, unequal]

def adas (payload : DomainEventPayload) : DomainEvent where
  id := "event"
  occurredAt := "2025-01-01T00:00:00.000Z"
  correlationId := none
  payload

theorem channels_agree_registration :
    received ⟨"ada", .user⟩ (streamed id adasStream [adas (.userDeleted "ada" "ada@mail.test")]) =
      received ⟨"ada", .user⟩ (broadcasts id adasSocket
        [adas (.userDeleted "ada" "ada@mail.test")]) :=
  (((channels_agree_iff rfl adasSocket_onDefaultRooms _).mpr (by decide)).1 (by decide)).1

/-- An order that is cancelled is told on the socket and not on the stream. -/
theorem order_not_streamed :
    received ⟨"ada", .user⟩ (streamed id adasStream [adas (.orderCancelled "order" "ada" [])]) =
      [] ∧
    received ⟨"ada", .user⟩ (broadcasts id adasSocket
      [adas (.orderCancelled "order" "ada" [])]) = [adas (.orderCancelled "order" "ada" [])] := by
  decide +kernel

end Example

end NestApi.Realtime
