import NestApi.Realtime

namespace NestApi.Realtime

open Events Users Streaming

/-- The user of a live connection. Tokens are signed for accounts found in the tenant they name, and
an account never changes its tenant. -/
structure Principal (tenantOf : String → String) extends AuthenticatedUser where
  minted : tenantId = tenantOf id

variable {tenantOf : String → String}

def Principal.audience (caller : Principal tenantOf) : StreamAudience :=
  { id := caller.id, role := caller.role }

/-- The two live channels of one process, with every domain-event frame they have written. -/
structure LiveChannels (tenantOf : String → String) where
  hub : EventStreamHub (Principal tenantOf)
  gateway : RealtimeGateway (Principal tenantOf)
  written : List (Principal tenantOf × DomainEvent)

inductive ChannelAction (tenantOf : String → String) where
  /-- The bus passes an event to both channels. -/
  | publish (event : DomainEvent) (writes : Nat → Bool)
  | openStream (caller : Principal tenantOf) (lastEventId : Option String)
  | closeStream (index : Nat)
  | openSocket (caller : Principal tenantOf)
  | subscribe (socket : Nat) (body : RoomRequest)
  | unsubscribe (socket : Nat) (body : RoomRequest)
  | closeSocket (socket : Nat)
  | shutdown

namespace LiveChannels

def fresh (epoch : String) (capacity : Nat) (positive : 1 ≤ capacity)
    (maxStreams maxSockets maxRooms : Nat) : LiveChannels tenantOf where
  hub :=
    { epoch
      maxConnections := maxStreams
      buffer := .empty capacity positive
      seq := 0
      streams := []
      stopping := false }
  gateway :=
    { maxConnections := maxSockets
      maxRoomsPerConnection := maxRooms
      registry := .empty }
  written := []

variable (channels : LiveChannels tenantOf)

def frames : ChannelAction tenantOf → List (Principal tenantOf × DomainEvent)
  | .publish event writes =>
    (channels.hub.onDomainEvent Principal.audience event).2 ++
      channels.gateway.broadcast Principal.audience writes event
  | .openStream caller lastEventId =>
    match channels.hub.connect Principal.audience caller lastEventId with
    | .error _ => []
    | .ok (_, replayed) => replayed.map fun event => (caller, event)
  | _ => []

/-- What an action leaves of the two channels. A refused one leaves them as they are. -/
def turn : ChannelAction tenantOf →
    EventStreamHub (Principal tenantOf) × RealtimeGateway (Principal tenantOf)
  | .publish event _ => ((channels.hub.onDomainEvent Principal.audience event).1, channels.gateway)
  | .openStream caller lastEventId =>
    match channels.hub.connect Principal.audience caller lastEventId with
    | .error _ => (channels.hub, channels.gateway)
    | .ok (hub, _) => (hub, channels.gateway)
  | .closeStream index => (channels.hub.disconnect index, channels.gateway)
  | .openSocket caller =>
    (channels.hub, channels.gateway.handleConnection Principal.audience caller)
  | .subscribe socket body =>
    match channels.gateway.handleSubscribe Principal.audience socket body with
    | .error _ => (channels.hub, channels.gateway)
    | .ok gateway => (channels.hub, gateway)
  | .unsubscribe socket body =>
    match channels.gateway.handleUnsubscribe Principal.audience socket body with
    | .error _ => (channels.hub, channels.gateway)
    | .ok gateway => (channels.hub, gateway)
  | .closeSocket socket => (channels.hub, channels.gateway.handleDisconnect socket)
  | .shutdown => (channels.hub.onApplicationShutdown, channels.gateway)

def act (action : ChannelAction tenantOf) : Option (LiveChannels tenantOf) :=
  some
    { hub := (channels.turn action).1
      gateway := (channels.turn action).2
      written := channels.written ++ channels.frames action }

end LiveChannels

/-- A frame is about an account of the tenant of the connection it is written to. -/
def OwnTenant (frame : Principal tenantOf × DomainEvent) : Prop :=
  tenantOf frame.2.userId = frame.1.tenantId

/-- What an action has to meet for the administrators it reaches. -/
def KeepsToTenant (channels : LiveChannels tenantOf) : ChannelAction tenantOf → Prop
  | .publish event writes =>
    (EventStreamHub.listensTo event → ∀ stream ∈ channels.hub.streams,
      stream.caller.role = .admin → tenantOf event.userId = stream.caller.tenantId) ∧
    ∀ room ∈ roomsFor event, ∀ socket ∈ channels.gateway.registry.membersOf room,
      writes socket → ∀ connection ∈ channels.gateway.registry.objects[socket]?,
        connection.caller.role = .admin → tenantOf event.userId = connection.caller.tenantId
  | .openStream caller lastEventId =>
    caller.role = .admin → channels.hub.streams.length < channels.hub.maxConnections →
      channels.hub.stopping = false →
        ∀ entry ∈ (channels.hub.resolveResume lastEventId).backlog,
          tenantOf entry.event.userId = caller.tenantId
  | _ => True

variable {caller : Principal tenantOf} {event : DomainEvent}

/-- Whoever sees an event without being an administrator is the account it is about. -/
theorem ownTenant_iff (visible : isVisibleTo event caller.audience) :
    OwnTenant (caller, event) ↔
      (caller.role = .admin → tenantOf event.userId = caller.tenantId) := by
  constructor
  · intro own _
    exact own
  · intro admins
    rcases isVisibleTo_iff.mp visible with admin | same
    · exact admins admin
    · have account : event.userId = caller.id := same
      rw [OwnTenant, account, caller.minted]

theorem isVisibleTo_of_admin (admin : caller.role = .admin) (event : DomainEvent) :
    isVisibleTo event caller.audience :=
  isVisibleTo_iff.mpr (.inl admin)

variable (channels : LiveChannels tenantOf)

theorem streamed_ownTenant_iff :
    (∀ frame ∈ (channels.hub.onDomainEvent Principal.audience event).2, OwnTenant frame) ↔
      (EventStreamHub.listensTo event → ∀ stream ∈ channels.hub.streams,
        stream.caller.role = .admin → tenantOf event.userId = stream.caller.tenantId) := by
  simp only [EventStreamHub.mem_onDomainEvent]
  constructor
  · intro own listens stream member admin
    exact own _ ⟨listens, stream, member, isVisibleTo_of_admin admin event, rfl⟩
  · rintro admins frame ⟨listens, stream, member, visible, rfl⟩
    exact (ownTenant_iff visible).mpr (admins listens stream member)

theorem broadcast_ownTenant_iff {writes : Nat → Bool} :
    (∀ frame ∈ channels.gateway.broadcast Principal.audience writes event, OwnTenant frame) ↔
      ∀ room ∈ roomsFor event, ∀ socket ∈ channels.gateway.registry.membersOf room,
        writes socket → ∀ connection ∈ channels.gateway.registry.objects[socket]?,
          connection.caller.role = .admin → tenantOf event.userId = connection.caller.tenantId := by
  simp only [RealtimeGateway.mem_broadcast, RealtimeGateway.mem_considered]
  constructor
  · intro own room routed socket member writes connection found admin
    exact own _ ⟨socket, ⟨room, routed, member⟩, writes, connection, found,
      isVisibleTo_of_admin admin event, rfl⟩
  · rintro admins frame ⟨socket, ⟨room, routed, member⟩, writes, connection, found, visible, rfl⟩
    exact (ownTenant_iff visible).mpr (admins room routed socket member writes connection found)

theorem replayed_ownTenant_iff {lastEventId : Option String} :
    (∀ frame ∈ channels.frames (.openStream caller lastEventId), OwnTenant frame) ↔
      KeepsToTenant channels (.openStream caller lastEventId) := by
  simp only [LiveChannels.frames, KeepsToTenant, EventStreamHub.connect]
  by_cases full : channels.hub.maxConnections ≤ channels.hub.streams.length
  · simp [full]
  · by_cases stopping : channels.hub.stopping
    · simp [full, stopping]
    · simp only [full, stopping, Bool.false_eq_true, ↓reduceIte, List.mem_map, List.mem_filter]
      constructor
      · intro own admin _ _ entry member
        exact own _ ⟨entry.event, ⟨⟨entry, member, rfl⟩, isVisibleTo_of_admin admin _⟩, rfl⟩
      · rintro admins frame ⟨event, ⟨⟨entry, member, rfl⟩, visible⟩, rfl⟩
        apply (ownTenant_iff visible).mpr
        intro admin
        exact admins admin (by omega) trivial entry member

theorem frames_ownTenant_iff (action : ChannelAction tenantOf) :
    (∀ frame ∈ channels.frames action, OwnTenant frame) ↔ KeepsToTenant channels action := by
  cases action with
  | publish =>
    simp only [LiveChannels.frames, List.mem_append, or_imp, forall_and, KeepsToTenant]
    rw [streamed_ownTenant_iff, broadcast_ownTenant_iff]
  | openStream => exact replayed_ownTenant_iff channels
  | _ => simp [LiveChannels.frames, KeepsToTenant]

/-- A run writes about the tenants of its connections alone exactly when each of its actions
keeps to them. -/
theorem live_channels_isolation (tenantOf : String → String) (epoch : String) (capacity : Nat)
    (positive : 1 ≤ capacity) (maxStreams maxSockets maxRooms : Nat)
    (actions : List (ChannelAction tenantOf)) (channels : LiveChannels tenantOf)
    (run : Steps (Executes LiveChannels.act)
      (.fresh epoch capacity positive maxStreams maxSockets maxRooms) actions channels) :
    (∀ frame ∈ channels.written, OwnTenant frame) ↔
      Steps (Guarded KeepsToTenant (Executes LiveChannels.act))
        (.fresh epoch capacity positive maxStreams maxSockets maxRooms) actions channels := by
  have logged : ∀ (s : LiveChannels tenantOf) action t, s.act action = some t →
      t.written = s.written ++ s.frames action := by
    intro s action t taken
    cases taken
    rfl
  rw [run.log_iff LiveChannels.written LiveChannels.frames OwnTenant logged frames_ownTenant_iff]
  simp [LiveChannels.fresh]

section Example

def exampleTenants (userId : String) : String := if userId = "bob" then "globex" else "acme"

def exampleAdmin : Principal exampleTenants where
  id := "root"
  email := "root@acme.test"
  role := .admin
  tenantId := "acme"
  minted := rfl

def exampleEpoch : String := "00000000000000000000000000000000"

theorem four_positive : 1 ≤ 4 := by decide

def exampleStart : LiveChannels exampleTenants := .fresh exampleEpoch 4 four_positive 2 2 4

def registered (userId : String) : DomainEvent where
  id := "event-" ++ userId
  occurredAt := "2025-01-01T00:00:00.000Z"
  correlationId := none
  payload := .userRegistered userId (userId ++ "@mail.test") none none

/-- An administrator listens on both channels while an account registers, and comes back to the
stream with its first cursor. -/
def exampleActions (userId : String) : List (ChannelAction exampleTenants) :=
  [.openStream exampleAdmin none, .openSocket exampleAdmin,
    .subscribe 0 (some [some "events:user.registered"]), .publish (registered userId) fun _ => true,
    .closeStream 0, .openStream exampleAdmin (some (exampleEpoch ++ ".0"))]

def LiveChannels.told (channels : LiveChannels tenantOf) : List (String × DomainEvent) :=
  channels.written.map fun frame => (frame.1.tenantId, frame.2)

theorem live_channels_isolation_at_home :
    ∃ channels, Steps (Guarded KeepsToTenant (Executes LiveChannels.act)) exampleStart
        (exampleActions "ada") channels ∧
      channels.told = List.replicate 3 ("acme", registered "ada") := by
  obtain ⟨channels, ran, told⟩ : ∃ channels,
      Steps (Executes LiveChannels.act) exampleStart (exampleActions "ada") channels ∧
      channels.told = List.replicate 3 ("acme", registered "ada") := by
    decide +kernel
  refine ⟨channels, ?_, told⟩
  apply (live_channels_isolation exampleTenants exampleEpoch 4 (by decide) 2 2 4 _ channels ran).mp
  intro frame member
  have said : (frame.1.tenantId, frame.2) ∈ channels.told := List.mem_map_of_mem member
  rw [told] at said
  obtain ⟨tenant, event⟩ := Prod.mk.inj (List.eq_of_mem_replicate said)
  rw [OwnTenant, tenant, event]
  decide

/-- The registration of an account is written to an administrator of another tenant, live on both
channels and again from the backlog. -/
theorem registration_told_to_another_tenant :
    ∃ channels, Steps (Executes LiveChannels.act) exampleStart (exampleActions "bob") channels ∧
      channels.told = List.replicate 3 ("acme", registered "bob") ∧
      ¬ ∀ frame ∈ channels.written, OwnTenant frame := by
  refine exists_and_of (by decide +kernel) ?_
  intro channels ran told own
  have said : ("acme", registered "bob") ∈ channels.told := by
    rw [told]
    decide
  obtain ⟨frame, member, same⟩ := List.mem_map.mp said
  obtain ⟨tenant, event⟩ := Prod.mk.inj same
  have home := own frame member
  rw [OwnTenant, tenant, event] at home
  exact absurd home (by decide)

end Example

end NestApi.Realtime
