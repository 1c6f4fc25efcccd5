import NestApi.EventStream

namespace NestApi.Realtime

open Events Users Streaming

/-- A room name. Its text is `user:` before an account or `events:` before an event name. -/
inductive RoomName where
  | user (userId : String)
  | events (name : DomainEventName)
  deriving DecidableEq

def RoomName.text : RoomName → String
  | .user userId => "user:" ++ userId
  | .events name => "events:" ++ name.text

def maxUserIdLength : Nat := 128

/-- `none` is a value that is not a string. -/
def parseRoom (raw : Option String) : Option RoomName :=
  match raw with
  | none => none
  | some text =>
    match text.toList.dropWhile (· ≠ ':') with
    | [] => none
    | _ :: rest =>
      let kind := String.ofList (text.toList.takeWhile (· ≠ ':'))
      if kind = "user" then
        if rest = [] ∨ maxUserIdLength < (Utf16.ofString (String.ofList rest)).length then none
        else if rest.any fun c => JsString.isSpace c || c = ':' || c = ',' then none
        else some (.user (String.ofList rest))
      else if kind = "events" then
        (domainEventNamed (String.ofList rest)).map RoomName.events
      else none

def roomsFor (event : DomainEvent) : List RoomName :=
  match event.payload with
  | .userRegistered userId .. => [.user userId, .events .userRegistered]
  | .userDeleted userId _ => [.user userId, .events .userDeleted]
  | .orderPlaced _ userId .. => [.user userId, .events .orderPlaced]
  | .orderConfirmed _ userId .. => [.user userId, .events .orderConfirmed]
  | .orderCancelled _ userId _ => [.user userId, .events .orderCancelled]

def canJoin (audience : StreamAudience) (room : RoomName) : Bool :=
  if audience.role = .admin then true else room = .user audience.id

def defaultRoomsFor (audience : StreamAudience) : List RoomName := [.user audience.id]

/-- A connection object. `rooms` is a set in the order of joining. -/
structure RealtimeConnection (κ : Type) where
  caller : κ
  rooms : List RoomName
  deriving DecidableEq

/-- The registry. Connections are told apart by the order in which they were made, and sockets by
their connections. -/
structure ConnectionRegistry (κ : Type) where
  objects : List (RealtimeConnection κ)
  bySocket : List Nat
  byRoom : List (RoomName × List Nat)

namespace ConnectionRegistry

variable {κ : Type} (registry : ConnectionRegistry κ)

def empty : ConnectionRegistry κ := ⟨[], [], []⟩

def membersOf (room : RoomName) : List Nat := (registry.byRoom.lookup room).getD []

def index (room : RoomName) (connection : Nat) (byRoom : List (RoomName × List Nat)) :
    List (RoomName × List Nat) :=
  match byRoom.lookup room with
  | none => byRoom ++ [(room, [connection])]
  | some members =>
    if connection ∈ members then byRoom
    else byRoom.map fun entry =>
      if entry.1 = room then (room, members ++ [connection]) else entry

/-- Takes a member out of a room, which goes with its last one. -/
def deindex (room : RoomName) (connection : Nat) (byRoom : List (RoomName × List Nat)) :
    List (RoomName × List Nat) :=
  match byRoom.lookup room with
  | none => byRoom
  | some members =>
    let left := members.erase connection
    if left = [] then byRoom.filter fun entry => entry.1 ≠ room
    else byRoom.map fun entry => if entry.1 = room then (room, left) else entry

def add (connection : RealtimeConnection κ) : ConnectionRegistry κ where
  objects := registry.objects ++ [connection]
  bySocket := registry.bySocket ++ [registry.objects.length]
  byRoom := connection.rooms.foldl (fun byRoom room => index room registry.objects.length byRoom)
    registry.byRoom

def get (socket : Nat) : Option (RealtimeConnection κ) :=
  if socket ∈ registry.bySocket then registry.objects[socket]? else none

def setRooms (socket : Nat) (rooms : List RoomName) : List (RealtimeConnection κ) :=
  registry.objects.modify socket fun connection => { connection with rooms }

def remove (socket : Nat) : ConnectionRegistry κ :=
  match registry.get socket with
  | none => registry
  | some connection =>
    { objects := registry.setRooms socket []
      bySocket := registry.bySocket.erase socket
      byRoom := connection.rooms.foldl (fun byRoom room => deindex room socket byRoom)
        registry.byRoom }

def join (socket : Nat) (connection : RealtimeConnection κ) (room : RoomName) :
    ConnectionRegistry κ :=
  if room ∈ connection.rooms then registry
  else
    { registry with
        objects := registry.setRooms socket (connection.rooms ++ [room])
        byRoom := index room socket registry.byRoom }

def leave (socket : Nat) (connection : RealtimeConnection κ) (room : RoomName) :
    ConnectionRegistry κ :=
  if room ∈ connection.rooms then
    { registry with
        objects := registry.setRooms socket (connection.rooms.erase room)
        byRoom := deindex room socket registry.byRoom }
  else registry

end ConnectionRegistry

inductive RealtimeErrorCode where
  | malformedPayload
  | unknownRoom
  | forbiddenRoom
  | roomLimitExceeded
  deriving DecidableEq

structure RoomRefusal where
  code : RealtimeErrorCode
  message : String
  room : Option String
  deriving DecidableEq

inductive RoomIntent where
  | join
  | leave
  deriving DecidableEq

/-- The body of a room frame: the values under `rooms`, `none` for one that is not a string, or
`none` for a body without such an array. -/
abbrev RoomRequest := Option (List (Option String))

structure RealtimeGateway (κ : Type) where
  maxConnections : Nat
  maxRoomsPerConnection : Nat
  registry : ConnectionRegistry κ

namespace RealtimeGateway

variable {κ : Type} (audienceOf : κ → StreamAudience) (gateway : RealtimeGateway κ)
  {event : DomainEvent}

/-- The rooms a frame names, each of them one the connection may join or is leaving. -/
def parseEach (connection : RealtimeConnection κ) (intent : RoomIntent) :
    List (Option String) → Except RoomRefusal (List RoomName)
  | [] => .ok []
  | raw :: rest =>
    match parseRoom raw with
    | none =>
      .error
        { code := .unknownRoom
          message := "Not a room this build issues. Rooms are `user:<id>` or " ++
            "`events:<event name>`."
          room := raw }
    | some room =>
      if intent = .join ∧ ¬ canJoin (audienceOf connection.caller) room then
        .error
          { code := .forbiddenRoom
            message := "This account may not subscribe to that room."
            room := some room.text }
      else do
        let rooms ← parseEach connection intent rest
        return room :: rooms

def parseRooms (connection : RealtimeConnection κ) (body : RoomRequest) (intent : RoomIntent) :
    Except RoomRefusal (List RoomName) :=
  let limit := gateway.maxRoomsPerConnection
  match body with
  | none =>
    .error
      { code := .malformedPayload
        message := "Expected \x7b \"rooms\": [\"<room>\", …] \x7d with between 1 and " ++
          toString limit ++ " room names."
        room := none }
  | some raws =>
    if raws.length = 0 ∨ limit < raws.length then
      .error
        { code := if raws.length = 0 then .malformedPayload else .roomLimitExceeded
          message := "A room frame carries between 1 and " ++ toString limit ++ " names."
          room := none }
    else do
      let rooms ← parseEach audienceOf connection intent raws
      if intent = .join ∧ limit < (connection.rooms ++ rooms).eraseDups.length then
        .error
          { code := .roomLimitExceeded
            message := "A connection may hold at most " ++ toString limit ++ " rooms."
            room := none }
      else
        return rooms

/-- Admits an authenticated socket, unless the process holds as many as it may. -/
def handleConnection (caller : κ) : RealtimeGateway κ :=
  if gateway.maxConnections ≤ gateway.registry.bySocket.length then gateway
  else
    { gateway with
        registry := gateway.registry.add { caller, rooms := defaultRoomsFor (audienceOf caller) } }

def handleDisconnect (socket : Nat) : RealtimeGateway κ :=
  { gateway with registry := gateway.registry.remove socket }

def eachRoom (apply : ConnectionRegistry κ → Nat → RealtimeConnection κ → RoomName →
      ConnectionRegistry κ) (socket : Nat) (rooms : List RoomName)
    (registry : ConnectionRegistry κ) : ConnectionRegistry κ :=
  rooms.foldl (fun registry room =>
    match registry.get socket with
    | none => registry
    | some connection => apply registry socket connection room) registry

def handleRooms (socket : Nat) (body : RoomRequest) (intent : RoomIntent) :
    Except RoomRefusal (RealtimeGateway κ) :=
  match gateway.registry.get socket with
  | none => .ok gateway
  | some connection => do
      let rooms ← gateway.parseRooms audienceOf connection body intent
      let apply := match intent with
        | .join => ConnectionRegistry.join
        | .leave => ConnectionRegistry.leave
      return { gateway with registry := eachRoom apply socket rooms gateway.registry }

def handleSubscribe (socket : Nat) (body : RoomRequest) : Except RoomRefusal (RealtimeGateway κ) :=
  gateway.handleRooms audienceOf socket body .join

def handleUnsubscribe (socket : Nat) (body : RoomRequest) :
    Except RoomRefusal (RealtimeGateway κ) :=
  gateway.handleRooms audienceOf socket body .leave

/-- The connections an event is considered for, each once and at the first room it is in. -/
def considered (event : DomainEvent) : List Nat :=
  ((roomsFor event).flatMap gateway.registry.membersOf).eraseDups

/-- Offers an event to the writer of every member of its rooms that may see it; `writes` tells which
of them are neither behind nor closed. -/
def broadcast (writes : Nat → Bool) (event : DomainEvent) : List (κ × DomainEvent) :=
  (gateway.considered event).filterMap fun socket =>
    match gateway.registry.objects[socket]? with
    | none => none
    | some connection =>
      if isVisibleTo event (audienceOf connection.caller) && writes socket then
        some (connection.caller, event)
      else none

theorem mem_considered {socket : Nat} : socket ∈ gateway.considered event ↔
      ∃ room ∈ roomsFor event, socket ∈ gateway.registry.membersOf room := by
  rw [considered, List.mem_eraseDups, List.mem_flatMap]

theorem mem_broadcast {writes : Nat → Bool} {frame : κ × DomainEvent} :
    frame ∈ gateway.broadcast audienceOf writes event ↔
      ∃ socket ∈ gateway.considered event, writes socket ∧
        ∃ connection ∈ gateway.registry.objects[socket]?,
          isVisibleTo event (audienceOf connection.caller) ∧
            frame = (connection.caller, event) := by
  unfold broadcast
  rw [List.mem_filterMap]
  constructor
  · rintro ⟨socket, member, written⟩
    split at written
    · cases written
    · rename_i connection found
      split at written
      · rename_i allowed
        simp only [Bool.and_eq_true] at allowed
        exact ⟨socket, member, allowed.2, connection, found, allowed.1,
          (Option.some.inj written).symm⟩
      · cases written
  · rintro ⟨socket, member, writes, connection, found, visible, rfl⟩
    refine ⟨socket, member, ?_⟩
    rw [show gateway.registry.objects[socket]? = some connection from found]
    simp [visible, writes]

end RealtimeGateway

end NestApi.Realtime
