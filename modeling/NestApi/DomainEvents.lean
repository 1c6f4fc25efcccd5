import NestApi.Utf16

namespace NestApi.Events

inductive DomainEventName where
  | userRegistered
  | userDeleted
  | orderPlaced
  | orderConfirmed
  | orderCancelled
  deriving DecidableEq

namespace DomainEventName

def text : DomainEventName → String
  | userRegistered => "user.registered"
  | userDeleted => "user.deleted"
  | orderPlaced => "order.placed"
  | orderConfirmed => "order.confirmed"
  | orderCancelled => "order.cancelled"

/-- `DOMAIN_EVENT_NAMES`. -/
def all : List DomainEventName :=
  [userRegistered, userDeleted, orderPlaced, orderConfirmed, orderCancelled]

end DomainEventName

/-- The event of a name, `isDomainEventName` being whether there is one. -/
def domainEventNamed (value : String) : Option DomainEventName :=
  DomainEventName.all.find? fun name => name.text = value

inductive DomainEventPayload where
  | userRegistered (userId email : String) (name provider : Option String)
  | userDeleted (userId email : String)
  | orderPlaced (orderId userId : String) (totalMinor : ℚ) (currency : String) (lineCount : Nat)
  | orderConfirmed (orderId userId paymentId shipmentId : String)
  | orderCancelled (orderId userId : String) (reason : Utf16)
  deriving DecidableEq

structure DomainEvent where
  id : String
  occurredAt : String
  correlationId : Option String
  payload : DomainEventPayload
  deriving DecidableEq

namespace DomainEvent

def name (event : DomainEvent) : DomainEventName :=
  match event.payload with
  | .userRegistered .. => .userRegistered
  | .userDeleted .. => .userDeleted
  | .orderPlaced .. => .orderPlaced
  | .orderConfirmed .. => .orderConfirmed
  | .orderCancelled .. => .orderCancelled

def userId (event : DomainEvent) : String :=
  match event.payload with
  | .userRegistered userId .. => userId
  | .userDeleted userId _ => userId
  | .orderPlaced _ userId .. => userId
  | .orderConfirmed _ userId .. => userId
  | .orderCancelled _ userId _ => userId

end DomainEvent

end NestApi.Events
