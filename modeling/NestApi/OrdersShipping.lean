import NestApi.OrdersBasket

namespace NestApi.Orders

structure Shipment where
  id : String
  orderId : String
  carrier : String
  trackingCode : String
  destination : String
  deriving DecidableEq

structure CreateShipmentInput where
  orderId : String
  destination : String
  lines : List ReservedLine
  shipmentId : String

def servicedCountries : List String := ["GB", "IE", "FR", "DE", "US", "CA"]

def carriers : List String := ["parcelforce", "dhl", "ups"]

def unservicedDestinationError (destination : String) : Thrown :=
  .of .unservicedDestination ("No carrier serves \"" ++ destination ++ "\"")

def isServiced (destination : String) : Bool :=
  JsString.toUpperCase destination ∈ servicedCountries

/-- The in-process carrier integration. Shipments are kept under their own ids. -/
structure InMemoryShippingService where
  shipments : OrderedMap String Shipment
  sequence : Nat
  keyed : ∀ id shipment, shipments.get id = some shipment → shipment.id = id

namespace InMemoryShippingService

def empty : InMemoryShippingService where
  shipments := OrderedMap.empty
  sequence := 0
  keyed := by
    intro id shipment none
    cases none

def book (service : InMemoryShippingService) (shipment : Shipment) : InMemoryShippingService where
  shipments := service.shipments.set shipment.id shipment
  sequence := service.sequence + 1
  keyed := OrderedMap.forall_get_set rfl service.keyed

def createShipment (input : CreateShipmentInput) (service : InMemoryShippingService) :
    Except Thrown Shipment × InMemoryShippingService :=
  match service.shipments.get input.shipmentId with
  | some existing => (.ok existing, service)
  | none =>
    let destination := JsString.toUpperCase input.destination
    if ¬ isServiced input.destination then
      (.error (unservicedDestinationError destination), service)
    else
      let sequence := service.sequence + 1
      let shipment : Shipment :=
        { id := input.shipmentId
          orderId := input.orderId
          carrier := (carriers[sequence % carriers.length]?).getD "parcelforce"
          trackingCode := "TRK" ++ JsString.padStart (toString sequence) 8 '0'
          destination := destination }
      (.ok shipment, service.book shipment)

def find (shipmentId : String) (service : InMemoryShippingService) : Option Shipment :=
  service.shipments.get shipmentId

theorem find_book (service : InMemoryShippingService) (shipment : Shipment) (id : String) :
    (service.book shipment).find id =
      if id = shipment.id then some shipment else service.find id :=
  OrderedMap.get_set ..

theorem createShipment_cases (input : CreateShipmentInput) (service : InMemoryShippingService) :
    (∃ existing, service.find input.shipmentId = some existing ∧
      service.createShipment input = (.ok existing, service)) ∨
    (service.find input.shipmentId = none ∧ isServiced input.destination = false ∧
      service.createShipment input =
        (.error (unservicedDestinationError (JsString.toUpperCase input.destination)), service)) ∨
    (service.find input.shipmentId = none ∧ isServiced input.destination = true ∧
      ∃ shipment, shipment.id = input.shipmentId ∧ shipment.orderId = input.orderId ∧
        service.createShipment input = (.ok shipment, service.book shipment)) := by
  unfold createShipment find
  cases known : service.shipments.get input.shipmentId with
  | some existing => exact Or.inl ⟨existing, rfl, rfl⟩
  | none =>
    right
    by_cases serviced : isServiced input.destination = true
    · exact Or.inr ⟨rfl, serviced, _, rfl, rfl, if_neg (not_not.mpr serviced)⟩
    · exact Or.inl ⟨rfl, by simpa using serviced, if_pos serviced⟩

end InMemoryShippingService

end NestApi.Orders
