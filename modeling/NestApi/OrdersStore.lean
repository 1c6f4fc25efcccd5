import NestApi.OrdersBasket
import NestApi.Table

namespace NestApi.Orders

open Payments

inductive OrderStatus where
  | pending
  | processing
  | confirmed
  | cancelled
  deriving DecidableEq

structure NewOrder where
  id : String
  userId : String
  items : List OrderItem
  total : Money
  shippingCountry : String
  sagaId : String

structure OrderRecord where
  id : String
  userId : String
  items : List OrderItem
  total : Money
  shippingCountry : String
  status : OrderStatus
  failureReason : Option Utf16
  sagaId : String
  deriving DecidableEq

/-- A status change. One that does not mention a reason clears it. -/
structure OrderTransition where
  status : OrderStatus
  failureReason : Option Utf16

inductive OutboxEvent where
  | orderPlaced (orderId userId : String) (totalMinor : ℚ) (currency : String) (lineCount : Nat)
  | orderConfirmed (orderId userId paymentId shipmentId : String)
  | orderCancelled (orderId userId : String) (reason : Utf16)
  deriving DecidableEq

def OutboxEvent.announces (status : OrderStatus) (id : String) : OutboxEvent → Bool
  | .orderPlaced .. => false
  | .orderConfirmed orderId .. => status = .confirmed ∧ orderId = id
  | .orderCancelled orderId .. => status = .cancelled ∧ orderId = id

namespace OrderRecord

def created (order : NewOrder) : OrderRecord where
  id := order.id
  userId := order.userId
  items := order.items
  total := order.total
  shippingCountry := order.shippingCountry
  status := .pending
  failureReason := none
  sagaId := order.sagaId

def transitioned (transition : OrderTransition) (order : OrderRecord) : OrderRecord :=
  { order with status := transition.status, failureReason := transition.failureReason }

theorem transitioned_id (transition : OrderTransition) (order : OrderRecord) :
    (order.transitioned transition).id = order.id := rfl

end OrderRecord

/-- What the database client throws when the row to update is not there. -/
def recordNotFoundError : Thrown := .of .other "No record was found for an update."

/-- The `orders` table. -/
abbrev OrderStore := Table OrderRecord.id

namespace OrderStore

def create (orders : OrderStore) (order : NewOrder) : Option OrderStore :=
  orders.insert (OrderRecord.created order)

def transition (orders : OrderStore) (id : String) (transition : OrderTransition) :
    Except Thrown OrderStore :=
  match orders.find id with
  | none => .error recordNotFoundError
  | some _ =>
    .ok (orders.update (fun row => row.id = id) (OrderRecord.transitioned transition)
      (OrderRecord.transitioned_id transition))

theorem transition_of_find {orders : OrderStore} {id : String} {order : OrderRecord}
    (found : orders.find id = some order) (transition : OrderTransition) :
    ∃ orders', orders.transition id transition = .ok orders' ∧
      orders'.find id = some (order.transitioned transition) := by
  refine ⟨_, by rw [OrderStore.transition, found], ?_⟩
  rw [Table.find_update, found, Option.map_some, if_pos (by simpa using Table.find_key found)]

end OrderStore

end NestApi.Orders
