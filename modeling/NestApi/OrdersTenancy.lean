import NestApi.OrdersOutcome
import NestApi.RowSecurity
import NestApi.Common

namespace NestApi.Orders

open Payments Saga

/-- The participants of a checkout with the `orders` table as the database keeps it, with every
tenant's rows in it. -/
structure TenantWorld (P : Type) where
  orders : SecuredTable OrderRecord.id
  outbox : List OutboxEvent
  inventory : InMemoryInventoryService
  shipping : InMemoryShippingService
  payments : P

namespace TenantWorld

variable {P : Type}

def within (tenant : Option String) (world : TenantWorld P) : World P :=
  ⟨world.orders.visible tenant, world.outbox, world.inventory, world.shipping, world.payments⟩

/-- Everything but the orders, as a call left it. -/
def adopt (world : TenantWorld P) (after : World P) : TenantWorld P :=
  ⟨world.orders, after.outbox, after.inventory, after.shipping, after.payments⟩

end TenantWorld

section Handler

variable {P : Type} (provider : PaymentProvider P)

/-- How the participants answer with this tenant in scope. A read of orders goes through the
tenant-scoped client, a write through a transaction that has set the tenant if there is one; the
others know nothing of tenants. -/
def handleIn (tenant : Option String) : Handler Request Answer Thrown (TenantWorld P)
  | .findOrder id, world =>
    ((requireTenantId "Order.findUnique" tenant).map fun tenantId =>
      (world.orders.visible (some tenantId)).find id, world)
  | .transact id transition staged, world =>
    match (world.orders.visible tenant).find id with
    | none => (.error recordNotFoundError, world)
    | some _ =>
      (.ok (), { world with
        orders := world.orders.update tenant (fun row => row.id = id)
          (OrderRecord.transitioned transition) (OrderRecord.transitioned_id transition)
        outbox := world.outbox ++ staged.toList })
  | request, world =>
    let answer := handle provider request (world.within tenant)
    (answer.1, world.adopt answer.2)

/-- Without a tenant no order can be read, and none can be written. -/
theorem handleIn_none (request : Request) (orders : request.service = .orders)
    (world : TenantWorld P) :
    (∃ error, (handleIn provider none request world).1 = .error error) ∧
      (handleIn provider none request world).2 = world := by
  cases request with
  | findOrder => exact ⟨⟨_, rfl⟩, rfl⟩
  | transact =>
    simp only [handleIn, SecuredTable.visible_none]
    exact ⟨⟨_, rfl⟩, rfl⟩
  | _ => cases orders

end Handler

/-- One attempt at a step: the tenant in scope where it runs, and what the environment does to
its calls. -/
structure Attempt where
  tenant : Option String
  weather : Weather

/-- The checkout's steps, driven now from a request of a tenant and now by the poller. -/
def tenantParticipants {P : Type} (provider : PaymentProvider P) :
    Participants (TenantWorld P) Attempt where
  execute := fun step context attempt world =>
    (participantsOver (handleIn provider attempt.tenant)).execute step context attempt.weather world
  compensate := fun step context attempt world =>
    (participantsOver (handleIn provider attempt.tenant)).compensate step context attempt.weather
      world

def inScope (tenant : Option String) (action : RunAction Attempt) : Prop :=
  ∀ attempt, action.choice = some attempt → attempt.tenant = tenant

/-- The transaction of `PlaceOrderHandler` in a request of a tenant. -/
def placeOrderIn {P : Type} (tenant userId orderId sagaId : String) (input : PlaceOrderInput)
    (now : Date) (world : TenantWorld P) : Except Thrown (RunState (TenantWorld P)) := do
  let priced ← priceOrder input.lines
  let state := placedState userId orderId input priced
  match world.orders.insert (some tenant) (OrderRecord.created
    ⟨orderId, userId, priced.items, priced.total, state.shippingCountry, sagaId⟩) with
  | none => .error duplicateOrderError
  | some orders =>
    return .started ⟨sagaId, checkoutSaga, state.toState, input.correlationId⟩ now
      { world with
        orders := orders
        outbox := world.outbox ++ [.orderPlaced orderId userId priced.total.amountMinor
          priced.total.currency priced.items.length] }

theorem placeOrderIn_eq_ok {P : Type} {tenant userId orderId sagaId : String}
    {input : PlaceOrderInput} {now : Date} {world : TenantWorld P}
    {start : RunState (TenantWorld P)}
    (placed : placeOrderIn tenant userId orderId sagaId input now world = .ok start) :
    ∃ input now world, start = .started input now world := by
  cases accepted : priceOrder input.lines with
  | error =>
    simp only [placeOrderIn, accepted, bind, Except.bind] at placed
    cases placed
  | ok =>
    simp only [placeOrderIn, accepted, bind, Except.bind] at placed
    split at placed
    · cases placed
    · cases placed
      exact ⟨_, _, _, rfl⟩

end NestApi.Orders
