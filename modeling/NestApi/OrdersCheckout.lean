import NestApi.OrdersInventory
import NestApi.OrdersShipping
import NestApi.OrdersStore
import NestApi.PaymentsMock
import NestApi.Program
import NestApi.SagaRun

namespace NestApi.Orders

open Payments Saga Program

/-- The name the definition is registered and persisted under. -/
def checkoutSaga : String := "order.checkout"

/-- What a checkout knows. The three ids are filled in by the steps that learn them. -/
structure CheckoutSagaState where
  orderId : String
  userId : String
  currency : String
  totalMinor : ℚ
  shippingCountry : String
  lines : List ReservedLine
  reservationId : Option String
  paymentId : Option String
  shipmentId : Option String
  deriving DecidableEq

namespace CheckoutSagaState

def lineToJson (line : ReservedLine) : JsonValue :=
  .obj [("sku", .str line.sku), ("quantity", .num line.quantity)]

def idToJson : Option String → JsonValue
  | none => .null
  | some id => .str id

def toState (state : CheckoutSagaState) : SagaState :=
  [("orderId", .str state.orderId), ("userId", .str state.userId),
    ("currency", .str state.currency), ("totalMinor", .num state.totalMinor),
    ("shippingCountry", .str state.shippingCountry),
    ("lines", .arr (state.lines.map lineToJson)),
    ("reservationId", idToJson state.reservationId), ("paymentId", idToJson state.paymentId),
    ("shipmentId", idToJson state.shipmentId)]

def lineOfJson : JsonValue → Option ReservedLine
  | .obj fields =>
    match SagaState.get fields "sku", SagaState.get fields "quantity" with
    | some (.str sku), some (.num quantity) => some ⟨sku, quantity⟩
    | _, _ => none
  | _ => none

def linesOfJson : JsonValue → Option (List ReservedLine)
  | .arr items => items.mapM lineOfJson
  | _ => none

def idOfJson : JsonValue → Option (Option String)
  | .null => some none
  | .str id => some (some id)
  | _ => none

/-- The state as the steps read it, if it has the fields a checkout starts with. -/
def ofState (state : SagaState) : Option CheckoutSagaState :=
  match state.get "orderId", state.get "userId", state.get "currency", state.get "totalMinor",
    state.get "shippingCountry", (state.get "lines").bind linesOfJson,
    (state.get "reservationId").bind idOfJson, (state.get "paymentId").bind idOfJson,
    (state.get "shipmentId").bind idOfJson with
  | some (.str orderId), some (.str userId), some (.str currency), some (.num totalMinor),
    some (.str shippingCountry), some lines, some reservationId, some paymentId,
    some shipmentId =>
      some ⟨orderId, userId, currency, totalMinor, shippingCountry, lines, reservationId,
        paymentId, shipmentId⟩
  | _, _, _, _, _, _, _, _, _ => none

theorem linesOfJson_map (lines : List ReservedLine) :
    linesOfJson (.arr (lines.map lineToJson)) = some lines := by
  induction lines with
  | nil => rfl
  | cons line rest ih =>
    have here : lineOfJson (lineToJson line) = some line := rfl
    rw [linesOfJson] at ih
    rw [linesOfJson, List.map_cons, List.mapM_cons, here, ih]
    rfl

theorem idOfJson_idToJson (id : Option String) : idOfJson (idToJson id) = some id := by
  cases id <;> rfl

theorem ofState_toState (state : CheckoutSagaState) : ofState state.toState = some state := by
  simp [ofState, toState, SagaState.get, OrderedMap.getEntries, linesOfJson_map, idOfJson_idToJson]

section Patches

variable {state : SagaState} {known : CheckoutSagaState}

variable (read : ofState state = some known) (id : String)

include read id

theorem ofState_patched :
    ofState (mergeState state (some [("reservationId", some (.str id))])) =
      some { known with reservationId := some id } ∧
    ofState (mergeState state (some [("paymentId", some (.str id))])) =
      some { known with paymentId := some id } ∧
    ofState (mergeState state (some [("shipmentId", some (.str id))])) =
      some { known with shipmentId := some id } := by
  unfold ofState at read
  split at read
  · cases read
    simp_all [ofState, mergeState, SagaState.get_set, idOfJson]
  · cases read

end Patches

end CheckoutSagaState

/-- The calls the steps of a checkout make. A transition and the event staged with it are
one transaction. -/
inductive Request where
  | findOrder (id : String)
  | transact (id : String) (transition : OrderTransition) (staged : Option OutboxEvent)
  | reserve (input : ReserveStockInput)
  | release (reservationId : String)
  | authorize (input : CreatePaymentInput)
  | capture (id : String)
  | refund (id : String)
  | findPayment (id : String)
  | createShipment (input : CreateShipmentInput)

@[reducible] def Answer : Request → Type
  | .findOrder _ => Option OrderRecord
  | .transact .. => Unit
  | .reserve _ => StockReservation
  | .release _ => Unit
  | .authorize _ => Payment
  | .capture _ => Payment
  | .refund _ => Payment
  | .findPayment _ => Option Payment
  | .createShipment _ => Shipment

inductive Service where
  | orders
  | inventory
  | payments
  | shipping
  deriving DecidableEq

def Request.service : Request → Service
  | .findOrder _ | .transact .. => .orders
  | .reserve _ | .release _ => .inventory
  | .authorize _ | .capture _ | .refund _ | .findPayment _ => .payments
  | .createShipment _ => .shipping

structure World (P : Type) where
  orders : OrderStore
  outbox : List OutboxEvent
  inventory : InMemoryInventoryService
  shipping : InMemoryShippingService
  payments : P

section Answering

variable {P α : Type} (world : World P)

def World.withInventory (answer : α × InMemoryInventoryService) : α × World P :=
  (answer.1, { world with inventory := answer.2 })

def World.withShipping (answer : α × InMemoryShippingService) : α × World P :=
  (answer.1, { world with shipping := answer.2 })

def World.withPayments (answer : α × P) : α × World P :=
  (answer.1, { world with payments := answer.2 })

end Answering

/-- How the participants answer when nothing goes wrong on the way. -/
def handle {P : Type} (provider : PaymentProvider P) :
    Handler Request Answer Thrown (World P)
  | .findOrder id, world => (.ok (world.orders.find id), world)
  | .transact id transition staged, world =>
    match world.orders.transition id transition with
    | .error error => (.error error, world)
    | .ok orders =>
      (.ok (), { world with orders := orders, outbox := world.outbox ++ staged.toList })
  | .reserve input, world => world.withInventory (world.inventory.reserve input)
  | .release id, world => world.withInventory (.ok (), world.inventory.release id)
  | .authorize input, world => world.withPayments (provider.authorize input world.payments)
  | .capture id, world => world.withPayments (provider.capture id world.payments)
  | .refund id, world => world.withPayments (provider.refund id none world.payments)
  | .findPayment id, world => world.withPayments (provider.find id world.payments)
  | .createShipment input, world => world.withShipping (world.shipping.createShipment input)

abbrev Checkout (α : Type) := Program Request Answer Thrown α

def ask (request : Request) : Checkout (Answer request) := .request request

def tryAsk (request : Request) : Checkout (Except Thrown (Answer request)) := .attempt request

def unretryableStepError (message : Utf16) : Thrown := ⟨.unretryable, message⟩

def orderGoneError (orderId : String) : Thrown :=
  .of .other ("Order " ++ orderId ++ " no longer exists.")

def amountOf (state : CheckoutSagaState) : Money := ⟨state.totalMinor, state.currency⟩

/-- One step of the checkout: its call, and the call that undoes it if there is one. -/
structure CheckoutStep where
  name : String
  kind : SagaStepKind
  execute : CheckoutSagaState → String → Checkout (Option SagaStatePatch)
  compensate : Option (CheckoutSagaState → String → Option SagaFailure → Checkout Unit)

def acceptOrder : CheckoutStep where
  name := "accept-order"
  kind := .compensatable
  execute := fun state _ => do
    match ← ask (.findOrder state.orderId) with
    | none => throw (orderGoneError state.orderId)
    | some order =>
      if order.status ≠ .pending then return none
      else
        ask (.transact state.orderId ⟨.processing, none⟩ none)
        return none
  compensate := some fun state _ failure => do
    match ← ask (.findOrder state.orderId) with
    | none => return ()
    | some order =>
      if order.status = .cancelled then return ()
      else
        let reason := (failure.map SagaFailure.message).getD
          (Utf16.ofString "Checkout could not be completed")
        ask (.transact state.orderId ⟨.cancelled, some reason⟩
          (some (.orderCancelled state.orderId state.userId reason)))

def reserveStock : CheckoutStep where
  name := "reserve-stock"
  kind := .compensatable
  execute := fun state key => do
    match ← tryAsk (.reserve ⟨state.orderId, state.lines, key⟩) with
    | .ok reservation => return some [("reservationId", some (.str reservation.id))]
    | .error error =>
      -- An empty shelf is an answer, not an outage.
      if error.kind = .outOfStock then throw (unretryableStepError error.message)
      else throw error
  compensate := some fun _ key _ => ask (.release key)

/-- The `catch` of `captureIfNeeded`: the capture may have happened all the same. -/
def captureRefused (payment : Payment) (error : Thrown) : Checkout Payment :=
  if error.kind ≠ .paymentState then throw error
  else do
    let uncaptured := unretryableStepError
      (Utf16.ofString ("Payment " ++ payment.id ++ " could not be captured: ") ++ error.message)
    match ← ask (.findPayment payment.id) with
    | none => throw uncaptured
    | some current =>
      if isRefundable current.status then return current else throw uncaptured

/-- Captures an authorisation, tolerating one that is already captured. -/
def captureIfNeeded (payment : Payment) : Checkout Payment :=
  if isRefundable payment.status then return payment
  else if payment.status ≠ .authorized then
    throw (unretryableStepError (Utf16.ofString ("Payment " ++ payment.id ++ " is \"" ++
      payment.status.text ++ "\" and cannot be captured without the buyer.")))
  else do
    match ← tryAsk (.capture payment.id) with
    | .ok settled => return settled
    | .error error => captureRefused payment error

def authorization (state : CheckoutSagaState) (key : String) : CreatePaymentInput :=
  ⟨amountOf state, key, some ("Order " ++ state.orderId)⟩

/-- Finds the payment this step made, even if it never heard that it did. -/
def resolvePayment (state : CheckoutSagaState) (key : String) : Checkout (Option Payment) :=
  match JsString.given state.paymentId with
  | some paymentId => ask (.findPayment paymentId)
  | none => do
      let payment ← ask (.authorize (authorization state key))
      return some payment

def chargePayment : CheckoutStep where
  name := "charge-payment"
  kind := .compensatable
  execute := fun state key => do
    let authorized ← ask (.authorize (authorization state key))
    let settled ← captureIfNeeded authorized
    return some [("paymentId", some (.str settled.id))]
  compensate := some fun state key _ => do
    match ← resolvePayment state key with
    | none => return ()
    | some payment =>
      if payment.status = .refunded then return ()
      else if isRefundable payment.status = false then return ()
      else
        let _ ← ask (.refund payment.id)
        return ()

def createShipment : CheckoutStep where
  name := "create-shipment"
  kind := .pivot
  execute := fun state key => do
    match ← tryAsk (.createShipment ⟨state.orderId, state.shippingCountry, state.lines, key⟩) with
    | .ok shipment => return some [("shipmentId", some (.str shipment.id))]
    | .error error =>
      if error.kind = .unservicedDestination then
        throw (unretryableStepError error.message)
      else throw error
  compensate := none

def confirmOrder : CheckoutStep where
  name := "confirm-order"
  kind := .retriable
  execute := fun state _ =>
    match JsString.given state.paymentId, JsString.given state.shipmentId with
    | some paymentId, some shipmentId => do
        match ← ask (.findOrder state.orderId) with
        | none => throw (orderGoneError state.orderId)
        | some order =>
          if order.status = .confirmed then return none
          else
            ask (.transact state.orderId ⟨.confirmed, none⟩
              (some (.orderConfirmed state.orderId state.userId paymentId shipmentId)))
            return none
    | _, _ =>
      throw (.of .other ("Order " ++ state.orderId ++
        " reached confirm-order without a payment or a shipment."))
  compensate := none

def checkoutSteps : List CheckoutStep :=
  [acceptOrder, reserveStock, chargePayment, createShipment, confirmOrder]

def checkout : SagaDefinition :=
  ⟨checkoutSaga, checkoutSteps.map fun step => ⟨step.name, step.kind⟩⟩

theorem defineSaga_checkout : defineSaga checkoutSaga checkout.steps = .ok checkout := by
  decide +kernel

/-- What the environment does to one execution of a step: the fates of its calls, and whether it
settles in time. -/
structure Weather where
  fates : List (Fate Thrown)
  stalled : Bool

def Weather.settlement (weather : Weather) :
    Except Thrown (Option SagaStatePatch) → Settlement
  | result =>
    if weather.stalled then .timedOut
    else
      match result with
      | .ok patch => .returned patch
      | .error error => .threw ⟨error.message, error.kind = .unretryable⟩

section Participants

variable {W : Type} (handler : Handler Request Answer Thrown W)

def settle {α : Type} (weather : Weather) (patch : α → Option SagaStatePatch)
    (program : Checkout α) (world : W) : Settlement × W :=
  let (result, world') := program.run handler weather.fates world
  (weather.settlement (result.map patch), world')

/-- A step that is not of the checkout, or a state no checkout was started with. -/
def unreadable : Settlement := .threw ⟨Utf16.ofString "not a checkout", false⟩

def checkoutStep (name : String) : Option CheckoutStep :=
  checkoutSteps.find? fun step => step.name = name

/-- The checkout's steps as the orchestrator calls them, over any participants. -/
def participantsOver : Participants W Weather where
  execute := fun step context weather world =>
    match checkoutStep step.name, CheckoutSagaState.ofState context.state with
    | some own, some state =>
      settle handler weather id (own.execute state context.idempotencyKey) world
    | _, _ => (unreadable, world)
  compensate := fun step context weather world =>
    match (checkoutStep step.name).bind CheckoutStep.compensate,
      CheckoutSagaState.ofState context.state with
    | some undo, some state =>
      settle handler weather (fun _ => none)
        (undo state context.idempotencyKey context.failure) world
    | _, _ => (unreadable, world)

end Participants

def checkoutParticipants {P : Type} (provider : PaymentProvider P) :
    Participants (World P) Weather :=
  participantsOver (handle provider)

structure PlaceOrderInput where
  lines : List ReservedLine
  shippingCountry : String
  correlationId : Option String

def placedState (userId orderId : String) (input : PlaceOrderInput) (priced : PricedOrder) :
    CheckoutSagaState where
  orderId := orderId
  userId := userId
  currency := priced.total.currency
  totalMinor := priced.total.amountMinor
  shippingCountry := JsString.toUpperCase input.shippingCountry
  lines := priced.items.map fun item => ⟨item.sku, item.quantity⟩
  reservationId := none
  paymentId := none
  shipmentId := none

def duplicateOrderError : Thrown := .of .other "Unique constraint failed on the fields: (id)"

/-- The transaction of `PlaceOrderHandler`: the order, the saga that will drive it, and the event
that announces it. -/
def placeOrder {P : Type} (userId orderId sagaId : String) (input : PlaceOrderInput) (now : Date)
    (world : World P) : Except Thrown (RunState (World P)) := do
  let priced ← priceOrder input.lines
  let state := placedState userId orderId input priced
  match world.orders.create
    ⟨orderId, userId, priced.items, priced.total, state.shippingCountry, sagaId⟩ with
  | none => .error duplicateOrderError
  | some orders =>
    return .started ⟨sagaId, checkoutSaga, state.toState, input.correlationId⟩ now
      { world with
        orders := orders
        outbox := world.outbox ++ [.orderPlaced orderId userId priced.total.amountMinor
          priced.total.currency priced.items.length] }

section Carried

variable {W O : Type} {placed : Except Thrown (RunState W)} {actions : List (RunAction O)}
  {act : RunState W → RunAction O → Option (RunState W)} {ends : RunState W → Prop}
  [DecidablePred ends]

theorem exists_execution
    (ran : (placed.toOption.bind fun start => execute act start actions).any
      (fun t => decide (ends t)) = true) :
    ∃ start t, placed = .ok start ∧ execute act start actions = some t ∧ ends t := by
  obtain ⟨t, ended, checked⟩ := (Option.any_eq_true _ _).mp ran
  obtain ⟨start, found, acted⟩ := Option.bind_eq_some_iff.mp ended
  refine ⟨start, t, ?_, acted, of_decide_eq_true checked⟩
  cases placed with
  | error => cases found
  | ok =>
    cases found
    rfl

theorem exists_checkout
    (ran : (placed.toOption.bind fun start => execute act start actions).any
      (fun t => decide (ends t)) = true) :
    ∃ start t, placed = .ok start ∧ Steps (Executes act) start actions t ∧ ends t := by
  obtain ⟨start, t, found, acted, ended⟩ := exists_execution ran
  exact ⟨start, t, found, steps_iff_execute.mpr acted, ended⟩

theorem exists_guarded_checkout {allowed : RunState W → RunAction O → Prop}
    [∀ s action, Decidable (allowed s action)]
    (ran : (placed.toOption.bind fun start => execute
      (fun s action => if allowed s action then act s action else none) start actions).any
      (fun t => decide (ends t)) = true) :
    ∃ start t, placed = .ok start ∧ Steps (Guarded allowed (Executes act)) start actions t ∧
      ends t := by
  obtain ⟨start, t, found, acted, ended⟩ := exists_execution ran
  exact ⟨start, t, found, steps_guarded_iff_execute.mpr acted, ended⟩

end Carried

end NestApi.Orders
