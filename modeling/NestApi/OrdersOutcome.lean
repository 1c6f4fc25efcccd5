import NestApi.OrdersHolds
import NestApi.OrdersMoney

namespace NestApi.Orders

open Payments Saga OrderedMap

/-- How many events say that an order ended with this status. -/
def announced (status : OrderStatus) (orderId : String) (outbox : List OutboxEvent) : Nat :=
  outbox.countP (OutboxEvent.announces status orderId)

def isFinal (status : OrderStatus) : Bool := status = .confirmed ∨ status = .cancelled

def OrderStands (orderId : String) (stands : OrderStatus → Prop)
    (view : OrderStore × List OutboxEvent) : Prop :=
  ∃ order, view.1.find orderId = some order ∧ stands order.status ∧
    ∀ status, announced status orderId view.2 =
      if isFinal status = true ∧ order.status = status then 1 else 0

def forwardStatus (position : Nat) (status : OrderStatus) : Prop :=
  status ≠ .cancelled ∧ (position ≤ 3 → status ≠ .confirmed) ∧ (5 ≤ position → status = .confirmed)

def backwardStatus (left : Nat) (status : OrderStatus) : Prop :=
  status ≠ .confirmed ∧ (2 ≤ left → status ≠ .cancelled) ∧ (left = 0 → status = .cancelled)

section Orders

variable {P : Type} {provider : PaymentProvider P} {world : World P} {orderId : String}
  {view : OrderStore × List OutboxEvent} {transition : OrderTransition}
  {staged : Option OutboxEvent}

theorem OrderStands.weaken {stands stands' : OrderStatus → Prop}
    (here : OrderStands orderId stands view) (weaken : ∀ status, stands status → stands' status) :
    OrderStands orderId stands' view := by
  obtain ⟨order, found, holds, events⟩ := here
  exact ⟨order, found, weaken _ holds, events⟩

theorem OrderStands.turn {position : Nat}
    (early : position ≤ 3) (here : OrderStands orderId (forwardStatus position) view) :
    OrderStands orderId (backwardStatus (position + 1)) view :=
  here.weaken fun _ stands => ⟨stands.2.1 early, fun _ => stands.1, fun none => by omega⟩

theorem OrderStands.transact
    (here : OrderStands orderId (fun status => isFinal status = false) (world.view .orders))
    (announces : ∀ status, announced status orderId staged.toList =
      if isFinal status = true ∧ transition.status = status then 1 else 0) :
    OrderStands orderId (fun status => status = transition.status)
      ((handle provider (.transact orderId transition staged) world).2.view .orders) := by
  obtain ⟨order, found, pending, events⟩ := here
  change world.orders.find orderId = some order at found
  obtain ⟨orders', moved, now⟩ := OrderStore.transition_of_find found transition
  simp only [handle, moved]
  refine ⟨_, now, rfl, ?_⟩
  intro status
  have before : announced status orderId world.outbox = 0 := by
    refine (events status).trans (if_neg ?_)
    intro ended
    rw [ended.2, ended.1] at pending
    cases pending
  have after := announces status
  simp only [announced, World.view, List.countP_append] at *
  rw [before, after, Nat.zero_add]
  rfl

theorem announced_none (status : OrderStatus) :
    announced status orderId (none : Option OutboxEvent).toList =
      if isFinal status = true ∧ OrderStatus.processing = status then 1 else 0 := by
  cases status <;> rfl

theorem announced_confirmed (userId paymentId shipmentId : String) (status : OrderStatus) :
    announced status orderId
        (some (OutboxEvent.orderConfirmed orderId userId paymentId shipmentId)).toList =
      if isFinal status = true ∧ OrderStatus.confirmed = status then 1 else 0 := by
  cases status <;> simp [announced, OutboxEvent.announces, isFinal]

theorem announced_cancelled (userId : String) (reason : Utf16) (status : OrderStatus) :
    announced status orderId (some (OutboxEvent.orderCancelled orderId userId reason)).toList =
      if isFinal status = true ∧ OrderStatus.cancelled = status then 1 else 0 := by
  cases status <;> simp [announced, OutboxEvent.announces, isFinal]

theorem ensures_findOrder {α : Type} {stands : OrderStatus → Prop}
    {next : Option OrderRecord → Checkout α} {post : Except Thrown α → World P → Prop}
    (here : OrderStands orderId stands (world.view .orders))
    (found : ∀ order, OrderStands orderId (fun status => stands status ∧ status = order.status)
      (world.view .orders) → (next (some order)).Ensures (handle provider) world post)
    (failed : ∀ error, post (.error error) world) :
    (ask (.findOrder orderId) >>= next).Ensures (handle provider) world post := by
  obtain ⟨order, there, holds, events⟩ := here
  refine Program.ensures_request_bind ?_ failed failed
  intro answer answered
  change (.ok (world.orders.find orderId) : Except Thrown (Option OrderRecord)) = .ok answer
    at answered
  change world.orders.find orderId = some order at there
  rw [there] at answered
  cases answered
  exact found order ⟨order, there, ⟨holds, rfl⟩, events⟩

theorem ensures_transact {post : Except Thrown Unit → World P → Prop}
    (here : OrderStands orderId (fun status => isFinal status = false) (world.view .orders))
    (announces : ∀ status, announced status orderId staged.toList =
      if isFinal status = true ∧ transition.status = status then 1 else 0)
    (landed : ∀ result world', OrderStands orderId (fun status => status = transition.status)
      (world'.view .orders) → post result world') (dropped : ∀ error, post (.error error) world) :
    (ask (.transact orderId transition staged)).Ensures (handle provider) world post :=
  Program.ensures_request (fun _ _ => landed _ _ (here.transact announces))
    (fun _ => landed _ _ (here.transact announces)) dropped

theorem acceptOrder_ensures {known : CheckoutSagaState} (key : String)
    (here : OrderStands known.orderId (forwardStatus 0) (world.view .orders)) :
    (acceptOrder.execute known key).Ensures (handle provider) world fun _ world' =>
      OrderStands known.orderId (forwardStatus 0) (world'.view .orders) := by
  refine ensures_findOrder here ?_ fun error => here
  intro record there
  dsimp only
  split
  · exact (Program.ensures_pure _).mpr here
  · refine Program.ensures_bind _ _ (ensures_transact ?_ announced_none ?_ fun error => here)
    · refine here.weaken ?_
      intro status stands
      simp [isFinal, stands.1, stands.2.1]
    · intro result world' moved
      have after : OrderStands known.orderId (forwardStatus 0) (world'.view .orders) := by
        refine moved.weaken ?_
        intro status same
        rw [same]
        exact ⟨by decide, fun _ => by decide, fun late => by omega⟩
      cases result with
      | error => exact after
      | ok => exact (Program.ensures_pure _).mpr after

theorem confirmOrder_ensures {known : CheckoutSagaState} (key : String)
    (here : OrderStands known.orderId (forwardStatus 4) (world.view .orders)) :
    (confirmOrder.execute known key).Ensures (handle provider) world fun result world' =>
      OrderStands known.orderId (forwardStatus 4) (world'.view .orders) ∧
        ∀ patch, result = .ok patch →
          OrderStands known.orderId (forwardStatus 5) (world'.view .orders) := by
  have stays : ∀ error : Thrown, OrderStands known.orderId (forwardStatus 4) (world.view .orders) ∧
      ∀ patch : Option SagaStatePatch, (.error error : Except Thrown _) = .ok patch →
        OrderStands known.orderId (forwardStatus 5) (world.view .orders) :=
    fun error => ⟨here, fun _ wrong => by cases wrong⟩
  dsimp only [confirmOrder]
  split
  · refine ensures_findOrder here ?_ stays
    intro record there
    dsimp only
    split
    · rename_i done
      refine (Program.ensures_pure _).mpr ⟨here, fun _ _ => there.weaken ?_⟩
      intro status stands
      exact ⟨stands.1.1, fun early => by omega, fun _ => stands.2.trans done⟩
    · rename_i unconfirmed
      refine Program.ensures_bind _ _
        (ensures_transact ?_ (announced_confirmed _ _ _) ?_ fun error => stays error)
      · refine there.weaken ?_
        intro status stands
        have other : status ≠ .confirmed := stands.2 ▸ unconfirmed
        simp [isFinal, other, stands.1.1]
      · intro result world' moved
        have after : ∀ position, 4 ≤ position →
            OrderStands known.orderId (forwardStatus position) (world'.view .orders) := by
          intro position late
          refine moved.weaken ?_
          intro status same
          rw [same]
          exact ⟨by decide, fun early => by omega, fun _ => rfl⟩
        cases result with
        | error => exact ⟨after 4 (by omega), fun _ _ => after 5 (by omega)⟩
        | ok =>
          exact (Program.ensures_pure _).mpr ⟨after 4 (by omega), fun _ _ => after 5 (by omega)⟩
  · exact (Program.ensures_throw _).mpr (stays _)

theorem cancelOrder_ensures {known : CheckoutSagaState} {key : String}
    {undo : CheckoutSagaState → String → Option SagaFailure → Checkout Unit}
    (undone : acceptOrder.compensate = some undo) (failure : Option SagaFailure)
    (here : OrderStands known.orderId (backwardStatus 1) (world.view .orders)) :
    (undo known key failure).Ensures (handle provider) world fun result world' =>
      OrderStands known.orderId (backwardStatus 1) (world'.view .orders) ∧
        (result = .ok () → OrderStands known.orderId (backwardStatus 0) (world'.view .orders)) := by
  cases undone
  refine ensures_findOrder here ?_ fun error => ⟨here, fun wrong => by cases wrong⟩
  intro record there
  dsimp only
  split
  · rename_i done
    refine (Program.ensures_pure _).mpr ⟨here, fun _ => there.weaken ?_⟩
    intro status stands
    exact ⟨stands.1.1, fun many => by omega, fun _ => stands.2.trans done⟩
  · rename_i unfinished
    refine ensures_transact ?_ (announced_cancelled _ _) ?_
      fun error => ⟨here, fun wrong => by cases wrong⟩
    · refine there.weaken ?_
      intro status stands
      have other : status ≠ .cancelled := stands.2 ▸ unfinished
      simp [isFinal, other, stands.1.1]
    · intro result world' moved
      have after : ∀ left, left ≤ 1 → OrderStands known.orderId (backwardStatus left)
          (world'.view .orders) := by
        intro left few
        refine moved.weaken ?_
        intro status same
        rw [same]
        exact ⟨nofun, fun many => by omega, fun _ => rfl⟩
      exact ⟨after 1 (by omega), fun _ => after 0 (by omega)⟩

end Orders

section Resource

variable {P : Type} (provider : PaymentProvider P) (sagaId : String) (order : CheckoutSagaState)

def orderResource : Resource provider sagaId order .orders where
  forward := fun position _ view => OrderStands order.orderId (forwardStatus position) view
  backward := fun _ left _ view => OrderStands order.orderId (backwardStatus left) view
  executed := by
    intro position own known world found service blank here
    rcases steps_of_service found service with ⟨rfl, rfl⟩ | ⟨rfl, rfl⟩
    · subst blank
      change OrderStands known.orderId _ _ at here
      refine (acceptOrder_ensures _ here).weaken ?_
      intro result world' after
      refine ⟨after, fun _ _ _ _ => after.weaken ?_⟩
      intro status stands
      exact ⟨stands.1, fun _ => stands.2.1 (by omega), fun late => by omega⟩
    · subst blank
      change OrderStands known.orderId _ _ at here
      refine (confirmOrder_ensures _ here).weaken ?_
      intro result world' after
      exact ⟨after.1, fun patch returned _ _ => after.2 patch returned⟩
  passed := by
    intro position known known' view other _ _ here
    have early : position ≤ 3 := by
      match position with
      | 0 => omega
      | 1 => omega
      | 2 => omega
      | 3 => omega
      | _ + 4 => exact absurd rfl other
    refine here.weaken ?_
    intro status stands
    exact ⟨stands.1, fun _ => stands.2.1 early, fun late => by omega⟩
  compensated := by
    intro turn index own undo known world failure found undone service blank here
    rcases steps_of_service found service with ⟨rfl, rfl⟩ | ⟨_, rfl⟩
    · subst blank
      exact cancelOrder_ensures undone failure here
    · cases undone
  unwound := by
    intro turn index known view apart here
    have other : index ≠ 0 := by
      rintro rfl
      rcases apart with wrong | wrong
      · exact wrong rfl
      · cases wrong
    refine here.weaken ?_
    intro status stands
    exact ⟨stands.1, fun many => stands.2.1 (by omega), fun none => absurd none other⟩

end Resource

theorem absent_of_create {orders orders' : OrderStore} {order : NewOrder}
    (created : orders.create order = some orders') : orders.find order.id = none := by
  cases found : orders.find order.id with
  | none => rfl
  | some other =>
    simp only [OrderStore.create, Table.insert] at created
    split at created
    · rename_i absent
      exact absurd (List.mem_map.mpr ⟨other, Table.mem_of_find found, Table.find_key found⟩) absent
    · cases created

/-- What placing an order leaves: the saga's row at its start, the order pending, and the
participants as they were. -/
theorem placeOrder_eq_ok {P : Type} {userId orderId sagaId : String} {input : PlaceOrderInput}
    {now : Date} {world : World P} {start : RunState (World P)}
    (placed : placeOrder userId orderId sagaId input now world = .ok start) :
    ∃ priced orders order, priceOrder input.lines = .ok priced ∧
      orders.find orderId = some order ∧ order.status = .pending ∧
      start = .started ⟨sagaId, checkoutSaga, (placedState userId orderId input priced).toState,
        input.correlationId⟩ now
        { world with
          orders := orders
          outbox := world.outbox ++ [.orderPlaced orderId userId priced.total.amountMinor
            priced.total.currency priced.items.length] } := by
  cases accepted : priceOrder input.lines with
  | error =>
    simp only [placeOrder, accepted, bind, Except.bind] at placed
    cases placed
  | ok priced =>
    simp only [placeOrder, accepted, bind, Except.bind] at placed
    split at placed
    · cases placed
    · rename_i orders created
      cases placed
      have found := Table.find_insert created orderId
      rw [absent_of_create created, Option.none_or] at found
      exact ⟨priced, orders, _, rfl, found.trans (if_pos rfl), rfl, rfl⟩

/-- Ids nothing is kept under yet, as random ones are. -/
structure Unused {P : Type} (sagaId orderId : String) (world : World P) : Prop where
  events : ∀ status, announced status orderId world.outbox = 0
  reservation : world.inventory.find (reservationKey sagaId) = none
  reservations : ∀ id reservation, world.inventory.find id = some reservation →
    reservation.orderId ≠ orderId
  shipment : world.shipping.find (shipmentKey sagaId) = none
  shipments : ∀ id shipment, world.shipping.find id = some shipment → shipment.orderId ≠ orderId

structure Fresh (sagaId orderId : String) (world : World MockPaymentProvider) : Prop
    extends Unused sagaId orderId world where
  payment : world.payments.paymentFor (paymentKey sagaId) = none

/-- What a payment took from the buyer, refunds aside. -/
def capturedMinor (payment : Payment) : ℚ :=
  match payment.status with
  | .succeeded | .partiallyRefunded | .refunded => payment.amount.amountMinor
  | _ => 0

/-- What the payments of a reference took from the buyer and did not give back. -/
def netCaptured (reference : String) (provider : MockPaymentProvider) : ℚ :=
  provider.payments.sumBy fun payment =>
    if payment.reference = reference then
      capturedMinor payment - payment.amountRefunded.amountMinor
    else 0

/-- A checkout that went through: paid in full, booked, held, and announced as confirmed. -/
structure Confirmed (sagaId orderId : String) (total : Money)
    (world : World MockPaymentProvider) : Prop where
  order : ∃ order, world.orders.find orderId = some order ∧ order.status = .confirmed
  payments : world.payments.payments.values.countP
    (fun payment => payment.reference = paymentKey sagaId) = 1
  captured : ∀ payment ∈ world.payments.payments.values, payment.reference = paymentKey sagaId →
    payment.status = .succeeded ∧ payment.amount = total ∧ payment.amountRefunded.amountMinor = 0
  shipments : world.shipping.shipments.values.countP
    (fun shipment => shipment.orderId = orderId) = 1
  reservations : world.inventory.reservations.values.countP
    (fun reservation => reservation.orderId = orderId ∧ reservation.held = true) = 1
  confirmed : announced .confirmed orderId world.outbox = 1
  cancelled : announced .cancelled orderId world.outbox = 0

/-- A checkout that was undone: nothing taken, nothing held, and announced as cancelled. -/
structure Cancelled (sagaId orderId : String) (world : World MockPaymentProvider) : Prop where
  order : ∃ order, world.orders.find orderId = some order ∧ order.status = .cancelled
  payments : netCaptured (paymentKey sagaId) world.payments = 0
  reservations : world.inventory.reservations.values.countP
    (fun reservation => reservation.orderId = orderId ∧ reservation.held = true) = 0
  cancelled : announced .cancelled orderId world.outbox = 1
  confirmed : announced .confirmed orderId world.outbox = 0

section Ends

variable {sagaId orderId : String} {world : World MockPaymentProvider} {reference : String}
  {provider : MockPaymentProvider} {payment : Payment} {inventory : InMemoryInventoryService}

theorem netCaptured_eq_zero (each : ∀ payment, provider.paymentFor reference = some payment →
      capturedMinor payment = payment.amountRefunded.amountMinor) :
    netCaptured reference provider = 0 := by
  rw [netCaptured, sumBy, List.sum_eq_zero]
  intro amount member
  obtain ⟨payment, held, rfl⟩ := List.mem_map.mp member
  split
  · rename_i named
    obtain ⟨id, got⟩ := mem_values_iff.mp held
    have key := (provider.keyed id payment got).1
    rw [← key] at got
    rw [each payment (MockPaymentProvider.paymentFor_eq_some_iff.mpr ⟨got, named⟩), sub_self]
  · rfl

theorem payment_count (made : provider.paymentFor reference = some payment) :
    provider.payments.values.countP (fun payment => payment.reference = reference) = 1 ∧
      ∀ other ∈ provider.payments.values, other.reference = reference → other = payment := by
  have unique : ∀ id other, provider.payments.get id = some other → other.reference = reference →
      other = payment := by
    intro id other got named
    have key := (provider.keyed id other got).1
    rw [← key] at got
    have again := MockPaymentProvider.paymentFor_eq_some_iff.mpr ⟨got, named⟩
    rw [made] at again
    exact (Option.some.inj again).symm
  obtain ⟨held, named⟩ := MockPaymentProvider.paymentFor_eq_some_iff.mp made
  constructor
  · refine countP_values_eq_one held (by simpa using named) ?_
    intro id other got same
    rw [← unique id other got (by simpa using same)]
    exact ((provider.keyed id other got).1).symm
  · intro other member
    obtain ⟨id, got⟩ := mem_values_iff.mp member
    exact unique id other got

theorem StockForward.count {key : String} (stock : StockForward key orderId 5 inventory) :
    inventory.reservations.values.countP
      (fun reservation => reservation.orderId = orderId ∧ reservation.held = true) = 1 := by
  obtain ⟨reservation, found⟩ := stock.taken (by omega)
  obtain ⟨held, ordered⟩ := stock.kept reservation found
  refine countP_values_eq_one found (by simp [ordered, held]) ?_
  intro id other there own
  simp only [Bool.decide_and, Bool.and_eq_true, decide_eq_true_eq] at own
  exact stock.sole id other there own.1

theorem StockBackward.count {key : String} (stock : StockBackward key orderId 0 inventory) :
    inventory.reservations.values.countP
      (fun reservation => reservation.orderId = orderId ∧ reservation.held = true) = 0 := by
  apply countP_values_eq_zero
  intro id reservation found
  by_cases ordered : reservation.orderId = orderId
  · have own := stock.sole id reservation found ordered
    have free := stock.freed (by omega) reservation (own ▸ found)
    simp [free]
  · simp [ordered]

theorem ParcelForward.count {shipping : InMemoryShippingService} {key : String}
    (parcel : ParcelForward key orderId 5 shipping) :
    shipping.shipments.values.countP (fun shipment => shipment.orderId = orderId) = 1 := by
  obtain ⟨shipment, found⟩ := parcel.booked (by omega)
  refine countP_values_eq_one found (by simpa using parcel.own shipment found) ?_
  intro id other there own
  exact parcel.sole id other there (by simpa using own)

theorem Sound.balanced {total : Money} (sound : Sound total payment)
    (uncaptured : payment.status ≠ .succeeded) :
    capturedMinor payment = payment.amountRefunded.amountMinor := by
  rcases sound.standing with ⟨authorized | succeeded, none⟩ | ⟨refunded, all⟩
  · rw [capturedMinor, authorized, none]
  · exact absurd succeeded uncaptured
  · rw [capturedMinor, refunded, all]

end Ends

section Start

variable {P : Type} {sagaId orderId : String} {world : World P}

theorem Unused.stock (unused : Unused sagaId orderId world) :
    StockForward (reservationKey sagaId) orderId 0 world.inventory where
  sole := fun id reservation found ordered =>
    absurd ordered (unused.reservations id reservation found)
  kept := by
    intro reservation found
    rw [unused.reservation] at found
    cases found
  fresh := fun _ => unused.reservation
  taken := fun late => by omega

theorem Unused.parcel (unused : Unused sagaId orderId world) :
    ParcelForward (shipmentKey sagaId) orderId 0 world.shipping where
  sole := fun id shipment found ordered => absurd ordered (unused.shipments id shipment found)
  own := by
    intro shipment found
    rw [unused.shipment] at found
    cases found
  fresh := fun _ => unused.shipment
  booked := fun late => by omega

theorem Fresh.money {world : World MockPaymentProvider} (fresh : Fresh sagaId orderId world)
    (total : Money) {known : CheckoutSagaState} (unpaid : known.paymentId = none) :
    MoneyForward total 0 known (world.payments.paymentFor (paymentKey sagaId)) := by
  rw [fresh.payment]
  refine ⟨⟨?_, ?_⟩, ?_, fun _ => rfl, fun late => by omega⟩
  · intro payment wrong
    cases wrong
  · intro id present
    rw [unpaid] at present
    cases present
  · intro payment wrong
    cases wrong

theorem Unused.order (unused : Unused sagaId orderId world) {orders : OrderStore}
    {order : OrderRecord} (found : orders.find orderId = some order)
    (pending : order.status = .pending)
    (userId : String) (totalMinor : ℚ) (currency : String) (lineCount : Nat) :
    OrderStands orderId (forwardStatus 0)
      (orders, world.outbox ++ [.orderPlaced orderId userId totalMinor currency lineCount]) := by
  refine ⟨order, found, ?_, ?_⟩
  · rw [pending]
    exact ⟨by decide, fun _ => by decide, fun late => by omega⟩
  · intro status
    have before := unused.events status
    simp only [announced, List.countP_append] at *
    rw [before, pending]
    cases status <;> rfl

end Start

/-- However calls fail and wherever runners die, a checkout that ends either went through everywhere
or was undone everywhere. -/
theorem checkout_outcome (config : SagaConfig) (positive : 1 ≤ config.policy.maxAttempts)
    {userId orderId sagaId : String} {input : PlaceOrderInput} {now : Date}
    {world : World MockPaymentProvider} {priced : PricedOrder}
    {start t : RunState (World MockPaymentProvider)} {actions : List (RunAction Weather)}
    (fresh : Fresh sagaId orderId world) (accepted : priceOrder input.lines = .ok priced)
    (placed : placeOrder userId orderId sagaId input now world = .ok start)
    (run : Runs config checkout (checkoutParticipants mockProvider) start actions t) :
    (t.record.status = .completed → Confirmed sagaId orderId priced.total t.world) ∧
      (t.record.status = .compensated → Cancelled sagaId orderId t.world) := by
  obtain ⟨_, orders, order, same, found, pending, rfl⟩ := placeOrder_eq_ok placed
  rw [accepted] at same
  cases same
  have currency : JsString.toUpperCase priced.total.currency = priced.total.currency := by
    rw [priceOrder_currency accepted]
    decide
  have total : charged (placedState userId orderId input priced) = priced.total := by
    change (⟨priced.total.amountMinor, JsString.toUpperCase priced.total.currency⟩ : Money) = _
    rw [currency]
  have ordered := (orderResource mockProvider sagaId (placedState userId orderId input priced)).ends
    positive (fun early here => here.turn early) run rfl (fresh.order found pending _ _ _ _)
  have stock := (stockResource mockProvider sagaId (placedState userId orderId input priced)).ends
    positive (fun _ here => StockForward.turn here) run rfl fresh.stock
  have parcel := (parcelResource mockProvider sagaId (placedState userId orderId input priced)
    fun _ => True).ends positive (fun _ _ => trivial) run rfl fresh.parcel
  have money := (moneyResource sagaId (placedState userId orderId input priced)).ends
    positive (fun _ here => MoneyForward.turn here) run rfl (fresh.money _ rfl)
  constructor
  · intro status
    obtain ⟨_, order, there, stands, events⟩ := ordered.1 status
    obtain ⟨_, holding⟩ := stock.1 status
    obtain ⟨_, booked⟩ := parcel.1 status
    obtain ⟨_, paid⟩ := money.1 status
    have confirmed : order.status = .confirmed := stands.2.2 (by omega)
    obtain ⟨payment, made, succeeded⟩ := paid.settled (by omega)
    obtain ⟨one, only⟩ := payment_count made
    refine ⟨⟨order, there, confirmed⟩, one, ?_, booked.count, holding.count, ?_, ?_⟩
    · intro other member named
      rw [only other member named, ← total]
      exact ⟨succeeded, (paid.sound payment made).amount, (paid.status made).2⟩
    · exact (events .confirmed).trans (if_pos ⟨rfl, confirmed⟩)
    · refine (events .cancelled).trans (if_neg ?_)
      rw [confirmed]
      decide
  · intro status
    obtain ⟨_, _, order, there, stands, events⟩ := ordered.2 status
    obtain ⟨_, _, freed⟩ := stock.2 status
    obtain ⟨_, _, returned⟩ := money.2 status
    have cancelled : order.status = .cancelled := stands.2.2 rfl
    refine ⟨⟨order, there, cancelled⟩, netCaptured_eq_zero ?_, freed.count, ?_, ?_⟩
    · intro payment made
      exact (returned.sound payment made).balanced (returned.returned (by omega) payment made)
    · exact (events .cancelled).trans (if_pos ⟨rfl, cancelled⟩)
    · refine (events .confirmed).trans (if_neg ?_)
      rw [cancelled]
      decide

def newWorld {P : Type} (payments : P) : World P := ⟨Table.empty, [], .seeded, .empty, payments⟩

theorem newWorld_unused {P : Type} (sagaId orderId : String) (payments : P) :
    Unused sagaId orderId (newWorld payments) where
  events := fun _ => rfl
  reservation := rfl
  reservations := nofun
  shipment := rfl
  shipments := nofun

def openingWorld : World MockPaymentProvider := newWorld .empty

theorem openingWorld_fresh (sagaId orderId : String) : Fresh sagaId orderId openingWorld :=
  ⟨newWorld_unused sagaId orderId MockPaymentProvider.empty, rfl⟩

def deskAndLamps (shippingCountry : String) : PlaceOrderInput :=
  ⟨[⟨"SKU-DESK-01", 1⟩, ⟨"SKU-LAMP-03", 2⟩], shippingCountry, none⟩

theorem deskAndLamps_priced (shippingCountry : String) :
    priceOrder (deskAndLamps shippingCountry).lines =
      .ok ⟨[⟨"SKU-DESK-01", 1, 34900⟩, ⟨"SKU-LAMP-03", 2, 4250⟩], ⟨43400, "GBP"⟩⟩ := by
  have priced : priceOrder [⟨"SKU-DESK-01", 1⟩, ⟨"SKU-LAMP-03", 2⟩] =
      .ok ⟨[⟨"SKU-DESK-01", 1, 34900⟩, ⟨"SKU-LAMP-03", 2, 4250⟩], ⟨43400, "GBP"⟩⟩ := by
    decide +kernel
  exact priced

def calm : Weather := ⟨[], false⟩

def secondAnswerLost : Weather := ⟨[.answered, .lost (.of .other "socket hang up")], false⟩

/-- Answers are lost, a runner dies and the carrier is slow, and the order goes through. -/
def rockyCheckout : List (RunAction Weather) :=
  [.claim "a" 0, .turn "a" 0 10 0 secondAnswerLost,
    .claim "b" 2000, .turn "b" 2000 2010 0 calm, .crash "b" 2010 0 calm,
    .claim "c" 40000, .turn "c" 40000 40010 0 calm, .turn "c" 40010 40020 0 secondAnswerLost,
    .claim "c" 50000, .turn "c" 50000 50010 0 calm, .turn "c" 50010 50020 0 ⟨[], true⟩,
    .claim "c" 60000, .turn "c" 60000 60010 0 calm, .turn "c" 60010 60010 0 calm]

/-- No carrier goes there, and the first refund's answer is lost on the way back. -/
def unservedCheckout : List (RunAction Weather) :=
  [.claim "a" 0, .turn "a" 0 10 0 calm, .turn "a" 10 20 0 calm, .turn "a" 20 30 0 calm,
    .turn "a" 30 40 0 calm, .turn "a" 40 50 0 calm, .turn "a" 50 60 0 secondAnswerLost,
    .claim "b" 2000, .turn "b" 2000 2010 0 calm, .crash "b" 2010 0 calm,
    .turn "b" 2010 2020 0 calm, .turn "b" 2020 2030 0 calm]

theorem checkout_outcome_rocky_and_unserved :
    (∃ start t, placeOrder "user" "order" "saga" (deskAndLamps "gb") 0 openingWorld = .ok start ∧
      Runs defaultConfig checkout (checkoutParticipants mockProvider) start rockyCheckout t ∧
      t.record.status = .completed ∧ Confirmed "saga" "order" ⟨43400, "GBP"⟩ t.world) ∧
    ∃ start t, placeOrder "user" "order" "saga" (deskAndLamps "aq") 0 openingWorld = .ok start ∧
      Runs defaultConfig checkout (checkoutParticipants mockProvider) start unservedCheckout t ∧
      t.record.status = .compensated ∧ Cancelled "saga" "order" t.world := by
  have fresh := openingWorld_fresh "saga" "order"
  constructor
  · obtain ⟨start, t, placed, run, status⟩ : ∃ start t,
        placeOrder "user" "order" "saga" (deskAndLamps "gb") 0 openingWorld = .ok start ∧
        Runs defaultConfig checkout (checkoutParticipants mockProvider) start rockyCheckout t ∧
        t.record.status = .completed := exists_checkout (by decide +kernel)
    exact ⟨start, t, placed, run, status, (checkout_outcome defaultConfig (by decide) fresh
      (deskAndLamps_priced "gb") placed run).1 status⟩
  · obtain ⟨start, t, placed, run, status⟩ : ∃ start t,
        placeOrder "user" "order" "saga" (deskAndLamps "aq") 0 openingWorld = .ok start ∧
        Runs defaultConfig checkout (checkoutParticipants mockProvider) start unservedCheckout t ∧
        t.record.status = .compensated := exists_checkout (by decide +kernel)
    exact ⟨start, t, placed, run, status, (checkout_outcome defaultConfig (by decide) fresh
      (deskAndLamps_priced "aq") placed run).2 status⟩

end NestApi.Orders
