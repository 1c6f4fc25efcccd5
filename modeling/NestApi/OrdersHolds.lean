import NestApi.OrdersResource

namespace NestApi.Orders

open Payments Saga InMemoryInventoryService

def reservationKey (sagaId : String) : String := sagaId ++ ":" ++ "reserve-stock"

def shipmentKey (sagaId : String) : String := sagaId ++ ":" ++ "create-shipment"

/-- Nothing is kept for the order but under the key. -/
def Sole {α : Type} (find : String → Option α) (order : α → String) (orderId key : String) : Prop :=
  ∀ id item, find id = some item → order item = orderId → id = key

theorem Sole.kept {α : Type} {find find' : String → Option α} {order : α → String}
    {orderId key : String} {item : α} (sole : Sole find order orderId key)
    (kept : ∀ id, find' id = if id = key then some item else find id) :
    Sole find' order orderId key := by
  intro id other found ordered
  rw [kept] at found
  split at found
  · assumption
  · exact sole id other found ordered

/-- The warehouse while a checkout goes forward: nothing is held for the order but under the saga's
key, and from behind the second step on that is. -/
structure StockForward (key orderId : String) (position : Nat)
    (inventory : InMemoryInventoryService) : Prop where
  sole : Sole (inventory.find ·) StockReservation.orderId orderId key
  kept : ∀ reservation, inventory.find key = some reservation →
    reservation.held = true ∧ reservation.orderId = orderId
  fresh : position = 0 → inventory.find key = none
  taken : 2 ≤ position → ∃ reservation, inventory.find key = some reservation

/-- The warehouse while a checkout is undone: the hold is there until the second step is undone, and
gone then. -/
structure StockBackward (key orderId : String) (left : Nat)
    (inventory : InMemoryInventoryService) : Prop where
  sole : Sole (inventory.find ·) StockReservation.orderId orderId key
  kept : 3 ≤ left → ∃ reservation, inventory.find key = some reservation ∧ reservation.held = true
  freed : left ≤ 1 → ∀ reservation, inventory.find key = some reservation → reservation.held = false

section Stock

variable {inventory : InMemoryInventoryService} {key orderId : String}

theorem StockForward.reserve (stock : StockForward key orderId 1 inventory)
    (lines : List ReservedLine) :
    StockForward key orderId 1 (inventory.reserve ⟨orderId, lines, key⟩).2 ∧
      ∀ reservation, (inventory.reserve ⟨orderId, lines, key⟩).1 = .ok reservation →
        StockForward key orderId 2 (inventory.reserve ⟨orderId, lines, key⟩).2 := by
  rcases inventory.reserve_cases ⟨orderId, lines, key⟩ with
    ⟨existing, known, same⟩ | ⟨_, line, _, same⟩ | ⟨_, _, same⟩
  · rw [same]
    refine ⟨stock, ?_⟩
    intro reservation _
    exact ⟨stock.sole, stock.kept, fun zero => by omega, fun _ => ⟨existing, known⟩⟩
  · rw [same]
    refine ⟨stock, ?_⟩
    intro reservation wrong
    cases wrong
  · rw [same]
    have held : ∀ position, position ≠ 0 → StockForward key orderId position
        (inventory.book ((mergeLines lines).foldl (restock (-1)) inventory.stock)
          ⟨key, orderId, mergeLines lines, true⟩) := by
      intro position started
      refine ⟨stock.sole.kept (find_book _ _ _), ?_, fun zero => absurd zero started, ?_⟩
      · intro reservation found
        rw [find_book, if_pos rfl] at found
        cases found
        exact ⟨rfl, rfl⟩
      · intro _
        exact ⟨_, by rw [find_book, if_pos rfl]⟩
    exact ⟨held 1 (by omega), fun _ _ => held 2 (by omega)⟩

theorem StockBackward.release (stock : StockBackward key orderId 2 inventory) :
    StockBackward key orderId 1 (inventory.release key) := by
  rcases inventory.release_cases key with
    ⟨unknown, same⟩ | ⟨reservation, known, free, same⟩ | ⟨reservation, known, _, same⟩
  · rw [same]
    refine ⟨stock.sole, fun many => by omega, ?_⟩
    intro _ reservation found
    rw [unknown] at found
    cases found
  · rw [same]
    refine ⟨stock.sole, fun many => by omega, ?_⟩
    intro _ other found
    rw [known] at found
    cases found
    exact free
  · rw [same]
    have own := inventory.keyed key reservation known
    refine ⟨stock.sole.kept fun id => by rw [find_book, own], fun many => by omega, ?_⟩
    intro _ other found
    rw [find_book, if_pos own.symm] at found
    cases found
    rfl

theorem StockForward.turn {position : Nat} (stock : StockForward key orderId position inventory) :
    StockBackward key orderId (position + 1) inventory := by
  refine ⟨stock.sole, ?_, ?_⟩
  · intro many
    obtain ⟨reservation, found⟩ := stock.taken (by omega)
    exact ⟨reservation, found, (stock.kept reservation found).1⟩
  · intro few reservation found
    rw [stock.fresh (by omega)] at found
    cases found

theorem StockBackward.loosen (stock : StockBackward key orderId 1 inventory) :
    StockBackward key orderId 2 inventory :=
  ⟨stock.sole, fun many => by omega, fun few => by omega⟩

end Stock

section Resources

theorem ensures_refused {P α : Type} {provider : PaymentProvider P} {world : World P}
    {kind : ErrorClass} {error : Thrown} {here : World P → Prop}
    {next : α → World P → Prop} (kept : here world) :
    (if error.kind = kind then Program.throw (unretryableStepError error.message)
      else Program.throw error : Checkout α).Ensures (handle provider) world
        fun result world' => here world' ∧ ∀ value, result = .ok value → next value world' := by
  split
  · exact (Program.ensures_throw _).mpr ⟨kept, fun _ wrong => by cases wrong⟩
  · exact (Program.ensures_throw _).mpr ⟨kept, fun _ wrong => by cases wrong⟩

variable {P : Type} (provider : PaymentProvider P) (sagaId : String) (order : CheckoutSagaState)

def stockResource : Resource provider sagaId order .inventory where
  forward := fun position _ inventory =>
    StockForward (reservationKey sagaId) order.orderId position inventory
  backward := fun _ left _ inventory =>
    StockBackward (reservationKey sagaId) order.orderId left inventory
  executed := by
    intro position own known world found service blank here
    obtain ⟨rfl, rfl⟩ := steps_of_service found service
    subst blank
    obtain ⟨kept, taken⟩ := here.reserve known.lines
    refine Program.ensures_attempt_bind ?_ ?_ ?_
    · intro reservation reserved
      exact (Program.ensures_pure _).mpr ⟨kept, fun _ _ _ _ => taken reservation reserved⟩
    · intro error
      apply ensures_refused
      exact kept
    · intro error
      apply ensures_refused
      exact here
  passed := by
    intro position known known' inventory other _ _ here
    have apart : position ≠ 1 := by
      rintro rfl
      exact other rfl
    exact ⟨here.sole, here.kept, fun zero => by omega, fun two => here.taken (by omega)⟩
  compensated := by
    intro turn index own undo known world failure found undone service blank here
    obtain ⟨rfl, rfl⟩ := steps_of_service found service
    cases undone
    have freed := StockBackward.release here
    apply Program.ensures_request
    · intro _ _
      exact ⟨freed.loosen, fun _ => freed⟩
    · intro error
      exact ⟨freed.loosen, fun wrong => by cases wrong⟩
    · intro error
      exact ⟨here, fun wrong => by cases wrong⟩
  unwound := by
    intro turn index known inventory apart here
    have other : index ≠ 1 := by
      rintro rfl
      rcases apart with wrong | wrong
      · exact wrong rfl
      · cases wrong
    exact ⟨here.sole, fun many => here.kept (by omega), fun few => here.freed (by omega)⟩

/-- The carrier while a checkout goes forward: nothing is booked for the order but under the saga's
key, nothing before the pivot, and a parcel behind it. -/
structure ParcelForward (key orderId : String) (position : Nat)
    (shipping : InMemoryShippingService) : Prop where
  sole : Sole (shipping.find ·) Shipment.orderId orderId key
  own : ∀ shipment, shipping.find key = some shipment → shipment.orderId = orderId
  fresh : position ≤ 2 → shipping.find key = none
  booked : 4 ≤ position → ∃ shipment, shipping.find key = some shipment

theorem ParcelForward.createShipment {key orderId : String} {shipping : InMemoryShippingService}
    (parcel : ParcelForward key orderId 3 shipping) (destination : String)
    (lines : List ReservedLine) :
    ParcelForward key orderId 3 (shipping.createShipment ⟨orderId, destination, lines, key⟩).2 ∧
      ∀ shipment, (shipping.createShipment ⟨orderId, destination, lines, key⟩).1 = .ok shipment →
        ParcelForward key orderId 4
          (shipping.createShipment ⟨orderId, destination, lines, key⟩).2 := by
  rcases shipping.createShipment_cases ⟨orderId, destination, lines, key⟩ with
    ⟨existing, known, same⟩ | ⟨_, _, same⟩ | ⟨_, _, shipment, id, ordered, same⟩
  · rw [same]
    refine ⟨parcel, ?_⟩
    intro shipment _
    exact ⟨parcel.sole, parcel.own, fun early => by omega, fun _ => ⟨existing, known⟩⟩
  · rw [same]
    refine ⟨parcel, ?_⟩
    intro shipment wrong
    cases wrong
  · rw [same]
    have here : (shipping.book shipment).find key = some shipment := by
      rw [InMemoryShippingService.find_book, if_pos id.symm]
    have sole : Sole ((shipping.book shipment).find ·) Shipment.orderId orderId key :=
      parcel.sole.kept fun other => id ▸ InMemoryShippingService.find_book _ _ other
    have own : ∀ found, (shipping.book shipment).find key = some found →
        found.orderId = orderId := by
      intro found there
      rw [here] at there
      cases there
      exact ordered
    refine ⟨⟨sole, own, fun early => by omega, fun late => by omega⟩, ?_⟩
    intro _ _
    exact ⟨sole, own, fun early => by omega, fun _ => ⟨shipment, here⟩⟩

/-- The carrier's part of a checkout. Nothing undoes a booking, so what holds where the saga
turns around holds to the end. -/
def parcelResource (undone : InMemoryShippingService → Prop) :
    Resource provider sagaId order .shipping where
  forward := fun position _ shipping =>
    ParcelForward (shipmentKey sagaId) order.orderId position shipping
  backward := fun _ _ _ shipping => undone shipping
  executed := by
    intro position own known world found service blank here
    obtain ⟨rfl, rfl⟩ := steps_of_service found service
    subst blank
    obtain ⟨kept, taken⟩ := here.createShipment known.shippingCountry known.lines
    refine Program.ensures_attempt_bind ?_ ?_ ?_
    · intro shipment made
      exact (Program.ensures_pure _).mpr ⟨kept, fun _ _ _ _ => taken shipment made⟩
    · intro error
      apply ensures_refused
      exact kept
    · intro error
      apply ensures_refused
      exact here
  passed := by
    intro position known known' shipping other _ _ here
    have apart : position ≠ 3 := by
      rintro rfl
      exact other rfl
    exact ⟨here.sole, here.own, fun early => here.fresh (by omega),
      fun late => here.booked (by omega)⟩
  compensated := by
    intro turn index own undo known world failure found undone service
    obtain ⟨_, rfl⟩ := steps_of_service found service
    cases undone
  unwound := fun _ here => here

end Resources

end NestApi.Orders
