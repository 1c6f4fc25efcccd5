import NestApi.OrdersBasket

namespace NestApi.Orders

open Payments

/-- Stock held for one order until it ships or the hold is released. -/
structure StockReservation where
  id : String
  orderId : String
  lines : List ReservedLine
  held : Bool
  deriving DecidableEq

structure ReserveStockInput where
  orderId : String
  lines : List ReservedLine
  reservationId : String

/-- The in-process warehouse. Reservations are kept under their own ids. -/
structure InMemoryInventoryService where
  stock : OrderedMap String ℚ
  reservations : OrderedMap String StockReservation
  keyed : ∀ id reservation, reservations.get id = some reservation → reservation.id = id

/-- What is on the shelves when the process starts. -/
def seedStock : OrderedMap String ℚ :=
  (((OrderedMap.empty.set "SKU-DESK-01" 25).set "SKU-CHAIR-02" 40).set "SKU-LAMP-03" 12).set
    "SKU-SOLD-OUT" 0

def outOfStockError (sku : String) (requested available : ℚ) : Thrown :=
  .of .outOfStock ("Only " ++ number available ++ " of \"" ++ sku ++ "\" available, " ++
    number requested ++ " requested")

/-- Adds the line's quantity, `sign` times, to its shelf. -/
def restock (sign : ℚ) (stock : OrderedMap String ℚ) (line : ReservedLine) : OrderedMap String ℚ :=
  stock.set line.sku ((stock.get line.sku).getD 0 + sign * line.quantity)

namespace InMemoryInventoryService

def seeded : InMemoryInventoryService where
  stock := seedStock
  reservations := OrderedMap.empty
  keyed := by
    intro id reservation none
    cases none

def stockOf (service : InMemoryInventoryService) (sku : String) : ℚ :=
  (service.stock.get sku).getD 0

def book (service : InMemoryInventoryService) (stock : OrderedMap String ℚ)
    (reservation : StockReservation) : InMemoryInventoryService where
  stock := stock
  reservations := service.reservations.set reservation.id reservation
  keyed := OrderedMap.forall_get_set rfl service.keyed

def shortage (service : InMemoryInventoryService) (lines : List ReservedLine) :
    Option ReservedLine :=
  lines.find? fun line => service.stockOf line.sku < line.quantity

def reserve (input : ReserveStockInput) (service : InMemoryInventoryService) :
    Except Thrown StockReservation × InMemoryInventoryService :=
  match service.reservations.get input.reservationId with
  | some existing => (.ok existing, service)
  | none =>
    let lines := mergeLines input.lines
    match service.shortage lines with
    | some line =>
      (.error (outOfStockError line.sku line.quantity (service.stockOf line.sku)), service)
    | none =>
      let reservation : StockReservation := ⟨input.reservationId, input.orderId, lines, true⟩
      (.ok reservation, service.book (lines.foldl (restock (-1)) service.stock) reservation)

def release (reservationId : String) (service : InMemoryInventoryService) :
    InMemoryInventoryService :=
  match service.reservations.get reservationId with
  | none => service
  | some reservation =>
    if reservation.held = false then service
    else service.book (reservation.lines.foldl (restock 1) service.stock)
      { reservation with held := false }

def find (reservationId : String) (service : InMemoryInventoryService) : Option StockReservation :=
  service.reservations.get reservationId

theorem find_book (service : InMemoryInventoryService) (stock : OrderedMap String ℚ)
    (reservation : StockReservation) (id : String) :
    (service.book stock reservation).find id =
      if id = reservation.id then some reservation else service.find id :=
  OrderedMap.get_set ..

theorem reserve_cases (input : ReserveStockInput) (service : InMemoryInventoryService) :
    (∃ existing, service.find input.reservationId = some existing ∧
      service.reserve input = (.ok existing, service)) ∨
    (service.find input.reservationId = none ∧ ∃ line,
      service.shortage (mergeLines input.lines) = some line ∧
      service.reserve input =
        (.error (outOfStockError line.sku line.quantity (service.stockOf line.sku)), service)) ∨
    (service.find input.reservationId = none ∧
      service.shortage (mergeLines input.lines) = none ∧
      service.reserve input =
        (.ok ⟨input.reservationId, input.orderId, mergeLines input.lines, true⟩,
          service.book ((mergeLines input.lines).foldl (restock (-1)) service.stock)
            ⟨input.reservationId, input.orderId, mergeLines input.lines, true⟩)) := by
  unfold reserve find
  cases known : service.reservations.get input.reservationId with
  | some existing => exact Or.inl ⟨existing, rfl, rfl⟩
  | none =>
    right
    cases short : service.shortage (mergeLines input.lines) with
    | some line => exact Or.inl ⟨rfl, line, rfl, by simp only [short]⟩
    | none => exact Or.inr ⟨rfl, rfl, by simp only [short]⟩

theorem release_cases (id : String) (service : InMemoryInventoryService) :
    (service.find id = none ∧ service.release id = service) ∨
    (∃ reservation, service.find id = some reservation ∧ reservation.held = false ∧
      service.release id = service) ∨
    ∃ reservation, service.find id = some reservation ∧ reservation.held = true ∧
      service.release id = service.book (reservation.lines.foldl (restock 1) service.stock)
        { reservation with held := false } := by
  unfold release find
  cases known : service.reservations.get id with
  | none => exact Or.inl ⟨rfl, rfl⟩
  | some reservation =>
    right
    by_cases held : reservation.held = false
    · exact Or.inl ⟨reservation, rfl, held, if_pos held⟩
    · exact Or.inr ⟨reservation, rfl, by simpa using held, if_neg held⟩

end InMemoryInventoryService

def quantityOf (sku : String) (lines : List ReservedLine) : ℚ :=
  (lines.map fun line => if line.sku = sku then line.quantity else 0).sum

theorem getD_restock (sign : ℚ) (sku : String) (lines : List ReservedLine)
    (stock : OrderedMap String ℚ) :
    ((lines.foldl (restock sign) stock).get sku).getD 0 =
      (stock.get sku).getD 0 + sign * quantityOf sku lines := by
  induction lines generalizing stock with
  | nil => simp [quantityOf]
  | cons line rest ih =>
    rw [List.foldl_cons, ih, restock, OrderedMap.get_set]
    by_cases same : line.sku = sku
    · simp only [same, ↓reduceIte, Option.getD_some, quantityOf, List.map_cons, List.sum_cons]
      ring
    · have other : sku ≠ line.sku := fun equal => same equal.symm
      simp [same, other, quantityOf, zero_add]

def heldQuantity (sku : String) (reservation : StockReservation) : ℚ :=
  if reservation.held then quantityOf sku reservation.lines else 0

namespace InMemoryInventoryService

/-- A product's stock, on the shelf and in reservations that hold it. -/
def supply (service : InMemoryInventoryService) (sku : String) : ℚ :=
  service.stockOf sku + service.reservations.sumBy (heldQuantity sku)

theorem supply_book {service : InMemoryInventoryService} {sku : String} {sign : ℚ}
    {lines : List ReservedLine} {reservation : StockReservation}
    (balanced : heldQuantity sku reservation =
      ((service.find reservation.id).map (heldQuantity sku)).getD 0 - sign * quantityOf sku lines) :
    (service.book (lines.foldl (restock sign) service.stock) reservation).supply sku =
      service.supply sku := by
  have total := OrderedMap.sumBy_set (heldQuantity sku) service.reservations reservation.id
    reservation
  have shelf : (service.book (lines.foldl (restock sign) service.stock) reservation).stockOf sku =
      service.stockOf sku + sign * quantityOf sku lines :=
    getD_restock sign sku lines service.stock
  rw [find] at balanced
  rw [supply, supply, shelf]
  change _ + (service.reservations.set reservation.id reservation).sumBy (heldQuantity sku) = _
  linarith

theorem reserve_supply (input : ReserveStockInput) (service : InMemoryInventoryService)
    (sku : String) :
    (service.reserve input).2.supply sku = service.supply sku := by
  rcases service.reserve_cases input with ⟨existing, _, same⟩ | ⟨_, line, _, same⟩ |
    ⟨unknown, _, same⟩
  · rw [same]
  · rw [same]
  · rw [same]
    apply supply_book
    simp only [heldQuantity, unknown, ↓reduceIte, Option.map_none, Option.getD_none]
    ring

theorem release_supply (id : String) (service : InMemoryInventoryService) (sku : String) :
    (service.release id).supply sku = service.supply sku := by
  rcases service.release_cases id with ⟨_, same⟩ | ⟨reservation, _, _, same⟩ |
    ⟨reservation, known, held, same⟩
  · rw [same]
  · rw [same]
  · rw [same]
    apply supply_book
    have key := service.keyed id reservation known
    simp only [heldQuantity, key, known, held, ↓reduceIte, Bool.false_eq_true, Option.map_some,
      Option.getD_some]
    ring

end InMemoryInventoryService

end NestApi.Orders
