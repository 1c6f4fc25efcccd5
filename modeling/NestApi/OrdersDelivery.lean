import NestApi.OrdersInventory

namespace NestApi.Orders

/-- A message to the warehouse. Nothing orders the messages of one key, and each may come
more than once. -/
inductive Delivery where
  | reserve (input : ReserveStockInput)
  | release (reservationId : String)

inductive Hold where
  | unknown
  | held
  | released
  deriving DecidableEq

/-- One reservation as a machine: the first reserve the shelves cover takes the stock, and the first
release after it gives it back for good. -/
def Hold.next (taken freed : Bool) : Hold → Hold
  | .unknown => if taken then .held else .unknown
  | .held => if freed then .released else .held
  | .released => .released

def Delivery.takes (key : String) : Delivery → Bool
  | .reserve input => input.reservationId = key
  | .release _ => false

def Delivery.frees (key : String) : Delivery → Bool
  | .reserve _ => false
  | .release id => id = key

namespace InMemoryInventoryService

def deliver (service : InMemoryInventoryService) : Delivery → InMemoryInventoryService
  | .reserve input => (service.reserve input).2
  | .release id => service.release id

def answers (key : String) :
    InMemoryInventoryService → List Delivery → List (Except Thrown StockReservation)
  | _, [] => []
  | service, .reserve input :: rest =>
    if input.reservationId = key then
      (service.reserve input).1 :: answers key (service.deliver (.reserve input)) rest
    else answers key (service.deliver (.reserve input)) rest
  | service, .release id :: rest => answers key (service.deliver (.release id)) rest

def hold (key : String) (service : InMemoryInventoryService) : Hold :=
  match service.find key with
  | none => .unknown
  | some reservation => if reservation.held then .held else .released

def covers (service : InMemoryInventoryService) : Delivery → Bool
  | .reserve input => service.shortage (mergeLines input.lines) = none
  | .release _ => true

section

variable (service : InMemoryInventoryService)

include service

theorem hold_book (stock : OrderedMap String ℚ) (reservation : StockReservation) (key : String) :
    (service.book stock reservation).hold key =
      if key = reservation.id then (if reservation.held then .held else .released)
      else service.hold key := by
  by_cases own : key = reservation.id
  · simp [hold, find_book, own]
  · simp [hold, find_book, own]

theorem hold_reserve (key : String) (input : ReserveStockInput) :
    (service.reserve input).2.hold key = (service.hold key).next
      (input.reservationId = key ∧ service.shortage (mergeLines input.lines) = none) false := by
  rcases service.reserve_cases input with ⟨existing, known, same⟩ | ⟨_, line, short, same⟩ |
    ⟨unknown, enough, same⟩
  · rw [same]
    by_cases own : input.reservationId = key
    · rw [own] at known
      simp only [hold, known]
      split <;> rfl
    · simp only [own, false_and, decide_false]
      cases service.hold key <;> rfl
  · rw [same, short]
    cases service.hold key <;> simp [Hold.next]
  · rw [same, hold_book, enough]
    by_cases own : input.reservationId = key
    · rw [own] at unknown
      simp [own, hold, unknown, Hold.next]
    · have apart : key ≠ input.reservationId := fun same => own same.symm
      simp only [own, apart, ↓reduceIte, false_and, decide_false]
      cases service.hold key <;> rfl

theorem hold_release (key id : String) :
    (service.release id).hold key = (service.hold key).next false (id = key) := by
  rcases service.release_cases id with ⟨unknown, same⟩ | ⟨reservation, known, free, same⟩ |
    ⟨reservation, known, held, same⟩
  · rw [same]
    by_cases own : id = key
    · rw [own] at unknown
      simp [hold, unknown, Hold.next]
    · simp only [own, decide_false]
      cases service.hold key <;> rfl
  · rw [same]
    by_cases own : id = key
    · rw [own] at known
      simp [hold, known, free, Hold.next]
    · simp only [own, decide_false]
      cases service.hold key <;> rfl
  · rw [same, hold_book]
    by_cases own : id = key
    · rw [own] at known
      have named := service.keyed key reservation known
      simp [named, own, hold, known, held, Hold.next]
    · have apart : key ≠ reservation.id := by
        rw [service.keyed id reservation known]
        exact fun same => own same.symm
      simp only [own, apart, ↓reduceIte, decide_false]
      cases service.hold key <;> rfl

/-- The warehouse refines the machine of each of its reservations. -/
theorem hold_deliver (key : String) (delivery : Delivery) :
    (service.deliver delivery).hold key = (service.hold key).next
      (delivery.takes key && service.covers delivery) (delivery.frees key) := by
  cases delivery with
  | reserve =>
    rw [deliver, hold_reserve]
    simp [Delivery.takes, Delivery.frees, covers]
  | release =>
    rw [deliver, hold_release]
    simp [Delivery.takes, Delivery.frees]

/-- A reserve reports success with nothing held exactly if the stock was given back. -/
theorem reserve_unheld_iff (input : ReserveStockInput) :
    (∃ reservation, (service.reserve input).1 = .ok reservation ∧ reservation.held = false) ↔
      service.hold input.reservationId = .released := by
  rcases service.reserve_cases input with ⟨existing, known, same⟩ | ⟨unknown, line, _, same⟩ |
    ⟨unknown, _, same⟩
  · rw [same]
    simp only [hold, known]
    cases held : existing.held <;> simp [held]
  · rw [same]
    simp [hold, unknown]
  · rw [same]
    simp [hold, unknown]

end

def heldByOthers (service : InMemoryInventoryService) (key sku : String) : ℚ :=
  service.reservations.sumBy fun reservation =>
    if reservation.id = key then 0 else heldQuantity sku reservation

/-- All messages are in, and it is as if the key had never been reserved. -/
structure Settled (key : String) (start : InMemoryInventoryService) (deliveries : List Delivery) :
    Prop where
  free : ∀ reservation, (deliveries.foldl deliver start).find key = some reservation →
    reservation.held = false
  shelves : ∀ sku, (deliveries.foldl deliver start).stockOf sku =
    start.supply sku - (deliveries.foldl deliver start).heldByOthers key sku
  honest : ∀ answer ∈ start.answers key deliveries, ∀ reservation, answer = .ok reservation →
    reservation.held = true

/-- Whether stock that is held is given back, and not asked for after that. -/
def returned (key : String) : List Delivery → Bool
  | [] => false
  | delivery :: rest =>
    if delivery.frees key then rest.all fun later => !later.takes key else returned key rest

/-- Whether the stock is given back after the first reserve the shelves cover, and not asked for
after that. -/
def orderly (key : String) : InMemoryInventoryService → List Delivery → Bool
  | _, [] => true
  | service, delivery :: rest =>
    if delivery.takes key && service.covers delivery then returned key rest
    else orderly key (service.deliver delivery) rest

section Runs

variable {service : InMemoryInventoryService} {key : String}

/-- The part of being settled that the key's own machine decides. -/
def Closes (key : String) (service : InMemoryInventoryService) (deliveries : List Delivery) :
    Prop :=
  (deliveries.foldl deliver service).hold key ≠ .held ∧
    ∀ answer ∈ service.answers key deliveries, ∀ reservation, answer = .ok reservation →
      reservation.held = true

theorem closes_nil : Closes key service [] ↔ service.hold key ≠ .held := by
  simp [Closes, answers]

theorem closes_cons (delivery : Delivery) (rest : List Delivery) :
    Closes key service (delivery :: rest) ↔
      (delivery.takes key = true → service.hold key ≠ .released) ∧
        Closes key (service.deliver delivery) rest := by
  cases delivery with
  | release => simp [Closes, answers, Delivery.takes]
  | reserve input =>
    by_cases own : input.reservationId = key
    · have unheld := service.reserve_unheld_iff input
      rw [own] at unheld
      simp only [Closes, answers, own, Delivery.takes, ↓reduceIte, List.mem_cons, List.foldl_cons,
        forall_eq_or_imp, decide_true, true_implies, ne_eq, ← unheld]
      simp only [not_exists, not_and, Bool.not_eq_false]
      tauto
    · simp [Closes, answers, own, Delivery.takes]

theorem closes_of_released (released : service.hold key = .released) (deliveries : List Delivery) :
    Closes key service deliveries ↔ (deliveries.all fun later => !later.takes key) = true := by
  induction deliveries generalizing service with
  | nil => simp [closes_nil, released]
  | cons delivery rest ih =>
    have still : (service.deliver delivery).hold key = .released := by
      rw [hold_deliver, released]
      rfl
    rw [closes_cons, ih still, released, List.all_cons]
    simp

theorem closes_of_held (held : service.hold key = .held) (deliveries : List Delivery) :
    Closes key service deliveries ↔ returned key deliveries = true := by
  induction deliveries generalizing service with
  | nil => simp [closes_nil, held, returned]
  | cons delivery rest ih =>
    have after : (service.deliver delivery).hold key =
        if delivery.frees key then .released else .held := by
      rw [hold_deliver, held]
      rfl
    rw [closes_cons, held, returned]
    by_cases freed : delivery.frees key = true
    · rw [if_pos freed] at after
      simp [closes_of_released after, freed]
    · rw [if_neg freed] at after
      simp [ih after, freed]

theorem closes_of_unknown (unknown : service.hold key = .unknown) (deliveries : List Delivery) :
    Closes key service deliveries ↔ service.orderly key deliveries = true := by
  induction deliveries generalizing service with
  | nil => simp [closes_nil, unknown, orderly]
  | cons delivery rest ih =>
    have after : (service.deliver delivery).hold key =
        if delivery.takes key && service.covers delivery then .held else .unknown := by
      rw [hold_deliver, unknown]
      rfl
    rw [closes_cons, unknown, orderly]
    by_cases taken : (delivery.takes key && service.covers delivery) = true
    · rw [if_pos taken] at after
      simp [closes_of_held after, taken]
    · rw [if_neg taken] at after
      simp [ih after, taken]

theorem supply_deliver (deliveries : List Delivery) (sku : String) :
    (deliveries.foldl deliver service).supply sku = service.supply sku := by
  induction deliveries generalizing service with
  | nil => rfl
  | cons delivery rest ih =>
    rw [List.foldl_cons, ih]
    cases delivery with
    | reserve input => exact service.reserve_supply input sku
    | release id => exact service.release_supply id sku

theorem hold_ne_held_iff : service.hold key ≠ .held ↔
    ∀ reservation, service.find key = some reservation → reservation.held = false := by
  unfold hold
  cases service.find key with
  | none => simp
  | some reservation => cases held : reservation.held <;> simp [held]

theorem heldByOthers_of_free
    (free : ∀ reservation, service.find key = some reservation → reservation.held = false)
    (sku : String) :
    service.heldByOthers key sku = service.reservations.sumBy (heldQuantity sku) := by
  refine congrArg List.sum (List.map_congr_left ?_)
  intro reservation member
  obtain ⟨id, got⟩ := OrderedMap.mem_values_iff.mp member
  have named := service.keyed id reservation got
  split
  · rename_i own
    rw [← named, own] at got
    simp [heldQuantity, free reservation got]
  · rfl

end Runs

/-- However often and in whatever order the messages of a key are delivered: they leave it settled
exactly if a reserve that takes the stock is followed by a release and no reserve comes after that.
-/
theorem deliveries_settle_iff {start : InMemoryInventoryService} {key : String}
    (unknown : start.find key = none) (deliveries : List Delivery) :
    Settled key start deliveries ↔ start.orderly key deliveries = true := by
  have fresh : start.hold key = .unknown := by
    simp only [hold, unknown]
  rw [← closes_of_unknown fresh, Closes, hold_ne_held_iff]
  constructor
  · intro settled
    exact ⟨settled.free, settled.honest⟩
  · intro closes
    refine ⟨closes.1, ?_, closes.2⟩
    intro sku
    rw [heldByOthers_of_free closes.1, ← supply_deliver deliveries, supply]
    ring

def twoLamps : ReserveStockInput := ⟨"order", [⟨"SKU-LAMP-03", 2⟩], "saga:reserve-stock"⟩

/-- A retried reserve before the release, with another order's in between. -/
theorem deliveries_settle_retried : Settled "saga:reserve-stock" seeded [.reserve twoLamps,
      .reserve ⟨"other", [⟨"SKU-LAMP-03", 3⟩], "other:reserve-stock"⟩, .reserve twoLamps,
      .release "saga:reserve-stock", .release "saga:reserve-stock"] :=
  (deliveries_settle_iff rfl _).mpr (by decide +kernel)

/-- A reserve after the release takes the stock for good, and one after both reports a success with
nothing held. -/
theorem late_reserve_takes_stock :
    (([Delivery.release "saga:reserve-stock", .reserve twoLamps].foldl deliver seeded).find
        "saga:reserve-stock").map StockReservation.held = some true ∧
      ([Delivery.release "saga:reserve-stock", .reserve twoLamps].foldl deliver seeded).stockOf
        "SKU-LAMP-03" = 10 ∧
      (seeded.answers "saga:reserve-stock" [.reserve twoLamps, .release "saga:reserve-stock",
        .reserve twoLamps]).getLast? =
          some (.ok ⟨"saga:reserve-stock", "order", [⟨"SKU-LAMP-03", 2⟩], false⟩) := by
  refine ⟨by decide +kernel, by decide +kernel, ?_⟩
  rfl

end InMemoryInventoryService

end NestApi.Orders
