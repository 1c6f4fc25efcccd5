import NestApi.OrderedMap
import NestApi.PaymentsMoney

namespace NestApi.Orders

open Payments

structure ReservedLine where
  sku : String
  quantity : ℚ
  deriving DecidableEq

structure OrderItem where
  sku : String
  quantity : ℚ
  unitPriceMinor : ℚ
  deriving DecidableEq

class Line (T : Type) where
  sku : T → String
  quantity : T → ℚ
  withQuantity : T → ℚ → T

instance : Line ReservedLine where
  sku := ReservedLine.sku
  quantity := ReservedLine.quantity
  withQuantity := fun line quantity => { line with quantity := quantity }

instance : Line OrderItem where
  sku := OrderItem.sku
  quantity := OrderItem.quantity
  withQuantity := fun line quantity => { line with quantity := quantity }

section Basket

variable {T : Type} [Line T]

def mergeLine (merged : OrderedMap String T) (line : T) : OrderedMap String T :=
  merged.set (Line.sku line)
    (match merged.get (Line.sku line) with
      | some seen => Line.withQuantity seen (Line.quantity seen + Line.quantity line)
      | none => line)

/-- Sums repeated SKUs, so two lines of the same product are one line. -/
def mergeLines (lines : List T) : List T := (lines.foldl mergeLine OrderedMap.empty).values

def maxQuantityPerSku : ℚ := 100

def lineQuantityExceededError (sku : String) (quantity : ℚ) : Thrown :=
  .of .other ("Order is for " ++ number quantity ++ " of \"" ++ sku ++ "\", more than the " ++
    number maxQuantityPerSku ++ " allowed per SKU")

/-- The basket as the domain will store, price, reserve and ship it. -/
def canonicaliseBasket (lines : List T) : Except Thrown (List T) :=
  let basket := mergeLines lines
  match basket.find? fun line => maxQuantityPerSku < Line.quantity line with
  | some line => .error (lineQuantityExceededError (Line.sku line) (Line.quantity line))
  | none => .ok basket

end Basket

def catalogueCurrency : String := "GBP"

structure CatalogueEntry where
  name : String
  unitPriceMinor : ℚ

def productCatalogue : List (String × CatalogueEntry) :=
  [("SKU-DESK-01", ⟨"Standing desk", 34900⟩), ("SKU-CHAIR-02", ⟨"Task chair", 18500⟩),
    ("SKU-LAMP-03", ⟨"Desk lamp", 4250⟩), ("SKU-SOLD-OUT", ⟨"Sold-out sample", 999⟩)]

def unknownSkuError (sku : String) : Thrown := .of .other ("Unknown SKU \"" ++ sku ++ "\"")

structure PricedOrder where
  items : List OrderItem
  total : Money
  deriving DecidableEq

def priceLine (line : ReservedLine) : Except Thrown OrderItem :=
  match productCatalogue.lookup line.sku with
  | none => .error (unknownSkuError line.sku)
  | some entry => .ok ⟨line.sku, line.quantity, entry.unitPriceMinor⟩

def priceOrder (lines : List ReservedLine) : Except Thrown PricedOrder := do
  let priced ← lines.mapM priceLine
  let items ← canonicaliseBasket priced
  let amountMinor := items.foldl (fun sum item => sum + item.unitPriceMinor * item.quantity) 0
  return ⟨items, ⟨amountMinor, catalogueCurrency⟩⟩

theorem priceOrder_currency {lines : List ReservedLine} {priced : PricedOrder}
    (accepted : priceOrder lines = .ok priced) : priced.total.currency = catalogueCurrency := by
  simp only [priceOrder, bind, Except.bind] at accepted
  split at accepted
  · cases accepted
  · split at accepted
    · cases accepted
    · cases accepted
      rfl

example : priceOrder [⟨"SKU-LAMP-03", 1⟩, ⟨"SKU-DESK-01", 1⟩, ⟨"SKU-LAMP-03", 2⟩] =
    .ok ⟨[⟨"SKU-LAMP-03", 3, 4250⟩, ⟨"SKU-DESK-01", 1, 34900⟩], ⟨47650, "GBP"⟩⟩ := by
  decide +kernel

end NestApi.Orders
