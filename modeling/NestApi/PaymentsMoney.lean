import NestApi.Common

namespace NestApi.Payments

/-- An amount in minor units. The type admits what the code has to refuse: fractions, negative and
unsafe amounts. -/
structure Money where
  amountMinor : ℚ
  currency : String
  deriving DecidableEq

def number (value : ℚ) : String :=
  if value.den = 1 then toString value.num else toString value.num ++ "/" ++ toString value.den

def isCurrencyCode (currency : String) : Bool :=
  currency.toList.length = 3 ∧ currency.toList.all fun c => 'A' ≤ c ∧ c ≤ 'Z'

def invalidMoneyError (message : String) : Thrown := .of .other message

def normaliseMoney (money : Money) : Except Thrown Money :=
  let currency := JsString.toUpperCase money.currency
  if ¬ isCurrencyCode currency then
    .error (invalidMoneyError ("Currency must be a 3-letter ISO 4217 code, received \"" ++
      money.currency ++ "\""))
  else if money.amountMinor.den ≠ 1 then
    .error (invalidMoneyError ("Amount must be an integer number of minor units, received " ++
      number money.amountMinor))
  else if money.amountMinor < 0 then
    .error (invalidMoneyError ("Amount must not be negative, received " ++
      number money.amountMinor))
  else if maxSafeInteger < money.amountMinor then
    .error (invalidMoneyError ("Amount " ++ number money.amountMinor ++
      " is larger than the largest minor-unit amount that can be represented exactly (" ++
      number maxSafeInteger ++ ")"))
  else .ok ⟨money.amountMinor, currency⟩

def sameCurrency (first second : Money) : Bool :=
  JsString.toUpperCase first.currency = JsString.toUpperCase second.currency

theorem normaliseMoney_eq_ok {money result : Money} (ok : normaliseMoney money = .ok result) :
    result = ⟨money.amountMinor, JsString.toUpperCase money.currency⟩ ∧
      isCurrencyCode result.currency = true ∧ result.amountMinor.den = 1 ∧
      0 ≤ result.amountMinor ∧ result.amountMinor ≤ maxSafeInteger := by
  simp only [normaliseMoney] at ok
  split at ok
  · cases ok
  · rename_i code
    split at ok
    · cases ok
    · rename_i whole
      split at ok
      · cases ok
      · rename_i signed
        split at ok
        · cases ok
        · rename_i large
          cases ok
          exact ⟨rfl, by simpa using code, not_not.mp whole, not_lt.mp signed, not_lt.mp large⟩

end NestApi.Payments
