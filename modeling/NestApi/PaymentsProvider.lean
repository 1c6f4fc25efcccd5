import NestApi.OrderedMap
import NestApi.PaymentsMoney

namespace NestApi.Payments

inductive PaymentProviderName where
  | stripe
  | paypal
  | mock
  deriving DecidableEq

def PaymentProviderName.text : PaymentProviderName → String
  | .stripe => "stripe"
  | .paypal => "paypal"
  | .mock => "mock"

inductive PaymentStatus where
  | requiresAction
  | authorized
  | processing
  | succeeded
  | partiallyRefunded
  | refunded
  | canceled
  | failed
  deriving DecidableEq

def PaymentStatus.text : PaymentStatus → String
  | .requiresAction => "requires_action"
  | .authorized => "authorized"
  | .processing => "processing"
  | .succeeded => "succeeded"
  | .partiallyRefunded => "partially_refunded"
  | .refunded => "refunded"
  | .canceled => "canceled"
  | .failed => "failed"

structure Payment where
  id : String
  provider : PaymentProviderName
  status : PaymentStatus
  amount : Money
  amountRefunded : Money
  reference : String
  deriving DecidableEq

structure CreatePaymentInput where
  amount : Money
  reference : String
  description : Option String

/-- A payment gateway over the state it keeps at its end. -/
structure PaymentProvider (P : Type) where
  authorize : CreatePaymentInput → P → Except Thrown Payment × P
  capture : String → P → Except Thrown Payment × P
  refund : String → Option Money → P → Except Thrown Payment × P
  find : String → P → Except Thrown (Option Payment) × P

/-- A gateway that turns down every authorisation under a reference. -/
def PaymentProvider.Refuses {P : Type} (provider : PaymentProvider P) (reference : String) :
    Prop :=
  ∀ input payments, input.reference = reference →
    ∃ error, (provider.authorize input payments).1 = .error error

/-- A provider's own failure, with the status a caller is answered with. -/
structure PaymentProviderError where
  provider : PaymentProviderName
  message : Utf16
  upstreamCode : Option String
  status : Nat

def PaymentProviderError.thrown (error : PaymentProviderError) : Thrown := ⟨.other, error.message⟩

def paymentProviderNotConfiguredError (provider : PaymentProviderName)
    (requiredEnv : List String) : Thrown :=
  .of .other ("Payment provider \"" ++ provider.text ++ "\" is not configured. Set " ++
    String.intercalate " and " requiredEnv ++ ".")

def paymentStateError (message : String) : Thrown := .of .paymentState message

def paymentNotFoundError (provider : PaymentProviderName) (id : String) : Thrown :=
  .of .other ("Payment " ++ id ++ " not found at provider \"" ++ provider.text ++ "\"")

/-- Whether money was captured and not all of it returned. -/
def isRefundable (status : PaymentStatus) : Bool :=
  status = .succeeded ∨ status = .partiallyRefunded

/-- What the caller asks to refund: an amount, or the whole outstanding balance. -/
def requestedRefund (payment : Payment) (remaining : ℚ) : Option Money → Except Thrown Money
  | some amount => normaliseMoney amount
  | none => .ok ⟨remaining, payment.amount.currency⟩

/-- The rules every provider applies before it will attempt a refund. -/
def resolveRefundAmount (payment : Payment) (amount : Option Money) : Except Thrown Money :=
  if isRefundable payment.status = false then
    .error (paymentStateError ("Payment " ++ payment.id ++ " cannot be refunded from status \"" ++
      payment.status.text ++ "\""))
  else
    let remaining := payment.amount.amountMinor - payment.amountRefunded.amountMinor
    match requestedRefund payment remaining amount with
    | .error error => .error error
    | .ok requested =>
      if sameCurrency requested payment.amount = false then
        .error (paymentStateError ("Cannot refund " ++ requested.currency ++ " against a " ++
          payment.amount.currency ++ " payment"))
      else if requested.amountMinor = 0 then
        .error (paymentStateError "Refund amount must be positive")
      else if remaining < requested.amountMinor then
        .error (paymentStateError ("Refund of " ++ number requested.amountMinor ++
          " exceeds the " ++ number remaining ++ " still refundable on " ++ payment.id))
      else .ok requested

/-- A refund is granted on a captured payment only, of something, and of no more than is left. -/
theorem resolveRefundAmount_eq_ok {payment : Payment} {amount : Option Money} {requested : Money}
    (ok : resolveRefundAmount payment amount = .ok requested) :
    isRefundable payment.status = true ∧
      requestedRefund payment (payment.amount.amountMinor - payment.amountRefunded.amountMinor)
        amount = .ok requested ∧
      requested.amountMinor ≠ 0 ∧
      requested.amountMinor ≤ payment.amount.amountMinor - payment.amountRefunded.amountMinor := by
  simp only [resolveRefundAmount] at ok
  split at ok
  · cases ok
  · rename_i refundable
    split at ok
    · cases ok
    · rename_i given asked
      split_ifs at ok with currency zero large
      cases ok
      exact ⟨by simpa using refundable, asked, zero, not_lt.mp large⟩

theorem resolveRefundAmount_none (payment : Payment)
    (refundable : isRefundable payment.status = true) :
    resolveRefundAmount payment none =
      if payment.amount.amountMinor - payment.amountRefunded.amountMinor = 0 then
        .error (paymentStateError "Refund amount must be positive")
      else .ok ⟨payment.amount.amountMinor - payment.amountRefunded.amountMinor,
        payment.amount.currency⟩ := by
  have same : ∀ amountMinor,
      sameCurrency ⟨amountMinor, payment.amount.currency⟩ payment.amount = true := by
    intro amountMinor
    simp [sameCurrency]
  simp only [resolveRefundAmount, requestedRefund, refundable, same, Bool.true_eq_false,
    ↓reduceIte, lt_irrefl]

end NestApi.Payments
