import NestApi.Common
import NestApi.PaymentsProvider

namespace NestApi.Payments

open Json JsString

/-- A request as it is handed to the HTTP client, the form not yet encoded. -/
structure HttpRequest where
  method : String
  url : String
  headers : List (String × String)
  form : Option (List (String × String))
  idempotent : Bool

structure HttpJsonResponse where
  status : Nat
  body : JsonValue

def HttpJsonResponse.ok (response : HttpJsonResponse) : Bool :=
  200 ≤ response.status ∧ response.status ≤ 299

/-- The HTTP client and what is behind it: a response, or the client's own error. -/
abbrev HttpClient (P : Type) := HttpRequest → P → Except Thrown HttpJsonResponse × P

structure StripePaymentProvider where
  secretKey : Option String
  baseUrl : String
  apiVersion : Option String

namespace StripePaymentProvider

def configured (secretKey baseUrl apiVersion : Option String) : StripePaymentProvider where
  secretKey := secretKey
  baseUrl := trimSlashes (baseUrl.getD "https://api.stripe.com")
  apiVersion := apiVersion

def requireCredentials (provider : StripePaymentProvider) : Except Thrown String :=
  match given provider.secretKey with
  | some secretKey => .ok secretKey
  | none => .error (paymentProviderNotConfiguredError .stripe ["STRIPE_SECRET_KEY"])

def headers (provider : StripePaymentProvider) (secretKey : String)
    (extra : List (String × String)) : List (String × String) :=
  [("Authorization", "Bearer " ++ secretKey)] ++
    ((given provider.apiVersion).map fun version => ("Stripe-Version", version)).toList ++
    extra

/-- The status a failed call is answered with: a declined card is the buyer's problem. -/
def mapErrorStatus (status : Nat) (error : Option (List (String × JsonValue))) : Nat :=
  if readString error "type" = some "card_error" then 402
  else if status = 429 then 503
  else 502

def upstreamError (status : Nat) (body : JsonValue) : PaymentProviderError :=
  let error := (read (asRecord body) "error").bind asRecord
  { provider := .stripe
    message := Utf16.ofString ((readString error "message").getD
      ("Stripe request failed with status " ++ toString status))
    upstreamCode := (readString error "code").or (readString error "type")
    status := mapErrorStatus status error }

def accepted (paymentId : Option String) (response : HttpJsonResponse) : Except Thrown JsonValue :=
  if response.ok then .ok response.body
  else
    match decide (response.status = 404), given paymentId with
    | true, some id => .error (paymentNotFoundError .stripe id)
    | _, _ =>
      let error := (read (asRecord response.body) "error").bind asRecord
      -- A state conflict on our side of the port, not a gateway failure.
      if readString error "code" = some "payment_intent_unexpected_state" then
        .error (paymentStateError ((readString error "message").getD ("Payment " ++
          paymentId.getD "" ++ " is not in a state Stripe will accept for this operation")))
      else .error (upstreamError response.status response.body).thrown

def mapStatus (rawStatus : String) (amountMinor refundedMinor : ℚ) : PaymentStatus :=
  match rawStatus with
  | "requires_payment_method" | "requires_confirmation" | "requires_action" => .requiresAction
  | "requires_capture" => .authorized
  | "processing" => .processing
  | "canceled" => .canceled
  | "succeeded" =>
    if refundedMinor ≤ 0 then .succeeded
    else if amountMinor ≤ refundedMinor then .refunded
    else .partiallyRefunded
  | _ => .failed

def toPayment (body : JsonValue) : Except Thrown Payment :=
  let intent := asRecord body
  match given (readString intent "id"), given (readString intent "status"),
    readNumber intent "amount", given (readString intent "currency") with
  | some id, some rawStatus, some amountMinor, some currency =>
    match normaliseMoney ⟨amountMinor, toUpperCase currency⟩ with
    | .error error => .error error
    | .ok amount =>
      let charge := (read intent "latest_charge").bind asRecord
      let refundedMinor := (readNumber charge "amount_refunded").getD 0
      .ok
        { id := id
          provider := .stripe
          status := mapStatus rawStatus amount.amountMinor refundedMinor
          amount := amount
          amountRefunded := ⟨refundedMinor, amount.currency⟩
          reference := (readString ((read intent "metadata").bind asRecord) "reference").getD "" }
  | _, _, _, _ =>
    .error (PaymentProviderError.thrown
      ⟨.stripe, Utf16.ofString
        "Stripe returned a payment intent without id, status, amount or currency", none, 502⟩)

section Calls

variable {P : Type} (provider : StripePaymentProvider) (http : HttpClient P)

def send (method path : String) (form extraHeaders : List (String × String))
    (paymentId : Option String) (s : P) : Except Thrown JsonValue × P :=
  match provider.requireCredentials with
  | .error error => (.error error, s)
  | .ok secretKey =>
    let answer := http
      { method := method
        url := provider.baseUrl ++ path
        headers := provider.headers secretKey extraHeaders ++
          [("Content-Type", "application/x-www-form-urlencoded")]
        form := some form
        idempotent := extraHeaders.any fun header => header.1 = "Idempotency-Key" } s
    (answer.1.bind (accepted paymentId), answer.2)

def intentPath (paymentId : String) : String :=
  "/v1/payment_intents/" ++ encodeURIComponent paymentId

def authorizationForm (amount : Money) (input : CreatePaymentInput) : List (String × String) :=
  [("amount", number amount.amountMinor), ("currency", toLowerCase amount.currency),
    ("capture_method", "manual"), ("automatic_payment_methods[enabled]", "true"),
    ("metadata[reference]", input.reference), ("expand[]", "latest_charge")] ++
    ((given input.description).map fun text => ("description", text)).toList

def authorize (input : CreatePaymentInput) (s : P) : Except Thrown Payment × P :=
  match normaliseMoney input.amount with
  | .error error => (.error error, s)
  | .ok amount =>
    let answer := send provider http "POST" "/v1/payment_intents"
      (authorizationForm amount input)
      [("Idempotency-Key", "authorize:" ++ input.reference)] none s
    (answer.1.bind toPayment, answer.2)

def capture (paymentId : String) (s : P) : Except Thrown Payment × P :=
  let answer := send provider http "POST" (intentPath paymentId ++ "/capture")
    [("expand[]", "latest_charge")] [] (some paymentId) s
  (answer.1.bind toPayment, answer.2)

def located (response : HttpJsonResponse) : Except Thrown (Option Payment) :=
  if response.status = 404 then .ok none
  else if response.ok then (toPayment response.body).map some
  else .error (upstreamError response.status response.body).thrown

def find (paymentId : String) (s : P) : Except Thrown (Option Payment) × P :=
  match provider.requireCredentials with
  | .error error => (.error error, s)
  | .ok secretKey =>
    let answer := http
      { method := "GET"
        url := provider.baseUrl ++ intentPath paymentId ++ "?expand[]=latest_charge"
        headers := provider.headers secretKey []
        form := none
        idempotent := false } s
    (answer.1.bind located, answer.2)

def require (paymentId : String) (s : P) : Except Thrown Payment × P :=
  let answer := find provider http paymentId s
  (answer.1.bind fun payment =>
    match payment with
    | none => .error (paymentNotFoundError .stripe paymentId)
    | some payment => .ok payment, answer.2)

def refund (paymentId : String) (amount : Option Money) (s : P) : Except Thrown Payment × P :=
  let existing := require provider http paymentId s
  match existing.1.bind fun payment => resolveRefundAmount payment amount with
  | .error error => (.error error, existing.2)
  | .ok requested =>
    let sent := send provider http "POST" "/v1/refunds"
      [("payment_intent", paymentId), ("amount", number requested.amountMinor)] []
      (some paymentId) existing.2
    match sent.1 with
    | .error error => (.error error, sent.2)
    -- The refund object has no running total, so the payment is read again.
    | .ok _ => require provider http paymentId sent.2

end Calls

end StripePaymentProvider

def stripeProvider {P : Type} (provider : StripePaymentProvider) (http : HttpClient P) :
    PaymentProvider P where
  authorize := provider.authorize http
  capture := provider.capture http
  refund := provider.refund http
  find := provider.find http

/-- An HTTP side that never answers an authorisation under a reference with success. -/
def Declines {P : Type} (http : HttpClient P) (reference : String) : Prop :=
  ∀ request s response,
    ("Idempotency-Key", "authorize:" ++ reference) ∈ request.headers →
      (http request s).1 = .ok response → response.ok = false

theorem accepted_of_not_ok {paymentId : Option String} {response : HttpJsonResponse}
    (refused : response.ok = false) :
    ∃ error, StripePaymentProvider.accepted paymentId response = .error error := by
  simp only [StripePaymentProvider.accepted, refused, Bool.false_eq_true, ↓reduceIte]
  split
  · exact ⟨_, rfl⟩
  · split <;> exact ⟨_, rfl⟩

variable {P : Type} {http : HttpClient P} {reference : String} (provider : StripePaymentProvider)
  (declines : Declines http reference)

include provider declines

theorem send_of_declines (method path : String)
    (form : List (String × String)) (paymentId : Option String) (s : P) :
    ∃ error, (provider.send http method path form
      [("Idempotency-Key", "authorize:" ++ reference)] paymentId s).1 = .error error := by
  unfold StripePaymentProvider.send
  cases provider.requireCredentials with
  | error error => exact ⟨error, rfl⟩
  | ok =>
    dsimp only
    generalize made : (HttpRequest.mk method (provider.baseUrl ++ path) _ (some form) _) = request
    have keyed : ("Idempotency-Key", "authorize:" ++ reference) ∈ request.headers := by
      rw [← made]
      simp [StripePaymentProvider.headers]
    cases answer : (http request s).1 with
    | error error => exact ⟨error, rfl⟩
    | ok response => exact accepted_of_not_ok (declines request s response keyed answer)

/-- Stripe turns an authorisation down whenever its HTTP side does. -/
theorem stripe_refuses : (stripeProvider provider http).Refuses reference := by
  intro input payments named
  change ∃ error, (provider.authorize http input payments).1 = .error error
  unfold StripePaymentProvider.authorize
  cases normaliseMoney input.amount with
  | error error => exact ⟨error, rfl⟩
  | ok amount =>
    obtain ⟨error, refused⟩ := send_of_declines provider declines "POST" "/v1/payment_intents"
      (StripePaymentProvider.authorizationForm amount input) none payments
    rw [← named] at refused
    dsimp only
    rw [refused]
    exact ⟨error, rfl⟩

end NestApi.Payments
