import NestApi.PaymentsProvider

namespace NestApi.Payments

open OrderedMap

def mockPaymentId (sequence : Nat) : String :=
  "pay_mock_" ++ JsString.padStart (toString sequence) 6 '0'

theorem mockPaymentId_injective : Function.Injective mockPaymentId := by
  intro first second same
  exact JsString.padStart_decimal_injective 6 (String.append_right_inj _ |>.mp same)

/-- The in-memory gateway. Each reference names at most one payment, and the ids handed out are
those up to `sequence`. -/
structure MockPaymentProvider where
  payments : OrderedMap String Payment
  idsByReference : OrderedMap String String
  sequence : Nat
  keyed : ∀ id payment, payments.get id = some payment →
    payment.id = id ∧ idsByReference.get payment.reference = some id
  named : ∀ reference id, idsByReference.get reference = some id →
    ∃ payment, payments.get id = some payment ∧ payment.reference = reference
  numbered : ∀ id payment, payments.get id = some payment → ∃ n ≤ sequence, id = mockPaymentId n

namespace MockPaymentProvider

def empty : MockPaymentProvider where
  payments := OrderedMap.empty
  idsByReference := OrderedMap.empty
  sequence := 0
  keyed := by
    intro id payment none
    cases none
  named := by
    intro reference id none
    cases none
  numbered := by
    intro id payment none
    cases none

theorem get_next (provider : MockPaymentProvider) :
    provider.payments.get (mockPaymentId (provider.sequence + 1)) = none := by
  cases found : provider.payments.get (mockPaymentId (provider.sequence + 1)) with
  | none => rfl
  | some =>
    obtain ⟨n, bound, same⟩ := provider.numbered _ _ found
    have := mockPaymentId_injective same
    omega

def add (provider : MockPaymentProvider) (payment : Payment)
    (id : payment.id = mockPaymentId (provider.sequence + 1))
    (unused : provider.idsByReference.get payment.reference = none) : MockPaymentProvider where
  payments := provider.payments.set payment.id payment
  idsByReference := provider.idsByReference.set payment.reference payment.id
  sequence := provider.sequence + 1
  keyed := by
    refine forall_get_set ⟨rfl, get_set_self ..⟩ ?_
    intro other found here
    obtain ⟨key, reference⟩ := provider.keyed other found here
    refine ⟨key, ?_⟩
    rw [get_set_of_ne _ _ ?_]
    · exact reference
    · intro same
      rw [same, unused] at reference
      cases reference
  named := by
    refine forall_get_set ⟨payment, get_set_self .., rfl⟩ ?_
    intro reference other here
    obtain ⟨found, there, name⟩ := provider.named reference other here
    refine ⟨found, ?_, name⟩
    rw [get_set_of_ne _ _ ?_]
    · exact there
    · intro same
      rw [same, id, provider.get_next] at there
      cases there
  numbered := by
    refine forall_get_set ⟨provider.sequence + 1, le_refl _, id⟩ ?_
    intro other found here
    obtain ⟨n, bound, same⟩ := provider.numbered other found here
    exact ⟨n, by omega, same⟩

def store (provider : MockPaymentProvider) (old payment : Payment)
    (found : provider.payments.get payment.id = some old)
    (reference : payment.reference = old.reference) : MockPaymentProvider where
  payments := provider.payments.set payment.id payment
  idsByReference := provider.idsByReference
  sequence := provider.sequence
  keyed := forall_get_set ⟨rfl, reference ▸ (provider.keyed _ _ found).2⟩ provider.keyed
  named := by
    intro name other here
    obtain ⟨held, there, same⟩ := provider.named name other here
    by_cases overwritten : other = payment.id
    · subst overwritten
      rw [found] at there
      cases there
      exact ⟨payment, get_set_self .., reference.trans same⟩
    · exact ⟨held, by rw [get_set_of_ne _ _ overwritten]; exact there, same⟩
  numbered := forall_get_set (provider.numbered _ _ found) provider.numbered

def require (provider : MockPaymentProvider) (id : String) : Except Thrown Payment :=
  match provider.payments.get id with
  | some payment => .ok payment
  | none => .error (paymentNotFoundError .mock id)

def authorize (input : CreatePaymentInput) (provider : MockPaymentProvider) :
    Except Thrown Payment × MockPaymentProvider :=
  match normaliseMoney input.amount with
  | .error error => (.error error, provider)
  | .ok amount =>
    match unused : provider.idsByReference.get input.reference with
    | some existingId => (provider.require existingId, provider)
    | none =>
      let payment : Payment :=
        { id := mockPaymentId (provider.sequence + 1)
          provider := .mock
          status := .authorized
          amount := amount
          amountRefunded := ⟨0, amount.currency⟩
          reference := input.reference }
      (.ok payment, provider.add payment rfl unused)

def capture (id : String) (provider : MockPaymentProvider) :
    Except Thrown Payment × MockPaymentProvider :=
  match found : provider.payments.get id with
  | none => (.error (paymentNotFoundError .mock id), provider)
  | some payment =>
    if payment.status ≠ .authorized then
      (.error (paymentStateError ("Payment " ++ id ++ " cannot be captured from status \"" ++
        payment.status.text ++ "\"")), provider)
    else
      let settled := { payment with status := .succeeded }
      (.ok settled, provider.store payment settled
        (by rw [show settled.id = id from (provider.keyed id payment found).1, found]) rfl)

def refund (id : String) (amount : Option Money) (provider : MockPaymentProvider) :
    Except Thrown Payment × MockPaymentProvider :=
  match found : provider.payments.get id with
  | none => (.error (paymentNotFoundError .mock id), provider)
  | some payment =>
    match resolveRefundAmount payment amount with
    | .error error => (.error error, provider)
    | .ok requested =>
      let refunded := payment.amountRefunded.amountMinor + requested.amountMinor
      let returned :=
        { payment with
          status := if refunded = payment.amount.amountMinor then .refunded
            else .partiallyRefunded
          amountRefunded := ⟨refunded, payment.amount.currency⟩ }
      (.ok returned, provider.store payment returned
        (by rw [show returned.id = id from (provider.keyed id payment found).1, found]) rfl)

def find (id : String) (provider : MockPaymentProvider) :
    Except Thrown (Option Payment) × MockPaymentProvider :=
  (.ok (provider.payments.get id), provider)

def paymentFor (provider : MockPaymentProvider) (reference : String) : Option Payment :=
  (provider.idsByReference.get reference).bind provider.payments.get

variable {provider : MockPaymentProvider} {reference : String} {payment : Payment}

theorem paymentFor_eq_some_iff : provider.paymentFor reference = some payment ↔
      provider.payments.get payment.id = some payment ∧ payment.reference = reference := by
  rw [paymentFor, Option.bind_eq_some_iff]
  constructor
  · intro found
    obtain ⟨id, named, held⟩ := found
    obtain ⟨other, held', same⟩ := provider.named reference id named
    rw [held] at held'
    cases held'
    rw [(provider.keyed id payment held).1]
    exact ⟨held, same⟩
  · intro found
    exact ⟨payment.id, found.2 ▸ (provider.keyed _ _ found.1).2, found.1⟩

theorem paymentFor_eq_none_iff :
    provider.paymentFor reference = none ↔ provider.idsByReference.get reference = none := by
  rw [paymentFor, Option.bind_eq_none_iff]
  constructor
  · intro none
    cases named : provider.idsByReference.get reference with
    | none => rfl
    | some id =>
      obtain ⟨payment, held, _⟩ := provider.named reference id named
      rw [none id named] at held
      cases held
  · intro none id named
    rw [none] at named
    cases named

theorem paymentFor_add (id : payment.id = mockPaymentId (provider.sequence + 1))
    (unused : provider.idsByReference.get payment.reference = none) (reference : String) :
    (provider.add payment id unused).paymentFor reference =
      if reference = payment.reference then some payment else provider.paymentFor reference := by
  simp only [paymentFor, add, get_set]
  split
  · rw [Option.bind_some, if_pos rfl]
  · cases named : provider.idsByReference.get reference with
    | none => rfl
    | some other =>
      obtain ⟨held, there, _⟩ := provider.named reference other named
      rw [Option.bind_some, Option.bind_some, if_neg]
      intro same
      rw [same, id, provider.get_next] at there
      cases there

theorem paymentFor_store {old : Payment} (found : provider.payments.get payment.id = some old)
    (kept : payment.reference = old.reference) (reference : String) :
    (provider.store old payment found kept).paymentFor reference =
      if reference = payment.reference then some payment else provider.paymentFor reference := by
  have own := (provider.keyed _ _ found).2
  rw [← kept] at own
  simp only [paymentFor, store]
  split
  · rename_i same
    rw [same, own, Option.bind_some, get_set_self]
  · rename_i other
    cases named : provider.idsByReference.get reference with
    | none => rfl
    | some id =>
      rw [Option.bind_some, Option.bind_some, get_set_of_ne]
      intro same
      obtain ⟨held, there, name⟩ := provider.named reference id named
      rw [same, found] at there
      cases there
      exact other (name.symm.trans kept.symm)

theorem authorize_cases (input : CreatePaymentInput) (provider : MockPaymentProvider) :
    (∃ error, normaliseMoney input.amount = .error error ∧
      provider.authorize input = (.error error, provider)) ∨
    (∃ payment, provider.paymentFor input.reference = some payment ∧
      authorize input provider = (.ok payment, provider)) ∨
    ∃ amount payment provider', normaliseMoney input.amount = .ok amount ∧
      provider.paymentFor input.reference = none ∧
      authorize input provider = (.ok payment, provider') ∧
      payment.status = .authorized ∧ payment.amount = amount ∧
      payment.amountRefunded = ⟨0, amount.currency⟩ ∧ payment.reference = input.reference ∧
      ∀ reference, provider'.paymentFor reference =
        if reference = input.reference then some payment else provider.paymentFor reference := by
  unfold authorize
  cases normal : normaliseMoney input.amount with
  | error error => exact Or.inl ⟨error, rfl, rfl⟩
  | ok amount =>
    right
    dsimp only
    split
    · rename_i existingId named
      left
      obtain ⟨payment, held, _⟩ := provider.named _ _ named
      exact ⟨payment, by rw [paymentFor, named, Option.bind_some, held], by rw [require, held]⟩
    · rename_i unused
      right
      exact ⟨amount, _, _, rfl, paymentFor_eq_none_iff.mpr unused, rfl, rfl, rfl, rfl, rfl,
        fun reference => paymentFor_add rfl unused reference⟩

variable (made : provider.paymentFor reference = some payment)

include made

theorem find_of_paymentFor : provider.find payment.id = (.ok (some payment), provider) := by
  rw [find, (paymentFor_eq_some_iff.mp made).1]

theorem capture_of_paymentFor : (payment.status = .authorized ∧ ∃ provider',
      capture payment.id provider = (.ok { payment with status := .succeeded }, provider') ∧
      ∀ other, provider'.paymentFor other =
        if other = reference then some { payment with status := .succeeded }
        else provider.paymentFor other) ∨
    payment.status ≠ .authorized ∧ ∃ error, error.kind = .paymentState ∧
      capture payment.id provider = (.error error, provider) := by
  obtain ⟨held, same⟩ := paymentFor_eq_some_iff.mp made
  unfold capture
  split
  · rename_i absent
    rw [held] at absent
    cases absent
  · rename_i found there
    rw [held] at there
    cases there
    split
    · rename_i settled
      exact Or.inr ⟨settled, _, rfl, rfl⟩
    · rename_i authorized
      refine Or.inl ⟨not_not.mp authorized, _, rfl, ?_⟩
      intro other
      rw [paymentFor_store, same]

theorem refund_of_paymentFor (refundable : isRefundable payment.status = true) :
    (payment.amount.amountMinor = payment.amountRefunded.amountMinor ∧ ∃ error,
      refund payment.id none provider = (.error error, provider)) ∨
    ∃ returned provider', refund payment.id none provider = (.ok returned, provider') ∧
      returned.status = .refunded ∧ returned.amount = payment.amount ∧
      returned.amountRefunded = payment.amount ∧ returned.id = payment.id ∧
      ∀ other, provider'.paymentFor other =
        if other = reference then some returned else provider.paymentFor other := by
  obtain ⟨held, same⟩ := paymentFor_eq_some_iff.mp made
  have resolved := resolveRefundAmount_none payment refundable
  unfold refund
  split
  · rename_i absent
    rw [held] at absent
    cases absent
  · rename_i found there
    rw [held] at there
    cases there
    split
    · rename_i error refused
      rw [refused] at resolved
      split at resolved
      · rename_i nothing
        exact Or.inl ⟨sub_eq_zero.mp nothing, error, rfl⟩
      · cases resolved
    · rename_i requested granted
      rw [granted] at resolved
      split at resolved
      · cases resolved
      · cases resolved
        refine Or.inr ⟨_, _, rfl, ?_, rfl, ?_, rfl, ?_⟩
        · simp
        · simp
        · intro other
          rw [paymentFor_store, same]

end MockPaymentProvider

def mockProvider : PaymentProvider MockPaymentProvider where
  authorize := MockPaymentProvider.authorize
  capture := MockPaymentProvider.capture
  refund := MockPaymentProvider.refund
  find := MockPaymentProvider.find

end NestApi.Payments
