import NestApi.OrdersResource

namespace NestApi.Orders

open Payments Saga Program MockPaymentProvider

def paymentKey (sagaId : String) : String := sagaId ++ ":" ++ "charge-payment"

def charged (order : CheckoutSagaState) : Money :=
  ⟨order.totalMinor, JsString.toUpperCase order.currency⟩

/-- A payment of the whole total: not captured or captured with nothing returned, or returned
in full. -/
structure Sound (total : Money) (payment : Payment) : Prop where
  amount : payment.amount = total
  standing : (payment.status = .authorized ∨ payment.status = .succeeded) ∧
      payment.amountRefunded.amountMinor = 0 ∨
    payment.status = .refunded ∧ payment.amountRefunded.amountMinor = payment.amount.amountMinor

/-- What the gateway and the saga know of the payment: it is sound, and an id in the state is
that of the payment. -/
structure Ledger (total : Money) (known : CheckoutSagaState) (made : Option Payment) : Prop where
  sound : ∀ payment, made = some payment → Sound total payment
  recalled : ∀ id, JsString.given known.paymentId = some id →
    ∃ payment, made = some payment ∧ payment.id = id

/-- The payment while a checkout goes forward: made by the third step, settled behind it. -/
structure MoneyForward (total : Money) (position : Nat) (known : CheckoutSagaState)
    (made : Option Payment) : Prop extends Ledger total known made where
  kept : ∀ payment, made = some payment → payment.status ≠ .refunded
  fresh : position ≤ 1 → made = none
  settled : 3 ≤ position → ∃ payment, made = some payment ∧ payment.status = .succeeded

/-- The payment while a checkout is undone: nothing is captured once the third step is. -/
structure MoneyBackward (total : Money) (left : Nat) (known : CheckoutSagaState)
    (made : Option Payment) : Prop extends Ledger total known made where
  returned : left ≤ 2 → ∀ payment, made = some payment → payment.status ≠ .succeeded

section Calls

variable {order known : CheckoutSagaState} {key : String} {world : World MockPaymentProvider}

def madeBy (request : Request) (world : World MockPaymentProvider) (key : String) :
    Option Payment :=
  (handle mockProvider request world).2.payments.paymentFor key

/-- An authorisation keeps the payment there is, or makes one that is sound. -/
theorem authorize_made (blank : known.blank = order) (key : String)
    (world : World MockPaymentProvider) :
    (madeBy (.authorize (authorization known key)) world key = world.payments.paymentFor key ∨
      world.payments.paymentFor key = none ∧ ∃ payment,
        madeBy (.authorize (authorization known key)) world key = some payment ∧
        payment.status = .authorized ∧ Sound (charged order) payment) ∧
    ∀ payment,
      (handle mockProvider (.authorize (authorization known key)) world).1 = .ok payment →
      madeBy (.authorize (authorization known key)) world key = some payment := by
  simp only [madeBy, handle, World.withPayments, mockProvider]
  rcases world.payments.authorize_cases (authorization known key) with
    ⟨error, _, same⟩ | ⟨payment, made, same⟩ |
    ⟨amount, payment, provider', normal, none, same, status, total, refunded, _, made⟩
  · rw [same]
    exact ⟨Or.inl rfl, fun _ wrong => by cases wrong⟩
  · rw [same]
    refine ⟨Or.inl rfl, ?_⟩
    intro other answered
    cases answered
    exact made
  · rw [same]
    have now : provider'.paymentFor key = some payment := (made key).trans (if_pos rfl)
    refine ⟨Or.inr ⟨none, payment, now, status, ?_, Or.inl ⟨Or.inl status, by rw [refunded]⟩⟩, ?_⟩
    · rw [total, (normaliseMoney_eq_ok normal).1, ← blank]
      rfl
    · intro other answered
      cases answered
      exact now

variable {total : Money} {made : Option Payment} {payment : Payment} {made' : Option Payment}
  {position : Nat}

theorem Ledger.authorize (ledger : Ledger total known made)
    (moved : made' = made ∨ made = none ∧ ∃ payment, made' = some payment ∧
      payment.status = .authorized ∧ Sound total payment) : Ledger total known made' := by
  rcases moved with rfl | ⟨rfl, payment, rfl, _, sound⟩
  · exact ledger
  · refine ⟨?_, ?_⟩
    · intro other same
      cases same
      exact sound
    · intro id recalled
      obtain ⟨other, wrong, _⟩ := ledger.recalled id recalled
      cases wrong

theorem Ledger.replace {payment' : Payment} (ledger : Ledger total known (some payment))
    (id : payment'.id = payment.id) (sound : Sound total payment') :
    Ledger total known (some payment') := by
  refine ⟨?_, ?_⟩
  · intro other same
    cases same
    exact sound
  · intro recalled given
    obtain ⟨other, same, named⟩ := ledger.recalled recalled given
    cases same
    exact ⟨payment', rfl, id.trans named⟩

theorem MoneyForward.authorize (money : MoneyForward total 2 known made)
    (moved : made' = made ∨ made = none ∧ ∃ payment, made' = some payment ∧
      payment.status = .authorized ∧ Sound total payment) : MoneyForward total 2 known made' := by
  refine ⟨money.toLedger.authorize moved, ?_, fun early => by omega, fun late => by omega⟩
  intro payment same
  rcases moved with rfl | ⟨_, other, rfl, status, _⟩
  · exact money.kept payment same
  · cases same
    rw [status]
    decide

theorem MoneyForward.status (money : MoneyForward total position known made)
    (there : made = some payment) : (payment.status = .authorized ∨ payment.status = .succeeded) ∧
      payment.amountRefunded.amountMinor = 0 := by
  rcases (money.sound payment there).standing with standing | ⟨refunded, _⟩
  · exact standing
  · exact absurd refunded (money.kept payment there)

theorem MoneyForward.turn (money : MoneyForward total position known made) :
    MoneyBackward total (position + 1) known made := by
  refine ⟨money.toLedger, ?_⟩
  intro few payment same
  rw [money.fresh (by omega)] at same
  cases same

theorem MoneyForward.capture (made : world.payments.paymentFor key = some payment)
    (money : MoneyForward total 2 known (some payment)) :
    ∃ current, madeBy (.capture payment.id) world key = some current ∧
      current.id = payment.id ∧ current.status = .succeeded ∧
      MoneyForward total 2 known (some current) ∧
      ∀ settled, (handle mockProvider (.capture payment.id) world).1 = .ok settled →
        settled = current := by
  simp only [madeBy, handle, World.withPayments, mockProvider]
  rcases capture_of_paymentFor made with
    ⟨_, provider', same, after⟩ | ⟨status, error, _, same⟩
  · refine ⟨{ payment with status := .succeeded }, ?_, rfl, rfl, ?_, ?_⟩
    · rw [same]
      exact (after key).trans (if_pos rfl)
    · refine ⟨money.toLedger.replace rfl ⟨(money.sound payment rfl).amount,
        Or.inl ⟨Or.inr rfl, (money.status rfl).2⟩⟩, ?_, fun early => by omega, fun late => by omega⟩
      intro other same
      cases same
      simp
    · intro settled answered
      rw [same] at answered
      cases answered
      rfl
  · refine ⟨payment, ?_, rfl, ?_, money, ?_⟩
    · rw [same]
      exact made
    · exact (money.status rfl).1.resolve_left status
    · intro settled wrong
      rw [same] at wrong
      cases wrong

/-- A refund returns all of a captured payment, if it does anything. -/
theorem Ledger.refund (made : world.payments.paymentFor key = some payment)
    (ledger : Ledger total known (some payment)) (captured : isRefundable payment.status = true) :
    Ledger total known (madeBy (.refund payment.id) world key) ∧
      ∀ returned, (handle mockProvider (.refund payment.id) world).1 = .ok returned →
        ∀ current, madeBy (.refund payment.id) world key = some current →
          current.status ≠ .succeeded := by
  simp only [madeBy, handle, World.withPayments, mockProvider]
  rcases refund_of_paymentFor made captured with
    ⟨_, error, same⟩ | ⟨returned, provider', same, status, amount, refunded, id, after⟩
  · rw [same]
    refine ⟨made ▸ ledger, ?_⟩
    intro returned wrong
    cases wrong
  · rw [same]
    have now : provider'.paymentFor key = some returned := (after key).trans (if_pos rfl)
    refine ⟨?_, ?_⟩
    · rw [now]
      refine ledger.replace id ⟨amount.trans (ledger.sound payment rfl).amount, Or.inr ⟨status, ?_⟩⟩
      rw [refunded, amount]
    · intro _ _ current there
      rw [now] at there
      cases there
      rw [status]
      decide

end Calls

section Programs

variable {known : CheckoutSagaState} {key : String} {total : Money}
  {world : World MockPaymentProvider} {error : Thrown}

/-- What a part of the third step leaves: a payment going forward, settled if it returns it. -/
def Settles (total : Money) (known : CheckoutSagaState) (key : String)
    (result : Except Thrown Payment) (world : World MockPaymentProvider) : Prop :=
  MoneyForward total 2 known (world.payments.paymentFor key) ∧
    ∀ settled, result = .ok settled →
      world.payments.paymentFor key = some settled ∧ settled.status = .succeeded

theorem settles_error (here : MoneyForward total 2 known (world.payments.paymentFor key)) :
    Settles total known key (.error error) world :=
  ⟨here, fun _ wrong => by cases wrong⟩

variable {payment : Payment}

theorem captureRefused_ensures {current : Payment} (error : Thrown)
    (made : world.payments.paymentFor key = some current) (same : current.id = payment.id)
    (money : MoneyForward total 2 known (some current)) :
    (captureRefused payment error).Ensures (handle mockProvider) world
      (Settles total known key) := by
  have here : MoneyForward total 2 known (world.payments.paymentFor key) := by rwa [made]
  unfold captureRefused
  split
  · exact (ensures_throw _).mpr (settles_error here)
  · refine ensures_request_bind ?_ (fun _ => settles_error here) fun _ => settles_error here
    intro found answered
    have there : found = some current := by
      have answer := find_of_paymentFor made
      rw [same] at answer
      change (find payment.id world.payments).1 = .ok found at answered
      rw [answer] at answered
      cases answered
      rfl
    rw [there]
    dsimp only
    split
    · rename_i captured
      refine (ensures_pure _).mpr ⟨here, ?_⟩
      intro settled returned
      cases returned
      refine ⟨made, ?_⟩
      rcases (money.status rfl).1 with authorized | succeeded
      · rw [authorized] at captured
        cases captured
      · exact succeeded
    · exact (ensures_throw _).mpr (settles_error here)

theorem captureIfNeeded_ensures (made : world.payments.paymentFor key = some payment)
    (money : MoneyForward total 2 known (some payment)) :
    (captureIfNeeded payment).Ensures (handle mockProvider) world (Settles total known key) := by
  have here : MoneyForward total 2 known (world.payments.paymentFor key) := by rwa [made]
  unfold captureIfNeeded
  split
  · rename_i captured
    refine (ensures_pure _).mpr ⟨here, ?_⟩
    intro settled returned
    cases returned
    refine ⟨made, ?_⟩
    rcases (money.status rfl).1 with authorized | succeeded
    · rw [authorized] at captured
      cases captured
    · exact succeeded
  · split
    · exact (ensures_throw _).mpr (settles_error here)
    · obtain ⟨current, now, same, succeeded, moved, answer⟩ := money.capture made
      refine ensures_attempt_bind ?_ ?_ ?_
      · intro settled answered
        rw [answer settled answered]
        refine (ensures_pure _).mpr ⟨?_, ?_⟩
        · rw [← now] at moved
          exact moved
        · intro other returned
          cases returned
          exact ⟨now, succeeded⟩
      · intro error
        exact captureRefused_ensures error now same moved
      · intro error
        exact captureRefused_ensures error made rfl money

/-- The compensation of the third step finds the payment, and makes it if need be. -/
theorem resolvePayment_ensures {order : CheckoutSagaState} (blank : known.blank = order)
    (ledger : Ledger (charged order) known (world.payments.paymentFor key)) :
    (resolvePayment known key).Ensures (handle mockProvider) world fun result world' =>
      Ledger (charged order) known (world'.payments.paymentFor key) ∧
        ∀ found, result = .ok found → ∃ payment, found = some payment ∧
          world'.payments.paymentFor key = some payment := by
  unfold resolvePayment
  split
  · rename_i paymentId present
    obtain ⟨payment, made, rfl⟩ := ledger.recalled _ present
    have answer := find_of_paymentFor made
    refine ensures_request ?_ (fun _ => ⟨ledger, fun _ wrong => by cases wrong⟩)
      fun _ => ⟨ledger, fun _ wrong => by cases wrong⟩
    intro found answered
    change (find payment.id world.payments).1 = .ok found at answered
    rw [answer] at answered
    cases answered
    refine ⟨ledger, ?_⟩
    intro other same
    cases same
    exact ⟨payment, rfl, made⟩
  · obtain ⟨moved, answer⟩ := authorize_made blank key world
    have after := ledger.authorize moved
    refine ensures_request_bind ?_ (fun _ => ⟨after, fun _ wrong => by cases wrong⟩)
      fun _ => ⟨ledger, fun _ wrong => by cases wrong⟩
    intro payment answered
    refine (ensures_pure _).mpr ⟨after, ?_⟩
    intro other same
    cases same
    exact ⟨payment, rfl, answer payment answered⟩

def Returns (total : Money) (known : CheckoutSagaState) (key : String)
    (result : Except Thrown Unit) (world : World MockPaymentProvider) : Prop :=
  MoneyBackward total 3 known (world.payments.paymentFor key) ∧
    (result = .ok () → MoneyBackward total 2 known (world.payments.paymentFor key))

theorem returns_error (ledger : Ledger total known (world.payments.paymentFor key)) :
    Returns total known key (.error error) world :=
  ⟨⟨ledger, fun few => by omega⟩, fun wrong => by cases wrong⟩

theorem returns_ok {result : Except Thrown Unit}
    (ledger : Ledger total known (world.payments.paymentFor key))
    (free : ∀ payment, world.payments.paymentFor key = some payment →
      payment.status ≠ .succeeded) : Returns total known key result world :=
  ⟨⟨ledger, fun _ => free⟩, fun _ => ⟨ledger, fun _ => free⟩⟩

theorem refund_ensures (made : world.payments.paymentFor key = some payment)
    (ledger : Ledger total known (some payment)) (captured : isRefundable payment.status = true) :
    (do
      let _ ← ask (.refund payment.id)
      return () : Checkout Unit).Ensures (handle mockProvider) world (Returns total known key) := by
  obtain ⟨after, freed⟩ := ledger.refund made captured
  refine ensures_request_bind ?_ (fun _ => returns_error after)
    fun _ => returns_error (made ▸ ledger)
  intro returned answered
  exact (ensures_pure _).mpr (returns_ok after (freed returned answered))

theorem MoneyForward.remember {known' : CheckoutSagaState} {settled : Payment}
    (now : world.payments.paymentFor key = some settled) (succeeded : settled.status = .succeeded)
    (filled : known' = { known with paymentId := some settled.id })
    (money : MoneyForward total 2 known (world.payments.paymentFor key)) :
    MoneyForward total 3 known' (world.payments.paymentFor key) := by
  refine ⟨⟨money.sound, ?_⟩, money.kept, fun early => by omega, fun _ => ⟨settled, now, succeeded⟩⟩
  intro id present
  rw [filled] at present
  exact ⟨settled, now, Option.some.inj (Option.filter_eq_some_iff.mp present).1⟩

end Programs

def moneyResource (sagaId : String) (order : CheckoutSagaState) :
    Resource mockProvider sagaId order .payments where
  forward := fun position known provider =>
    MoneyForward (charged order) position known (provider.paymentFor (paymentKey sagaId))
  backward := fun _ left known provider =>
    MoneyBackward (charged order) left known (provider.paymentFor (paymentKey sagaId))
  executed := by
    intro position own known world found service blank here
    obtain ⟨rfl, rfl⟩ := steps_of_service found service
    obtain ⟨moved, answer⟩ := authorize_made blank (paymentKey sagaId) world
    have after := MoneyForward.authorize here moved
    refine ensures_request_bind ?_ (fun _ => ⟨after, fun _ wrong => by cases wrong⟩)
      fun _ => ⟨here, fun _ wrong => by cases wrong⟩
    intro payment answered
    have made := answer payment answered
    refine ensures_bind _ _ ((captureIfNeeded_ensures made (made ▸ after)).weaken ?_)
    intro result world' settles
    cases result with
    | error => exact ⟨settles.1, fun _ wrong => by cases wrong⟩
    | ok settled =>
      refine (ensures_pure _).mpr ⟨settles.1, ?_⟩
      intro patch returned known' patches
      cases returned
      have filled : known' = { known with paymentId := some settled.id } :=
        patches.unique fun _ read => (CheckoutSagaState.ofState_patched read settled.id).2.1
      obtain ⟨money, answered⟩ := settles
      obtain ⟨now, succeeded⟩ := answered settled rfl
      exact MoneyForward.remember now succeeded filled money
  passed := by
    intro position known known' provider other _ paid here
    have apart : position ≠ 2 := by
      rintro rfl
      exact other rfl
    refine ⟨⟨here.sound, ?_⟩, here.kept, fun early => here.fresh (by omega),
      fun late => here.settled (by omega)⟩
    rw [paid rfl]
    exact here.recalled
  compensated := by
    intro turn index own undo known world failure found undone service blank here
    obtain ⟨rfl, rfl⟩ := steps_of_service found service
    cases undone
    change Program.Ensures (handle mockProvider) _ world
      (Returns (charged order) known (paymentKey sagaId))
    refine ensures_bind _ _ ((resolvePayment_ensures blank here.toLedger).weaken ?_)
    intro result world' resolved
    obtain ⟨ledger, answer⟩ := resolved
    cases result with
    | error => exact returns_error ledger
    | ok found =>
      obtain ⟨payment, rfl, made⟩ := answer found rfl
      dsimp only
      split
      · rename_i refunded
        refine (ensures_pure _).mpr (returns_ok ledger ?_)
        intro current there
        rw [made] at there
        cases there
        rw [refunded]
        decide
      · split
        · rename_i uncaptured
          refine (ensures_pure _).mpr (returns_ok ledger ?_)
          intro current there succeeded
          rw [made] at there
          cases there
          rw [succeeded] at uncaptured
          cases uncaptured
        · rename_i captured
          rw [made] at ledger
          exact refund_ensures made ledger (by simpa using captured)
  unwound := by
    intro turn index known provider apart here
    have other : index ≠ 2 := by
      rintro rfl
      rcases apart with wrong | wrong
      · exact wrong rfl
      · cases wrong
    exact ⟨here.toLedger, fun few => here.returned (by omega)⟩

end NestApi.Orders
