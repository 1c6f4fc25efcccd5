import NestApi.PaymentsMock
import NestApi.Transition

namespace NestApi.Payments

/-- A number as a caller may pass it. `NaN` and the infinities are known by their text. -/
inductive GivenNumber where
  | finite (value : ℚ)
  | nonFinite (text : String)
  deriving DecidableEq

structure GivenMoney where
  amountMinor : GivenNumber
  currency : String
  deriving DecidableEq

inductive Call where
  | authorize (amount : GivenMoney) (reference : String)
  | capture (paymentId : String)
  | refund (paymentId : String) (amount : Option GivenMoney)
  deriving DecidableEq

/-- What `normaliseMoney` throws for an amount that is not finite: the currency is checked first. -/
def nonFiniteError (currency text : String) : Thrown :=
  match normaliseMoney ⟨0, currency⟩ with
  | .error error => error
  | .ok _ =>
    invalidMoneyError ("Amount must be an integer number of minor units, received " ++ text)

namespace MockPaymentProvider

def refundNonFinite (id currency text : String) (provider : MockPaymentProvider) : Thrown :=
  match provider.payments.get id with
  | none => paymentNotFoundError .mock id
  | some payment =>
    if isRefundable payment.status = false then
      paymentStateError ("Payment " ++ payment.id ++ " cannot be refunded from status \"" ++
        payment.status.text ++ "\"")
    else nonFiniteError currency text

def perform (provider : MockPaymentProvider) :
    Call → Except Thrown Payment × MockPaymentProvider
  | .authorize ⟨.finite value, currency⟩ reference =>
    authorize ⟨⟨value, currency⟩, reference, none⟩ provider
  | .authorize ⟨.nonFinite text, currency⟩ _ => (.error (nonFiniteError currency text), provider)
  | .capture id => capture id provider
  | .refund id (some ⟨.finite value, currency⟩) => refund id (some ⟨value, currency⟩) provider
  | .refund id (some ⟨.nonFinite text, currency⟩) =>
    (.error (refundNonFinite id currency text provider), provider)
  | .refund id none => refund id none provider

end MockPaymentProvider

def Payment.remaining (payment : Payment) : ℚ :=
  payment.amount.amountMinor - payment.amountRefunded.amountMinor

/-- What a refund asks for: its amount, or all that is left. -/
def Payment.asked (payment : Payment) : Option GivenMoney → ℚ
  | some ⟨.finite value, _⟩ => value
  | some ⟨.nonFinite _, _⟩ => 0
  | none => payment.remaining

def Payment.afterRefund (payment : Payment) (requested : ℚ) : Payment :=
  { payment with
    status :=
      if payment.amountRefunded.amountMinor + requested = payment.amount.amountMinor then .refunded
      else .partiallyRefunded
    amountRefunded :=
      ⟨payment.amountRefunded.amountMinor + requested, payment.amount.currency⟩ }

inductive Effect (provider : MockPaymentProvider) :
    Call → Except Thrown Payment → MockPaymentProvider → Prop where
  | refused {call error} : Effect provider call (.error error) provider
  | known {amount reference payment} :
      Effect provider (.authorize amount reference) (.ok payment) provider
  | made {amount reference payment provider'} (fresh : provider.payments.get payment.id = none)
      (status : payment.status = .authorized)
      (refunded : payment.amountRefunded = ⟨0, payment.amount.currency⟩)
      (owed : 0 ≤ payment.amount.amountMinor) (after : ∀ id, provider'.payments.get id =
        if id = payment.id then some payment else provider.payments.get id) :
      Effect provider (.authorize amount reference) (.ok payment) provider'
  | captured {id payment provider'}
      (found : provider.payments.get id = some payment) (status : payment.status = .authorized)
      (after : ∀ other, provider'.payments.get other =
        if other = id then some { payment with status := .succeeded }
        else provider.payments.get other) :
      Effect provider (.capture id) (.ok { payment with status := .succeeded }) provider'
  | refunded {id amount payment provider'} (found : provider.payments.get id = some payment)
      (refundable : isRefundable payment.status = true)
      (positive : 0 ≤ payment.remaining → 0 < payment.asked amount)
      (within : payment.asked amount ≤ payment.remaining)
      (after : ∀ other, provider'.payments.get other =
        if other = id then some (payment.afterRefund (payment.asked amount))
        else provider.payments.get other) :
      Effect provider (.refund id amount) (.ok (payment.afterRefund (payment.asked amount)))
        provider'

section Effects

variable (provider : MockPaymentProvider) {given : Option GivenMoney} {amount : Option Money}

open MockPaymentProvider

theorem authorize_effect (value : ℚ) (currency reference : String) (description : Option String) :
    Effect provider (.authorize ⟨.finite value, currency⟩ reference)
      (authorize ⟨⟨value, currency⟩, reference, description⟩ provider).1
      (authorize ⟨⟨value, currency⟩, reference, description⟩ provider).2 := by
  unfold authorize
  cases normal : normaliseMoney ⟨value, currency⟩ with
  | error => exact .refused
  | ok =>
    dsimp only
    split
    · rename_i existingId named
      obtain ⟨payment, held, _⟩ := provider.named _ _ named
      simp only [require, held]
      exact .known
    · refine .made provider.get_next rfl rfl (normaliseMoney_eq_ok normal).2.2.2.1 fun id => ?_
      exact OrderedMap.get_set ..

theorem capture_effect (id : String) :
    Effect provider (.capture id) (capture id provider).1 (capture id provider).2 := by
  unfold capture
  split
  · exact .refused
  · rename_i payment found
    split
    · exact .refused
    · rename_i authorized
      obtain rfl := (provider.keyed id payment found).1
      exact .captured found (not_not.mp authorized) fun other => OrderedMap.get_set ..

/-- What is granted is what was asked for, and is something unless too much was refunded before. -/
theorem granted_eq_asked {payment : Payment}
    (same : amount = none ∧ given = none ∨ ∃ value currency,
      amount = some ⟨value, currency⟩ ∧ given = some ⟨.finite value, currency⟩)
    {requested : Money} (granted : resolveRefundAmount payment amount = .ok requested) :
    requested.amountMinor = payment.asked given ∧
      (0 ≤ payment.remaining → 0 < payment.asked given) ∧
      payment.asked given ≤ payment.remaining := by
  obtain ⟨_, asked, nonzero, within⟩ := resolveRefundAmount_eq_ok granted
  rcases same with ⟨rfl, rfl⟩ | ⟨value, currency, rfl, rfl⟩
  · cases asked
    refine ⟨rfl, fun left => lt_of_le_of_ne left (Ne.symm nonzero), within⟩
  · obtain ⟨rfl, _, _, signed, _⟩ := normaliseMoney_eq_ok asked
    exact ⟨rfl, fun _ => lt_of_le_of_ne signed (Ne.symm nonzero), within⟩

theorem refund_effect (id : String) (same : amount = none ∧ given = none ∨ ∃ value currency,
      amount = some ⟨value, currency⟩ ∧ given = some ⟨.finite value, currency⟩) :
    Effect provider (.refund id given) (refund id amount provider).1
      (refund id amount provider).2 := by
  unfold refund
  split
  · exact .refused
  · rename_i payment found
    split
    · exact .refused
    · rename_i requested granted
      obtain ⟨equal, positive, within⟩ := granted_eq_asked same granted
      have refundable := (resolveRefundAmount_eq_ok granted).1
      simp only [equal]
      obtain rfl := (provider.keyed id payment found).1
      exact .refunded found refundable positive within fun other => OrderedMap.get_set ..

theorem perform_effect (call : Call) :
    Effect provider call (provider.perform call).1 (provider.perform call).2 := by
  match call with
  | .authorize ⟨.finite value, currency⟩ reference => exact authorize_effect provider ..
  | .authorize ⟨.nonFinite text, currency⟩ reference => exact .refused
  | .capture id => exact capture_effect provider id
  | .refund id (some ⟨.finite value, currency⟩) =>
    exact refund_effect provider id (.inr ⟨value, currency, rfl, rfl⟩)
  | .refund id (some ⟨.nonFinite text, currency⟩) => exact .refused
  | .refund id none => exact refund_effect provider id (.inl ⟨rfl, rfl⟩)

end Effects

/-- A call that was made, with the payment it named as it stood before, and how it ended. -/
structure Entry where
  call : Call
  before : Option Payment
  result : Except Thrown Payment

namespace Entry

def captures (id : String) (entry : Entry) : Bool :=
  match entry.call, entry.result with
  | .capture id', .ok _ => id' = id
  | _, _ => false

def refunds (id : String) (entry : Entry) : Bool :=
  match entry.call, entry.result with
  | .refund id' _, .ok _ => id' = id
  | _, _ => false

def refunded (id : String) (entry : Entry) : ℚ :=
  match entry.call, entry.before with
  | .refund _ amount, some payment => if entry.refunds id then payment.asked amount else 0
  | _, _ => 0

end Entry

structure Till where
  provider : MockPaymentProvider
  log : List Entry

namespace Till

def start : Till := ⟨.empty, []⟩

def named (till : Till) : Call → Option Payment
  | .authorize .. => none
  | .capture id => till.provider.payments.get id
  | .refund id _ => till.provider.payments.get id

def act (till : Till) (call : Call) : Option Till :=
  some ⟨(till.provider.perform call).2,
    till.log ++ [⟨call, till.named call, (till.provider.perform call).1⟩]⟩

end Till

def statusOrder : List PaymentStatus := [.authorized, .succeeded, .partiallyRefunded, .refunded]

inductive Standing (log : List Entry) (id : String) (payment : Payment) : Prop where
  | authorized (status : payment.status = .authorized)
      (refunded : payment.amountRefunded.amountMinor = 0)
      (captures : log.countP (·.captures id) = 0)
  | succeeded (status : payment.status = .succeeded)
      (refunded : payment.amountRefunded.amountMinor = 0)
      (captures : log.countP (·.captures id) = 1)
  | partiallyRefunded (status : payment.status = .partiallyRefunded)
      (some : 0 < payment.amountRefunded.amountMinor)
      (notAll : payment.amountRefunded.amountMinor < payment.amount.amountMinor)
      (captures : log.countP (·.captures id) = 1)
  | refunded (status : payment.status = .refunded)
      (some : 0 < payment.amountRefunded.amountMinor)
      (all : payment.amountRefunded.amountMinor = payment.amount.amountMinor)
      (captures : log.countP (·.captures id) = 1)

structure Balanced (till : Till) : Prop where
  standing : ∀ id payment, till.provider.payments.get id = some payment →
    Standing till.log id payment
  owed : ∀ id payment, till.provider.payments.get id = some payment →
    0 ≤ payment.amount.amountMinor ∧ payment.amountRefunded.currency = payment.amount.currency
  total : ∀ id payment, till.provider.payments.get id = some payment →
    (till.log.map (·.refunded id)).sum = payment.amountRefunded.amountMinor
  untouched : ∀ id, till.provider.payments.get id = none →
    ∀ entry ∈ till.log, entry.captures id = false ∧ entry.refunds id = false
  ordered : ∀ front entry back, till.log = front ++ entry :: back → ∀ id,
    entry.refunds id = true → ∃ earlier ∈ front, earlier.captures id = true

section Balanced

variable {till : Till} {provider' : MockPaymentProvider} {entry : Entry} {log : List Entry}
  {id : String} {payment : Payment}

theorem Entry.refunded_eq_zero (quiet : entry.refunds id = false) : entry.refunded id = 0 := by
  simp only [refunded, quiet, Bool.false_eq_true, if_false]
  split <;> rfl

theorem Standing.append (standing : Standing log id payment) (quiet : entry.captures id = false) :
    Standing (log ++ [entry]) id payment := by
  have same : (log ++ [entry]).countP (·.captures id) = log.countP (·.captures id) := by
    simp [List.countP_append, quiet]
  cases standing with
  | authorized status refunded captures => exact .authorized status refunded (same.trans captures)
  | succeeded status refunded captures => exact .succeeded status refunded (same.trans captures)
  | partiallyRefunded status some notAll captures =>
    exact .partiallyRefunded status some notAll (same.trans captures)
  | refunded status some all captures => exact .refunded status some all (same.trans captures)

theorem Standing.remaining_nonneg (standing : Standing log id payment)
    (owed : 0 ≤ payment.amount.amountMinor) : 0 ≤ payment.remaining := by
  have spent : payment.amountRefunded.amountMinor ≤ payment.amount.amountMinor := by
    cases standing with
    | authorized _ none | succeeded _ none => exact none.trans_le owed
    | partiallyRefunded _ _ notAll => exact notAll.le
    | refunded _ _ all => exact all.le
  exact sub_nonneg.mpr spent

/-- A call keeps the till balanced if it leaves alone what it does not change and what it changes
stands again. -/
theorem Balanced.add (balanced : Balanced till)
    (kept : ∀ id payment, provider'.payments.get id = some payment →
      till.provider.payments.get id = some payment ∧ entry.captures id = false ∧
        entry.refunds id = false ∨
      Standing (till.log ++ [entry]) id payment ∧ 0 ≤ payment.amount.amountMinor ∧
        payment.amountRefunded.currency = payment.amount.currency ∧
        (till.log.map (·.refunded id)).sum + entry.refunded id = payment.amountRefunded.amountMinor)
    (untouched : ∀ id, provider'.payments.get id = none → till.provider.payments.get id = none ∧
      entry.captures id = false ∧ entry.refunds id = false)
    (ordered : ∀ id, entry.refunds id = true → ∃ earlier ∈ till.log, earlier.captures id = true) :
    Balanced ⟨provider', till.log ++ [entry]⟩ where
  standing := by
    intro id payment found
    rcases kept id payment found with ⟨found, quiet, _⟩ | ⟨standing, _⟩
    · exact (balanced.standing id payment found).append quiet
    · exact standing
  owed := by
    intro id payment found
    rcases kept id payment found with ⟨found, _⟩ | ⟨_, owed, currency, _⟩
    · exact balanced.owed id payment found
    · exact ⟨owed, currency⟩
  total := by
    intro id payment found
    simp only [List.map_append, List.sum_append, List.map_cons, List.map_nil, List.sum_singleton]
    rcases kept id payment found with ⟨found, _, quiet⟩ | ⟨_, _, _, total⟩
    · rw [balanced.total id payment found, Entry.refunded_eq_zero quiet, add_zero]
    · exact total
  untouched := by
    intro id none
    obtain ⟨none, quiet⟩ := untouched id none
    exact List.forall_mem_append.mpr
      ⟨balanced.untouched id none, List.forall_mem_singleton.mpr quiet⟩
  ordered := by
    intro front other back split id refunds
    rcases List.eq_nil_or_concat back with rfl | ⟨back, last, rfl⟩
    · obtain ⟨rfl, same⟩ := List.append_inj' split rfl
      cases same
      exact ordered id refunds
    · have split' : till.log ++ [entry] = (front ++ other :: back) ++ [last] := by
        simpa using split
      obtain ⟨same, _⟩ := List.append_inj' split' rfl
      exact balanced.ordered front other back same id refunds

/-- An entry that neither captures nor refunds. -/
def Entry.Quiet (entry : Entry) : Prop :=
  ∀ id, entry.captures id = false ∧ entry.refunds id = false

theorem Balanced.addQuiet (balanced : Balanced till) (quiet : entry.Quiet) :
    Balanced ⟨till.provider, till.log ++ [entry]⟩ := by
  refine balanced.add (fun id payment found => .inl ⟨found, quiet id⟩)
    (fun id none => ⟨none, quiet id⟩) fun id refunds => ?_
  rw [(quiet id).2] at refunds
  cases refunds

theorem Balanced.nothing (balanced : Balanced till) (none : till.provider.payments.get id = none) :
    till.log.countP (·.captures id) = 0 ∧ (till.log.map (·.refunded id)).sum = 0 := by
  have untouched := balanced.untouched id none
  constructor
  · exact List.countP_eq_zero.mpr fun entry mem => by simp [(untouched entry mem).1]
  · refine List.sum_eq_zero fun amount mem => ?_
    obtain ⟨entry, made, rfl⟩ := List.mem_map.mp mem
    exact Entry.refunded_eq_zero (untouched entry made).2

theorem Standing.captured (standing : Standing log id payment)
    (status : payment.status = .authorized) :
    payment.amountRefunded.amountMinor = 0 ∧ log.countP (·.captures id) = 0 := by
  cases standing with
  | authorized _ refunded captures => exact ⟨refunded, captures⟩
  | succeeded other | partiallyRefunded other
  | refunded other => exact nomatch status.symm.trans other

theorem Standing.refundable (standing : Standing log id payment)
    (refundable : isRefundable payment.status = true) :
    0 ≤ payment.amountRefunded.amountMinor ∧ log.countP (·.captures id) = 1 := by
  cases standing with
  | authorized status | refunded status => simp [isRefundable, status] at refundable
  | succeeded _ refunded captures => exact ⟨refunded.ge, captures⟩
  | partiallyRefunded _ some _ captures => exact ⟨some.le, captures⟩

theorem standing_afterRefund {asked : ℚ} (captures : log.countP (·.captures id) = 1)
    (before : 0 ≤ payment.amountRefunded.amountMinor) (positive : 0 < asked)
    (within : asked ≤ payment.remaining) : Standing log id (payment.afterRefund asked) := by
  have more : 0 < payment.amountRefunded.amountMinor + asked :=
    add_pos_of_nonneg_of_pos before positive
  have bound : payment.amountRefunded.amountMinor + asked ≤ payment.amount.amountMinor := by
    rw [Payment.remaining] at within
    linarith
  by_cases all : payment.amountRefunded.amountMinor + asked = payment.amount.amountMinor
  · exact .refunded (by simp [Payment.afterRefund, all]) more all captures
  · exact .partiallyRefunded (by simp [Payment.afterRefund, all]) more (lt_of_le_of_ne bound all)
      captures

theorem Balanced.act {call : Call} (balanced : Balanced till) {till' : Till}
    (taken : till.act call = some till') : Balanced till' := by
  cases taken
  generalize before : till.named call = named
  have effect := perform_effect till.provider call
  generalize (till.provider.perform call).1 = result at effect
  generalize (till.provider.perform call).2 = provider' at effect
  cases effect with
  | refused => exact balanced.addQuiet fun id => by cases call <;> exact ⟨rfl, rfl⟩
  | known => exact balanced.addQuiet fun id => ⟨rfl, rfl⟩
  | @made amount reference payment _ fresh status refunded owed after =>
    refine balanced.add (fun id payment' found => ?_) (fun id none => ?_)
      fun id refunds => by cases refunds
    · rw [after] at found
      split at found
      · rename_i same
        cases found
        subst same
        obtain ⟨captures, total⟩ := balanced.nothing fresh
        have zero : payment.amountRefunded.amountMinor = 0 := by rw [refunded]
        refine .inr ⟨(Standing.authorized status zero captures).append rfl, owed, ?_, ?_⟩
        · rw [refunded]
        · rw [total, zero, Entry.refunded_eq_zero rfl, add_zero]
      · exact .inl ⟨found, rfl, rfl⟩
    · rw [after] at none
      split at none
      · cases none
      · exact ⟨none, rfl, rfl⟩
  | @captured paid payment _ found status after =>
    have standing := (balanced.standing paid payment found).captured status
    refine balanced.add (fun id payment' found' => ?_) (fun id none => ?_)
      fun id refunds => by cases refunds
    · rw [after] at found'
      split at found'
      · rename_i same
        cases found'
        subst same
        refine .inr ⟨.succeeded rfl standing.1 ?_, balanced.owed id payment found |>.1,
          balanced.owed id payment found |>.2, ?_⟩
        · rw [List.countP_append, standing.2, zero_add, List.countP_singleton]
          exact if_pos (decide_eq_true rfl)
        · rw [balanced.total id payment found, Entry.refunded_eq_zero rfl, add_zero]
      · rename_i other
        exact .inl ⟨found', decide_eq_false (Ne.symm other), rfl⟩
    · rw [after] at none
      split at none
      · cases none
      · rename_i other
        exact ⟨none, decide_eq_false (Ne.symm other), rfl⟩
  | @refunded paid amount payment _ found refundable positive within after =>
    have old := balanced.standing paid payment found
    have owed := balanced.owed paid payment found
    obtain ⟨already, captures⟩ := old.refundable refundable
    cases before.symm.trans found
    refine balanced.add (fun id payment' found' => ?_) (fun id none => ?_) fun id refunds => ?_
    · rw [after] at found'
      split at found'
      · rename_i same
        cases found'
        subst same
        have standing := standing_afterRefund captures already
          (positive (old.remaining_nonneg owed.1)) within
        refine .inr ⟨standing.append rfl, owed.1, rfl, ?_⟩
        rw [balanced.total id payment found]
        simp [Entry.refunded, Entry.refunds, Payment.afterRefund]
      · rename_i other
        exact .inl ⟨found', rfl, decide_eq_false (Ne.symm other)⟩
    · rw [after] at none
      split at none
      · cases none
      · rename_i other
        exact ⟨none, rfl, decide_eq_false (Ne.symm other)⟩
    · obtain rfl := of_decide_eq_true refunds
      have positive : 0 < till.log.countP (·.captures paid) := by omega
      exact List.countP_pos_iff.mp positive

end Balanced

section Run

variable {till till' : Till} {id : String} {payment : Payment}

theorem balanced_start : Balanced .start where
  standing := fun _ _ none => nomatch none
  owed := fun _ _ none => nomatch none
  total := fun _ _ none => nomatch none
  untouched := fun _ _ _ none => nomatch none
  ordered := fun front entry back split => by simp [Till.start] at split

/-- What becomes of a payment: the amount and the reference stay, the status moves on. -/
structure Follows (payment payment' : Payment) : Prop where
  amount : payment'.amount = payment.amount
  reference : payment'.reference = payment.reference
  status : statusOrder.idxOf payment.status ≤ statusOrder.idxOf payment'.status

theorem Follows.refl (payment : Payment) : Follows payment payment := ⟨rfl, rfl, le_rfl⟩

theorem Follows.trans {payment' payment'' : Payment} (first : Follows payment payment')
    (second : Follows payment' payment'') : Follows payment payment'' :=
  ⟨second.amount.trans first.amount, second.reference.trans first.reference,
    first.status.trans second.status⟩

theorem follows_afterRefund (refundable : isRefundable payment.status = true) (asked : ℚ) :
    Follows payment (payment.afterRefund asked) := by
  refine ⟨rfl, rfl, ?_⟩
  have status : payment.status = .succeeded ∨ payment.status = .partiallyRefunded := by
    simpa [isRefundable] using refundable
  simp only [Payment.afterRefund]
  rcases status with status | status <;> rw [status] <;> split <;> decide

theorem Till.act_follows {call : Call} (taken : till.act call = some till')
    (found : till.provider.payments.get id = some payment) :
    ∃ payment', till'.provider.payments.get id = some payment' ∧ Follows payment payment' := by
  cases taken
  have effect := perform_effect till.provider call
  generalize (till.provider.perform call).1 = result at effect
  generalize (till.provider.perform call).2 = provider' at effect ⊢
  cases effect with
  | refused | known => exact ⟨payment, found, .refl _⟩
  | made fresh status refunded owed after =>
    refine ⟨payment, ?_, .refl _⟩
    rw [after, if_neg]
    · exact found
    · rintro rfl
      cases fresh.symm.trans found
  | @captured paid old _ held status after =>
    by_cases same : id = paid
    · subst same
      cases Option.some.inj (held.symm.trans found)
      refine ⟨_, (after id).trans (if_pos rfl), rfl, rfl, ?_⟩
      rw [status]
      show statusOrder.idxOf .authorized ≤ statusOrder.idxOf .succeeded
      decide
    · exact ⟨payment, ((after id).trans (if_neg same)).trans found, .refl _⟩
  | @refunded paid amount old _ held refundable positive within after =>
    by_cases same : id = paid
    · subst same
      cases Option.some.inj (held.symm.trans found)
      exact ⟨_, (after id).trans (if_pos rfl), follows_afterRefund refundable _⟩
    · exact ⟨payment, ((after id).trans (if_neg same)).trans found, .refl _⟩

theorem steps_follows {calls : List Call} (run : Steps (Executes Till.act) till calls till')
    (found : till.provider.payments.get id = some payment) :
    ∃ payment', till'.provider.payments.get id = some payment' ∧ Follows payment payment' :=
  run.invariant
    (fun (later : Till) => ∃ payment', later.provider.payments.get id = some payment' ∧
      Follows payment payment')
    (fun _ _ _ ⟨_, held, follows⟩ taken =>
      (Till.act_follows taken held).imp fun _ next => ⟨next.1, follows.trans next.2⟩)
    ⟨payment, found, .refl payment⟩

theorem perform_error {provider : MockPaymentProvider} {call : Call} {error : Thrown}
    (thrown : (provider.perform call).1 = .error error) : (provider.perform call).2 = provider := by
  have effect := perform_effect provider call
  rw [thrown] at effect
  generalize (provider.perform call).2 = provider' at effect ⊢
  cases effect
  rfl

theorem Balanced.captures_le_one (balanced : Balanced till) (id : String) :
    till.log.countP (·.captures id) ≤ 1 := by
  cases found : till.provider.payments.get id with
  | none => exact (balanced.nothing found).1.trans_le zero_le_one
  | some payment =>
    cases balanced.standing id payment found with
    | authorized => omega
    | succeeded => omega
    | partiallyRefunded => omega
    | refunded => omega

theorem Standing.amounts {log : List Entry} (standing : Standing log id payment)
    (owed : 0 ≤ payment.amount.amountMinor) : 0 ≤ payment.amountRefunded.amountMinor ∧
      payment.amountRefunded.amountMinor ≤ payment.amount.amountMinor ∧
      payment.status ∈ statusOrder ∧
      (payment.status = .refunded ↔
        payment.amountRefunded.amountMinor = payment.amount.amountMinor ∧
          0 < payment.amount.amountMinor) ∧
      (payment.status = .partiallyRefunded ↔
        0 < payment.amountRefunded.amountMinor ∧
          payment.amountRefunded.amountMinor < payment.amount.amountMinor) := by
  cases standing with
  | authorized status none | succeeded status none =>
    rw [status, none]
    exact ⟨le_rfl, owed, by decide, ⟨nofun, fun all => absurd all.1 all.2.ne⟩, by simp⟩
  | partiallyRefunded status some notAll =>
    rw [status]
    exact ⟨some.le, notAll.le, by decide, by simp [notAll.ne], by simp [some, notAll]⟩
  | refunded status some all =>
    rw [status, all]
    exact ⟨owed, le_rfl, by decide, by simp [← all, some], by simp⟩

/-- The mock gateway is the state machine the real ones enforce: after any calls, what was refunded
of a payment is what the refunds that succeeded add up to, is within what was paid, and decides the
status; captures come once and before refunds; payments are one for each reference, keep their
amount and move on in the order of `statusOrder`; and a call that throws changes nothing. -/
theorem mock_state_machine {calls : List Call} (run : Steps (Executes Till.act) .start calls till) :
    (∀ id payment, till.provider.payments.get id = some payment →
      (0 ≤ payment.amountRefunded.amountMinor ∧
        payment.amountRefunded.amountMinor ≤ payment.amount.amountMinor ∧
        payment.status ∈ statusOrder ∧
        (payment.status = .refunded ↔
          payment.amountRefunded.amountMinor = payment.amount.amountMinor ∧
            0 < payment.amount.amountMinor) ∧
        (payment.status = .partiallyRefunded ↔
          0 < payment.amountRefunded.amountMinor ∧
            payment.amountRefunded.amountMinor < payment.amount.amountMinor)) ∧
      payment.amountRefunded.currency = payment.amount.currency ∧
      (till.log.map (·.refunded id)).sum = payment.amountRefunded.amountMinor) ∧
    (∀ id, till.log.countP (·.captures id) ≤ 1) ∧
    (∀ front entry back, till.log = front ++ entry :: back → ∀ id, entry.refunds id = true →
      ∃ earlier ∈ front, earlier.captures id = true) ∧
    (∀ id id' payment payment', till.provider.payments.get id = some payment →
      till.provider.payments.get id' = some payment' → payment.reference = payment'.reference →
      id = id') ∧
    (∀ more later, Steps (Executes Till.act) till more later →
      ∀ id payment, till.provider.payments.get id = some payment →
        ∃ payment', later.provider.payments.get id = some payment' ∧ Follows payment payment') ∧
    ∀ call error, (till.provider.perform call).1 = .error error →
      (till.provider.perform call).2 = till.provider := by
  have balanced : Balanced till :=
    run.invariant (fun (till : Till) => Balanced till)
      (fun _ _ _ balanced taken => balanced.act taken) balanced_start
  refine ⟨fun id payment found => ?_, balanced.captures_le_one, balanced.ordered, ?_, ?_, ?_⟩
  · obtain ⟨owed, currency⟩ := balanced.owed id payment found
    exact ⟨(balanced.standing id payment found).amounts owed, currency,
      balanced.total id payment found⟩
  · intro id id' payment payment' found found' same
    have own := (till.provider.keyed id payment found).2
    rw [same, (till.provider.keyed id' payment' found').2] at own
    exact (Option.some.inj own).symm
  · intro more later onward id payment found
    exact steps_follows onward found
  · intro call error thrown
    exact perform_error thrown

/-- Authorised, captured, refunded in part and then for the rest, with two calls refused between. -/
theorem mock_state_machine_settled : ∃ calls till payment,
    Steps (Executes Till.act) .start calls till ∧
    till.provider.payments.get "pay_mock_000001" = some payment ∧ payment.status = .refunded ∧
    payment.amountRefunded.amountMinor = 100 ∧
    (till.log.map (·.refunded "pay_mock_000001")).sum = 100 := by
  let calls : List Call :=
    [.authorize ⟨.finite 100, "eur"⟩ "o-1", .refund "pay_mock_000001" none,
      .capture "pay_mock_000001", .refund "pay_mock_000001" (some ⟨.finite 30, "EUR"⟩),
      .refund "pay_mock_000001" (some ⟨.nonFinite "NaN", "EUR"⟩), .refund "pay_mock_000001" none]
  obtain ⟨till, steps, payment, found, refunded, amount⟩ : ∃ till,
      Steps (Executes Till.act) .start calls till ∧
      ∃ payment, till.provider.payments.get "pay_mock_000001" = some payment ∧
        payment.status = .refunded ∧ payment.amountRefunded.amountMinor = 100 := by
    decide +kernel
  have total := ((mock_state_machine steps).1 _ payment found).2.2
  exact ⟨calls, till, payment, steps, found, refunded, amount, total.trans amount⟩

end Run

end NestApi.Payments
