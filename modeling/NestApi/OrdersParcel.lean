import NestApi.OrdersOutcome

namespace NestApi.Orders

open Payments Saga CheckoutSagaState

/-- Whether the first call of a step gets to its service. -/
def Weather.reaches (weather : Weather) : Bool :=
  match weather.fates with
  | .dropped _ :: _ => false
  | _ => true

/-- Whether the answer to the first call gets back before the step is given up on. -/
def Weather.heard (weather : Weather) : Bool :=
  !weather.stalled &&
    match weather.fates with
    | [] | .answered :: _ => true
    | _ => false

/-- Whether what comes back instead is an error that `create-shipment` takes for final. -/
def Weather.permanent (weather : Weather) : Bool :=
  !weather.stalled &&
    match weather.fates with
    | .lost error :: _ | .dropped error :: _ =>
      error.kind = .unretryable ∨ error.kind = .unservicedDestination
    | _ => false

/-- Whether a parcel is booked under the saga's key once an attempt in this weather is over. -/
def bookedAfter {P : Type} (s : RunState (World P)) (weather : Weather) : Bool :=
  (s.world.shipping.find (shipmentKey s.record.id)).isSome ||
    weather.reaches && (ofState s.record.state).any fun known =>
      isServiced known.shippingCountry

/-- A turn in which `create-shipment` is given up on while a parcel is booked under its key: its
answer is not heard, and there is no attempt left or the error is taken for final. -/
def strands {P : Type} (config : SagaConfig) (s : RunState (World P)) : RunAction Weather → Bool
  | .turn _ _ _ _ weather =>
    s.record.status = .running && s.record.cursor = 3 && bookedAfter s weather &&
      !weather.heard &&
      (weather.permanent || decide (config.policy.maxAttempts ≤ s.record.attempts + 1))
  | _ => false

section Attempt

variable {P : Type} {provider : PaymentProvider P} {known : CheckoutSagaState} {key : String}
  {weather : Weather} {world : World P} {shipment : Shipment}

def shipmentInput (known : CheckoutSagaState) (key : String) : CreateShipmentInput :=
  ⟨known.orderId, known.shippingCountry, known.lines, key⟩

/-- What the step makes of the carrier's answer, or of what comes instead. -/
def shipmentResult : Except Thrown Shipment → Except Thrown (Option SagaStatePatch)
  | .ok shipment => .ok (some [("shipmentId", some (.str shipment.id))])
  | .error error =>
    .error (if error.kind = .unservicedDestination then unretryableStepError error.message
      else error)

theorem createShipment_execute (known : CheckoutSagaState) (key : String) :
    createShipment.execute known key =
      tryAsk (.createShipment (shipmentInput known key)) >>= fun answer =>
        .done (shipmentResult answer) := by
  refine congrArg (tryAsk (.createShipment (shipmentInput known key)) >>= ·) (funext ?_)
  intro answer
  cases answer with
  | ok => rfl
  | error =>
    dsimp only [shipmentResult]
    split <;> rfl

def withBooking (world : World P) (known : CheckoutSagaState) (key : String) : World P :=
  { world with shipping := (world.shipping.createShipment (shipmentInput known key)).2 }

/-- One attempt of `create-shipment`, by the fate of its one call. -/
theorem createShipment_run (fates : List (Fate Thrown)) :
    (createShipment.execute known key).run (handle provider) fates world =
      match fates with
      | [] | .answered :: _ =>
        (shipmentResult (world.shipping.createShipment (shipmentInput known key)).1,
          withBooking world known key)
      | .lost error :: _ => (shipmentResult (.error error), withBooking world known key)
      | .dropped error :: _ => (shipmentResult (.error error), world) := by
  rw [createShipment_execute]
  match fates with
  | [] => rfl
  | .answered :: _ => rfl
  | .lost error :: _ => rfl
  | .dropped error :: _ => rfl

theorem find_after (booked : ((createShipment.execute known key).run (handle provider) weather.fates
      world).2.shipping.find key = some shipment) : world.shipping.find key ≠ none ∨
      weather.reaches = true ∧ isServiced known.shippingCountry = true := by
  have called : (world.shipping.createShipment (shipmentInput known key)).2.find key =
      some shipment → world.shipping.find key ≠ none ∨ isServiced known.shippingCountry = true := by
    intro there
    rcases world.shipping.createShipment_cases (shipmentInput known key) with
      ⟨existing, found, same⟩ | ⟨_, _, same⟩ | ⟨_, serviced, _⟩
    · exact Or.inl (Option.ne_none_iff_exists'.mpr ⟨existing, found⟩)
    · rw [same] at there
      exact Or.inl (Option.ne_none_iff_exists'.mpr ⟨shipment, there⟩)
    · exact Or.inr serviced
  rw [createShipment_run] at booked
  unfold Weather.reaches
  split at booked
  · rename_i none
    rw [none]
    exact (called booked).imp_right fun serviced => ⟨rfl, serviced⟩
  · rename_i answered
    rw [answered]
    exact (called booked).imp_right fun serviced => ⟨rfl, serviced⟩
  · rename_i lost
    rw [lost]
    exact (called booked).imp_right fun serviced => ⟨rfl, serviced⟩
  · exact Or.inl (Option.ne_none_iff_exists'.mpr ⟨shipment, booked⟩)

theorem returned_of_heard (heard : weather.heard = true)
    (booked : ((createShipment.execute known key).run (handle provider) weather.fates
      world).2.shipping.find key = some shipment) :
    ∃ patch, (settle (handle provider) weather id (createShipment.execute known key) world).1 =
      .returned patch := by
  have answers : (world.shipping.createShipment (shipmentInput known key)).2.find key =
      some shipment → ∃ made, (world.shipping.createShipment (shipmentInput known key)).1 =
        .ok made := by
    intro there
    rcases world.shipping.createShipment_cases (shipmentInput known key) with
      ⟨existing, _, same⟩ | ⟨unbooked, _, same⟩ | ⟨_, _, made, _, _, same⟩
    · exact ⟨existing, by rw [same]⟩
    · rw [same] at there
      exact absurd (unbooked.symm.trans there) nofun
    · exact ⟨made, by rw [same]⟩
  rw [createShipment_run] at booked
  simp only [Weather.heard, Bool.and_eq_true, Bool.not_eq_true'] at heard
  obtain ⟨prompt, answered⟩ := heard
  simp only [settle, Weather.settlement, prompt, createShipment_run]
  split at booked
  · obtain ⟨made, ok⟩ := answers booked
    rw [ok]
    exact ⟨_, rfl⟩
  · obtain ⟨made, ok⟩ := answers booked
    rw [ok]
    exact ⟨_, rfl⟩
  · rename_i lost
    rw [lost] at answered
    cases answered
  · rename_i dropped
    rw [dropped] at answered
    cases answered

theorem find_after_ne_none (booked : world.shipping.find key ≠ none ∨
      weather.reaches = true ∧ isServiced known.shippingCountry = true) :
    ((createShipment.execute known key).run (handle provider) weather.fates
      world).2.shipping.find key ≠ none := by
  have called : world.shipping.find key ≠ none ∨ isServiced known.shippingCountry = true →
      (world.shipping.createShipment (shipmentInput known key)).2.find key ≠ none := by
    intro either
    rcases world.shipping.createShipment_cases (shipmentInput known key) with
      ⟨existing, found, same⟩ | ⟨unbooked, unserviced, same⟩ | ⟨_, _, shipment, id, _, same⟩
    · rw [same]
      exact Option.ne_none_iff_exists'.mpr ⟨existing, found⟩
    · rcases either with present | serviced
      · exact absurd unbooked present
      · exact absurd (unserviced.symm.trans serviced) nofun
    · rw [same]
      refine Option.ne_none_iff_exists'.mpr ⟨shipment, ?_⟩
      rw [InMemoryShippingService.find_book, id]
      exact if_pos rfl
  rw [createShipment_run]
  unfold Weather.reaches at booked
  split
  · exact called (booked.imp_right And.right)
  · exact called (booked.imp_right And.right)
  · exact called (booked.imp_right And.right)
  · rename_i dropped
    rw [dropped] at booked
    exact booked.resolve_right fun wrong => by cases wrong.1

/-- An unheard attempt fails, and what comes back tells whether for good. -/
theorem failed_of_unheard (config : SagaConfig) (name : String) (unheard : weather.heard = false) :
    ∃ error, call config name (settle (handle provider) weather id
      (createShipment.execute known key) world).1 = .error error ∧
        (error.unretryable = true ↔ weather.permanent = true) := by
  have thrown : ∀ error, ∃ failure, call config name
      (Weather.settlement ⟨weather.fates, false⟩ ((shipmentResult (.error error)).map id)) =
        .error failure ∧ (failure.unretryable = true ↔
          error.kind = .unretryable ∨ error.kind = .unservicedDestination) := by
    intro error
    refine ⟨_, rfl, ?_⟩
    by_cases unserviced : error.kind = .unservicedDestination
    · simp [unserviced, unretryableStepError]
    · simp [unserviced]
  obtain ⟨fates, stalled⟩ := weather
  simp only [settle, createShipment_run]
  cases stalled with
  | true => exact ⟨sagaStepTimeoutError name config.stepTimeoutMs, rfl, by
      simp [sagaStepTimeoutError, Weather.permanent]⟩
  | false =>
    rcases fates with _ | ⟨_ | error | error, rest⟩
    · cases unheard
    · cases unheard
    · simpa [Weather.permanent] using thrown error
    · simpa [Weather.permanent] using thrown error

end Attempt

def Unbooked (sagaId orderId : String) (shipping : InMemoryShippingService) : Prop :=
  ∀ id shipment, shipping.find id = some shipment →
    id ≠ shipmentKey sagaId ∧ shipment.orderId ≠ orderId

section Unbooked

variable {sagaId orderId : String} {shipping : InMemoryShippingService}

theorem Unbooked.parcel (unbooked : Unbooked sagaId orderId shipping) :
    ParcelForward (shipmentKey sagaId) orderId 0 shipping where
  sole := fun id shipment found ordered => absurd ordered (unbooked id shipment found).2
  own := fun shipment found => absurd rfl (unbooked _ shipment found).1
  fresh := by
    intro _
    cases found : shipping.find (shipmentKey sagaId) with
    | none => rfl
    | some shipment => exact absurd rfl (unbooked _ shipment found).1
  booked := fun late => by omega

theorem ParcelForward.unbooked {position : Nat}
    (parcel : ParcelForward (shipmentKey sagaId) orderId position shipping)
    (none : shipping.find (shipmentKey sagaId) = none) : Unbooked sagaId orderId shipping := by
  have apart : ∀ id shipment, shipping.find id = some shipment → id ≠ shipmentKey sagaId := by
    rintro id shipment found rfl
    rw [none] at found
    cases found
  intro id shipment found
  refine ⟨apart id shipment found, ?_⟩
  intro ordered
  exact apart id shipment found (parcel.sole id shipment found ordered)

end Unbooked

section Turn

variable {P : Type} {provider : PaymentProvider P} {config : SagaConfig} {sagaId : String}
  {order : CheckoutSagaState} {s : RunState (World P)} {random : ℚ} {error : StepError}
  {action : RunAction Weather}

/-- An attempt of `create-shipment` that is given up on and does not strand a parcel leaves
none. -/
theorem unbooked_of_given_up {owner : String} {startedAt savedAt : Date} {weather : Weather}
    {known : CheckoutSagaState}
    (safe : strands config s (.turn owner startedAt savedAt random weather) = false)
    (named : s.record.id = sagaId) (ascending : Ascending checkout s.record 3)
    (read : ofState s.record.state = some known)
    (failed : call config createShipment.name (settle (handle provider) weather id
      (createShipment.execute known (shipmentKey sagaId)) s.world).1 = .error error)
    (final : retryAt config startedAt (s.record.attempts + 1) error random = none) :
    ((createShipment.execute known (shipmentKey sagaId)).run (handle provider) weather.fates
      s.world).2.shipping.find (shipmentKey sagaId) = none := by
  have running : s.record.status = .running := by
    rcases ascending.status with ⟨running, _⟩ | ⟨_, last⟩ | ⟨_, _, past⟩
    · exact running
    · exact absurd last (by decide)
    · exact absurd past (by decide)
  cases booked : ((createShipment.execute known (shipmentKey sagaId)).run (handle provider)
      weather.fates s.world).2.shipping.find (shipmentKey sagaId) with
  | none => rfl
  | some =>
    exfalso
    have unheard : weather.heard = false := by
      by_contra heard
      obtain ⟨patch, returned⟩ := returned_of_heard (by simpa using heard) booked
      rw [returned] at failed
      cases failed
    have after : bookedAfter s weather = true := by
      simp only [bookedAfter, named, read, Option.any_some, Bool.or_eq_true, Bool.and_eq_true]
      exact (find_after booked).imp_left fun present => by
        simpa [Option.isSome_iff_ne_none] using present
    have givenUp : weather.permanent = true ∨
        config.policy.maxAttempts ≤ s.record.attempts + 1 := by
      obtain ⟨other, same, permanent⟩ := failed_of_unheard config _ unheard
      rw [failed] at same
      cases same
      exact (retryAt_eq_none_iff.mp final).imp_left permanent.mp
    have cursor : s.record.cursor = 3 := ascending.cursor
    simp only [strands, running, cursor, after, unheard, decide_true, Bool.not_false,
      Bool.and_true, Bool.true_and, Bool.or_eq_false_iff, decide_eq_false_iff_not] at safe
    rcases givenUp with permanent | last
    · exact absurd permanent (by simp [safe.1])
    · exact safe.2 last

def unbookedOutline (config : SagaConfig) (provider : PaymentProvider P) (sagaId : String)
    (order : CheckoutSagaState) :
    Outline config checkout (checkoutParticipants provider) sagaId
      fun s action => strands config s action = false :=
  (parcelResource provider sagaId order (Unbooked sagaId order.orderId)).outline config _ <| by
    intro s position step owner startedAt savedAt random weather error safe named ascending found
      kind here failed final
    obtain ⟨known, read, blank, parcel⟩ :=
      ((parcelResource provider sagaId order (Unbooked sagaId order.orderId)).execute_at weather
        found (context_key named step none) here).1
    refine ⟨known, read, blank, ParcelForward.unbooked parcel ?_⟩
    obtain ⟨own, here_step, rfl, known_step⟩ := checkout_step found
    rcases checkoutSteps_cases here_step with
      ⟨rfl, _⟩ | ⟨rfl, _⟩ | ⟨rfl, _⟩ | ⟨rfl, rfl⟩ | ⟨_, rfl⟩
    · exact parcel.fresh (by omega)
    · exact parcel.fresh (by omega)
    · exact parcel.fresh (by omega)
    · have settled : (checkoutParticipants provider).execute _ _ weather s.world = _ :=
        execute_eq known_step read weather s.world
      rw [context_key named] at settled
      rw [settled] at failed ⊢
      exact unbooked_of_given_up safe named ascending read failed final
    · exact absurd rfl kind

/-- A saga that gives up on a step that may be undone turns around. -/
theorem perform_given_up {W O : Type} {participants : Participants W O}
    {definition : SagaDefinition} {record : SagaInstanceRecord} {world : W} {startedAt : Date}
    {choice : O} {step : SagaStep} (kind : step.kind ≠ .retriable) (failed : call config step.name
      (participants.execute step (context record step none) choice world).1 = .error error)
    (final : retryAt config startedAt (record.attempts + 1) error random = none) :
    (perform config definition participants record world startedAt random choice
      (.execute step)).progress.status = .compensating := by
  simp [perform, failed, executeStep, final, kind]

theorem at_createShipment (stranded : strands config s action = true)
    (holds : (unbookedOutline config provider sagaId order).Holds s) :
    Ascending checkout s.record 3 ∧ ∃ known, ofState s.record.state = some known := by
  have here : s.record.status = .running ∧ s.record.cursor = 3 := by
    cases action with
    | turn =>
      simp only [strands, Bool.and_eq_true, decide_eq_true_eq] at stranded
      exact stranded.1.1.1
    | claim | crash => cases stranded
  rcases holds with ⟨position, ascending, known, read, _⟩ | ⟨turn, left, unwinding, _⟩
  · have same : position = 3 := by
      have cursor := ascending.cursor
      omega
    exact ⟨same ▸ ascending, known, read⟩
  · exact absurd here.1 unwinding.not_forward.1

/-- A stranding turn leaves the saga on its way back with the parcel booked. -/
theorem booked_of_strands {s t : RunState (World P)}
    (stranded : strands config s action = true) (named : s.record.id = sagaId)
    (holds : (unbookedOutline config provider sagaId order).Holds s)
    (invariant : RunInvariant checkout config.policy.maxAttempts s)
    (taken : s.act config checkout (checkoutParticipants provider) action = some t) :
    t.record.status = .compensating ∧ t.world.shipping.find (shipmentKey sagaId) ≠ none := by
  obtain ⟨ascending, known, read⟩ := at_createShipment stranded holds
  cases acted taken with
  | claimed | stopped | crashed => cases stranded
  | refused inFlight refused => exact (invariant.rowInvariant.not_refused inFlight refused).elim
  | @saved _ _ _ _ weather _ _ decided performed =>
    obtain ⟨next, found, rfl⟩ := ascending.decided decided
    subst performed
    cases found
    simp only [strands, Bool.and_eq_true, Bool.or_eq_true, decide_eq_true_eq,
      Bool.not_eq_true'] at stranded
    obtain ⟨⟨⟨_, booked⟩, unheard⟩, givenUp⟩ := stranded
    have settled : (checkoutParticipants provider).execute _ _ weather s.world = _ :=
      execute_eq (show checkoutStep createShipment.name = some createShipment from rfl)
        (show ofState (context s.record ⟨createShipment.name,
          createShipment.kind⟩ none).state = some known from read) weather s.world
    rw [context_key named] at settled
    obtain ⟨error, failed, permanent⟩ := failed_of_unheard config createShipment.name unheard
    rw [← settled] at failed
    constructor
    · refine perform_given_up (by decide) failed (retryAt_eq_none_iff.mpr ?_)
      exact givenUp.imp_left permanent.mpr
    · change ((checkoutParticipants provider).execute _ _ weather s.world).2.shipping.find _ ≠ none
      rw [settled]
      apply find_after_ne_none
      simp only [bookedAfter, named, read, Option.any_some, Bool.or_eq_true, Bool.and_eq_true,
        Option.isSome_iff_ne_none] at booked
      exact booked

end Turn

def Undone (record : SagaInstanceRecord) : Prop :=
  record.status = .compensating ∨ record.status = .compensated

theorem unbooked_of_undone {P : Type} {provider : PaymentProvider P} {config : SagaConfig}
    {sagaId : String} {order : CheckoutSagaState} {t : RunState (World P)}
    (holds : (unbookedOutline config provider sagaId order).Holds t) (undone : Undone t.record) :
    Unbooked sagaId order.orderId t.world.shipping := by
  rcases holds with ⟨position, ascending, _⟩ | ⟨turn, left, _, _, known, _, _, none⟩
  · exact (undone.elim ascending.not_undone.1 ascending.not_undone.2).elim
  · exact none

/-- In a run that strands no parcel, an order on its way back or cancelled has none, and the first
turn that strands one leaves it booked for such an order. -/
theorem no_parcel_for_cancelled_order_iff {P : Type} (provider : PaymentProvider P)
    (config : SagaConfig) (positive : 1 ≤ config.policy.maxAttempts)
    {userId orderId sagaId : String} {input : PlaceOrderInput} {now : Date} {world : World P}
    {start s : RunState (World P)} {actions : List (RunAction Weather)}
    (unbooked : Unbooked sagaId orderId world.shipping)
    (placed : placeOrder userId orderId sagaId input now world = .ok start)
    (run : Steps (Guarded (fun s action => strands config s action = false)
      (Executes (RunState.act config checkout (checkoutParticipants provider)))) start actions s) :
    (Undone s.record → Unbooked sagaId orderId s.world.shipping) ∧
      ∀ action t, s.act config checkout (checkoutParticipants provider) action = some t →
        ((Undone t.record → Unbooked sagaId orderId t.world.shipping) ↔
          strands config s action = false) := by
  obtain ⟨priced, orders, order, _, _, _, started⟩ := placeOrder_eq_ok placed
  have formed := ((defineSaga_eq_ok_iff _ _ _).mp defineSaga_checkout).2
  have outlined : ∀ {actions t},
      Steps (Guarded (fun s action => strands config s action = false)
        (Executes (RunState.act config checkout (checkoutParticipants provider)))) start actions t →
      (unbookedOutline config provider sagaId
        (placedState userId orderId input priced).blank).Holds t := by
    intro actions t run
    subst started
    exact Outline.holds _ formed positive run rfl ⟨_, ofState_toState _, rfl, unbooked.parcel⟩
  refine ⟨unbooked_of_undone (outlined run), ?_⟩
  intro action t taken
  constructor
  · intro safe
    by_contra stranded
    rw [Bool.not_eq_false] at stranded
    have named : s.record.id = sagaId := (run_id run.of_guarded).trans (by rw [started]; rfl)
    have invariant : RunInvariant checkout config.policy.maxAttempts s := by
      subst started
      exact RunInvariant.run formed positive run.of_guarded
    obtain ⟨back, booked⟩ := booked_of_strands stranded named (outlined run) invariant taken
    obtain ⟨shipment, found⟩ := Option.ne_none_iff_exists'.mp booked
    exact (safe (Or.inl back) _ shipment found).1 rfl
  · intro safe
    exact unbooked_of_undone (outlined (run.snoc ⟨safe, taken⟩))

theorem no_parcel_for_unserved_order :
    ∃ start t, placeOrder "user" "order" "saga" (deskAndLamps "aq") 0 openingWorld = .ok start ∧
      Runs defaultConfig checkout (checkoutParticipants mockProvider) start unservedCheckout t ∧
      t.record.status = .compensated ∧ Unbooked "saga" "order" t.world.shipping := by
  obtain ⟨start, t, placed, run, status⟩ : ∃ start t,
      placeOrder "user" "order" "saga" (deskAndLamps "aq") 0 openingWorld = .ok start ∧
      Steps (Guarded (fun s action => strands defaultConfig s action = false) (Executes
        (RunState.act defaultConfig checkout (checkoutParticipants mockProvider)))) start
        unservedCheckout t ∧ t.record.status = .compensated :=
    exists_guarded_checkout (by decide +kernel)
  exact ⟨start, t, placed, run.of_guarded, status,
    (no_parcel_for_cancelled_order_iff mockProvider defaultConfig (by decide)
      (fun _ _ found => by cases found) placed run).1 (Or.inr status)⟩

/-- The carrier books the parcel at once, and its answer is late six times. -/
def slowCarrier : List (RunAction Weather) :=
  [.claim "a" 0, .turn "a" 0 10 0 calm, .turn "a" 10 20 0 calm, .turn "a" 20 30 0 calm,
    .turn "a" 30 10030 0 ⟨[], true⟩, .claim "a" 20000, .turn "a" 20000 30000 0 ⟨[], true⟩,
    .claim "a" 40000, .turn "a" 40000 50000 0 ⟨[], true⟩, .claim "a" 60000,
    .turn "a" 60000 70000 0 ⟨[], true⟩, .claim "a" 80000, .turn "a" 80000 90000 0 ⟨[], true⟩,
    .claim "a" 100000, .turn "a" 100000 110000 0 ⟨[], true⟩, .turn "a" 110000 110010 0 calm,
    .turn "a" 110010 110020 0 calm, .turn "a" 110020 110030 0 calm, .turn "a" 110030 110040 0 calm]

/-- The order is cancelled and the buyer refunded, and the parcel is on its way. -/
theorem parcel_for_cancelled_order :
    ∃ start t, placeOrder "user" "order" "saga" (deskAndLamps "gb") 0 openingWorld = .ok start ∧
      Runs defaultConfig checkout (checkoutParticipants mockProvider) start slowCarrier t ∧
      t.record.status = .compensated ∧
      (t.world.orders.find "order").map OrderRecord.status = some .cancelled ∧
      (t.world.payments.paymentFor (paymentKey "saga")).map Payment.status = some .refunded ∧
      (t.world.shipping.find (shipmentKey "saga")).map Shipment.orderId = some "order" :=
  exists_checkout (by decide +kernel)

end NestApi.Orders
