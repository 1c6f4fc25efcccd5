import NestApi.OrdersOutcome
import NestApi.PaymentsStripe
import NestApi.SagaTermination

namespace NestApi.Orders

open Payments Saga

def Weather.clear (weather : Weather) : Bool :=
  !weather.stalled && weather.fates.all fun fate =>
    match fate with
    | .answered => true
    | _ => false

/-- A turn in which whoever is called answers, unless it is the gateway. -/
def served {P : Type} (s : RunState (World P)) : RunAction Weather → Bool
  | .turn _ _ _ _ weather => s.record.cursor = 2 || weather.clear
  | _ => true

section Clear

variable {P : Type} {provider : PaymentProvider P} {world : World P} {known : CheckoutSagaState}
  {key : String}

theorem settle_of_clear {α : Type} {weather : Weather} {patch : α → Option SagaStatePatch}
    {program : Checkout α} {value : α} (clear : weather.clear = true)
    (ran : (program.run (handle provider) [] world).1 = .ok value) :
    (settle (handle provider) weather patch program world).1 = .returned (patch value) := by
  simp only [Weather.clear, Bool.and_eq_true, Bool.not_eq_true', List.all_eq_true] at clear
  obtain ⟨prompt, answers⟩ := clear
  have answered : ∀ fate ∈ weather.fates, fate = .answered := by
    intro fate member
    have here := answers fate member
    split at here
    · rfl
    · cases here
  simp only [settle, Weather.settlement, prompt, program.run_of_answered answered, ran]
  rfl

theorem acceptOrder_returns {order : OrderRecord}
    (found : world.orders.find known.orderId = some order) :
    ∃ patch, ((acceptOrder.execute known key).run (handle provider) [] world).1 = .ok patch := by
  obtain ⟨orders, moved, _⟩ := OrderStore.transition_of_find found ⟨.processing, none⟩
  refine ⟨none, ?_⟩
  by_cases pending : order.status = .pending
  · simp [acceptOrder, ask, Program.request, bind, Program.bind, Program.run, handle, found,
      pending, moved, pure]
  · simp [acceptOrder, ask, Program.request, bind, Program.bind, Program.run, handle, found,
      pending, pure]

theorem reserveStock_returns
    (covered : world.inventory.find key = none →
      world.inventory.shortage (mergeLines known.lines) = none) :
    ∃ patch, ((reserveStock.execute known key).run (handle provider) [] world).1 = .ok patch := by
  have taken : ∃ reservation,
      (world.inventory.reserve ⟨known.orderId, known.lines, key⟩).1 = .ok reservation := by
    rcases world.inventory.reserve_cases ⟨known.orderId, known.lines, key⟩ with
      ⟨existing, _, same⟩ | ⟨unknown, line, short, _⟩ | ⟨_, _, same⟩
    · exact ⟨existing, by rw [same]⟩
    · rw [covered unknown] at short
      cases short
    · exact ⟨_, by rw [same]⟩
  obtain ⟨reservation, reserved⟩ := taken
  refine ⟨some [("reservationId", some (.str reservation.id))], ?_⟩
  simp [reserveStock, tryAsk, Program.attempt, bind, Program.bind, Program.run, handle,
    World.withInventory, reserved, pure]

end Clear

section Resources

variable {P : Type} (provider : PaymentProvider P) (sagaId : String) (order : CheckoutSagaState)

/-- The shelves, as long as nothing is taken from them for the order. -/
def coverResource : Resource provider sagaId order .inventory where
  forward := fun _ _ inventory => inventory.find (reservationKey sagaId) = none →
    inventory.shortage (mergeLines order.lines) = none
  backward := fun _ _ _ _ => True
  executed := by
    intro position own known world found service blank here
    obtain ⟨rfl, rfl⟩ := steps_of_service found service
    subst blank
    have kept : (world.inventory.reserve
        ⟨known.orderId, known.lines, reservationKey sagaId⟩).2.find (reservationKey sagaId) = none →
        (world.inventory.reserve
          ⟨known.orderId, known.lines, reservationKey sagaId⟩).2.shortage
            (mergeLines known.lines) = none := by
      rcases world.inventory.reserve_cases
        ⟨known.orderId, known.lines, reservationKey sagaId⟩ with
        ⟨_, _, same⟩ | ⟨_, _, _, same⟩ | ⟨_, _, same⟩
      · rw [same]
        exact here
      · rw [same]
        exact here
      · rw [same]
        intro unknown
        rw [InMemoryInventoryService.find_book, if_pos rfl] at unknown
        cases unknown
    refine Program.ensures_attempt_bind ?_ ?_ ?_
    · intro reservation _
      exact (Program.ensures_pure _).mpr ⟨kept, fun _ _ _ _ => kept⟩
    · intro error
      apply ensures_refused
      exact kept
    · intro error
      apply ensures_refused
      exact here
  passed := fun _ _ _ here => here
  compensated := fun _ _ _ _ _ _ _ => ⟨trivial, fun _ => trivial⟩
  unwound := fun _ _ => trivial

variable {provider sagaId}

theorem authorize_ne_ok (refuses : provider.Refuses (paymentKey sagaId))
    (known : CheckoutSagaState) (world : World P) (payment : Payment) :
    (handle provider (.authorize (authorization known (paymentKey sagaId))) world).1 ≠
      .ok payment := by
  intro paid
  obtain ⟨error, refused⟩ := refuses (authorization known (paymentKey sagaId)) world.payments rfl
  change (provider.authorize _ world.payments).1 = .ok payment at paid
  rw [refused] at paid
  cases paid

theorem resolvePayment_of_unpaid {known : CheckoutSagaState} (unpaid : known.paymentId = none)
    (key : String) : resolvePayment known key =
      ask (.authorize (authorization known key)) >>= fun payment => pure (some payment) := by
  rw [resolvePayment, unpaid]
  rfl

/-- A gateway that refuses never gets past the third step, nor back from it. -/
def refusedResource (refuses : provider.Refuses (paymentKey sagaId)) :
    Resource provider sagaId order .payments where
  forward := fun position known _ => position ≤ 2 ∧ known.paymentId = none
  backward := fun turn left known _ =>
    turn ≤ 2 ∧ known.paymentId = none ∧ (turn = 2 → left = 3)
  executed := by
    intro position own known world found service blank here
    obtain ⟨rfl, rfl⟩ := steps_of_service found service
    have stays : ∀ error, (2 ≤ 2 ∧ known.paymentId = none) ∧
        ∀ patch, (.error error : Except Thrown _) = .ok patch →
          ∀ known', Patches known patch known' → 2 + 1 ≤ 2 ∧ known'.paymentId = none :=
      fun error => ⟨here, fun _ wrong => by cases wrong⟩
    refine Program.ensures_request_bind ?_ stays stays
    intro payment paid
    exact absurd paid (authorize_ne_ok refuses known world payment)
  passed := by
    intro position known known' payments other _ unpaid here
    have apart : position ≠ 2 := by
      rintro rfl
      exact other rfl
    exact ⟨by omega, (unpaid rfl).trans here.2⟩
  compensated := by
    intro turn index own undo known world failure found undone service blank here
    obtain ⟨rfl, rfl⟩ := steps_of_service found service
    cases undone
    refine Program.ensures_bind _ _ ?_
    rw [resolvePayment_of_unpaid here.2.1]
    refine Program.ensures_request_bind ?_ ?_ ?_
    · intro payment paid
      exact absurd paid (authorize_ne_ok refuses known world payment)
    · intro error
      exact ⟨here, fun wrong => by cases wrong⟩
    · intro error
      exact ⟨here, fun wrong => by cases wrong⟩
  unwound := by
    intro turn index known payments apart here
    refine ⟨here.1, here.2.1, ?_⟩
    intro two
    have left := here.2.2 two
    rcases apart with other | three
    · exact absurd (show stepService index = .payments by rw [show index = 2 by omega]; rfl) other
    · omega

end Resources

section Outline

variable {P : Type} {provider : PaymentProvider P} {sagaId : String}

theorem not_failed_of_returns {config : SagaConfig} {own : CheckoutStep}
    {record : SagaInstanceRecord} {known : CheckoutSagaState} {weather : Weather}
    {world : World P} {error : StepError} (named : record.id = sagaId)
    (known_step : checkoutStep own.name = some own)
    (read : CheckoutSagaState.ofState record.state = some known) (clear : weather.clear = true)
    (returns : ∃ patch, ((own.execute known (sagaId ++ ":" ++ own.name)).run
      (handle provider) [] world).1 = .ok patch) :
    call config own.name ((checkoutParticipants provider).execute ⟨own.name, own.kind⟩
      (context record ⟨own.name, own.kind⟩ none) weather world).1 ≠ .error error := by
  obtain ⟨patch, ran⟩ := returns
  have settled : (checkoutParticipants provider).execute ⟨own.name, own.kind⟩
      (context record ⟨own.name, own.kind⟩ none) weather world = _ :=
    execute_eq known_step read weather world
  rw [settled, context_key named, settle_of_clear clear ran]
  intro wrong
  cases wrong

/-- A checkout whose gateway refuses, while everything else answers. -/
def refusalOutline (config : SagaConfig) (refuses : provider.Refuses (paymentKey sagaId))
    (order : CheckoutSagaState) :
    Outline config checkout (checkoutParticipants provider) sagaId
      fun s action => served s action = true :=
  ((((orderResource provider sagaId order).outlineOfTurn config _
          fun early here => here.turn early).both
        ((stockResource provider sagaId order).outlineOfTurn config _
          fun _ here => StockForward.turn here)).both
      (((coverResource provider sagaId order).outlineOfTurn config _ fun _ _ => trivial).both
        ((refusedResource order refuses).outlineOfTurn config _ fun _ here =>
          ⟨here.1, here.2, fun two => by omega⟩))).barring (fun position => position ≤ 1) <| by
    intro s position step owner startedAt savedAt random weather error early permitted named
      ascending found here
    obtain ⟨⟨⟨known, read, blank, record, there, _⟩, _⟩, ⟨known', read', blank', covered⟩, _⟩ :=
      here
    obtain ⟨own, here_step, rfl, known_step⟩ := checkout_step found
    have clear : weather.clear = true := by
      have cursor := ascending.cursor
      simp only [served, Bool.or_eq_true, decide_eq_true_eq] at permitted
      exact permitted.resolve_left fun two => by omega
    rcases checkoutSteps_cases here_step with
      ⟨_, rfl⟩ | ⟨_, rfl⟩ | ⟨two, _⟩ | ⟨three, _⟩ | ⟨four, _⟩
    · apply not_failed_of_returns named known_step read clear
      subst blank
      exact acceptOrder_returns there
    · apply not_failed_of_returns named known_step read' clear
      subst blank'
      exact reserveStock_returns covered
    · omega
    · omega
    · omega

end Outline

/-- What a refused payment leaves behind: an order that is not cancelled, and its stock. -/
structure Stranded {P : Type} (sagaId orderId : String) (world : World P) : Prop where
  order : ∃ order, world.orders.find orderId = some order ∧ order.status ≠ .cancelled
  stock : ∃ reservation, world.inventory.find (reservationKey sagaId) = some reservation ∧
    reservation.held = true

theorem stuck_of_terminal {P : Type} {provider : PaymentProvider P} {config : SagaConfig}
    {sagaId : String} {order : CheckoutSagaState} {refuses : provider.Refuses (paymentKey sagaId)}
    {t : RunState (World P)} (holds : (refusalOutline config refuses order).Holds t)
    (terminal : isTerminal t.record.status = true) :
    t.record.status = .stuck ∧ Stranded sagaId order.orderId t.world := by
  have boundary : boundary checkout.steps = 3 := rfl
  have size : checkout.size = 5 := rfl
  rcases holds with ⟨position, ascending, here⟩ | ⟨turn, left, unwinding, cursor, here⟩
  · exfalso
    obtain ⟨_, _, _, _, _, early, _⟩ := here
    rcases ascending.status with ⟨running, _⟩ | ⟨_, last⟩ | ⟨_, _, past⟩
    · rw [running] at terminal
      cases terminal
    · omega
    · omega
  · obtain ⟨late, ⟨⟨_, _, _, record, found, stands, _⟩, _, _, _, stock⟩, _, _, _, _, early, _,
      all⟩ := here
    obtain rfl : turn = 2 := by omega
    obtain rfl := all rfl
    refine ⟨?_, ⟨record, found, stands.2.1 (by omega)⟩, stock.kept (by omega)⟩
    rcases unwinding.status with ⟨back, _⟩ | ⟨_, gone⟩ | ⟨stuck, _⟩
    · rw [back] at terminal
      cases terminal
    · omega
    · exact stuck

/-- A refused payment never unwinds: undoing the charge asks for the payment again, so the checkout
can end only stuck, and from everywhere it can. -/
theorem refused_payment_ends_stuck {P : Type} (provider : PaymentProvider P) (config : SagaConfig)
    (positive : 1 ≤ config.policy.maxAttempts) {userId orderId sagaId : String}
    {input : PlaceOrderInput} {now : Date} {world : World P} {priced : PricedOrder}
    {start s : RunState (World P)} {actions : List (RunAction Weather)}
    (refuses : provider.Refuses (paymentKey sagaId)) (unused : Unused sagaId orderId world)
    (accepted : priceOrder input.lines = .ok priced)
    (stocked : world.inventory.shortage
      (mergeLines (placedState userId orderId input priced).lines) = none)
    (placed : placeOrder userId orderId sagaId input now world = .ok start)
    (run : Steps (Guarded (fun s action => served s action = true)
      (Executes (RunState.act config checkout (checkoutParticipants provider)))) start actions s) :
    (isTerminal s.record.status = true →
      s.record.status = .stuck ∧ Stranded sagaId orderId s.world) ∧
    ∃ more t, Steps (Guarded (fun s action => served s action = true)
        (Executes (RunState.act config checkout (checkoutParticipants provider)))) s more t ∧
      t.record.status = .stuck ∧ Stranded sagaId orderId t.world := by
  obtain ⟨_, orders, order, same, found, pending, started⟩ := placeOrder_eq_ok placed
  rw [accepted] at same
  cases same
  have formed := ((defineSaga_eq_ok_iff _ _ _).mp defineSaga_checkout).2
  have outlined : ∀ {actions t},
      Steps (Guarded (fun s action => served s action = true)
        (Executes (RunState.act config checkout (checkoutParticipants provider)))) start actions t →
      (refusalOutline config refuses (placedState userId orderId input priced)).Holds t := by
    intro actions t run
    subst started
    have read := CheckoutSagaState.ofState_toState (placedState userId orderId input priced)
    exact Outline.holds _ formed positive run rfl
      ⟨⟨⟨_, read, rfl, unused.order found pending _ _ _ _⟩, ⟨_, read, rfl, unused.stock⟩⟩,
        ⟨_, read, rfl, fun _ => stocked⟩, ⟨_, read, rfl, by omega, rfl⟩⟩
  have invariant : RunInvariant checkout config.policy.maxAttempts s := by
    subst started
    exact RunInvariant.run formed positive run.of_guarded
  refine ⟨stuck_of_terminal (outlined run), ?_⟩
  obtain ⟨more, t, onward, ended⟩ : ∃ more t,
      Steps (Guarded (fun s action => served s action = true)
      (Executes (RunState.act config checkout (checkoutParticipants provider)))) s more t ∧
      isTerminal t.record.status = true :=
    invariant.ends formed positive calm (fun _ _ _ => rfl)
      fun _ _ _ _ _ => by simp [served, Weather.clear, calm]
  exact ⟨more, t, onward, stuck_of_terminal (outlined (run.append onward)) ended⟩

def cardDeclined : HttpJsonResponse :=
  ⟨402, .obj [("error", .obj [("type", .str "card_error"), ("code", .str "card_declined"),
    ("message", .str "Your card was declined.")])]⟩

def decliningStripe : PaymentProvider Unit :=
  stripeProvider (.configured (some "sk_test") none none) fun _ s => (.ok cardDeclined, s)

theorem decliningStripe_refuses (reference : String) : decliningStripe.Refuses reference := by
  apply stripe_refuses
  intro request s response _ answered
  cases answered
  rfl

def declinedPayment : List (RunAction Weather) :=
  [.claim "a" 0, .turn "a" 0 10 0 calm, .turn "a" 10 20 0 calm, .turn "a" 20 30 0 calm,
    .claim "a" 20000, .turn "a" 20000 20010 0 calm, .claim "a" 40000,
    .turn "a" 40000 40010 0 calm, .claim "a" 60000, .turn "a" 60000 60010 0 calm,
    .claim "a" 80000, .turn "a" 80000 80010 0 calm, .claim "a" 100000,
    .turn "a" 100000 100010 0 calm]

def declinedRefund : List (RunAction Weather) :=
  [.turn "a" 100010 100020 0 calm, .claim "a" 120000, .turn "a" 120000 120010 0 calm,
    .claim "a" 140000, .turn "a" 140000 140010 0 calm, .claim "a" 160000,
    .turn "a" 160000 160010 0 calm, .claim "a" 180000, .turn "a" 180000 180010 0 calm,
    .claim "a" 200000, .turn "a" 200000 200010 0 calm]

theorem refused_payment_ends_stuck_declined_card :
    ∃ start s, placeOrder "user" "order" "saga" (deskAndLamps "gb") 0 (newWorld ()) = .ok start ∧
      Runs defaultConfig checkout (checkoutParticipants decliningStripe) start declinedPayment s ∧
      s.record.status = .compensating ∧
      ∃ more t, Runs defaultConfig checkout (checkoutParticipants decliningStripe) s more t ∧
        t.record.status = .stuck ∧ Stranded "saga" "order" t.world := by
  obtain ⟨start, s, placed, run, status⟩ : ∃ start s,
      placeOrder "user" "order" "saga" (deskAndLamps "gb") 0 (newWorld ()) = .ok start ∧
      Steps (Guarded (fun s action => served s action = true) (Executes (RunState.act defaultConfig
        checkout (checkoutParticipants decliningStripe)))) start declinedPayment s ∧
      s.record.status = .compensating := exists_guarded_checkout (by decide +kernel)
  obtain ⟨more, t, onward, ended⟩ := (refused_payment_ends_stuck decliningStripe defaultConfig
    (by decide) (decliningStripe_refuses _) (newWorld_unused "saga" "order" ())
    (deskAndLamps_priced "gb") (by decide +kernel) placed run).2
  exact ⟨start, s, placed, run.of_guarded, status, more, t, onward.of_guarded, ended⟩

/-- A declined card: the saga is stuck, the order in process and the stock held. -/
theorem declined_card_strands_checkout :
    ∃ start t, placeOrder "user" "order" "saga" (deskAndLamps "gb") 0 (newWorld ()) = .ok start ∧
      Steps (Guarded (fun s action => served s action = true) (Executes (RunState.act defaultConfig
        checkout (checkoutParticipants decliningStripe)))) start
        (declinedPayment ++ declinedRefund) t ∧
      t.record.status = .stuck ∧
      (t.world.orders.find "order").map OrderRecord.status = some .processing ∧
      (t.world.inventory.find (reservationKey "saga")).map StockReservation.held = some true :=
  exists_guarded_checkout (by decide +kernel)

end NestApi.Orders
