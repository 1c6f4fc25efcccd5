import NestApi.OrdersCheckout
import NestApi.SagaOutline

namespace NestApi.Orders

open Payments Saga CheckoutSagaState

/-- What a participant keeps. -/
@[reducible] def View (P : Type) : Service → Type
  | .orders => OrderStore × List OutboxEvent
  | .inventory => InMemoryInventoryService
  | .payments => P
  | .shipping => InMemoryShippingService

def World.view {P : Type} (world : World P) : (service : Service) → View P service
  | .orders => (world.orders, world.outbox)
  | .inventory => world.inventory
  | .payments => world.payments
  | .shipping => world.shipping

def stepService : Nat → Service
  | 1 => .inventory
  | 2 => .payments
  | 3 => .shipping
  | _ => .orders

variable {position : Nat}

theorem checkoutSteps_cases {step : CheckoutStep} (found : checkoutSteps[position]? = some step) :
    (position = 0 ∧ step = acceptOrder) ∨ (position = 1 ∧ step = reserveStock) ∨
      (position = 2 ∧ step = chargePayment) ∨ (position = 3 ∧ step = createShipment) ∨
      (position = 4 ∧ step = confirmOrder) := by
  match position with
  | 0 => exact Or.inl ⟨rfl, (Option.some.inj found).symm⟩
  | 1 => exact Or.inr (Or.inl ⟨rfl, (Option.some.inj found).symm⟩)
  | 2 => exact Or.inr (Or.inr (Or.inl ⟨rfl, (Option.some.inj found).symm⟩))
  | 3 => exact Or.inr (Or.inr (Or.inr (Or.inl ⟨rfl, (Option.some.inj found).symm⟩)))
  | 4 => exact Or.inr (Or.inr (Or.inr (Or.inr ⟨rfl, (Option.some.inj found).symm⟩)))
  | _ + 5 => cases found

def Service.Owns (position : Nat) (step : CheckoutStep) : Service → Prop
  | .orders => position = 0 ∧ step = acceptOrder ∨ position = 4 ∧ step = confirmOrder
  | .inventory => position = 1 ∧ step = reserveStock
  | .payments => position = 2 ∧ step = chargePayment
  | .shipping => position = 3 ∧ step = createShipment

variable {service : Service}
  {undo : CheckoutSagaState → String → Option SagaFailure → Checkout Unit} {step : SagaStep}

theorem steps_of_service {step : CheckoutStep}
    (found : checkoutSteps[position]? = some step) (own : stepService position = service) :
    service.Owns position step := by
  subst own
  rcases checkoutSteps_cases found with
    ⟨rfl, rfl⟩ | ⟨rfl, rfl⟩ | ⟨rfl, rfl⟩ | ⟨rfl, rfl⟩ | ⟨rfl, rfl⟩ <;>
      simp [stepService, Service.Owns]

/-- The part of the state that is settled when the order is placed. -/
def CheckoutSagaState.blank (known : CheckoutSagaState) : CheckoutSagaState :=
  { known with reservationId := none, paymentId := none, shipmentId := none }

/-- What merging a patch does to the state as the steps read it. -/
def Patches (known : CheckoutSagaState) (patch : Option SagaStatePatch)
    (known' : CheckoutSagaState) : Prop :=
  ∀ state, ofState state = some known → ofState (mergeState state patch) = some known'

/-- The step at a position returned a patch that fills in at most its own id. -/
def Fills (position : Nat) (known : CheckoutSagaState) (patch : Option SagaStatePatch) : Prop :=
  ∃ known', Patches known patch known' ∧ known'.blank = known.blank ∧
    (position ≠ 2 → known'.paymentId = known.paymentId)

theorem Patches.unique {known first second : CheckoutSagaState} {patch : Option SagaStatePatch}
    (left : Patches known patch first) (right : Patches known patch second) : first = second := by
  have read := ofState_toState known
  exact Option.some.inj ((left _ read).symm.trans (right _ read))

theorem fills_none (position : Nat) (known : CheckoutSagaState) : Fills position known none :=
  ⟨known, fun _ read => read, rfl, fun _ => rfl⟩

section Within

open Program

theorem ask_within (request : Request) :
    (ask request).Within (fun other => other.service = request.service) fun _ => True :=
  within_request rfl

theorem tryAsk_within (request : Request) :
    (tryAsk request).Within (fun other => other.service = request.service) fun _ => True :=
  within_attempt rfl

theorem captureRefused_within (payment : Payment) (error : Thrown) :
    (captureRefused payment error).Within (fun request => request.service = .payments)
      fun _ => True := by
  unfold captureRefused
  split
  · exact within_throw
  · refine within_bind (ask_within (.findPayment payment.id)) ?_
    intro current _
    cases current with
    | none => exact within_throw
    | some =>
      dsimp only
      split
      · exact within_pure trivial
      · exact within_throw

theorem captureIfNeeded_within (payment : Payment) :
    (captureIfNeeded payment).Within (fun request => request.service = .payments)
      fun _ => True := by
  unfold captureIfNeeded
  split
  · exact within_pure trivial
  · split
    · exact within_throw
    · refine within_bind (tryAsk_within (.capture payment.id)) ?_
      intro answer _
      cases answer with
      | ok => exact within_pure trivial
      | error error => exact captureRefused_within payment error

theorem resolvePayment_within (known : CheckoutSagaState) (key : String) :
    (resolvePayment known key).Within (fun request => request.service = .payments)
      fun _ => True := by
  unfold resolvePayment
  split
  · exact ask_within (.findPayment _)
  · exact within_bind (ask_within (.authorize _)) fun _ _ => within_pure trivial

variable {step : CheckoutStep} (found : checkoutSteps[position]? = some step)

include found

/-- A step calls its own participant only, and fills in its own id only. -/
theorem execute_within (known : CheckoutSagaState) (key : String) :
    (step.execute known key).Within (fun request => request.service = stepService position)
      (Fills position known) := by
  rcases checkoutSteps_cases found with
    ⟨rfl, rfl⟩ | ⟨rfl, rfl⟩ | ⟨rfl, rfl⟩ | ⟨rfl, rfl⟩ | ⟨rfl, rfl⟩
  · refine within_bind (ask_within (.findOrder _)) ?_
    intro order _
    cases order with
    | none => exact within_throw
    | some =>
      dsimp only
      split
      · exact within_pure (fills_none _ _)
      · exact within_bind (ask_within (.transact ..)) fun _ _ => within_pure (fills_none _ _)
  · refine within_bind (tryAsk_within (.reserve _)) ?_
    intro answer _
    cases answer with
    | ok =>
      exact within_pure ⟨_, fun _ read => (ofState_patched read _).1, rfl, fun _ => rfl⟩
    | error =>
      dsimp only
      split <;> exact within_throw
  · refine within_bind (ask_within (.authorize _)) ?_
    intro authorized _
    refine within_bind (captureIfNeeded_within authorized) ?_
    intro settled _
    exact within_pure ⟨_, fun _ read => (ofState_patched read _).2.1, rfl,
      fun other => absurd rfl other⟩
  · refine within_bind (tryAsk_within (.createShipment _)) ?_
    intro answer _
    cases answer with
    | ok =>
      exact within_pure ⟨_, fun _ read => (ofState_patched read _).2.2, rfl, fun _ => rfl⟩
    | error =>
      dsimp only
      split <;> exact within_throw
  · dsimp only [confirmOrder]
    split
    · refine within_bind (ask_within (.findOrder _)) ?_
      intro order _
      cases order with
      | none => exact within_throw
      | some =>
        dsimp only
        split
        · exact within_pure (fills_none _ _)
        · exact within_bind (ask_within (.transact ..)) fun _ _ => within_pure (fills_none _ _)
    · exact within_throw

theorem compensate_within (undone : step.compensate = some undo)
    (known : CheckoutSagaState) (key : String) (failure : Option SagaFailure) :
    (undo known key failure).Within (fun request => request.service = stepService position)
      fun _ => True := by
  rcases checkoutSteps_cases found with
    ⟨rfl, rfl⟩ | ⟨rfl, rfl⟩ | ⟨rfl, rfl⟩ | ⟨rfl, rfl⟩ | ⟨rfl, rfl⟩
  · cases undone
    refine within_bind (ask_within (.findOrder _)) ?_
    intro order _
    cases order with
    | none => exact within_pure trivial
    | some =>
      dsimp only
      split
      · exact within_pure trivial
      · exact ask_within (.transact ..)
  · cases undone
    exact ask_within (.release key)
  · cases undone
    refine within_bind (resolvePayment_within known key) ?_
    intro payment _
    cases payment with
    | none => exact within_pure trivial
    | some payment =>
      dsimp only
      split
      · exact within_pure trivial
      · split
        · exact within_pure trivial
        · exact within_bind (ask_within (.refund payment.id)) fun _ _ => within_pure trivial
  · cases undone
  · cases undone

end Within

section Frame

variable {P : Type} {provider : PaymentProvider P} {request : Request}

theorem handle_view (other : request.service ≠ service)
    (world : World P) : (handle provider request world).2.view service = world.view service := by
  cases request with
  | findOrder => rfl
  | transact id transition =>
    cases moved : world.orders.transition id transition with
    | error => simp only [handle, moved]
    | ok => cases service <;> simp_all [handle, World.view, Request.service]
  | reserve | release | authorize | capture | refund | findPayment
  | createShipment => cases service <;> first | rfl | exact absurd rfl other

theorem handle_other {world : World P}
    (other : stepService position ≠ service) (own : request.service = stepService position) :
    (handle provider request world).2.view service = world.view service :=
  handle_view (own ▸ other) world

theorem checkout_step (found : checkout.steps[position]? = some step) :
    ∃ own, checkoutSteps[position]? = some own ∧ step = ⟨own.name, own.kind⟩ ∧
      checkoutStep own.name = some own := by
  rw [checkout, List.getElem?_map, Option.map_eq_some_iff] at found
  obtain ⟨own, here, same⟩ := found
  refine ⟨own, here, same.symm, ?_⟩
  rcases checkoutSteps_cases here with
    ⟨_, rfl⟩ | ⟨_, rfl⟩ | ⟨_, rfl⟩ | ⟨_, rfl⟩ | ⟨_, rfl⟩ <;> rfl

theorem compensate_of_kind {own : CheckoutStep}
    (found : checkoutSteps[position]? = some own) (kind : own.kind = .compensatable) :
    ∃ undo, own.compensate = some undo := by
  rcases checkoutSteps_cases found with
    ⟨_, rfl⟩ | ⟨_, rfl⟩ | ⟨_, rfl⟩ | ⟨_, rfl⟩ | ⟨_, rfl⟩
  · exact ⟨_, rfl⟩
  · exact ⟨_, rfl⟩
  · exact ⟨_, rfl⟩
  · cases kind
  · cases kind

variable {own : CheckoutStep} {context : SagaStepContext} {known : CheckoutSagaState}

theorem execute_eq (known_step : checkoutStep own.name = some own)
    (read : ofState context.state = some known) (weather : Weather) (world : World P) :
    (checkoutParticipants provider).execute ⟨own.name, own.kind⟩ context weather world =
      settle (handle provider) weather id (own.execute known context.idempotencyKey) world := by
  simp only [checkoutParticipants, participantsOver, known_step, read]

theorem compensate_eq
    (known_step : checkoutStep own.name = some own) (undone : own.compensate = some undo)
    (read : ofState context.state = some known) (weather : Weather) (world : World P) :
    (checkoutParticipants provider).compensate ⟨own.name, own.kind⟩ context weather world =
      settle (handle provider) weather (fun _ => none)
        (undo known context.idempotencyKey context.failure) world := by
  simp [checkoutParticipants, participantsOver, known_step, read, undone]

theorem settle_returned {α : Type} {weather : Weather} {patch : α → Option SagaStatePatch}
    {program : Checkout α} {world : World P} {merged : Option SagaStatePatch}
    (settled : (settle (handle provider) weather patch program world).1 = .returned merged) :
    ∃ value, (program.run (handle provider) weather.fates world).1 = .ok value ∧
      patch value = merged := by
  simp only [settle, Weather.settlement] at settled
  split at settled
  · cases settled
  · cases ran : (program.run (handle provider) weather.fates world).1 with
    | error =>
      rw [ran] at settled
      cases settled
    | ok value =>
      rw [ran] at settled
      cases settled
      exact ⟨value, rfl, rfl⟩

end Frame

/-- What holds of one participant throughout a checkout: in front of each step and, after turning
around, with so many steps left to undo. Only the steps that call it have anything to show. -/
structure Resource {P : Type} (provider : PaymentProvider P) (sagaId : String)
    (order : CheckoutSagaState) (service : Service) where
  forward : Nat → CheckoutSagaState → View P service → Prop
  backward : Nat → Nat → CheckoutSagaState → View P service → Prop
  executed : ∀ {position own known world},
    checkoutSteps[position]? = some own → stepService position = service → known.blank = order →
    forward position known (world.view service) →
    (own.execute known (sagaId ++ ":" ++ own.name)).Ensures (handle provider) world
      fun result world' => forward position known (world'.view service) ∧
        ∀ patch, result = .ok patch → ∀ known', Patches known patch known' →
          forward (position + 1) known' (world'.view service)
  passed : ∀ {position known known' view},
    stepService position ≠ service → known'.blank = known.blank →
    (service = .payments → known'.paymentId = known.paymentId) →
    forward position known view → forward (position + 1) known' view
  compensated : ∀ {turn index own undo known world} failure,
    checkoutSteps[index]? = some own → own.compensate = some undo →
    stepService index = service → known.blank = order →
    backward turn (index + 1) known (world.view service) →
    (undo known (sagaId ++ ":" ++ own.name) failure).Ensures (handle provider) world
      fun result world' => backward turn (index + 1) known (world'.view service) ∧
        (result = .ok () → backward turn index known (world'.view service))
  unwound : ∀ {turn index known view},
    stepService index ≠ service ∨ index = 3 → backward turn (index + 1) known view →
    backward turn index known view

namespace Resource

variable {P : Type} {provider : PaymentProvider P} {sagaId : String} {order : CheckoutSagaState}
  (resource : Resource provider sagaId order service)

def At (assertion : CheckoutSagaState → View P service → Prop) (order : CheckoutSagaState)
    (state : SagaState) (world : World P) : Prop :=
  ∃ known, ofState state = some known ∧ known.blank = order ∧ assertion known (world.view service)

theorem execute_at {context : SagaStepContext}
    {world : World P} (weather : Weather) (found : checkout.steps[position]? = some step)
    (key : context.idempotencyKey = sagaId ++ ":" ++ step.name)
    (here : At (resource.forward position) order context.state world) :
    At (resource.forward position) order context.state
        ((checkoutParticipants provider).execute step context weather world).2 ∧
      ∀ patch, ((checkoutParticipants provider).execute step context weather world).1 =
          .returned patch →
        At (resource.forward (position + 1)) order (mergeState context.state patch)
          ((checkoutParticipants provider).execute step context weather world).2 := by
  obtain ⟨own, here_step, rfl, known_step⟩ := checkout_step found
  obtain ⟨known, read, blank, holds⟩ := here
  rw [execute_eq known_step read]
  have within := execute_within here_step known context.idempotencyKey
  by_cases calls : stepService position = service
  · have ensured := resource.executed here_step calls blank holds weather.fates
    rw [key] at *
    refine ⟨⟨known, read, blank, ensured.1⟩, ?_⟩
    intro patch settled
    obtain ⟨value, ran, rfl⟩ := settle_returned settled
    obtain ⟨known', patches, same, _⟩ := within.returned ran
    exact ⟨known', patches _ read, same.trans blank, ensured.2 value ran known' patches⟩
  · have frame : ((own.execute known context.idempotencyKey).run (handle provider) weather.fates
        world).2.view service = world.view service :=
      within.keeps (fun world : World P => world.view service)
        (fun _ _ own => handle_other calls own) _ _
    refine ⟨⟨known, read, blank, frame.symm ▸ holds⟩, ?_⟩
    intro patch settled
    obtain ⟨value, ran, rfl⟩ := settle_returned settled
    obtain ⟨known', patches, same, paid⟩ := within.returned ran
    refine ⟨known', patches _ read, same.trans blank, ?_⟩
    have paid' : service = .payments → known'.paymentId = known.paymentId := by
      rintro rfl
      exact paid fun two => calls (by rw [two]; rfl)
    exact frame.symm ▸ resource.passed calls same paid' holds

theorem compensate_at {turn index : Nat} {context : SagaStepContext}
    {world : World P} (weather : Weather) (found : checkout.steps[index]? = some step)
    (kind : step.kind = .compensatable) (key : context.idempotencyKey = sagaId ++ ":" ++ step.name)
    (here : At (resource.backward turn (index + 1)) order context.state world) :
    At (resource.backward turn (index + 1)) order context.state
        ((checkoutParticipants provider).compensate step context weather world).2 ∧
      ∀ patch, ((checkoutParticipants provider).compensate step context weather world).1 =
          .returned patch →
        At (resource.backward turn index) order context.state
          ((checkoutParticipants provider).compensate step context weather world).2 := by
  obtain ⟨own, here_step, rfl, known_step⟩ := checkout_step found
  obtain ⟨undo, undone⟩ := compensate_of_kind here_step kind
  obtain ⟨known, read, blank, holds⟩ := here
  rw [compensate_eq known_step undone read]
  by_cases calls : stepService index = service
  · have ensured := resource.compensated context.failure here_step undone calls blank holds
      weather.fates
    rw [key] at *
    refine ⟨⟨known, read, blank, ensured.1⟩, ?_⟩
    intro patch settled
    obtain ⟨value, ran, _⟩ := settle_returned settled
    exact ⟨known, read, blank, ensured.2 ran⟩
  · have within := compensate_within here_step undone known context.idempotencyKey context.failure
    have frame : ((undo known context.idempotencyKey context.failure).run (handle provider)
        weather.fates world).2.view service = world.view service :=
      within.keeps (fun world : World P => world.view service)
        (fun _ _ own => handle_other calls own) _ _
    refine ⟨⟨known, read, blank, frame.symm ▸ holds⟩, ?_⟩
    intro patch _
    exact ⟨known, read, blank, frame.symm ▸ resource.unwound (Or.inl calls) holds⟩

/-- The proof outline of a checkout that follows one of its participants, given what is known
where the saga turns around. -/
def outline (config : SagaConfig) (allowed : RunState (World P) → RunAction Weather → Prop)
    (turned : ∀ {s position step owner startedAt savedAt random weather error},
      allowed s (.turn owner startedAt savedAt random weather) → s.record.id = sagaId →
      Ascending checkout s.record position → checkout.steps[position]? = some step →
      step.kind ≠ .retriable → At (resource.forward position) order s.record.state s.world →
      call config step.name ((checkoutParticipants provider).execute step
        (context s.record step none) weather s.world).1 = .error error →
      retryAt config startedAt (s.record.attempts + 1) error random = none →
      At (resource.backward position (position + 1)) order s.record.state
        ((checkoutParticipants provider).execute step (context s.record step none) weather
          s.world).2) :
    Outline config checkout (checkoutParticipants provider) sagaId allowed where
  forward := fun position => At (resource.forward position) order
  backward := fun turn left => At (resource.backward turn left) order
  executed := fun weather found key here => resource.execute_at weather found key here
  turned := turned
  compensated := fun weather found kind key _ here =>
    resource.compensate_at weather found kind key here
  skipped := by
    intro turn index step state world found kind below pivot here
    obtain ⟨known, read, blank, holds⟩ := here
    refine ⟨known, read, blank, resource.unwound ?_ holds⟩
    have bound : turn ≤ 3 := pivot
    obtain ⟨own, here_step, rfl, _⟩ := checkout_step found
    rcases checkoutSteps_cases here_step with
      ⟨_, rfl⟩ | ⟨_, rfl⟩ | ⟨_, rfl⟩ | ⟨three, _⟩ | ⟨four, _⟩
    · exact absurd rfl kind
    · exact absurd rfl kind
    · exact absurd rfl kind
    · exact Or.inr three
    · omega

def outlineOfTurn (config : SagaConfig)
    (allowed : RunState (World P) → RunAction Weather → Prop)
    (turns : ∀ {position known view}, position ≤ 3 →
      resource.forward position known view → resource.backward position (position + 1) known view) :
    Outline config checkout (checkoutParticipants provider) sagaId allowed :=
  resource.outline config allowed <| by
    intro s position step owner startedAt savedAt random weather error _ named _ found kind here _ _
    have bound : position ≤ 3 := by
      obtain ⟨own, here_step, rfl, _⟩ := checkout_step found
      rcases checkoutSteps_cases here_step with
        ⟨_, _⟩ | ⟨_, _⟩ | ⟨_, _⟩ | ⟨_, _⟩ | ⟨_, rfl⟩
      · omega
      · omega
      · omega
      · omega
      · exact absurd rfl kind
    obtain ⟨known, read, blank, holds⟩ :=
      (resource.execute_at weather found (context_key named step none) here).1
    exact ⟨known, read, blank, turns bound holds⟩

theorem ends {config : SagaConfig} (positive : 1 ≤ config.policy.maxAttempts)
    (turns : ∀ {position known view}, position ≤ 3 →
      resource.forward position known view → resource.backward position (position + 1) known view)
    {correlationId : Option String} {now : Date} {world : World P}
    {actions : List (RunAction Weather)} {t : RunState (World P)}
    (run : Runs config checkout (checkoutParticipants provider)
      (.started ⟨sagaId, checkoutSaga, order.toState, correlationId⟩ now world) actions t)
    (blank : order.blank = order) (start : resource.forward 0 order (world.view service)) :
    (t.record.status = .completed → ∃ known, resource.forward 5 known (t.world.view service)) ∧
    (t.record.status = .compensated →
      ∃ turn known, resource.backward turn 0 known (t.world.view service)) := by
  have formed := ((defineSaga_eq_ok_iff _ _ _).mp defineSaga_checkout).2
  have guarded : Steps (Guarded (fun _ _ => True) (Executes (RunState.act config checkout
      (checkoutParticipants provider)))) _ actions t :=
    run.mono (fun _ => True) (fun _ _ _ _ _ => trivial) (fun _ _ _ _ taken => ⟨trivial, taken⟩)
      trivial
  have holds :=
    (resource.outlineOfTurn config (fun _ _ => True) turns).holds formed positive guarded rfl
    ⟨order, ofState_toState order, blank, start⟩
  constructor
  · intro status
    obtain ⟨known, _, _, here⟩ := holds.completed status
    exact ⟨known, here⟩
  · intro status
    obtain ⟨turn, _, known, _, _, here⟩ := holds.compensated status
    exact ⟨turn, known, here⟩

end Resource

end NestApi.Orders
