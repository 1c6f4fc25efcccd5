import NestApi.CheckThenAct
import NestApi.OrdersOutcome

namespace NestApi.Orders

open CheckThenAct Payments Saga Program

section Finishing

variable {α : Type}

def acting (orderId : String) (transition : OrderTransition) (event : OutboxEvent)
    (after : Except Thrown Unit → Except Thrown α) : Checkout α :=
  .call (.transact orderId transition (some event)) fun answer => .done (after answer)

/-- A call that ends an order unless it has ended that way: it looks the order up, and moves it and
stages the event in a transaction of its own. -/
def finishing (orderId : String) (transition : OrderTransition) (event : OutboxEvent)
    (missing already : Except Thrown α) (after : Except Thrown Unit → Except Thrown α) :
    Checkout α :=
  .call (.findOrder orderId) fun answer =>
    match answer with
    | .error error => .done (.error error)
    | .ok none => .done missing
    | .ok (some order) =>
      if order.status = transition.status then .done already
      else acting orderId transition event after

theorem confirmOrder_finishing {known : CheckoutSagaState} {paymentId shipmentId : String}
    (paid : JsString.given known.paymentId = some paymentId)
    (shipped : JsString.given known.shipmentId = some shipmentId) (key : String) :
    confirmOrder.execute known key =
      finishing known.orderId ⟨.confirmed, none⟩
        (.orderConfirmed known.orderId known.userId paymentId shipmentId)
        (.error (orderGoneError known.orderId)) (.ok none)
        fun answer => answer.map fun _ => none := by
  simp only [confirmOrder, paid, shipped]
  refine congrArg (call (Request.findOrder known.orderId)) (funext ?_)
  intro answer
  match answer with
  | .error error => rfl
  | .ok none => rfl
  | .ok (some order) =>
    refine if_congr Iff.rfl rfl (congrArg (call (Request.transact known.orderId _ _)) (funext ?_))
    intro answer
    cases answer <;> rfl

/-- What undoes `accept-order`. -/
def cancelOrder : CheckoutSagaState → String → Option SagaFailure → Checkout Unit :=
  acceptOrder.compensate.get rfl

theorem cancelOrder_finishing (known : CheckoutSagaState) (key : String)
    (failure : Option SagaFailure) : ∃ reason, cancelOrder known key failure =
      finishing known.orderId ⟨.cancelled, some reason⟩
        (.orderCancelled known.orderId known.userId reason) (.ok ()) (.ok ()) id := by
  refine ⟨(failure.map SagaFailure.message).getD
    (Utf16.ofString "Checkout could not be completed"), ?_⟩
  refine congrArg (call (Request.findOrder known.orderId)) (funext ?_)
  intro answer
  match answer with
  | .error error => rfl
  | .ok none => rfl
  | .ok (some order) => rfl

end Finishing

def unsettled {P : Type} (target : OrderStatus) (orderId : String) (world : World P) : Bool :=
  (world.orders.find orderId).any fun order => order.status ≠ target

section Simulation

variable {P ι α : Type} [DecidableEq ι] {provider : PaymentProvider P} {target : OrderStatus}
  {orderId : String}

def Stands (target : OrderStatus) (orderId : String) (present : Bool) :
    Phase → Checkout α → Prop
  | .ready, program => ∃ transition event missing already after, transition.status = target ∧
      event.announces target orderId = true ∧
      program = finishing orderId transition event missing already after
  | .armed, program => present = true ∧ ∃ transition event after, transition.status = target ∧
      event.announces target orderId = true ∧ program = acting orderId transition event after
  | .done, program => ∃ result, program = .done result

structure Follows (target : OrderStatus) (orderId : String) (staged : Nat)
    (pool : (ι → Checkout α) × World P) (race : Race ι) : Prop where
  phases : ∀ i, Stands target orderId (pool.2.orders.find orderId).isSome (race.phase i) (pool.1 i)
  settled : race.settled = !unsettled target orderId pool.2
  events : announced target orderId pool.2.outbox = staged + race.acts

variable {staged : Nat} {pool : (ι → Checkout α) × World P} {race : Race ι} {i : ι}

section

variable (follows : Follows target orderId staged pool race)

include follows

theorem Follows.check (phase : race.phase i = .ready) :
    Follows target orderId staged (interleave (handle provider) pool i) (race.turn i) := by
  have here := follows.phases i
  rw [phase] at here
  obtain ⟨transition, event, missing, already, after, status, announces, program⟩ := here
  rw [turn_of_ready phase, interleave_call program]
  refine ⟨?_, follows.settled, follows.events⟩
  intro j
  by_cases same : j = i
  · subst same
    simp only [Function.update_self, follows.settled]
    cases found : pool.2.orders.find orderId with
    | none =>
      have nothing : unsettled target orderId pool.2 = false := by simp [unsettled, found]
      rw [nothing]
      refine ⟨missing, ?_⟩
      simp only [handle, found]
    | some order =>
      by_cases ended : order.status = target
      · have nothing : unsettled target orderId pool.2 = false := by
          simp [unsettled, found, ended]
        rw [nothing]
        refine ⟨already, ?_⟩
        simp [handle, found, status, ended]
      · have something : unsettled target orderId pool.2 = true := by
          simp [unsettled, found, ended]
        rw [something]
        refine ⟨Option.isSome_iff_exists.mpr ⟨order, found⟩, transition, event, after, status,
          announces, ?_⟩
        simp [handle, found, status, ended]
  · simp only [Function.update_of_ne same]
    exact follows.phases j

theorem Follows.act (phase : race.phase i = .armed) :
    Follows target orderId staged (interleave (handle provider) pool i) (race.turn i) := by
  have here := follows.phases i
  rw [phase] at here
  obtain ⟨present, transition, event, after, status, announces, program⟩ := here
  rw [turn_of_armed phase, interleave_call program]
  obtain ⟨order, found⟩ := Option.isSome_iff_exists.mp present
  obtain ⟨orders, moved, now⟩ := OrderStore.transition_of_find found transition
  simp only [handle, moved]
  refine ⟨?_, ?_, ?_⟩
  · intro j
    by_cases same : j = i
    · subst same
      simp only [Function.update_self]
      exact ⟨_, rfl⟩
    · have before := follows.phases j
      rw [present] at before
      simp only [Function.update_of_ne same, now, Option.isSome_some]
      exact before
  · simp [unsettled, now, OrderRecord.transitioned, status]
  · have before := follows.events
    simp only [announced, List.countP_append] at *
    simp [before, announces, Nat.add_assoc]

theorem Follows.turn (i : ι) :
    Follows target orderId staged (interleave (handle provider) pool i) (race.turn i) := by
  cases phase : race.phase i with
  | ready => exact follows.check phase
  | armed => exact follows.act phase
  | done =>
    have here := follows.phases i
    rw [phase] at here
    obtain ⟨result, program⟩ := here
    rw [turn_of_done phase, interleave_done program]
    exact follows

theorem Follows.run (schedule : List ι) :
    Follows target orderId staged (schedule.foldl (interleave (handle provider)) pool)
      (schedule.foldl Race.turn race) := by
  induction schedule generalizing pool race with
  | nil => exact follows
  | cons i rest ih => exact ih (follows.turn i)

end

/-- Executions that end one order stage at most one event exactly if there was nothing to end, or no
other that had looked it up was left when the first one wrote. -/
theorem finishing_events_iff {programs : ι → Checkout α} {world : World P}
    (each : ∀ i, Stands target orderId true .ready (programs i)) (schedule : List ι) :
    announced target orderId (schedule.foldl (interleave (handle provider))
        (programs, world)).2.outbox ≤ announced target orderId world.outbox + 1 ↔
      unsettled target orderId world = false ∨ overlaps [] schedule = false := by
  have start : Follows target orderId (announced target orderId world.outbox) (programs, world)
      (Race.start !unsettled target orderId world) :=
    ⟨each, rfl, rfl⟩
  have ended : announced target orderId (schedule.foldl (interleave (handle provider))
      (programs, world)).2.outbox = _ := (start.run schedule).events
  have few := acts_le_one_iff (!unsettled target orderId world) schedule
  rw [Bool.not_eq_true'] at few
  rw [ended, ← few]
  omega

end Simulation

/-- Whether a checkout knows the ids that `confirm-order` announces. -/
def announceable (known : CheckoutSagaState) : Bool :=
  (JsString.given known.paymentId).isSome && (JsString.given known.shipmentId).isSome

theorem confirmOrder_done {known : CheckoutSagaState} (unknown : announceable known = false)
    (key : String) : ∃ result, confirmOrder.execute known key = .done result := by
  unfold announceable at unknown
  cases paid : JsString.given known.paymentId with
  | none => exact ⟨_, by simp only [confirmOrder, paid]; rfl⟩
  | some =>
    cases shipped : JsString.given known.shipmentId with
    | none => exact ⟨_, by simp only [confirmOrder, paid, shipped]; rfl⟩
    | some => simp [paid, shipped] at unknown

/-- Overlapping executions of `confirm-order`, and of what undoes `accept-order`, stage at most one
event exactly if their reads and writes do not overlap. -/
theorem one_outcome_event_iff {P ι : Type} [DecidableEq ι] (provider : PaymentProvider P)
    (known : CheckoutSagaState) (key : String) (failure : ι → Option SagaFailure)
    (world : World P) (schedule : List ι) :
    (announced .confirmed known.orderId (schedule.foldl (interleave (handle provider))
        (fun _ => confirmOrder.execute known key, world)).2.outbox ≤
          announced .confirmed known.orderId world.outbox + 1 ↔
      (announceable known && unsettled .confirmed known.orderId world && overlaps [] schedule) =
        false) ∧
    (announced .cancelled known.orderId (schedule.foldl (interleave (handle provider))
        (fun i => cancelOrder known key (failure i), world)).2.outbox ≤
          announced .cancelled known.orderId world.outbox + 1 ↔
      (unsettled .cancelled known.orderId world && overlaps [] schedule) = false) := by
  constructor
  · cases told : announceable known with
    | false =>
      rw [interleave_ended fun _ => confirmOrder_done told key]
      simp
    | true =>
      simp only [announceable, Bool.and_eq_true, Option.isSome_iff_exists] at told
      obtain ⟨⟨paymentId, paid⟩, shipmentId, shipped⟩ := told
      rw [finishing_events_iff fun _ => ⟨_, _, _, _, _, rfl, ?_,
        confirmOrder_finishing paid shipped key⟩]
      · rw [Bool.true_and, Bool.and_eq_false_iff]
      · simp [OutboxEvent.announces]
  · rw [finishing_events_iff]
    · rw [Bool.and_eq_false_iff]
    · intro i
      obtain ⟨reason, shape⟩ := cancelOrder_finishing known key (failure i)
      exact ⟨_, _, _, _, _, rfl, by simp [OutboxEvent.announces], shape⟩

/-- How often an order is announced once two executions of the same call have both looked it up and
then both written. -/
def announcedTwice {α : Type} (status : OrderStatus) (call : CheckoutSagaState → Checkout α)
    (s : RunState (World MockPaymentProvider)) : Option Nat :=
  (CheckoutSagaState.ofState s.record.state).map fun known =>
    announced status known.orderId ([0, 1, 0, 1].foldl (interleave (handle mockProvider))
      ((fun _ : Fin 2 => call known), s.world)).2.outbox

/-- A slow first attempt and its retry announce a confirmed order twice, and so do those that
cancel one. -/
theorem outcome_announced_twice :
    (∃ start s, placeOrder "user" "order" "saga" (deskAndLamps "gb") 0 openingWorld = .ok start ∧
      Runs defaultConfig checkout (checkoutParticipants mockProvider) start
        [.claim "a" 0, .turn "a" 0 10 0 calm, .turn "a" 10 20 0 calm, .turn "a" 20 30 0 calm,
          .turn "a" 30 40 0 calm] s ∧
      s.record.status = .running ∧ s.record.cursor = 4 ∧
      announcedTwice .confirmed (fun known => confirmOrder.execute known "saga:confirm-order") s =
        some 2) ∧
    ∃ start s, placeOrder "user" "order" "saga" (deskAndLamps "aq") 0 openingWorld = .ok start ∧
      Runs defaultConfig checkout (checkoutParticipants mockProvider) start
        unservedCheckout.dropLast s ∧
      s.record.status = .compensating ∧ s.record.cursor = 0 ∧
      announcedTwice .cancelled (fun known => cancelOrder known "saga:accept-order"
        (some (failureFrom checkout s.record))) s = some 2 := by
  constructor
  · exact exists_checkout (by decide +kernel)
  · exact exists_checkout (by decide +kernel)

end NestApi.Orders
