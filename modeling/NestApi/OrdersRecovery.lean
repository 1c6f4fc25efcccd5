import NestApi.OrdersRefusal
import NestApi.OrdersTenancy

namespace NestApi.Orders

open Payments Saga RunState

section NoTenant

variable {P : Type} {provider : PaymentProvider P} {α : Type} {config : SagaConfig}

theorem ensures_failed {request : Request} (orders : request.service = .orders)
    (next : Answer request → Checkout α) (world : TenantWorld P) :
    (ask request >>= next).Ensures (handleIn provider none) world fun result _ =>
      ∃ error, result = .error error := by
  refine Program.ensures_request_bind ?_ ?_ ?_
  · intro value answered
    obtain ⟨⟨error, refused⟩, _⟩ := handleIn_none provider request orders world
    rw [refused] at answered
    cases answered
  · intro error
    exact ⟨error, rfl⟩
  · intro error
    exact ⟨error, rfl⟩

theorem settle_ne_returned {α W : Type} {handler : Handler Request Answer Thrown W}
    {program : Checkout α} {world : W}
    (failed : program.Ensures handler world fun result _ => ∃ error, result = .error error)
    (weather : Weather) (patch : α → Option SagaStatePatch) (merged : Option SagaStatePatch) :
    (settle handler weather patch program world).1 ≠ .returned merged := by
  obtain ⟨error, ran⟩ := failed weather.fates
  simp only [settle, ran, Weather.settlement]
  split
  · intro wrong
    cases wrong
  · intro wrong
    cases wrong

theorem confirmOrder_fails (state : CheckoutSagaState) (key : String) (world : TenantWorld P) :
    (confirmOrder.execute state key).Ensures (handleIn provider none) world fun result _ =>
      ∃ error, result = .error error := by
  simp only [confirmOrder]
  split
  · exact ensures_failed rfl _ world
  · exact (Program.ensures_throw _).mpr ⟨_, rfl⟩

/-- With no tenant in scope a checkout can be neither confirmed nor cancelled. -/
theorem checkout_blocked : Blocked checkout (tenantParticipants provider)
    fun attempt => attempt.tenant = none where
  last := by
    intro step context attempt world patch found outside
    obtain ⟨tenant, weather⟩ := attempt
    obtain rfl := outside
    cases found
    simp only [tenantParticipants, participantsOver]
    split
    · rename_i own state named _
      obtain rfl : confirmOrder = own := Option.some.inj named
      exact settle_ne_returned (confirmOrder_fails state _ world) weather id patch
    · intro wrong
      cases wrong
  undoable := by
    intro step found
    cases found
    rfl
  first := by
    intro step context attempt world patch found outside
    obtain ⟨tenant, weather⟩ := attempt
    obtain rfl := outside
    cases found
    simp only [tenantParticipants, participantsOver]
    split
    · rename_i undo state named _
      obtain rfl := Option.some.inj named
      exact settle_ne_returned (ensures_failed rfl _ world) weather _ patch
    · intro wrong
      cases wrong

theorem handleIn_none_orders (request : Request) (world : TenantWorld P) :
    (handleIn provider none request world).2.orders = world.orders := by
  cases request with
  | transact => rw [(handleIn_none provider _ rfl world).2]
  | _ => rfl

theorem settle_orders (weather : Weather) (patch : α → Option SagaStatePatch)
    (program : Checkout α) (world : TenantWorld P) :
    (settle (handleIn provider none) weather patch program world).2.orders = world.orders :=
  program.run_keeps TenantWorld.orders handleIn_none_orders weather.fates world

/-- Nothing the poller drives touches an order. -/
theorem perform_orders (record : SagaInstanceRecord) (world : TenantWorld P)
    (startedAt : Date) (random : ℚ) {attempt : Attempt} (outside : attempt.tenant = none)
    (decision : Decision) :
    (perform config checkout (tenantParticipants provider) record world startedAt random attempt
      decision).world.orders = world.orders := by
  obtain ⟨tenant, weather⟩ := attempt
  obtain rfl := outside
  cases decision with
  | execute | compensate =>
    simp only [perform, tenantParticipants, participantsOver]
    split
    · exact settle_orders ..
    · rfl
  | skip => rfl

theorem recovery_orders {s t : RunState (TenantWorld P)} {actions : List (RunAction Attempt)}
    (run : Steps (Guarded (fun _ action => inScope none action)
      (Executes (act config checkout (tenantParticipants provider)))) s actions t) :
    t.world.orders = s.world.orders := by
  refine Steps.invariant (fun u => u.world.orders = s.world.orders) ?_ run rfl
  intro u action v same taken
  obtain ⟨outside, taken⟩ := taken
  cases acted taken with
  | claimed | refused | stopped => exact same
  | saved _ performed | crashed _ performed =>
    subst performed
    exact (perform_orders _ _ _ _ (outside _ rfl) _).trans same

end NoTenant

/-- An action from a time on which every participant answers and no runner dies, taken with this
tenant in scope. -/
def healthyIn (tenant : Option String) : RunAction Attempt → Bool
  | .claim .. => true
  | .turn _ _ _ _ attempt => attempt.tenant = tenant ∧ attempt.weather.clear
  | .crash .. => false

theorem inScope_of_healthy {tenant : Option String} {action : RunAction Attempt}
    (healthy : healthyIn tenant action = true) : inScope tenant action := by
  intro attempt chosen
  cases action with
  | claim => cases chosen
  | turn =>
    cases chosen
    simp only [healthyIn, decide_eq_true_eq] at healthy
    exact healthy.1
  | crash => cases healthy

def orderStatus {P : Type} (orderId : String) (s : RunState (TenantWorld P)) : Option OrderStatus :=
  (Table.find s.world.orders orderId).map fun owned => owned.row.status

/-- From a saga as it was left, the poller and the requests of its tenant come to the same end, and
the poller to no stuck one. -/
def RecoversLikeRequest {P : Type} (config : SagaConfig) (provider : PaymentProvider P)
    (tenant orderId : String) (s : RunState (TenantWorld P)) : Prop :=
  ∀ first t second u,
    Steps (Guarded (fun _ action => healthyIn none action = true)
      (Executes (act config checkout (tenantParticipants provider)))) s first t →
    isTerminal t.record.status = true →
    Steps (Guarded (fun _ action => healthyIn (some tenant) action = true)
      (Executes (act config checkout (tenantParticipants provider)))) s second u →
    isTerminal u.record.status = true →
    t.record.status = u.record.status ∧ orderStatus orderId t = orderStatus orderId u ∧
      t.record.status ≠ .stuck

/-- Whatever a checkout was left at, recovery can only take it to a stuck end, with its order as it
was, and does so once everyone is healthy. -/
theorem recovery_ends_stuck {P : Type} (provider : PaymentProvider P) (config : SagaConfig)
    (positive : 1 ≤ config.policy.maxAttempts) {tenant userId orderId sagaId : String}
    {input : PlaceOrderInput} {now : Date} {world : TenantWorld P}
    {start s : RunState (TenantWorld P)} {actions : List (RunAction Attempt)}
    (placed : placeOrderIn tenant userId orderId sagaId input now world = .ok start)
    (run : Runs config checkout (tenantParticipants provider) start actions s)
    (left : isTerminal s.record.status = false) :
    (∀ more t, Steps (Guarded (fun _ action => inScope none action)
        (Executes (act config checkout (tenantParticipants provider)))) s more t →
      isTerminal t.record.status = true →
      t.record.status = .stuck ∧ orderStatus orderId t = orderStatus orderId s) ∧
    (∃ more t, Steps (Guarded (fun _ action => healthyIn none action = true)
        (Executes (act config checkout (tenantParticipants provider)))) s more t ∧
      t.record.status = .stuck) ∧
    ¬ RecoversLikeRequest config provider tenant orderId s := by
  have formed := ((defineSaga_eq_ok_iff _ _ _).mp defineSaga_checkout).2
  have invariant : RunInvariant checkout config.policy.maxAttempts s := by
    obtain ⟨saga, began, before, rfl⟩ := placeOrderIn_eq_ok placed
    exact RunInvariant.run formed positive run
  have stuck : ∀ more t, Steps (Guarded (fun _ action => inScope none action)
      (Executes (act config checkout (tenantParticipants provider)))) s more t →
      isTerminal t.record.status = true → t.record.status = .stuck :=
    fun more t onward ended => checkout_blocked.stuck formed positive invariant left onward ended
  have outside : ∀ more t, Steps (Guarded (fun _ action => healthyIn none action = true)
      (Executes (act config checkout (tenantParticipants provider)))) s more t →
      Steps (Guarded (fun _ action => inScope none action)
        (Executes (act config checkout (tenantParticipants provider)))) s more t :=
    fun more t onward => onward.mono (fun _ => True) (fun _ _ _ _ _ => trivial)
      (fun _ _ _ _ taken => ⟨inScope_of_healthy taken.1, taken.2⟩) trivial
  obtain ⟨more, t, recovery, ended⟩ : ∃ more t,
      Steps (Guarded (fun _ action => healthyIn none action = true)
        (Executes (act config checkout (tenantParticipants provider)))) s more t ∧
      isTerminal t.record.status = true :=
    invariant.ends formed positive ⟨none, calm⟩ (fun _ _ _ => rfl) fun _ _ _ _ _ => rfl
  obtain ⟨other, u, request, served⟩ : ∃ other u,
      Steps (Guarded (fun _ action => healthyIn (some tenant) action = true)
        (Executes (act config checkout (tenantParticipants provider)))) s other u ∧
      isTerminal u.record.status = true :=
    invariant.ends formed positive ⟨some tenant, calm⟩ (fun _ _ _ => rfl)
      fun _ _ _ _ _ => by simp [healthyIn, Weather.clear, calm]
  have halted := stuck more t (outside more t recovery) ended
  refine ⟨?_, ⟨more, t, recovery, halted⟩, ?_⟩
  · intro more t onward ended
    refine ⟨stuck more t onward ended, ?_⟩
    rw [orderStatus, recovery_orders onward, orderStatus]
  · intro alike
    exact (alike more t other u recovery ended request served).2.2 halted

def openingTenantWorld : TenantWorld MockPaymentProvider :=
  ⟨Table.empty, [], .seeded, .empty, .empty⟩

/-- Twelve polls, each of a saga that is due again. -/
def polled : List (RunAction Attempt) :=
  (List.range 12).flatMap fun poll =>
    [.claim "poller" (40000 * poll),
      .turn "poller" (40000 * poll) (40000 * poll + 10) 0 ⟨none, calm⟩]

def requested : List (RunAction Attempt) :=
  .claim "request" 0 :: (List.range 5).map fun turn =>
    .turn "request" (10 * turn) (10 * turn + 10) 0 ⟨some "acme", calm⟩

theorem recovery_ends_stuck_desk_and_lamps :
    ∃ start, placeOrderIn "acme" "user" "order" "saga" (deskAndLamps "gb") 0 openingTenantWorld =
        .ok start ∧ isTerminal start.record.status = false ∧
      ∃ more t, Steps (Guarded (fun _ action => healthyIn none action = true) (Executes
        (act defaultConfig checkout (tenantParticipants mockProvider)))) start more t ∧
        t.record.status = .stuck := by
  obtain ⟨start, placed, status⟩ : ∃ start, placeOrderIn "acme" "user" "order" "saga"
      (deskAndLamps "gb") 0 openingTenantWorld = .ok start ∧ start.record.status = .running :=
    ⟨_, rfl, rfl⟩
  have left : isTerminal start.record.status = false := by rw [status]; rfl
  exact ⟨start, placed, left,
    (recovery_ends_stuck mockProvider defaultConfig (by decide) placed (.nil start) left).2.1⟩

/-- A process dies right after the order was placed: a request of its tenant confirms it, the poller
gives it up. -/
theorem crashed_checkout_stuck_by_recovery :
    ∃ start t u, placeOrderIn "acme" "user" "order" "saga" (deskAndLamps "gb") 0
        openingTenantWorld = .ok start ∧
      Steps (Guarded (fun _ action => healthyIn none action = true) (Executes
        (act defaultConfig checkout (tenantParticipants mockProvider)))) start polled t ∧
      Steps (Guarded (fun _ action => healthyIn (some "acme") action = true) (Executes
        (act defaultConfig checkout (tenantParticipants mockProvider)))) start requested
        u ∧
      t.record.status = .stuck ∧ orderStatus "order" t = some .pending ∧
      u.record.status = .completed ∧ orderStatus "order" u = some .confirmed ∧
      ¬ RecoversLikeRequest defaultConfig mockProvider "acme" "order" start := by
  have carried : ∀ scope actions status order, (((placeOrderIn "acme" "user" "order" "saga"
      (deskAndLamps "gb") 0 openingTenantWorld).toOption.bind fun start => execute (fun s action =>
        if healthyIn scope action = true then
          s.act defaultConfig checkout (tenantParticipants mockProvider) action
        else none) start actions).any fun t =>
          t.record.status = status ∧ orderStatus "order" t = order) = true → _ :=
    fun _ _ _ _ => exists_guarded_checkout
  obtain ⟨start, t, placed, recovery, stuck⟩ :=
    carried none polled .stuck (some .pending) (by decide +kernel)
  obtain ⟨again, u, same, request, confirmed⟩ :=
    carried (some "acme") requested .completed (some .confirmed) (by decide +kernel)
  obtain rfl := Except.ok.inj (placed.symm.trans same)
  refine ⟨start, t, u, placed, recovery, request, stuck.1, stuck.2, confirmed.1, confirmed.2, ?_⟩
  intro alike
  exact (alike _ t _ u recovery (by rw [stuck.1]; rfl) request (by rw [confirmed.1]; rfl)).2.2
    stuck.1

end NestApi.Orders
