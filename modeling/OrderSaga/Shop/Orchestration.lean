import OrderSaga.Shop.Basic
import OrderSaga.Degrade

namespace OrderSaga

/-- An order just placed: the order and its saga as stored after the synchronous answers, and the
warnings about participants. -/
structure Placement where
  order : Order
  saga : Saga
  warnings : List String

namespace Shop

/-- Applies a mutation to a stored saga. -/
def updateSaga (sagaId : String) (mutation : Instant → Draft → Except Failure Draft) :
    ShopM (Saga × Effects) := do
  let now ← clock
  onSite .orders (Orchestrator.update sagaId now (mutation now))

def onConfirmationResult (res : StepResult) : ShopM Unit := do
  let _ ← updateSaga res.sagaId (Draft.onConfirmed res)

def onCompensationReport (rep : CompensationReport) : ShopM Unit := do
  let _ ← updateSaga rep.sagaId (Draft.onCompensated rep)

/-- Calls every step's participant, then answers with each call's outcome in step order. -/
def callAll (op : Reservation.Operation) (g : Saga) (steps : List SagaStep) :
    ShopM (List (String × Except Failure (Option Reservation.Result))) :=
  steps.mapM fun st => do pure (st.kind, ← call op st.kind (request g st))

/-- Confirms the synchronous steps and applies their answers. -/
def confirmSync (g : Saga) (steps : List SagaStep) : ShopM Unit := do
  let results ← callAll .confirm g steps
  for (kind, r) in results do
    onConfirmationResult (stepResultOf g kind r (← clock))

def onReservationResult (res : StepResult) : ShopM Unit := do
  let (g, fx) ← updateSaga res.sagaId (Draft.onReserved res)
  confirmSync g fx.confirms

/-- The warnings about participants marked degraded that the saga needs. -/
def degradedWarnings (sh : Shop) (g : Saga) : List String :=
  if !sh.wiring.watchesDegraded then []
  else (g.stepList.filter fun st =>
      st.reserve != .skipped && Degrade.isDegraded sh.degraded st.kind).map
    (·.kind ++ " participant is degraded")

/-- Files one synchronous answer: the first rejection is kept, and an unavailable participant adds a
warning. -/
def fileAnswer (acc : Option Failure × List String) (kind : String)
    (r : Except Failure (Option Reservation.Result)) : Option Failure × List String :=
  match r with
  | .ok _ => acc
  | .error e =>
    if e.isRejection then (acc.1 <|> some e, acc.2)
    else (acc.1, acc.2 ++ [kind ++ " participant temporarily unavailable"])

/-- Reserves at the synchronous participants and applies their answers in step order; answers the
first rejection and the warnings. -/
def reserveSync (g : Saga) : ShopM (Option Failure × List String) := do
  let pending := g.stepList.filter fun st => st.reserve == .pending && st.mode == .sync
  let results ← callAll .reserve g pending
  let mut acc : Option Failure × List String := (none, [])
  for (kind, r) in results do
    acc := fileAnswer acc kind r
    onReservationResult (stepResultOf g kind r (← clock))
  pure acc

def rejected (r : Failure) : Failure :=
  ⟨Condition.orderRejected.text ++ ": " ++ r.message, .orderRejected :: r.conditions⟩

/-- Opens an order: checks the request, draws the order id, and stores the order, its saga reserving
and the reserve commands of the steps on the bus in one transaction. -/
def openOrder (req : OrderRequest) : ShopM Saga := do
  match req.validate with
  | .error e => throw e
  | .ok () => pure ()
  let orderId ← tryCatch nextOrderId fun e => throw (e.wrap "generate order id")
  let sh ← get
  let now := sh.now
  let opened := req.saga (Orchestrator.sagaIdOf sh.orders orderId) orderId sh.mode now
  let saga ← match opened.transitionTo .reserving with
    | .ok g => pure g
    | .error e => throw e
  onSite .orders (Orchestrator.openSaga (req.order orderId now) saga now)
  pure saga

/-- Reserves at the synchronous participants of an opened saga and answers the placement as stored,
with the warnings and the first rejection. -/
def settlePlacement (req : OrderRequest) (saga : Saga) : ShopM (Placement × Option Failure) := do
  let sh ← get
  let orderId := saga.orderId
  let order := req.order orderId sh.now
  let warnings := degradedWarnings sh saga
  let (rejection, unavailable) ← reserveSync saga
  let sh ← get
  let saga := match sh.orders.getSaga saga.sagaId with
    | .ok g => g
    | .error _ => saga
  let order := match sh.orders.getOrder orderId with
    | .ok o => o
    | .error _ => order
  pure (⟨order, saga, warnings ++ unavailable⟩, rejection.map rejected)

/-- Places an order. -/
def placeOrder (req : OrderRequest) : ShopM (Placement × Option Failure) := do
  let saga ← openOrder req
  settlePlacement req saga

end Shop

end OrderSaga
