import OrderSaga.Saga.Draft
import OrderSaga.Store.Records
import OrderSaga.Store.Envelope
import OrderSaga.Reservation.Codes
import OrderSaga.Time.Duration

namespace OrderSaga

/-- An order as the customer places it: product options with quantities, at most one coupon, and
points to spend. -/
structure OrderRequest where
  userId : UInt64
  items : List (UInt64 × Int64)
  couponId : UInt64 := 0
  points : Int64 := 0
  deriving DecidableEq, Repr

namespace OrderRequest

def invalid (detail : String) : Failure := Condition.fail .invalidOrder detail

/-- A request needs a user and at least one item; every item a product option and a positive
quantity; the points may not be negative. -/
def validate (r : OrderRequest) : Except Failure Unit :=
  if r.userId == 0 then .error (invalid "user id is required")
  else if r.items.isEmpty then .error (invalid "at least one item is required")
  else match r.items.zipIdx.find? (fun ((o, q), _) => o == 0 || q ≤ 0) with
    | some (_, i) =>
      .error (invalid ("item " ++ toString i ++ " needs a product option and a positive quantity"))
    | none => if r.points < 0 then .error (invalid "points must not be negative") else .ok ()

/-- What the request asks of a participant, if anything. -/
def lines (r : OrderRequest) : Kind → Option (List Line)
  | .stock => if r.items.isEmpty then none else some (r.items.map fun (o, q) => ⟨o, q⟩)
  | .coupon => if r.couponId == 0 then none else some [⟨r.couponId, 1⟩]
  | .point => if r.points > 0 then some [⟨0, r.points⟩] else none

/-- One step per participant, in catalogue order; a participant with nothing to reserve is skipped. -/
def steps (r : OrderRequest) (mode : Kind → Mode) (now : Instant) : List SagaStep :=
  Kind.all.map fun k =>
    let st : SagaStep := { kind := k.name, mode := mode k, updatedAt := now }
    match r.lines k with
    | some ls => { st with lines := ls, reserve := .pending }
    | none => { st with reserve := .skipped }

def order (r : OrderRequest) (id : UInt64) (now : Instant) : Order :=
  { id, userId := r.userId, status := .created, couponId := r.couponId, usedPoints := r.points,
    createdAt := now, updatedAt := now,
    items := r.items.map fun (o, q) => { id := 0, orderId := id, option := o, quantity := q } }

/-- The saga of an order just placed, before it starts reserving. -/
def saga (r : OrderRequest) (sagaId : String) (orderId : UInt64) (mode : Kind → Mode)
    (now : Instant) : Saga :=
  { sagaId, orderId, userId := r.userId, status := .created, steps := some (r.steps mode now),
    createdAt := now, updatedAt := now }

end OrderRequest

namespace Orchestrator

def space : String := "order-service"

def sagaIdOf (s : Store) (orderId : UInt64) : String := s.idSource.draw "saga" orderId.toNat

def sagaNotFound (detail : String) : Failure := Condition.fail .sagaNotFound detail

/-- Appends an envelope to the orchestrator's outbox. -/
def appendEnvelope (e : Envelope) (now : Instant) : Store.Op Unit := do
  let entry ← Store.entryOf space e
  let _ ← Store.withContext ("append " ++ e.type.name ++ " to outbox")
    (Store.appendOutbox entry now)

/-- The order status a saga status ends in, if it is terminal. -/
def orderStatus? : SagaStatus → Option OrderStatus
  | .completed => some .completed
  | .compensationCompleted => some .failed
  | .failed => some .failed
  | _ => none

/-- Carries a terminal saga outcome over to its order, with the saga's failure account. -/
def syncOrder (g : Saga) (now : Instant) : Store.Op Unit :=
  match orderStatus? g.status with
  | none => pure ()
  | some st => Store.withContext ("update order " ++ toString g.orderId.toNat)
      (Store.setOrderStatus g.orderId st g.errorMessage now)

/-- Stores the order, its saga, and the reserve commands of the steps on the bus. -/
def openSaga (o : Order) (g : Saga) (now : Instant) : Store.Op Unit := Store.atomically do
  let _ ← Store.withContext "create order" (Store.createOrder o now)
  let g ← Store.withContext "create saga" (Store.createSaga g now)
  for st in g.stepList do
    if st.reserve == .pending && st.mode == .async then
      appendEnvelope (← Store.ofExcept (Draft.command g .reserveRequested now st)) now

/-- Applies `mutation` to the stored saga in one transaction and answers the saga with what the
mutation emitted. -/
def update (sagaId : String) (now : Instant) (mutation : Draft → Except Failure Draft) :
    Store.Op (Saga × Effects) := Store.atomically do
  let current ← match (← get).getSaga sagaId with
    | .ok g => pure g
    | .error _ => throw (sagaNotFound sagaId)
  let d ← Store.ofExcept (mutation (Draft.ofSaga current))
  if !d.effects.changed then return (d.saga, d.effects)
  let g ← Store.updateSaga { d.saga with steps := some d.steps, updatedAt := now } now
  if g.status != current.status then syncOrder g now
  for e in d.effects.envelopes do appendEnvelope e now
  pure (g, d.effects)

/-- The saga of an order. -/
def sagaOf (s : Store) (orderId : UInt64) : Except Failure Saga :=
  match s.getSagaByOrder orderId with
  | .ok g => .ok g
  | .error _ => .error (sagaNotFound ("order " ++ toString orderId.toNat))

def orderOf (s : Store) (orderId : UInt64) : Except Failure Order :=
  match s.getOrder orderId with
  | .ok o => .ok o
  | .error _ => .error (sagaNotFound ("order " ++ toString orderId.toNat))

def inFlight : List SagaStatus := [.created, .reserving, .reserved, .confirming, .compensating]

/-- Sagas in flight whose last update is older than `age`: per status, oldest first. -/
def stalled (s : Store) (now : Instant) (age : Span) : List Saga :=
  let cutoff := now.shift age.neg
  inFlight.flatMap fun st => (s.listByStatus st 1000).takeWhile (·.updatedAt.before cutoff)

end Orchestrator

end OrderSaga
