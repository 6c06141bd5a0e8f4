import OrderSaga.Protocol.Basic
import OrderSaga.Model.Saga
import OrderSaga.Model.Ledger
import OrderSaga.Model.Resource
import OrderSaga.Model.Order

namespace OrderSaga.Protocol

def baseTime : Instant := ⟨1735689600 * Instant.nanosPerSecond, 0⟩

/-- Whether the saga state machine allows the move, and what a saga in `from` says to it. -/
def sagaStatus (req : Request) : Reading Json := do
  let source := SagaStatus.ofName (← req.getText "from")
  let target := SagaStatus.ofName (← req.getText "to")
  let saga : Saga := { sagaId := "s", orderId := 0, userId := 0, status := source }
  let (transition, after) := match saga.transitionTo target with
    | .ok s => (Json.null, s.status)
    | .error f => (Json.str f.message, source)
  pure (.obj [("can_transition", .bool (source.canTransition target)),
    ("from_terminal", .bool source.isTerminal), ("to_terminal", .bool target.isTerminal),
    ("transition", transition), ("status_after", .str after.name)])

/-- Whether a step needs compensation, and the step of a participant within a list. -/
def stepState (req : Request) : Reading Json := do
  let step ← req.get "step" SagaStep.reader default
  let needs := ("needs_compensation", Json.bool step.needsCompensation)
  if req.given "find" then
    let kind := req.text "find"
    let steps := (req.read "steps" SagaStep.listReader none).getD []
    let saga : Saga := ⟨"s", 0, 0, .created, some steps, "", 0, Instant.zero, Instant.zero⟩
    let found := saga.step? kind
    pure (.obj [needs, ("found", .bool found.isSome), ("step", (found.getD default).toJson)])
  else
    pure (.obj [needs])

/-- The ledger row of one line and what its type says about it. -/
def ledgerEntry (req : Request) : Json :=
  let type := EntryType.ofName (req.text "type")
  let line := req.read "line" Line.reader default
  let entry := LedgerEntry.ofLine (req.text "saga") (req.u64 "order") (req.u64 "user")
    line type baseTime
  .obj [("stage", .ofNat entry.stage), ("is_finalization", .bool type.isFinalization),
    ("entry", entry.toJson)]

/-- The members of a coupon whose usability is asked, and their types. -/
def couponQuery : Json.Schema :=
  .unnamed [⟨"UserID", "user_id", .uint64, false⟩, ⟨"Owner", "owner", .uint64, false⟩,
    ⟨"Status", "status", .text, false⟩, ⟨"ExpiresInMs", "expires_in_ms", .int64, false⟩]

/-- Available quantities, coupon usability and order finality, each for the parts the request gives. -/
def resourceModel (req : Request) : Reading Json := do
  let option ← if req.given "option" then do
      let o ← req.get "option" ProductOption.reader { id := 0 }
      pure [("option_available", Json.ofInt64 o.available)]
    else pure []
  let points ← if req.given "points" then do
      let p ← req.get "points" PointBalance.reader { userId := 0 }
      pure [("points_available", Json.ofInt64 p.available)]
    else pure []
  let coupon ← if req.given "coupon" then do
      let o ← req.get "coupon" (Request.reader couponQuery) ⟨[], true⟩
      let c : Coupon := { id := 0, userId := o.u64 "user_id",
                          status := CouponStatus.ofName (o.text "status"),
                          expiresAt := baseTime.shift (o.millis "expires_in_ms") }
      pure [("coupon_usable", Json.bool (c.usable (o.u64 "owner") baseTime))]
    else pure []
  let order ← if req.given "order_status" then do
      let status ← req.getText "order_status"
      pure [("order_final", Json.bool (OrderStatus.ofName status).isFinal)]
    else pure []
  pure (.obj (option ++ points ++ coupon ++ order))

end OrderSaga.Protocol
