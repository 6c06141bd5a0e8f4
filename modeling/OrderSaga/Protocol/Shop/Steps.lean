import OrderSaga.Protocol.Shop.State
import OrderSaga.Degrade

namespace OrderSaga.Protocol

/-- Runs shop work, answering its result, or its failure. -/
def runShop {α : Type} (sh : Shop) (m : ShopM α) (write : α → Json) : Json × Shop :=
  match m sh with
  | .ok a sh' => (write a, sh')
  | .error e sh' => (e.toJson, sh')

/-- The type a message claims: the `type` member of the object its text begins with, as it was
written, or `null`. -/
def messageType (value : String) : Json :=
  match Json.parseFirst value with
  | some (.obj ms) => ((Json.obj ms).get? "type").getD .null
  | _ => .null

def deliveryJson : Delivery → Json
  | .ok => .str "ok"
  | .unrouted => .str "unrouted"
  | .failed es => .arr (es.map Failure.toJson)

def deliveredJson (d : Message × Delivery) : Json :=
  .obj [("topic", .str d.1.topic), ("key", .str d.1.key), ("event", eventView d.1.value),
    ("result", deliveryJson d.2)]

def pumpedJson (d : Message × Delivery) : Json :=
  .obj [("type", messageType d.1.value), ("key", .str d.1.key),
    ("result", deliveryJson d.2), ("event", eventView d.1.value)]

def linesOf (s : Request) : Option (List Line) :=
  Json.readList Line.reader.read default (s.values "lines") none

def siteNamed (name : String) : Reading Site :=
  match Site.ofName? name with
  | some s => .ok s
  | none => .error ("unknown service " ++ name)

def sitesNamed (name : String) : List Site :=
  if name.isEmpty || name == "all" then Site.all else Site.all.filter (·.name == name)

def operationNamed : String → Reading Reservation.Operation
  | "reserve" => .ok .reserve
  | "confirm" => .ok .confirm
  | "cancel" => .ok .cancel
  | a => .error ("unknown action " ++ a)

/-- The announcer a step names. -/
def announcerNamed (k : Kind) : String → Reading (Option Reservation.Announcer)
  | "" | "none" => .ok none
  | "reservation_result" => .ok (some (Reservation.resultAnnouncer "RESERVATION_RESULT" k))
  | "confirmation_result" => .ok (some (Reservation.resultAnnouncer "CONFIRMATION_RESULT" k))
  | "unknown_type" => .ok (some (Reservation.resultAnnouncer "REFUND_ISSUED" k))
  | "silent" => .ok (some fun _ _ _ _ => .ok none)
  | a => .error ("unknown announce " ++ a)

def okJson : Json := .obj [("ok", .bool true)]

def placeStep (sh : Shop) (s : Request) : Json × Shop :=
  let items := (s.records "items").map fun it => (it.u64 "option", it.i64 "qty")
  let req : OrderRequest :=
    { userId := s.u64 "user", items, couponId := s.u64 "coupon", points := s.i64 "points" }
  match Shop.placeOrder req sh with
  | .ok (p, err) sh' => (.obj [("error", Failure.toJson? err), ("order", p.order.toJson),
      ("saga", p.saga.toJson), ("warnings", .arr (p.warnings.map .str))], sh')
  | .error e sh' => (.obj [("error", e.toJson)], sh')

def relayStep (sh : Shop) (s : Request) : Json × Shop :=
  runShop sh ((sitesNamed (s.text "service")).mapM fun site => do pure (site, ← Shop.relay site))
    fun rs => .obj (rs.map fun (site, n, pending) => (site.name, .obj [("published", .ofNat n),
      ("error", .null), ("pending", .ofNat pending)]))

/-- The saga an answer step is about: the one it names, else the saga of its order, else none; and
the user: the one it names, else the saga's. -/
def answerTarget (sh : Shop) (s : Request) : String × UInt64 :=
  let found := (Orchestrator.sagaOf sh.orders (s.u64 "order")).toOption
  let userId := s.u64 "user"
  ((s.text? "saga").getD ((found.map (·.sagaId)).getD ""),
    if userId == 0 then (found.map (·.userId)).getD 0 else userId)

def resultStep (sh : Shop) (s : Request) : Reading (Json × Shop) := do
  let (sagaId, userId) := answerTarget sh s
  let res : StepResult := {
    sagaId, orderId := s.u64 "order", kind := s.text "kind", success := s.flag "success"
    userId, outcome := s.text "outcome", reason := s.text "reason"
    errorMessage := s.text "error_message", timestamp := sh.now }
  match s.text "phase" with
  | "reserve" => pure (runShop sh (Shop.onReservationResult res) fun _ => okJson)
  | "confirm" => pure (runShop sh (Shop.onConfirmationResult res) fun _ => okJson)
  | p => .error ("unknown phase " ++ p)

def reportStep (sh : Shop) (s : Request) : Json × Shop :=
  let (sagaId, userId) := answerTarget sh s
  let rep : CompensationReport := {
    sagaId, orderId := s.u64 "order", compensationType := s.text "compensation_type"
    success := s.flag "success", userId, errorMessage := s.text? "error_message"
    timestamp := sh.now }
  runShop sh (Shop.onCompensationReport rep) fun _ => okJson

def participantStep (sh : Shop) (s : Request) : Reading (Json × Shop) := do
  let k ← kindNamed (s.text "kind")
  let announce ← announcerNamed k (s.text "announce")
  let op ← operationNamed (s.text "action")
  let req : Reservation.Request := {
    sagaId := s.text "saga", orderId := s.u64 "order", userId := s.u64 "user"
    lines := (linesOf s).getD [] }
  pure (runShop sh (Shop.apply k op req announce) fun (res, err) =>
    .obj [("result", (res.map Reservation.Result.toJson).getD .null),
      ("error", Failure.toJson? err)])

def compensateStep (sh : Shop) (s : Request) : Reading (Json × Shop) := do
  let k ← kindNamed (s.text "kind")
  let req : CompensationRequest := {
    sagaId := s.text "saga", orderId := s.u64 "order", userId := s.u64 "user"
    kind := (s.text? "request_kind").getD k.name, lines := linesOf s, timestamp := sh.now }
  pure (runShop sh (Shop.compensate k req) fun _ => okJson)

def publishStep (sh : Shop) (s : Request) : Json × Shop :=
  let value := if s.given "envelope" then Json.compact (s.raw "envelope") else s.text "value"
  let m : Message := ⟨s.text "topic", s.text "key", value⟩
  match sh.bus.publish m with
  | .ok b => (.obj [("queued", .ofNat b.pending.length)], { sh with bus := b })
  | .error e => (e.toJson, sh)

def reapStep (sh : Shop) (s : Request) : Reading (Json × Shop) := do
  let k ← kindNamed (s.text "kind")
  let (r, st) := (Shop.service k).sweep (s.millis "threshold_ms") (s.int "limit") sh.now
    (sh.store (.participant k))
  pure (.obj [("report", .obj [("expired", .ofNat r.expired), ("orders", .ofNat r.orders),
      ("canceled", .ofNat r.canceled), ("skipped", .ofNat r.skipped), ("failed", .ofNat r.failed)]),
    ("error", .null)], sh.setStore (.participant k) st)

def cleanupStep (sh : Shop) (s : Request) : Reading (Json × Shop) := do
  let site ← siteNamed (s.text "service")
  let (r, st) := Relay.cleanup (s.millis "retention_ms") sh.now (sh.store site)
  pure (match r with
    | .ok n => (.obj [("deleted", .ofNat n), ("error", .null)], sh.setStore site st)
    | .error e => (.obj [("deleted", .ofNat 0), ("error", e.toJson)], sh.setStore site st))

def statusRank (st : SagaStatus) : Nat := (Orchestrator.inFlight.idxOf st)

def stalledStep (sh : Shop) (s : Request) : Json × Shop :=
  let sagas := Orchestrator.stalled sh.orders sh.now (s.millis "age_ms")
  let sorted := sagas.mergeSort fun a b =>
    statusRank a.status < statusRank b.status
      || (statusRank a.status == statusRank b.status
        && (a.updatedAt.nanos < b.updatedAt.nanos
          || (a.updatedAt.nanos == b.updatedAt.nanos && a.orderId ≤ b.orderId)))
  (.arr (sorted.map fun g => .obj [("order", .ofUInt64 g.orderId),
    ("status", .str g.status.name), ("updated_at", g.updatedAt.toJson)]), sh)

/-- Overwrites the given fields of a stored row and writes it at its version. -/
def setRow {α : Type} (sh : Shop) (k : Kind) (load : Store → Except Failure α)
    (change : α → α) (write : α → Store.Op α) (render : α → Json) : Json × Shop :=
  match load (sh.store (.participant k)) with
  | .error e => (e.toJson, sh)
  | .ok row => runShop sh (Shop.onSite (.participant k) (write (change row))) render

/-- The members a coupon change reads and their types. -/
def couponChange : Json.Schema :=
  .unnamed [⟨"ID", "id", .uint64, false⟩, ⟨"Status", "status", .text, true⟩,
    ⟨"ReservedBy", "reserved_by", .uint64, true⟩]

/-- The members an option change reads and their types. -/
def optionChange : Json.Schema :=
  .unnamed [⟨"ID", "id", .uint64, false⟩, ⟨"Stock", "stock", .int64, true⟩,
    ⟨"Reserved", "reserved", .int64, true⟩]

/-- The members a balance change reads and their types. -/
def pointsChange : Json.Schema :=
  .unnamed [⟨"User", "user", .uint64, false⟩, ⟨"Balance", "balance", .int64, true⟩,
    ⟨"Reserved", "reserved", .int64, true⟩]

/-- A step's members read as a record of type `schema`, or the refusal of a member that the type
cannot hold. -/
def changeOf (schema : Json.Schema) (step : Json) : Reading Request :=
  match schema.check step with
  | some m => throw (m.report schema)
  | none => pure (Request.record step)

def setCouponStep (sh : Shop) (step : Json) : Reading (Json × Shop) := do
  let s ← changeOf couponChange step
  let status := s.text? "status"
  let reservedBy := s.u64? "reserved_by"
  pure (setRow sh .coupon (·.getCoupon (s.u64 "id"))
    (fun c => { c with status := (status.map CouponStatus.ofName).getD c.status,
                       reservedBy := reservedBy.getD c.reservedBy })
    (Store.updateCoupon · sh.now) Coupon.toJson)

def setOptionStep (sh : Shop) (step : Json) : Reading (Json × Shop) := do
  let s ← changeOf optionChange step
  let stock := s.i64? "stock"
  let reserved := s.i64? "reserved"
  pure (setRow sh .stock (·.getOption (s.u64 "id"))
    (fun o => { o with stock := stock.getD o.stock, reserved := reserved.getD o.reserved })
    (Store.updateOption · sh.now) ProductOption.toJson)

def setPointsStep (sh : Shop) (step : Json) : Reading (Json × Shop) := do
  let s ← changeOf pointsChange step
  let balance := s.i64? "balance"
  let reserved := s.i64? "reserved"
  pure (setRow sh .point (·.getPoints (s.u64 "user"))
    (fun p => { p with balance := balance.getD p.balance, reserved := reserved.getD p.reserved })
    (Store.updatePoints · sh.now) PointBalance.toJson)

/-- The members a step may have and their types; the changes of stored rows read theirs apart. -/
def stepSchema : Json.Schema :=
  let item : Json.Schema :=
    .unnamed [⟨"Option", "option", .uint64, false⟩, ⟨"Qty", "qty", .int64, false⟩]
  .record "main.stepSpec" [
    ("do", .text), ("user", Json.Schema.uint64), ("items", .listOf item),
    ("coupon", Json.Schema.uint64), ("points", Json.Schema.int64), ("service", .text),
    ("phase", .text), ("kind", .text), ("order", Json.Schema.uint64), ("saga", .text),
    ("success", .flag), ("error_message", .text), ("outcome", .text), ("reason", .text),
    ("compensation_type", .text), ("action", .text), ("announce", .text),
    ("request_kind", .text), ("lines", Line.listReader.schema),
    ("topic", .text), ("key", .text), ("value", .text), ("envelope", .any),
    ("count", Json.Schema.int), ("on", .flag), ("threshold_ms", Json.Schema.int64),
    ("limit", Json.Schema.int), ("retention_ms", Json.Schema.int64),
    ("age_ms", Json.Schema.int64), ("max_rounds", Json.Schema.int), ("ms", Json.Schema.int64),
    ("seed", .any)]

/-- One step of a session, its members read as a record. -/
def shopStep (sh : Shop) (step : Json) (s : Request) : Reading (Json × Shop) := do
  match s.text "do" with
  | "place" => pure (placeStep sh s)
  | "relay" => pure (relayStep sh s)
  | "deliver" => pure (runShop sh Shop.deliver fun ds => .arr (ds.map deliveredJson))
  | "pump" =>
    let rounds := s.int "max_rounds" 20
    let rounds := if rounds ≤ 0 then 20 else rounds.toNat
    pure (runShop sh (Shop.pump rounds []) fun dss => .obj [("rounds", .ofNat dss.length),
      ("messages", .arr (dss.flatten.map pumpedJson))])
  | "advance" =>
    let now := sh.now.shift (s.millis "ms")
    pure (.obj [("now", now.toJson)], { sh with now })
  | "saga" =>
    pure (match Orchestrator.sagaOf sh.orders (s.u64 "order") with
      | .ok g => (g.toJson, sh)
      | .error e => (e.toJson, sh))
  | "order" =>
    pure (match Orchestrator.orderOf sh.orders (s.u64 "order") with
      | .ok o => (o.toJson, sh)
      | .error e => (e.toJson, sh))
  | "result" => resultStep sh s
  | "report" => pure (reportStep sh s)
  | "participant" => participantStep sh s
  | "compensate" => compensateStep sh s
  | "publish" => pure (publishStep sh s)
  | "redeliver" =>
    let (n, b) := sh.bus.redeliver (s.int "count")
    pure (.obj [("requeued", .ofNat n)], { sh with bus := b })
  | "bus_fail" =>
    let topic := s.text "topic"
    let on := (s.flag? "on").getD true
    pure (.obj [("failing", .bool on), ("topic", .str topic)],
      { sh with bus := sh.bus.setFailing topic on })
  | "down" =>
    let name := s.text "kind"
    let on := (s.flag? "on").getD true
    let participants := match Kind.ofName? name with
      | some k => sh.participants.set k { sh.participants.get k with down := on }
      | none => sh.participants
    pure (.obj [("down", .bool on), ("kind", .str name)], { sh with participants })
  | "degrade" =>
    let degraded := Degrade.set sh.degraded (s.text "kind") ((s.flag? "on").getD true)
    let sorted := degraded.mergeSort fun a b => decide (a ≤ b)
    pure (.obj [("degraded", .arr (sorted.map .str))], { sh with degraded })
  | "reap" => reapStep sh s
  | "cleanup" => cleanupStep sh s
  | "stalled" => pure (stalledStep sh s)
  | "seed" =>
    if !s.has "seed" then pure (badRequest "seed: unexpected end of JSON input", sh)
    else match seed sh (s.raw "seed") with
      | .ok (rows, sh) => pure (.arr rows, sh)
      | .error m => pure (badRequest m, sh)
  | "set_coupon" => setCouponStep sh step
  | "set_option" => setOptionStep sh step
  | "set_points" => setPointsStep sh step
  | "state" => pure (stateView sh, sh)
  | other => .error ("unknown step " ++ other)

/-- A step as written: refused when a member holds a value its type cannot hold, else run. -/
def runStep (sh : Shop) (step : Json) : Json × Shop :=
  match stepSchema.check step with
  | some m => (badRequest ("step: " ++ m.report stepSchema), sh)
  | none => match shopStep sh step (Request.record step) with
    | .ok r => r
    | .error m => (badRequest m, sh)

end OrderSaga.Protocol
