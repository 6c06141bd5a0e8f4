import OrderSaga.Protocol.Model
import OrderSaga.Store.Ledger
import OrderSaga.Store.Resources
import OrderSaga.Store.Records

namespace OrderSaga.Protocol

/-- A store with its clock. -/
structure StoreRun where
  store : Store := {}
  now : Instant := baseTime

def msAfterBase (op : Request) (name : String) : Instant := baseTime.shift (op.millis name)

/-- Runs a store operation at the run's clock and writes its answer. -/
def runOp {α : Type} (r : StoreRun) (m : Store.Op α) (write : α → Json) : Json × StoreRun :=
  match Store.run m r.store with
  | (.ok a, s) => (write a, { r with store := s })
  | (.error f, s) => (f.toJson, { r with store := s })

/-- A read that may fail. -/
def readOf {α : Type} (r : Except Failure α) (write : α → Json) : Json :=
  match r with
  | .ok a => write a
  | .error f => f.toJson

def ok : Json := .obj [("ok", .bool true)]

def readSteps (op : Request) (name : String) : Option (List SagaStep) :=
  Json.readList SagaStep.reader.read default (op.values name) none

/-- One store operation other than a transaction. -/
def storeStep (r : StoreRun) (op : Request) : Reading (Json × StoreRun) := do
  let s := r.store
  match op.text "do" with
  | "ledger_append" =>
    let kind := op.text "kind"
    let line : Line := ⟨op.u64 "resource", op.i64 "amount"⟩
    let sagaId := op.text "saga"
    let entry := LedgerEntry.ofLine sagaId (op.u64 "order") (op.u64 "user") line
      (EntryType.ofName (op.text "type")) (msAfterBase op "at_ms")
    pure (runOp r (Store.appendLedger kind entry) fun id =>
      .obj [("id", .ofUInt64 id), ("stage", .ofNat entry.stage)])
  | "ledger_find" =>
    let rows := s.findByOrder (op.text "kind") (op.u64 "order") (op.u64 "user")
    pure (.arr (rows.map LedgerEntry.toJson), r)
  | "ledger_expired" =>
    let kind := op.text "kind"
    let rows := s.findExpired kind (msAfterBase op "before_ms") (op.int "limit")
    pure (.arr (rows.map LedgerEntry.toJson), r)
  | "outbox_append" =>
    let created := if op.given "created_ms" then msAfterBase op "created_ms" else Instant.zero
    let entry : OutboxEntry := {
      eventId := op.text "event_id", topic := op.text "topic", key := op.text "key"
      payload := op.text "payload", createdAt := created }
    pure (runOp r (Store.appendOutbox entry r.now) fun e =>
      .obj [("id", .ofUInt64 e.id), ("created_at", e.createdAt.toJson)])
  | "outbox_pending" =>
    let rows := s.fetchPending (op.int "limit")
    pure (.arr (rows.map fun e => .obj [("id", .ofUInt64 e.id), ("event_id", .str e.eventId),
      ("topic", .str e.topic), ("key", .str e.key), ("payload", .str e.payload),
      ("created_at", e.createdAt.toJson), ("attempts", .ofNat e.attempts),
      ("last_error", .str e.lastError), ("published", .bool e.isPublished)]), r)
  | "outbox_mark" =>
    pure (runOp r (Store.markPublished (op.u64 "id") (msAfterBase op "at_ms")) fun _ => ok)
  | "outbox_fail" =>
    pure (runOp r (Store.recordFailure (op.u64 "id") (op.text "reason")) fun _ => ok)
  | "outbox_delete" =>
    pure (runOp r (Store.deletePublishedBefore (msAfterBase op "before_ms")) fun n =>
      .obj [("deleted", .ofNat n)])
  | "outbox_count" => pure (.obj [("pending", .ofNat s.countPending)], r)
  | "option_create" =>
    let o : ProductOption := {
      id := op.u64 "id", stock := op.i64 "stock", reserved := op.i64 "reserved"
      version := op.i64 "version" }
    pure (runOp r (Store.createOption o r.now) ProductOption.toJson)
  | "option_get" => pure (readOf (s.getOption (op.u64 "id")) ProductOption.toJson, r)
  | "option_update" =>
    let id := op.u64 "id"
    let cur := (s.getOption id).toOption.getD { id }
    let o := { cur with stock := op.i64 "stock", reserved := op.i64 "reserved"
                        version := (op.i64? "version").getD cur.version }
    pure (runOp r (Store.updateOption o r.now) ProductOption.toJson)
  | "coupon_create" =>
    let c : Coupon := {
      id := op.u64 "id", userId := op.u64 "user"
      status := CouponStatus.ofName (op.text "status")
      expiresAt := msAfterBase op "expires_ms", reservedBy := op.u64 "reserved_by"
      version := op.i64 "version" }
    pure (runOp r (Store.createCoupon c r.now) Coupon.toJson)
  | "coupon_get" => pure (readOf (s.getCoupon (op.u64 "id")) Coupon.toJson, r)
  | "coupon_update" =>
    let id := op.u64 "id"
    let cur := (s.getCoupon id).toOption.getD { id }
    let c := { cur with status := CouponStatus.ofName (op.text "status")
                        reservedBy := op.u64 "reserved_by"
                        version := (op.i64? "version").getD cur.version }
    pure (runOp r (Store.updateCoupon c r.now) Coupon.toJson)
  | "point_create" =>
    let p : PointBalance := {
      userId := op.u64 "user", balance := op.i64 "balance"
      reserved := op.i64 "reserved", version := op.i64 "version" }
    pure (runOp r (Store.createPoints p r.now) PointBalance.toJson)
  | "point_get" => pure (readOf (s.getPoints (op.u64 "user")) PointBalance.toJson, r)
  | "point_update" =>
    let userId := op.u64 "user"
    let cur := (s.getPoints userId).toOption.getD { userId }
    let p := { cur with balance := op.i64 "balance", reserved := op.i64 "reserved"
                        version := (op.i64? "version").getD cur.version }
    pure (runOp r (Store.updatePoints p r.now) PointBalance.toJson)
  | "saga_create" =>
    let g : Saga := {
      sagaId := op.text "saga", orderId := op.u64 "order", userId := op.u64 "user"
      status := SagaStatus.ofName (op.text "status"), steps := readSteps op "steps"
      errorMessage := op.text "error" }
    pure (runOp r (Store.createSaga g r.now) Saga.toJson)
  | "saga_get" => pure (readOf (s.getSaga (op.text "saga")) Saga.toJson, r)
  | "saga_by_order" => pure (readOf (s.getSagaByOrder (op.u64 "order")) Saga.toJson, r)
  | "saga_update" =>
    let sagaId := op.text "saga"
    let cur := (s.getSaga sagaId).toOption.getD
      { sagaId, orderId := 0, userId := 0, status := .other "" }
    let status := op.text "status"
    let error := op.text "error"
    let steps := readSteps op "steps"
    let g := { cur with
      status := if status.isEmpty then cur.status else SagaStatus.ofName status
      errorMessage := if error.isEmpty then cur.errorMessage else error
      steps := if steps.isSome then steps else cur.steps
      version := (op.i64? "version").getD cur.version }
    pure (runOp r (Store.updateSaga g r.now) Saga.toJson)
  | "saga_list" =>
    let rows := s.listByStatus (SagaStatus.ofName (op.text "status")) (op.int "limit")
    pure (.arr (rows.map Saga.toJson), r)
  | "order_create" =>
    let items := (op.records "items").map fun i =>
      ({ option := i.u64 "product_option_id", quantity := i.i64 "quantity" } : OrderItem)
    let o : Order := {
      id := op.u64 "id", userId := op.u64 "user"
      status := OrderStatus.ofName (op.text "status"), items }
    pure (runOp r (Store.createOrder o r.now) Order.toJson)
  | "order_get" => pure (readOf (s.getOrder (op.u64 "id")) Order.toJson, r)
  | "order_status" =>
    let m := Store.setOrderStatus (op.u64 "id") (OrderStatus.ofName (op.text "status"))
      (op.text "reason") r.now
    pure (runOp r m fun _ => ok)
  | "advance" =>
    let now := r.now.shift (op.millis "ms")
    pure (.obj [("now", now.toJson)], { r with now })
  | other => .error ("unknown store op " ++ other)

/-- The members a store operation may have and their types. -/
def opSchema : Json.Schema :=
  let item : Json.Schema := .record "model.OrderItem" [("id", Json.Schema.uint64),
    ("order_id", Json.Schema.uint64), ("product_option_id", Json.Schema.uint64),
    ("quantity", Json.Schema.int64)]
  .record "main.storeStep" [("do", .text), ("kind", .text), ("saga", .text),
    ("order", Json.Schema.uint64), ("user", Json.Schema.uint64),
    ("resource", Json.Schema.uint64), ("amount", Json.Schema.int64), ("type", .text),
    ("at_ms", Json.Schema.int64), ("before_ms", Json.Schema.int64), ("limit", Json.Schema.int),
    ("event_id", .text), ("topic", .text), ("key", .text), ("payload", .text),
    ("created_ms", Json.Schema.int64), ("id", Json.Schema.uint64), ("reason", .text),
    ("stock", Json.Schema.int64), ("reserved", Json.Schema.int64),
    ("version", Json.Schema.int64), ("status", .text), ("expires_ms", Json.Schema.int64),
    ("reserved_by", Json.Schema.uint64), ("balance", Json.Schema.int64),
    ("steps", SagaStep.listReader.schema), ("error", .text),
    ("items", .list item "[]model.OrderItem"), ("ms", Json.Schema.int64),
    ("ops", (Json.Reader.values "[]jsontext.Value").schema), ("fail", .flag)]

def isFailure (j : Json) : Bool := (j.get? "error").isSome

/-- An operation as written: refused when a member holds a value its type cannot hold. -/
def opOf (j : Json) : Reading Request :=
  match opSchema.check j with
  | some m => throw (m.report opSchema)
  | none => pure (Request.record j)

/-- One operation inside a transaction, where a transaction cannot open. -/
def txStep (r : StoreRun) (j : Json) : Json × StoreRun :=
  match opOf j with
  | .error m => (badRequest m, r)
  | .ok op =>
    if op.text "do" == "tx" then (badRequest "nested tx", r)
    else match storeStep r op with
      | .ok a => a
      | .error m => (badRequest m, r)

/-- Operations of a transaction, up to and including the first that fails. -/
def txSteps (r : StoreRun) : List Json → List Json × Option Json × StoreRun
  | [] => ([], none, r)
  | op :: rest =>
    let (answer, r') := txStep r op
    if isFailure answer then ([answer], some answer, r')
    else
      let (answers, failed, r'') := txSteps r' rest
      (answer :: answers, failed, r'')

/-- One store operation; a transaction runs its operations and keeps them only if none failed and no
rollback was asked for. -/
def storeOp (r : StoreRun) (j : Json) : Json × StoreRun :=
  match opOf j with
  | .error m => (badRequest m, r)
  | .ok op =>
    if op.text "do" == "tx" then
      let fail := op.flag "fail"
      let (answers, failed, r') := txSteps r (op.read "ops" (.values "[]jsontext.Value") [])
      let error : Json := match failed with
        | some f => .str ("step failed: " ++ ((f.get? "message").bind Json.str?).getD "")
        | none => if fail then .str "rollback requested" else .null
      let kept := if failed.isNone && !fail then r'.store else r.store
      (.obj [("ops", .arr answers), ("error", error)], { r' with store := kept })
    else
      match storeStep r op with
      | .ok a => a
      | .error m => (badRequest m, r)

/-- Answers every operation in turn on one fresh store. -/
def store (req : Request) : Reading Json := do
  let ops ← req.get "ops" (.values "[]jsontext.Value") []
  let (answers, _) := ops.foldl (fun (acc : List Json × StoreRun) op =>
    let (j, r) := storeOp acc.2 op
    (acc.1 ++ [j], r)) ([], {})
  pure (.arr answers)

end OrderSaga.Protocol
