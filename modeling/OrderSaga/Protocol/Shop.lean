import OrderSaga.Protocol.Shop.Steps
import OrderSaga.Text.Identifiers
import OrderSaga.Protocol.Uuid

namespace OrderSaga.Protocol

/-- Runs the steps in order. -/
def runSteps (sh : Shop) : List Json → List Json × Shop
  | [] => ([], sh)
  | s :: rest =>
    let (a, sh) := runStep sh s
    let (as, sh) := runSteps sh rest
    (a :: as, sh)

/-- Names the stored sagas in a text of an answer by their orders: `saga-<order>`. -/
def nameSagas (sagas : List Saga) (s : String) : String :=
  String.ofList (sagas.foldl (fun cs (g : Saga) =>
    Text.replaceAll g.sagaId.toList ("saga-" ++ toString g.orderId.toNat).toList cs) s.toList)

/-- The members a session may have and their types. -/
def sessionSchema : Json.Schema :=
  .record "main.simConfig" [
    ("modes", .table .text "map[string]string"), ("idempotency", .any),
    ("no_degrade_registry", .flag), ("version_retries", Json.Schema.int),
    ("publish_rate", .real), ("outbox_batch", Json.Schema.int),
    ("order_ids", .listOf Json.Schema.uint64), ("first_order_id", Json.Schema.uint64),
    ("update_retries", Json.Schema.int), ("degraded", .listOf .text),
    ("down", .listOf .text), ("seed", .any),
    ("steps", (Json.Reader.values "[]jsontext.Value").schema)]

/-- A session: the request is read as a record, the shop set up and seeded, and the steps run in
turn. -/
def shopSession (req : Json) : Reading Json := do
  if let some m := sessionSchema.check req then throw (m.report sessionSchema)
  let spec := Request.record req
  let sh := (← readShop spec).withIdSource
    (Ident.source (req.texts.flatMap (Text.uuidsIn ·.toList)))
  let (seeded, sh) : List (String × Json) × Shop :=
    if spec.has "seed" then
      match seed sh (spec.raw "seed") with
      | .ok (rows, sh) => ([("seed", .arr rows)], sh)
      | .error m => ([("seed", badRequest m)], sh)
    else ([], sh)
  let (answers, sh) := runSteps sh (spec.read "steps" (.values "[]jsontext.Value") [])
  let answer := Json.obj (seeded ++ [("steps", .arr answers)])
  pure (answer.mapStrings (nameSagas sh.orders.sagas))

end OrderSaga.Protocol
