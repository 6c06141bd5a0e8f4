import OrderSaga.Protocol.Model
import OrderSaga.Event.Envelope

namespace OrderSaga.Protocol

/-- An envelope as answers show it: its type and payload, without the event id, the instant and the
payload's timestamp, which differ from run to run. -/
def envelopeView (j : Json) : Json :=
  match j with
  | .obj ms => .obj (ms.filterMap fun (k, v) =>
      if k == "eventId" || k == "occurredAt" then none
      else if k == "payload" then
        match v with
        | .obj ps => some (k, .obj (ps.filter (·.1 != "timestamp")))
        | _ => some (k, v)
      else some (k, v))
  | _ => j

def decodeErrorJson : DecodeError → Json
  | .envelope => .obj [("error", .str "DECODE_ENVELOPE"), ("message", .str "decode envelope")]
  | .payload t => .obj [("error", .str "DECODE_PAYLOAD"),
      ("message", .str ("decode " ++ t.name ++ " payload"))]
  | .rejected f => f.toJson

/-- Reads a written envelope and writes it again. -/
def eventDecode (req : Request) : Reading Json := do
  pure (match Envelope.decode (← req.getText "data") with
    | .ok e => match e.encode? with
      | .ok text => .obj [("event_id", .str e.eventId), ("type", .str e.type.name),
          ("topic", .str e.topic), ("key", .str e.key), ("occurred_at", e.occurredAt.toJson),
          ("payload", e.payload.toJson), ("encoded", .str text)]
      | .error m => (Failure.plain m).toJson
    | .error d => decodeErrorJson d)

/-- The members a payload may have, of every shape, and their types. -/
def payloadSchema : Json.Schema :=
  .record "main.wirePayload" [("sagaId", .text), ("orderId", Json.Schema.uint64),
    ("userId", Json.Schema.uint64), ("kind", .text),
    ("lines", .list Line.reader.schema Line.listName), ("success", .flag), ("outcome", .text),
    ("reason", .text), ("errorMessage", .text), ("compensationType", .text)]

/-- The payload of the chosen shape from the request's payload members. -/
def payloadOf (shape : String) (p : Request) : Reading (Option Payload) := do
  let sagaId := p.text "sagaId"
  let orderId := p.u64 "orderId"
  let userId := p.u64 "userId"
  let kind := p.text "kind"
  let lines := p.read "lines" Line.listReader none
  let errorMessage := p.text? "errorMessage"
  if shape == "command" then
    pure (some (.command {
      sagaId, orderId, userId, kind, lines := lines.getD [], timestamp := baseTime }))
  else if shape == "compensation_request" then
    pure (some (.compensationRequest {
      sagaId, orderId, userId, kind, lines, timestamp := baseTime }))
  else if shape == "step_result" then
    pure (some (.stepResult {
      sagaId, orderId, userId, kind, success := p.flag "success", outcome := p.text "outcome"
      reason := p.text "reason", errorMessage := errorMessage.getD "", timestamp := baseTime }))
  else if shape == "compensation_report" then
    pure (some (.compensationReport {
      sagaId, orderId, userId, compensationType := p.text "compensationType"
      success := p.flag "success", errorMessage, timestamp := baseTime }))
  else if shape == "none" then pure none
  else .error ("unknown shape " ++ shape)

/-- Builds an envelope and shows it as its outbox entry would carry it. -/
def eventNew (req : Request) : Reading Json := do
  let type ← req.getText "type"
  let shape ← req.getText "shape"
  let payload ← payloadOf shape (← req.get "payload" (Request.reader payloadSchema) ⟨[], true⟩)
  pure (match Envelope.createNamed type payload baseTime with
    | .ok e => .obj [("type", .str e.type.name), ("topic", .str e.topic), ("key", .str e.key),
        ("envelope", envelopeView e.toJson)]
    | .error f => f.toJson)

end OrderSaga.Protocol
