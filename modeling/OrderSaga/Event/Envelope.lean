import OrderSaga.Event.Payload
import OrderSaga.Json.Read
import OrderSaga.Json.Write

namespace OrderSaga

structure Envelope where
  eventId : String
  type : EventType
  occurredAt : Instant
  payload : Payload
  deriving DecidableEq, Repr, Inhabited

/-- Why a text is no envelope. -/
inductive DecodeError where
  | envelope
  | payload (t : EventType)
  | rejected (f : Failure)
  deriving Repr

namespace Envelope

def topic (e : Envelope) : String := e.type.topic

def key (e : Envelope) : String := e.payload.partitionKey

/-- Builds an envelope of type `t`; the payload must have the type's shape and be complete. -/
def create (t : EventType) (p : Option Payload) (now : Instant) : Except Failure Envelope :=
  match p with
  | some p =>
    if p.shape == t.shape then
      match p.validate with
      | .ok () => .ok ⟨"", t, now, p⟩
      | .error m => .error (.of .invalidPayload ("invalid event payload: " ++ t.name ++ ": " ++ m))
    else .error (.of .payloadMismatch
      ("payload shape does not match event type: " ++ t.name ++ " carries " ++ p.recordName))
  | none => .error (.of .payloadMismatch
      ("payload shape does not match event type: " ++ t.name ++ " carries <nil>"))

/-- Builds an envelope whose type is given by name. -/
def createNamed (name : String) (p : Option Payload) (now : Instant) :
    Except Failure Envelope :=
  match EventType.ofName? name with
  | some t => create t p now
  | none => .error (EventType.unknown name)

def toJson (e : Envelope) : Json :=
  .obj [("eventId", .str e.eventId), ("type", .str e.type.name),
    ("occurredAt", e.occurredAt.toJson), ("payload", e.payload.toJson)]

/-- The written envelope. -/
def encode? (e : Envelope) : Except String String :=
  match e.payload.toJson.refusal? with
  | some r => .error ("encode " ++ e.type.name ++ " payload: " ++ r)
  | none => match e.toJson.refusal? with
    | some r => .error r
    | none => .ok (Json.compact e.toJson)

/-- The members an envelope is read from; the payload is kept as it was written. -/
structure Wire where
  eventId : String := ""
  type : String := ""
  occurredAt : Instant := Instant.zero
  payload : Option Json := none

def wireReader : Json.Reader Wire :=
  .record "event.Envelope" [
    .each "eventId" .text (·.eventId) (fun w v => { w with eventId := v }),
    .each "type" .text (·.type) (fun w v => { w with type := v }),
    .each "occurredAt" .instant (·.occurredAt) (fun w v => { w with occurredAt := v }),
    .each "payload" .raw (·.payload) (fun w v => { w with payload := v })]

/-- Reads and checks a written envelope. -/
def decode (text : String) : Except DecodeError Envelope :=
  match (Json.parse text).bind (wireReader.decode? · {}) with
  | none => .error .envelope
  | some w =>
    match EventType.ofName? w.type with
    | none => .error (.rejected (EventType.unknown (Text.quoted w.type)))
    | some t =>
      if w.eventId.isEmpty then
        .error (.rejected (.of .invalidPayload "invalid event payload: missing event id"))
      else
        match w.payload.bind (Payload.read t.shape) with
        | none => .error (.payload t)
        | some p =>
          match p.validate with
          | .ok () => .ok ⟨w.eventId, t, w.occurredAt, p⟩
          | .error m => .error (.rejected
              (.of .invalidPayload ("invalid event payload: " ++ t.name ++ ": " ++ m)))

end Envelope

end OrderSaga
