import OrderSaga.Event.Catalogue
import OrderSaga.Line
import OrderSaga.Json.Fields

namespace OrderSaga

/-- A request to reserve or confirm. -/
structure Command where
  sagaId : String := ""
  orderId : UInt64 := 0
  userId : UInt64 := 0
  kind : String := ""
  lines : List Line := []
  timestamp : Instant := Instant.zero
  deriving DecidableEq, Repr, Inhabited

/-- A request to release what was reserved for an order. -/
structure CompensationRequest where
  sagaId : String := ""
  orderId : UInt64 := 0
  userId : UInt64 := 0
  kind : String := ""
  lines : Option (List Line) := none
  timestamp : Instant := Instant.zero
  deriving DecidableEq, Repr, Inhabited

/-- A participant's answer to a reserve or confirm request. -/
structure StepResult where
  sagaId : String := ""
  orderId : UInt64 := 0
  userId : UInt64 := 0
  kind : String := ""
  success : Bool := false
  outcome : String := ""
  reason : String := ""
  errorMessage : String := ""
  timestamp : Instant := Instant.zero
  deriving DecidableEq, Repr, Inhabited

/-- A participant's account of a compensation it performed. -/
structure CompensationReport where
  sagaId : String := ""
  orderId : UInt64 := 0
  userId : UInt64 := 0
  compensationType : String := ""
  success : Bool := false
  errorMessage : Option String := none
  timestamp : Instant := Instant.zero
  deriving DecidableEq, Repr, Inhabited

/-- The payload of an event. -/
inductive Payload where
  | command (c : Command)
  | compensationRequest (r : CompensationRequest)
  | stepResult (r : StepResult)
  | compensationReport (r : CompensationReport)
  deriving DecidableEq, Repr, Inhabited

namespace Payload

def shape : Payload → Shape
  | .command _ => .command
  | .compensationRequest _ => .compensationRequest
  | .stepResult _ => .stepResult
  | .compensationReport _ => .compensationReport

/-- The name of the payload's record, as failures about shapes print it. -/
def recordName : Payload → String
  | .command _ => "event.ReservationCommand"
  | .compensationRequest _ => "event.CompensationRequest"
  | .stepResult _ => "event.StepResult"
  | .compensationReport _ => "event.CompensationReport"

def identity (sagaId : String) (orderId userId : UInt64) : List (String × Json) :=
  [("sagaId", .str sagaId), ("orderId", .ofUInt64 orderId), ("userId", .ofUInt64 userId)]

/-- The payload written with its members in the record's order. -/
def toJson : Payload → Json
  | .command c => .obj (identity c.sagaId c.orderId c.userId ++ [("kind", .str c.kind)]
      ++ (if c.lines.isEmpty then [] else [("lines", Line.listJson c.lines)])
      ++ [("timestamp", c.timestamp.toJson)])
  | .compensationRequest r => .obj (identity r.sagaId r.orderId r.userId
      ++ [("kind", .str r.kind), ("lines", Line.listJson? r.lines),
        ("timestamp", r.timestamp.toJson)])
  | .stepResult r => .obj (identity r.sagaId r.orderId r.userId
      ++ [("kind", .str r.kind), ("success", .bool r.success)]
      ++ (if r.outcome.isEmpty then [] else [("outcome", .str r.outcome)])
      ++ (if r.reason.isEmpty then [] else [("reason", .str r.reason)])
      ++ (if r.errorMessage.isEmpty then [] else [("errorMessage", .str r.errorMessage)])
      ++ [("timestamp", r.timestamp.toJson)])
  | .compensationReport r => .obj (identity r.sagaId r.orderId r.userId
      ++ [("compensationType", .str r.compensationType), ("success", .bool r.success),
        ("errorMessage", Json.ofOption r.errorMessage), ("timestamp", r.timestamp.toJson)])

/-- The bus key: requests go by order, answers by saga. -/
def partitionKey : Payload → String
  | .command c => toString c.orderId.toNat
  | .compensationRequest r => toString r.orderId.toNat
  | .stepResult r => r.sagaId
  | .compensationReport r => r.sagaId

def checkIdentity (sagaId : String) (orderId userId : UInt64) : Except String Unit :=
  if sagaId.isEmpty then .error "sagaId is required"
  else if orderId == 0 then .error "orderId is required"
  else if userId == 0 then .error "userId is required"
  else .ok ()

def checkKind (kind : String) : Except String Unit :=
  if Kind.isName kind then .ok () else .error ("unknown kind " ++ Text.quoted kind)

/-- Every line must have a positive amount; the first that does not is reported. -/
def checkLines (lines : List Line) : Except String Unit :=
  match (lines.zipIdx.find? fun (l, _) => l.amount ≤ 0) with
  | some (_, i) => .error ("line " ++ toString i ++ ": amount must be positive")
  | none => .ok ()

/-- Checks the payload is complete; the text names the first fault. -/
def validate : Payload → Except String Unit
  | .command c => do
    checkIdentity c.sagaId c.orderId c.userId
    checkKind c.kind
    checkLines c.lines
  | .compensationRequest r => do
    checkIdentity r.sagaId r.orderId r.userId
    checkKind r.kind
    checkLines (r.lines.getD [])
  | .stepResult r => do
    checkIdentity r.sagaId r.orderId r.userId
    checkKind r.kind
    if !r.success && r.errorMessage.isEmpty then .error "errorMessage is required on failure"
  | .compensationReport r => do
    checkIdentity r.sagaId r.orderId r.userId
    if (CompensationType.ofName? r.compensationType).isNone then
      .error ("unknown compensationType " ++ Text.quoted r.compensationType)
    if !r.success && (r.errorMessage.getD "").isEmpty then
      .error "errorMessage is required on failure"

def commandReader : Json.Reader Command :=
  .record "event.ReservationCommand" [
    .each "sagaId" .text (·.sagaId) (fun c v => { c with sagaId := v }),
    .each "orderId" .uint64 (·.orderId) (fun c v => { c with orderId := v }),
    .each "userId" .uint64 (·.userId) (fun c v => { c with userId := v }),
    .each "kind" .text (·.kind) (fun c v => { c with kind := v }),
    Line.field "lines" (fun c => if c.lines.isEmpty then none else some c.lines)
      (fun c v => { c with lines := v.getD [] }),
    .each "timestamp" .instant (·.timestamp) (fun c v => { c with timestamp := v })]

def compensationRequestReader : Json.Reader CompensationRequest :=
  .record "event.CompensationRequest" [
    .each "sagaId" .text (·.sagaId) (fun c v => { c with sagaId := v }),
    .each "orderId" .uint64 (·.orderId) (fun c v => { c with orderId := v }),
    .each "userId" .uint64 (·.userId) (fun c v => { c with userId := v }),
    .each "kind" .text (·.kind) (fun c v => { c with kind := v }),
    Line.field "lines" (·.lines) (fun c v => { c with lines := v }),
    .each "timestamp" .instant (·.timestamp) (fun c v => { c with timestamp := v })]

def stepResultReader : Json.Reader StepResult :=
  .record "event.StepResult" [
    .each "sagaId" .text (·.sagaId) (fun r v => { r with sagaId := v }),
    .each "orderId" .uint64 (·.orderId) (fun r v => { r with orderId := v }),
    .each "userId" .uint64 (·.userId) (fun r v => { r with userId := v }),
    .each "kind" .text (·.kind) (fun r v => { r with kind := v }),
    .each "success" .flag (·.success) (fun r v => { r with success := v }),
    .each "outcome" .text (·.outcome) (fun r v => { r with outcome := v }),
    .each "reason" .text (·.reason) (fun r v => { r with reason := v }),
    .each "errorMessage" .text (·.errorMessage) (fun r v => { r with errorMessage := v }),
    .each "timestamp" .instant (·.timestamp) (fun r v => { r with timestamp := v })]

def compensationReportReader : Json.Reader CompensationReport :=
  .record "event.CompensationReport" [
    .each "sagaId" .text (·.sagaId) (fun r v => { r with sagaId := v }),
    .each "orderId" .uint64 (·.orderId) (fun r v => { r with orderId := v }),
    .each "userId" .uint64 (·.userId) (fun r v => { r with userId := v }),
    .each "compensationType" .text (·.compensationType)
      (fun r v => { r with compensationType := v }),
    .each "success" .flag (·.success) (fun r v => { r with success := v }),
    .each "errorMessage" (Json.Reader.text.optional "") (·.errorMessage)
      (fun r v => { r with errorMessage := v }),
    .each "timestamp" .instant (·.timestamp) (fun r v => { r with timestamp := v })]

/-- Reads a payload of the given shape; a value of another form is no payload. -/
def read (sh : Shape) (j : Json) : Option Payload :=
  match sh with
  | .command => (commandReader.decode? j {}).map .command
  | .compensationRequest => (compensationRequestReader.decode? j {}).map .compensationRequest
  | .stepResult => (stepResultReader.decode? j {}).map .stepResult
  | .compensationReport => (compensationReportReader.decode? j {}).map .compensationReport

end Payload

end OrderSaga
