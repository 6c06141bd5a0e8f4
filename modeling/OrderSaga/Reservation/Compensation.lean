import OrderSaga.Reservation.Service
import OrderSaga.Text.Quote

namespace OrderSaga

namespace Reservation

namespace Service

/-- The report of a compensation: its type follows the request's participant, or this one's when the
request names none; a failure carries its text. -/
def report (svc : Service) (req : CompensationRequest) (err : Option Failure) (now : Instant) :
    CompensationReport :=
  let kind := (Kind.ofName? req.kind).getD svc.kind
  { sagaId := req.sagaId, orderId := req.orderId, userId := req.userId,
    compensationType := kind.compensation.name, success := err.isNone,
    errorMessage := err.map (·.message), timestamp := now }

def reportEnvelope (svc : Service) (req : CompensationRequest) (err : Option Failure)
    (now : Instant) : Except Failure Envelope :=
  Envelope.create .compensationCompleted (some (.compensationReport (svc.report req err now))) now

/-- A cancellation succeeded if it cancelled the reservation now or earlier. -/
def cancelled (res : Option Result) : Bool :=
  match res with
  | some r => r.outcome == .canceled || r.outcome == .alreadyCanceled
  | none => false

/-- Reports every cancellation of the request. -/
def reporter (svc : Service) (req : CompensationRequest) : Announcer := fun _ res err now =>
  let err := match err with
    | some e => some e
    | none => if cancelled res then none else some (.plain "unexpected cancel outcome")
  (svc.reportEnvelope req err now).map some

/-- Handles one compensation request; answers the failure that asks for it again, if any. -/
def compensate (svc : Service) (req : CompensationRequest) (now : Instant) (s : Store) :
    Option Failure × Store :=
  if req.kind != svc.kind.name then
    let cause := Failure.plain ("compensation for " ++ Text.quoted req.kind ++ " routed to "
      ++ Text.quoted svc.kind.name ++ " participant")
    match svc.reportEnvelope req (some cause) now with
    | .error f => (some (f.wrap "build compensation report"), s)
    | .ok e =>
      match Store.run (Store.atomically (Store.writeEnvelope svc.service e now)) s with
      | (.ok (), s') => (none, s')
      | (.error f, s') => (some f, s')
  else
    let request : Request := ⟨req.sagaId, req.orderId, req.userId, req.lines.getD []⟩
    let ((_, err), s') := svc.apply .cancel request (some (svc.reporter req)) now s
    match err with
    | some e => if e.has .announceFailed then (some e, s') else (none, s')
    | none => (none, s')

end Service

end Reservation

end OrderSaga
