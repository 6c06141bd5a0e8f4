import OrderSaga.Kind
import OrderSaga.Failure
import OrderSaga.Text.Quote

namespace OrderSaga

/-- The shape of payload an event carries. -/
inductive Shape where
  | command
  | compensationRequest
  | stepResult
  | compensationReport
  deriving DecidableEq, Repr, Inhabited

/-- The types of saga events. -/
inductive EventType where
  | reserveRequested (k : Kind)
  | confirmRequested (k : Kind)
  | compensationRequested (k : Kind)
  | reservationResult
  | confirmationResult
  | compensationCompleted
  deriving DecidableEq, Repr, Inhabited

namespace EventType

def kindWord : Kind → String
  | .stock => "STOCK"
  | .coupon => "COUPON"
  | .point => "POINT"

def name : EventType → String
  | .reserveRequested k => kindWord k ++ "_RESERVE_REQUESTED"
  | .confirmRequested k => kindWord k ++ "_CONFIRM_REQUESTED"
  | .compensationRequested k => kindWord k ++ "_COMPENSATION_REQUESTED"
  | .reservationResult => "RESERVATION_RESULT"
  | .confirmationResult => "CONFIRMATION_RESULT"
  | .compensationCompleted => "COMPENSATION_COMPLETED"

/-- Every event type. -/
def all : List EventType :=
  Kind.all.map .reserveRequested ++ Kind.all.map .confirmRequested
    ++ Kind.all.map .compensationRequested
    ++ [.reservationResult, .confirmationResult, .compensationCompleted]

def ofName? (s : String) : Option EventType := all.find? (·.name == s)

theorem ofName?_name (t : EventType) : ofName? t.name = some t := by
  cases t with
  | reserveRequested k => cases k <;> rfl
  | confirmRequested k => cases k <;> rfl
  | compensationRequested k => cases k <;> rfl
  | _ => rfl

def topic : EventType → String
  | .reserveRequested k => k.name ++ ".reserve"
  | .confirmRequested k => k.name ++ ".confirm"
  | .compensationRequested k => k.name ++ ".compensate"
  | .reservationResult => "saga.reservation.result"
  | .confirmationResult => "saga.confirmation.result"
  | .compensationCompleted => "saga.compensation.completed"

def shape : EventType → Shape
  | .reserveRequested _ | .confirmRequested _ => .command
  | .compensationRequested _ => .compensationRequest
  | .reservationResult | .confirmationResult => .stepResult
  | .compensationCompleted => .compensationReport

def unknown (shown : String) : Failure := .of .unknownType ("unknown event type: " ++ shown)

/-- The topic of a type name. -/
def topicOf (s : String) : Except Failure String :=
  match ofName? s with
  | some t => .ok t.topic
  | none => .error (unknown s)

/-- A participant's request types, looked up by its name. -/
def forParticipant (make : Kind → EventType) (kind : String) : Except Failure EventType :=
  match Kind.ofName? kind with
  | some k => .ok (make k)
  | none => .error (unknown ("participant " ++ Text.quoted kind))

end EventType

end OrderSaga
