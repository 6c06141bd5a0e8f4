import OrderSaga.Line
import OrderSaga.Failure
import OrderSaga.Time.Instant

namespace OrderSaga

/-- Where a saga stands. -/
inductive SagaStatus where
  | created
  | reserving
  | reserved
  | confirming
  | completed
  | compensating
  | compensationCompleted
  | failed
  | other (name : String)
  deriving DecidableEq, Repr, Inhabited

namespace SagaStatus

def name : SagaStatus → String
  | .created => "CREATED"
  | .reserving => "RESERVING"
  | .reserved => "RESERVED"
  | .confirming => "CONFIRMING"
  | .completed => "COMPLETED"
  | .compensating => "COMPENSATING"
  | .compensationCompleted => "COMPENSATION_COMPLETED"
  | .failed => "FAILED"
  | .other s => s

def known : List SagaStatus :=
  [.created, .reserving, .reserved, .confirming, .completed, .compensating,
    .compensationCompleted, .failed]

def ofName (s : String) : SagaStatus := (known.find? (·.name == s)).getD (.other s)

/-- The statuses a saga may move to next. -/
def next : SagaStatus → List SagaStatus
  | .created => [.reserving]
  | .reserving => [.reserved, .compensating]
  | .reserved => [.confirming]
  | .confirming => [.completed, .compensating, .failed]
  | .compensating => [.compensationCompleted, .failed]
  | _ => []

def canTransition (s t : SagaStatus) : Bool := (next s).contains t

def isTerminal (s : SagaStatus) : Bool := (next s).isEmpty

end SagaStatus

/-- How far one phase of a participant step got; `none` is a phase not begun. -/
inductive StepState where
  | none
  | pending
  | succeeded
  | failed
  | skipped
  | other (name : String)
  deriving DecidableEq, Repr, Inhabited

namespace StepState

def name : StepState → String
  | .none => ""
  | .pending => "PENDING"
  | .succeeded => "SUCCEEDED"
  | .failed => "FAILED"
  | .skipped => "SKIPPED"
  | .other s => s

def ofName (s : String) : StepState :=
  ([StepState.none, .pending, .succeeded, .failed, .skipped].find? (·.name == s)).getD (.other s)

end StepState

/-- How the orchestrator reaches a participant: by a direct call, or by events on the bus. -/
inductive Mode where
  | sync
  | async
  | other (name : String)
  deriving DecidableEq, Repr, Inhabited

namespace Mode

def name : Mode → String
  | .sync => "sync"
  | .async => "async"
  | .other s => s

def ofName (s : String) : Mode :=
  if s = "sync" then .sync else if s = "async" then .async else .other s

end Mode

/-- One participant's part in a saga. -/
structure SagaStep where
  kind : String := ""
  mode : Mode := .other ""
  lines : List Line := []
  reserve : StepState := .none
  confirm : StepState := .none
  compensation : StepState := .none
  error : String := ""
  updatedAt : Instant := Instant.zero
  deriving DecidableEq, Repr, Inhabited

namespace SagaStep

def needsCompensation (s : SagaStep) : Bool :=
  s.reserve == .succeeded && s.confirm != .succeeded && s.compensation == .none

/-- The written step; empty lines and phases not begun are left out, as is an empty error. -/
def toJson (s : SagaStep) : Json :=
  let state (key : String) (st : StepState) : List (String × Json) :=
    if st.name.isEmpty then [] else [(key, .str st.name)]
  .obj ([("kind", .str s.kind), ("mode", .str s.mode.name)]
    ++ (if s.lines.isEmpty then [] else [("lines", Line.listJson s.lines)])
    ++ [("reserve", .str s.reserve.name)]
    ++ state "confirm" s.confirm ++ state "compensation" s.compensation
    ++ (if s.error.isEmpty then [] else [("error", .str s.error)])
    ++ [("updatedAt", s.updatedAt.toJson)])

/-- How a step is read over a held one. -/
def reader : Json.Reader SagaStep :=
  let phase (name : String) (get : SagaStep → StepState)
      (set : SagaStep → StepState → SagaStep) : Json.Field SagaStep :=
    .each name ((Json.Reader.text.map StepState.ofName (·.name)).named "model.StepState") get set
  .record "model.SagaStep" [
    .each "kind" .text (·.kind) (fun s v => { s with kind := v }),
    .each "mode" (Json.Reader.text.map Mode.ofName (·.name)) (·.mode)
      (fun s v => { s with mode := v }),
    Line.field "lines" (fun s => if s.lines.isEmpty then none else some s.lines)
      (fun s v => { s with lines := v.getD [] }),
    phase "reserve" (·.reserve) (fun s v => { s with reserve := v }),
    phase "confirm" (·.confirm) (fun s v => { s with confirm := v }),
    phase "compensation" (·.compensation) (fun s v => { s with compensation := v }),
    .each "error" .text (·.error) (fun s v => { s with error := v }),
    .each "updatedAt" .instant (·.updatedAt) (fun s v => { s with updatedAt := v })]

def listReader : Json.Reader (Option (List SagaStep)) := .list reader default "[]model.SagaStep"

end SagaStep

/-- The orchestrator's record of one order's saga. -/
structure Saga where
  sagaId : String
  orderId : UInt64
  userId : UInt64
  status : SagaStatus
  steps : Option (List SagaStep) := none
  errorMessage : String := ""
  version : Int64 := 0
  createdAt : Instant := Instant.zero
  updatedAt : Instant := Instant.zero
  deriving DecidableEq, Repr, Inhabited

namespace Saga

def stepList (s : Saga) : List SagaStep := s.steps.getD []

def step? (s : Saga) (kind : String) : Option SagaStep := s.stepList.find? (·.kind == kind)

def stored (s : Saga) : Saga := { s with steps := some s.stepList }

/-- Moves the saga to `next` if the state machine allows it. -/
def transitionTo (s : Saga) (next : SagaStatus) : Except Failure Saga :=
  if s.status.canTransition next then .ok { s with status := next }
  else .error (.plain s!"saga {s.sagaId}: illegal transition {s.status.name} -> {next.name}")

def toJson (s : Saga) : Json :=
  .obj ([("saga_id", .str s.sagaId), ("order_id", .ofUInt64 s.orderId),
    ("user_id", .ofUInt64 s.userId), ("status", .str s.status.name),
    ("steps", match s.steps with
      | some steps => .arr (steps.map SagaStep.toJson)
      | none => .null)]
    ++ (if s.errorMessage.isEmpty then [] else [("error_message", .str s.errorMessage)])
    ++ [("version", .ofInt64 s.version), ("created_at", s.createdAt.toJson),
      ("updated_at", s.updatedAt.toJson)])

end Saga

end OrderSaga
