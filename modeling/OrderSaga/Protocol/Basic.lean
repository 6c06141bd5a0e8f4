import OrderSaga.Json.Fields
import OrderSaga.Time.Duration
import OrderSaga.Failure

namespace OrderSaga

namespace Condition

/-- The label of a condition, if it has one. -/
def label? : Condition → Option String
  | .announceFailed => some "ANNOUNCE_FAILED"
  | .orderRejected => some "ORDER_REJECTED"
  | .invalidOrder => some "INVALID_ORDER"
  | .sagaNotFound => some "SAGA_NOT_FOUND"
  | .insufficientCapacity => some "INSUFFICIENT_CAPACITY"
  | .resourceNotFound => some "RESOURCE_NOT_FOUND"
  | .resourceInvalid => some "RESOURCE_INVALID"
  | .reservationNotFound => some "RESERVATION_NOT_FOUND"
  | .invalidReservationState => some "INVALID_RESERVATION_STATE"
  | .invalidRequest => some "INVALID_REQUEST"
  | .unknownType => some "UNKNOWN_TYPE"
  | .payloadMismatch => some "PAYLOAD_MISMATCH"
  | .invalidPayload => some "INVALID_PAYLOAD"
  | .notFound => some "NOT_FOUND"
  | .versionConflict => some "VERSION_CONFLICT"
  | .duplicate => some "DUPLICATE"
  | .participantUnavailable => some "PARTICIPANT_UNAVAILABLE"
  | .lockFailed => some "LOCK_FAILED"
  | .clockBackwards => some "CLOCK_BACKWARDS"
  | _ => none

/-- Conditions in order of precedence for labelling. -/
def precedence : List Condition :=
  [.announceFailed, .orderRejected, .invalidOrder, .sagaNotFound, .insufficientCapacity,
    .resourceNotFound, .resourceInvalid, .reservationNotFound, .invalidReservationState,
    .invalidRequest, .unknownType, .payloadMismatch, .invalidPayload, .notFound,
    .versionConflict, .duplicate, .participantUnavailable, .lockFailed, .clockBackwards]

end Condition

namespace Failure

/-- The label of the first condition in order of precedence that the failure signals. -/
def label (f : Failure) : String :=
  match Condition.precedence.find? (f.has ·) with
  | some c => (c.label?).getD "ERROR"
  | none => "ERROR"

def toJson (f : Failure) : Json := .obj [("error", .str f.label), ("message", .str f.message)]

/-- A failure, or `null` when there is none. -/
def toJson? : Option Failure → Json
  | some f => f.toJson
  | none => .null

/-- The text of a failure, or `null` when there is none. -/
def text? : Option Failure → Json
  | some f => .str f.message
  | none => .null

end Failure

namespace Protocol

abbrev Reading := Except String

def badRequest (message : String) : Json :=
  .obj [("error", .str "bad_request"), ("message", .str message)]

/-- The answer to a request read, or the refusal to read it. -/
def answerOf (r : Reading Json) : Json :=
  match r with
  | .ok j => j
  | .error m => badRequest m

/-- A request object and how a name finds its members. -/
structure Request where
  members : List (String × Json)
  byField : Bool

namespace Request

def table (j : Json) : Request := ⟨j.members, false⟩

def record (j : Json) : Request := ⟨j.members, true⟩

/-- The values of the members that `name` finds, in written order. -/
def values (r : Request) (name : String) : List Json :=
  if r.byField then r.members.filterMap fun (k, v) => if Json.sameName k name then some v else none
  else match r.members.reverse.find? (·.1 == name) with
    | some (_, v) => [v]
    | none => []

def has (r : Request) (name : String) : Bool := !(r.values name).isEmpty

/-- Whether the request gives `name`: a table has the key, whatever its value; the last member of a
record that names it is not `null`. -/
def given (r : Request) (name : String) : Bool :=
  match (r.values name).getLast? with
  | some v => !r.byField || !v.isNull
  | none => false

def read {β : Type} (r : Request) (name : String) (rd : Json.Reader β) (default : β) : β :=
  (r.values name).foldl (fun b j => rd.read j b) default

def sub (r : Request) (name : String) : Request := ⟨(r.values name).flatMap Json.members, true⟩

def raw (r : Request) (name : String) : Json := ((r.values name).getLast?).getD .null

def u64 (r : Request) (name : String) (default : UInt64 := 0) : UInt64 :=
  r.read name .uint64 default

def i64 (r : Request) (name : String) (default : Int64 := 0) : Int64 := r.read name .int64 default

def int (r : Request) (name : String) (default : Int := 0) : Int := r.read name .int default

def text (r : Request) (name : String) (default : String := "") : String :=
  r.read name .text default

def flag (r : Request) (name : String) (default : Bool := false) : Bool :=
  r.read name .flag default

def millis (r : Request) (name : String) (default : Int64 := 0) : Span :=
  Span.ofMillis (r.i64 name default)

/-- A value given or not: a table's key with any value, or a record's members read as an optional
value, which `null` clears. -/
def optional {β : Type} (r : Request) (name : String) (rd : Json.Reader β) (zero : β) :
    Option β :=
  if r.byField then r.read name (rd.optional zero) none
  else if r.given name then some (r.read name rd zero) else none

def text? (r : Request) (name : String) : Option String := r.optional name .text ""

def u64? (r : Request) (name : String) : Option UInt64 := r.optional name .uint64 0

def i64? (r : Request) (name : String) : Option Int64 := r.optional name .int64 0

def flag? (r : Request) (name : String) : Option Bool := r.optional name .flag false

def records (r : Request) (name : String) : List Request :=
  (Json.readObjects (r.values name)).map record

def reader (s : Json.Schema) : Json.Reader Request :=
  ⟨s, fun j r => ⟨r.members ++ j.members, true⟩⟩

/-- The members at `name` read strictly by `rd` over `default`: a value that its type cannot hold
refuses the request, and the refusal names the field. -/
def get {β : Type} (r : Request) (name : String) (rd : Json.Reader β) (default : β) :
    Reading β :=
  let vs := r.values name
  match vs.findSome? rd.schema.check with
  | some m => throw ("field " ++ name ++ ": " ++ m.report rd.schema)
  | none => pure (vs.foldl (fun b j => rd.read j b) default)

def getText (r : Request) (name : String) : Reading String := r.get name .text ""

def getU64 (r : Request) (name : String) : Reading UInt64 := r.get name .uint64 0

def getI64 (r : Request) (name : String) : Reading Int64 := r.get name .int64 0

def getInt (r : Request) (name : String) : Reading Int := r.get name .int 0

def getFlag (r : Request) (name : String) : Reading Bool := r.get name .flag false

def getTexts (r : Request) (name : String) : Reading (List String) := r.get name .texts []

/-- A value given or not, read strictly: a table's key with any value, or a record's members read as
an optional value, which `null` clears. -/
def getOptional {β : Type} (r : Request) (name : String) (rd : Json.Reader β) (zero : β) :
    Reading (Option β) :=
  if r.byField then r.get name (rd.optional zero) none
  else if r.given name then some <$> r.get name rd zero else pure none

def getText? (r : Request) (name : String) : Reading (Option String) :=
  r.getOptional name .text ""

/-- The items of the list at `name`; anything but a list reads as no items. -/
def items (r : Request) (name : String) : List Json :=
  match r.raw name with
  | .arr xs => xs
  | _ => []

def texts (r : Request) (name : String) : List String :=
  (r.items name).map fun x => (Json.str? x).getD ""

end Request

end Protocol

end OrderSaga
