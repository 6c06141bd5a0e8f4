import OrderSaga.Failure

namespace OrderSaga

namespace Condition

/-- The six causes of the reservation protocol, in the order codes are looked up. -/
def protocol : List Condition :=
  [.insufficientCapacity, .resourceNotFound, .resourceInvalid, .reservationNotFound,
    .invalidReservationState, .invalidRequest]

/-- The text a cause reads as on its own. -/
def text : Condition → String
  | .insufficientCapacity => "insufficient capacity"
  | .resourceNotFound => "resource not found"
  | .resourceInvalid => "resource invalid"
  | .reservationNotFound => "reservation not found"
  | .invalidReservationState => "invalid reservation state"
  | .invalidRequest => "invalid reservation request"
  | .announceFailed => "announce reservation outcome"
  | .versionConflict => "version conflict"
  | .notFound => "record not found"
  | .duplicate => "duplicate record"
  | .sagaNotFound => "saga not found"
  | .participantUnavailable => "participant unavailable"
  | .invalidOrder => "invalid order"
  | .orderRejected => "order rejected by participant"
  | .unknownType => "unknown event type"
  | .payloadMismatch => "payload shape does not match event type"
  | .invalidPayload => "invalid event payload"
  | .lockFailed => "failed to acquire lock"
  | .clockBackwards => "snowflake: clock moved backwards"
  | .rejected => "rejected"
  | .breakerRefused => "circuit breaker is open"

def fail (c : Condition) (detail : String) : Failure := ⟨c.text ++ ": " ++ detail, [c]⟩

/-- The reason code of a protocol cause. -/
def reason? : Condition → Option String
  | .insufficientCapacity => some "INSUFFICIENT_CAPACITY"
  | .resourceNotFound => some "RESOURCE_NOT_FOUND"
  | .resourceInvalid => some "RESOURCE_INVALID"
  | .reservationNotFound => some "RESERVATION_NOT_FOUND"
  | .invalidReservationState => some "INVALID_RESERVATION_STATE"
  | .invalidRequest => some "INVALID_REQUEST"
  | _ => none

end Condition

/-- A response code of an error body. -/
structure ResponseCode where
  code : Int
  deriving DecidableEq, Repr, Inhabited

namespace ResponseCode

def invalidParam : ResponseCode := ⟨1001⟩
def insufficientCapacity : ResponseCode := ⟨2001⟩
def resourceNotFound : ResponseCode := ⟨2002⟩
def resourceInvalid : ResponseCode := ⟨2003⟩
def reservationNotFound : ResponseCode := ⟨2004⟩
def invalidReservationState : ResponseCode := ⟨2005⟩
def internalError : ResponseCode := ⟨5000⟩

/-- The HTTP status a code is sent with; unknown codes are internal errors. -/
def httpStatus (c : ResponseCode) : Int :=
  match c.code with
  | 0 => 200
  | 1001 => 400
  | 1002 => 401
  | 1004 => 404
  | 2001 => 409
  | 2002 => 404
  | 2003 => 422
  | 2004 => 404
  | 2005 => 409
  | 3001 => 503
  | 3002 => 404
  | 3003 => 422
  | _ => 500

end ResponseCode

namespace Condition

/-- The response code of a protocol cause. -/
def code? : Condition → Option ResponseCode
  | .insufficientCapacity => some .insufficientCapacity
  | .resourceNotFound => some .resourceNotFound
  | .resourceInvalid => some .resourceInvalid
  | .reservationNotFound => some .reservationNotFound
  | .invalidReservationState => some .invalidReservationState
  | .invalidRequest => some .invalidParam
  | _ => none

def ofCode? (c : ResponseCode) : Option Condition := protocol.find? (·.code? == some c)

end Condition

/-- An error body: a response code, a message, and the failure behind it if there is one. -/
structure AppError where
  code : ResponseCode
  message : String
  cause : Option Failure := none
  deriving Repr

namespace AppError

def text (e : AppError) : String :=
  let head := "code: " ++ toString e.code.code ++ ", message: " ++ e.message
  match e.cause with
  | some f => head ++ ", error: " ++ f.message
  | none => head

end AppError

namespace Failure

def protocolCause? (f : Failure) : Option Condition := Condition.protocol.find? f.has

def reason (f : Failure) : String := (f.protocolCause?.bind Condition.reason?).getD "INTERNAL"

def isValidation (f : Failure) : Bool :=
  f.has .insufficientCapacity || f.has .resourceNotFound || f.has .resourceInvalid
    || f.has .invalidRequest

def isDomain (f : Failure) : Bool :=
  f.isValidation || f.has .reservationNotFound || f.has .invalidReservationState

def appError? (f : Failure) : Option AppError :=
  (f.protocolCause?.bind Condition.code?).map fun c => ⟨c, f.message, some f⟩

/-- A participant's refusal: it answered with status and code, and the message it sent. -/
def rejection (participant : String) (status : Int) (code : ResponseCode) (message : String) :
    Failure :=
  ⟨participant ++ " participant rejected request (" ++ toString status ++ ", code "
      ++ toString code.code ++ "): " ++ message,
    .rejected :: (Condition.ofCode? code).toList⟩

def isRejection (f : Failure) : Bool := f.has .rejected

end Failure

end OrderSaga
