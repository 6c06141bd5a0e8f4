
namespace OrderSaga

/-- The causes a failure can signal. -/
inductive Condition where
  | announceFailed
  | orderRejected
  | invalidOrder
  | sagaNotFound
  | insufficientCapacity
  | resourceNotFound
  | resourceInvalid
  | reservationNotFound
  | invalidReservationState
  | invalidRequest
  | unknownType
  | payloadMismatch
  | invalidPayload
  | notFound
  | versionConflict
  | duplicate
  | participantUnavailable
  | lockFailed
  | clockBackwards
  | rejected
  | breakerRefused
  deriving DecidableEq, Repr

/-- What went wrong: the text a caller sees and the conditions it signals. -/
structure Failure where
  message : String
  conditions : List Condition := []
  deriving DecidableEq, Repr, Inhabited

namespace Failure

def plain (message : String) : Failure := ⟨message, []⟩

def of (c : Condition) (message : String) : Failure := ⟨message, [c]⟩

def wrap (context : String) (f : Failure) : Failure :=
  { f with message := context ++ ": " ++ f.message }

def within (c : Condition) (context : String) (f : Failure) : Failure :=
  ⟨context ++ ": " ++ f.message, c :: f.conditions⟩

def detail (f : Failure) (detail : String) : Failure :=
  { f with message := f.message ++ ": " ++ detail }

def has (f : Failure) (c : Condition) : Bool := f.conditions.contains c

end Failure

end OrderSaga
