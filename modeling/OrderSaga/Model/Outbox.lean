import OrderSaga.Json.Value
import OrderSaga.Time.Instant
import OrderSaga.Text.Utf8

namespace OrderSaga

structure OutboxEntry where
  id : UInt64 := 0
  eventId : String
  topic : String
  key : String
  payload : String
  createdAt : Instant := Instant.zero
  publishedAt : Option Instant := none
  attempts : Nat := 0
  lastError : String := ""
  deriving DecidableEq, Repr, Inhabited

namespace OutboxEntry

def isPublished (e : OutboxEntry) : Bool := e.publishedAt.isSome

def maxErrorLength : Nat := 500

def truncateError (reason : ByteArray) : ByteArray :=
  Utf8.cutUnits maxErrorLength (Utf8.toValidUTF8 reason "?").toByteArray

theorem truncateError_eq (reason : ByteArray) :
    truncateError reason =
      (String.ofList ((Utf8.toValidUTF8 reason "?").toList.take maxErrorLength)).toByteArray := by
  rw [truncateError, ← String.utf8Encode_toList, Utf8.cutUnits_utf8Encode,
    String.toByteArray_ofList]

theorem isValidUTF8_truncateError (reason : ByteArray) : (truncateError reason).IsValidUTF8 := by
  rw [truncateError_eq]
  exact (String.ofList _).isValidUTF8

def clipError (reason : String) : String :=
  ⟨truncateError reason.toByteArray, isValidUTF8_truncateError _⟩

end OutboxEntry

end OrderSaga
