import OrderSaga.Line
import OrderSaga.Time.Instant

namespace OrderSaga

/-- What a ledger row records. -/
inductive EntryType where
  | reserve
  | confirm
  | cancel
  | other (name : String)
  deriving DecidableEq, Repr, Inhabited

namespace EntryType

def name : EntryType → String
  | .reserve => "RESERVE"
  | .confirm => "CONFIRM_RESERVE"
  | .cancel => "CANCEL_RESERVE"
  | .other s => s

def ofName (s : String) : EntryType :=
  if s = "RESERVE" then .reserve
  else if s = "CONFIRM_RESERVE" then .confirm
  else if s = "CANCEL_RESERVE" then .cancel
  else .other s

/-- Stage 1 opens a reservation; stage 2 is anything after it. -/
def stage : EntryType → Nat
  | .reserve => 1
  | _ => 2

/-- Whether the row closes a reservation. -/
def isFinalization : EntryType → Bool
  | .confirm | .cancel => true
  | _ => false

end EntryType

/-- One ledger row. -/
structure LedgerEntry where
  id : UInt64 := 0
  sagaId : String
  orderId : UInt64
  userId : UInt64
  resource : UInt64
  amount : Int64
  type : EntryType
  reservedAt : Instant
  deriving DecidableEq, Repr, Inhabited

namespace LedgerEntry

/-- The row of type `t` for one line, not yet numbered. -/
def ofLine (sagaId : String) (orderId userId : UInt64) (l : Line) (t : EntryType)
    (now : Instant) : LedgerEntry :=
  ⟨0, sagaId, orderId, userId, l.resource, l.amount, t, now⟩

def stage (e : LedgerEntry) : Nat := e.type.stage

def line (e : LedgerEntry) : Line := ⟨e.resource, e.amount⟩

/-- What a row holds a place in its ledger by: order, user, resource and stage. -/
structure Key where
  orderId : UInt64
  userId : UInt64
  resource : UInt64
  stage : Nat
  deriving DecidableEq, Repr

def key (e : LedgerEntry) : Key := ⟨e.orderId, e.userId, e.resource, e.stage⟩

/-- Whether `a` was reserved before `b`, or at the same instant under a number no greater. -/
def reservedBefore (a b : LedgerEntry) : Bool :=
  a.reservedAt.nanos < b.reservedAt.nanos
    || (a.reservedAt.nanos == b.reservedAt.nanos && a.id ≤ b.id)

def toJson (e : LedgerEntry) : Json :=
  .obj [("id", .ofUInt64 e.id), ("saga_id", .str e.sagaId), ("order_id", .ofUInt64 e.orderId),
    ("user_id", .ofUInt64 e.userId), ("resource_id", .ofUInt64 e.resource),
    ("amount", .ofInt64 e.amount), ("type", .str e.type.name),
    ("reserved_at", e.reservedAt.toJson)]

end LedgerEntry

end OrderSaga
