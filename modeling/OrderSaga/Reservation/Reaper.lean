import OrderSaga.Reservation.Service
import OrderSaga.Time.Duration

namespace OrderSaga

namespace Reservation

/-- What one sweep found and did. -/
structure SweepReport where
  expired : Nat := 0
  orders : Nat := 0
  canceled : Nat := 0
  skipped : Nat := 0
  failed : Nat := 0
  deriving DecidableEq, Repr

/-- The orders of the rows, each once with the saga of its first row. -/
def expiredOrders (rows : List LedgerEntry) : List (UInt64 × UInt64 × String) :=
  rows.foldl (fun acc e =>
    if acc.any (fun (o, u, _) => o == e.orderId && u == e.userId) then acc
    else acc ++ [(e.orderId, e.userId, e.sagaId)]) []

/-- Files the answer to one cancellation. -/
def SweepReport.count (r : SweepReport) : Option Result × Option Failure → SweepReport
  | (some res, none) =>
    if res.outcome == .alreadyCanceled then { r with skipped := r.skipped + 1 }
    else { r with canceled := r.canceled + 1 }
  | (none, none) => { r with canceled := r.canceled + 1 }
  | (_, some f) =>
    if f.has .invalidReservationState then { r with skipped := r.skipped + 1 }
    else { r with failed := r.failed + 1 }

def expiryCutoff (threshold : Span) (now : Instant) : Instant :=
  now.shift (if threshold.nanos ≤ 0 then Span.ofMillis 600000 else threshold).neg

def batchSize (limit : Int) : Int := if limit ≤ 0 then 100 else limit

namespace Service

/-- Cancels one order of a sweep, as a whole under the saga given, and files the answer. -/
def cancelExpired (svc : Service) (now : Instant) (acc : SweepReport × Store)
    (order : UInt64 × UInt64 × String) : SweepReport × Store :=
  let (answer, s) := svc.apply .cancel ⟨order.2.2, order.1, order.2.1, []⟩ none now acc.2
  (SweepReport.count { acc.1 with orders := acc.1.orders + 1 } answer, s)

/-- Cancels the orders whose reservations opened longer than `threshold` before `now`, at most
`limit` rows at a time. -/
def sweep (svc : Service) (threshold : Span) (limit : Int) (now : Instant) (s : Store) :
    SweepReport × Store :=
  let rows := s.findExpired svc.kind.name (expiryCutoff threshold now) (batchSize limit)
  (expiredOrders rows).foldl (svc.cancelExpired now) ({ expired := rows.length }, s)

end Service

end Reservation

end OrderSaga
