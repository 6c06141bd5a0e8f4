import OrderSaga.Protocol.Shop.Setup

namespace OrderSaga.Protocol

/-- A message value as answers show it: when its text begins with a JSON object, that object, an
envelope shown without its varying members; anything else as its text. -/
def eventView (value : String) : Json :=
  match Json.parseFirst value with
  | some (.obj ms) => envelopeView (.obj ms)
  | _ => .str value

/-- A pending outbox entry, with its event shown as answers show envelopes. -/
def outboxView (e : OutboxEntry) : Json :=
  .obj [("id", .ofUInt64 e.id), ("topic", .str e.topic), ("key", .str e.key),
    ("attempts", .ofNat e.attempts), ("last_error", .str e.lastError),
    ("event", eventView e.payload)]

def pendingView (s : Store) : Json := .arr ((s.fetchPending 0).map outboxView)

/-- A participant's ledger rows, by order and user, each pair's rows as written. -/
def ledgerView (s : Store) (k : Kind) : Json :=
  let rows := (s.ledgers k.name).mergeSort fun a b =>
    a.orderId < b.orderId || (a.orderId == b.orderId && a.userId ≤ b.userId)
  .arr (rows.map LedgerEntry.toJson)

def ordersView (s : Store) : List (String × Json) :=
  let orders := s.orders.mergeSort fun a b => a.id ≤ b.id
  let sagas := s.sagas.mergeSort fun a b => a.orderId ≤ b.orderId
  [("orders", .arr (orders.map Order.toJson)),
    ("sagas", if sagas.isEmpty then .null else .arr (sagas.map Saga.toJson)),
    ("outbox", pendingView s)]

def resourcesView (s : Store) : Kind → String × Json
  | .stock =>
    ("options", .arr ((s.options.mergeSort fun a b => a.id ≤ b.id).map ProductOption.toJson))
  | .coupon => ("coupons", .arr ((s.coupons.mergeSort fun a b => a.id ≤ b.id).map Coupon.toJson))
  | .point => ("points",
      .arr ((s.points.mergeSort fun a b => a.userId ≤ b.userId).map PointBalance.toJson))

def stateView (sh : Shop) : Json :=
  .obj ([("order", .obj (ordersView sh.orders))]
    ++ Kind.all.map (fun k =>
      let s := sh.store (.participant k)
      (k.name, .obj [resourcesView s k, ("ledger", ledgerView s k), ("outbox", pendingView s)]))
    ++ [("bus_pending", .ofNat sh.bus.pending.length)])

end OrderSaga.Protocol
