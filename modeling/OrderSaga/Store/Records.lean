import OrderSaga.Store.Basic

namespace OrderSaga.Store

/-- Creates a saga stamped with `now`; a saga id or order already taken is refused. -/
def createSaga (g : Saga) (now : Instant) : Op Saga := do
  let s ← get
  check (!s.sagas.any (·.sagaId == g.sagaId)) duplicate
  check (!s.sagas.any (·.orderId == g.orderId)) duplicate
  let _ ← nextId
  let g := { g with createdAt := now, updatedAt := now }
  modify fun s => { s with sagas := s.sagas ++ [Saga.stored g] }
  pure g

def getSaga (s : Store) (sagaId : String) : Except Failure Saga :=
  match s.sagas.find? (·.sagaId == sagaId) with
  | some g => .ok g
  | none => .error notFound

def getSagaByOrder (s : Store) (orderId : UInt64) : Except Failure Saga :=
  match s.sagas.find? (·.orderId == orderId) with
  | some g => .ok g
  | none => .error notFound

/-- Writes a saga read at its current version; the version advances and the saga is stamped. -/
def updateSaga (g : Saga) (now : Instant) : Op Saga := do
  let s ← get
  match s.sagas.find? (·.sagaId == g.sagaId) with
  | some cur =>
    check (cur.version == g.version) versionConflict
    let g := { g with version := g.version + 1, updatedAt := now }
    set { s with sagas := s.sagas.map fun (x : Saga) =>
      if x.sagaId == g.sagaId then Saga.stored g else x }
    pure g
  | none => throw versionConflict

/-- Sagas in a status, least recently updated first; a positive `limit` keeps that many. -/
def listByStatus (s : Store) (status : SagaStatus) (limit : Int) : List Saga :=
  let sorted := (s.sagas.filter (·.status == status)).mergeSort fun a b =>
    a.updatedAt.nanos ≤ b.updatedAt.nanos
  if limit > 0 then sorted.take limit.toNat else sorted

/-- Numbers the items of an order in turn. -/
def numberItems (orderId : UInt64) : List OrderItem → Op (List OrderItem)
  | [] => pure []
  | i :: rest => do
    let id ← nextId
    let rest ← numberItems orderId rest
    pure ({ i with id, orderId } :: rest)

/-- Creates an order stamped with `now`; an id already taken is refused. -/
def createOrder (o : Order) (now : Instant) : Op Order := do
  let s ← get
  check (!s.orders.any (·.id == o.id)) duplicate
  let items ← numberItems o.id o.items
  let o := { o with createdAt := now, updatedAt := now, items }
  modify fun s => { s with orders := s.orders ++ [o] }
  pure o

def getOrder (s : Store) (id : UInt64) : Except Failure Order :=
  match s.orders.find? (·.id == id) with
  | some o => .ok o
  | none => .error notFound

/-- Sets an order's status and failure reason. -/
def setOrderStatus (id : UInt64) (status : OrderStatus) (reason : String) (now : Instant) :
    Op Unit := do
  let s ← get
  check (s.orders.any (·.id == id)) notFound
  set { s with orders := s.orders.map fun (o : Order) =>
    if o.id == id then { o with status, failureReason := reason, updatedAt := now } else o }

end OrderSaga.Store
