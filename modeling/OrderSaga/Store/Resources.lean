import OrderSaga.Store.Basic

namespace OrderSaga.Store

/-- Creates an option; id 0 takes the next number of the sequence, even when the creation is then
refused because the id is taken. -/
def createOption (o : ProductOption) (now : Instant) : Op ProductOption := do
  let id ← if o.id == 0 then nextId else pure o.id
  let s ← get
  check (!s.options.any (·.id == id)) duplicate
  let o := { o with id, updatedAt := now }
  set { s with options := upsert (·.id) o s.options }
  pure o

def getOption (s : Store) (id : UInt64) : Except Failure ProductOption :=
  match s.options.find? (·.id == id) with
  | some o => .ok o
  | none => .error notFound

/-- Writes an option read at its current version; the version advances. -/
def updateOption (o : ProductOption) (now : Instant) : Op ProductOption := do
  let s ← get
  match s.options.find? (·.id == o.id) with
  | some cur =>
    check (cur.version == o.version) versionConflict
    let o := { o with version := o.version + 1, updatedAt := now }
    set { s with options := upsert (·.id) o s.options }
    pure o
  | none => throw versionConflict

/-- Creates a coupon; id 0 takes the next number, and a coupon without status is available. -/
def createCoupon (c : Coupon) (now : Instant) : Op Coupon := do
  let id ← if c.id == 0 then nextId else pure c.id
  let s ← get
  check (!s.coupons.any (·.id == id)) duplicate
  let status := if c.status == .other "" then .available else c.status
  let c := { c with id, status, updatedAt := now }
  set { s with coupons := upsert (·.id) c s.coupons }
  pure c

def getCoupon (s : Store) (id : UInt64) : Except Failure Coupon :=
  match s.coupons.find? (·.id == id) with
  | some c => .ok c
  | none => .error notFound

def updateCoupon (c : Coupon) (now : Instant) : Op Coupon := do
  let s ← get
  match s.coupons.find? (·.id == c.id) with
  | some cur =>
    check (cur.version == c.version) versionConflict
    let c := { c with version := c.version + 1, updatedAt := now }
    set { s with coupons := upsert (·.id) c s.coupons }
    pure c
  | none => throw versionConflict

/-- Creates a user's balance; a user has at most one. -/
def createPoints (p : PointBalance) (now : Instant) : Op PointBalance := do
  let s ← get
  check (!s.points.any (·.userId == p.userId)) duplicate
  let p := { p with updatedAt := now }
  set { s with points := upsert (·.userId) p s.points }
  pure p

def getPoints (s : Store) (userId : UInt64) : Except Failure PointBalance :=
  match s.points.find? (·.userId == userId) with
  | some p => .ok p
  | none => .error notFound

def updatePoints (p : PointBalance) (now : Instant) : Op PointBalance := do
  let s ← get
  match s.points.find? (·.userId == p.userId) with
  | some cur =>
    check (cur.version == p.version) versionConflict
    let p := { p with version := p.version + 1, updatedAt := now }
    set { s with points := upsert (·.userId) p s.points }
    pure p
  | none => throw versionConflict

end OrderSaga.Store
