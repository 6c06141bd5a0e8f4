import OrderSaga.Json.Fields
import OrderSaga.Time.Instant

namespace OrderSaga

/-- A sellable stock unit. -/
structure ProductOption where
  id : UInt64
  productId : UInt64 := 0
  name : String := ""
  stock : Int64 := 0
  reserved : Int64 := 0
  version : Int64 := 0
  updatedAt : Instant := Instant.zero
  deriving DecidableEq, Repr, Inhabited

namespace ProductOption

def available (p : ProductOption) : Int64 := p.stock - p.reserved

def toJson (p : ProductOption) : Json :=
  .obj [("id", .ofUInt64 p.id), ("product_id", .ofUInt64 p.productId), ("name", .str p.name),
    ("stock", .ofInt64 p.stock), ("reserved", .ofInt64 p.reserved),
    ("version", .ofInt64 p.version), ("updated_at", p.updatedAt.toJson)]

/-- How an option is read over a held one. -/
def reader : Json.Reader ProductOption :=
  .record "model.ProductOption" [
    .each "id" .uint64 (·.id) (fun p v => { p with id := v }),
    .each "product_id" .uint64 (·.productId) (fun p v => { p with productId := v }),
    .each "name" .text (·.name) (fun p v => { p with name := v }),
    .each "stock" .int64 (·.stock) (fun p v => { p with stock := v }),
    .each "reserved" .int64 (·.reserved) (fun p v => { p with reserved := v }),
    .each "version" .int64 (·.version) (fun p v => { p with version := v }),
    .each "updated_at" .instant (·.updatedAt) (fun p v => { p with updatedAt := v })]

end ProductOption

/-- Where a coupon is in its life. -/
inductive CouponStatus where
  | available
  | reserved
  | used
  | other (name : String)
  deriving DecidableEq, Repr, Inhabited

namespace CouponStatus

def name : CouponStatus → String
  | .available => "AVAILABLE"
  | .reserved => "RESERVED"
  | .used => "USED"
  | .other s => s

def ofName (s : String) : CouponStatus :=
  if s = "AVAILABLE" then .available
  else if s = "RESERVED" then .reserved
  else if s = "USED" then .used
  else .other s

end CouponStatus

/-- A coupon issued to one user. -/
structure Coupon where
  id : UInt64
  userId : UInt64 := 0
  code : String := ""
  discount : Int64 := 0
  status : CouponStatus := .available
  expiresAt : Instant := Instant.zero
  reservedBy : UInt64 := 0
  version : Int64 := 0
  updatedAt : Instant := Instant.zero
  deriving DecidableEq, Repr, Inhabited

namespace Coupon

def usable (c : Coupon) (owner : UInt64) (now : Instant) : Bool :=
  c.userId == owner && c.status == .available && now.before c.expiresAt

def toJson (c : Coupon) : Json :=
  .obj [("id", .ofUInt64 c.id), ("user_id", .ofUInt64 c.userId), ("code", .str c.code),
    ("discount_amount", .ofInt64 c.discount), ("status", .str c.status.name),
    ("expires_at", c.expiresAt.toJson), ("reserved_by", .ofUInt64 c.reservedBy),
    ("version", .ofInt64 c.version), ("updated_at", c.updatedAt.toJson)]

end Coupon

/-- A user's loyalty points. -/
structure PointBalance where
  userId : UInt64
  balance : Int64 := 0
  reserved : Int64 := 0
  version : Int64 := 0
  updatedAt : Instant := Instant.zero
  deriving DecidableEq, Repr, Inhabited

namespace PointBalance

def available (p : PointBalance) : Int64 := p.balance - p.reserved

def toJson (p : PointBalance) : Json :=
  .obj [("user_id", .ofUInt64 p.userId), ("balance", .ofInt64 p.balance),
    ("reserved", .ofInt64 p.reserved), ("version", .ofInt64 p.version),
    ("updated_at", p.updatedAt.toJson)]

/-- How a balance is read over a held one. -/
def reader : Json.Reader PointBalance :=
  .record "model.PointBalance" [
    .each "user_id" .uint64 (·.userId) (fun p v => { p with userId := v }),
    .each "balance" .int64 (·.balance) (fun p v => { p with balance := v }),
    .each "reserved" .int64 (·.reserved) (fun p v => { p with reserved := v }),
    .each "version" .int64 (·.version) (fun p v => { p with version := v }),
    .each "updated_at" .instant (·.updatedAt) (fun p v => { p with updatedAt := v })]

end PointBalance

end OrderSaga
