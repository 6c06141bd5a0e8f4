import OrderSaga.Json.Value
import OrderSaga.Time.Instant

namespace OrderSaga

inductive OrderStatus where
  | created
  | completed
  | failed
  | other (name : String)
  deriving DecidableEq, Repr, Inhabited

namespace OrderStatus

def name : OrderStatus → String
  | .created => "CREATED"
  | .completed => "COMPLETED"
  | .failed => "FAILED"
  | .other s => s

def ofName (s : String) : OrderStatus :=
  if s = "CREATED" then .created
  else if s = "COMPLETED" then .completed
  else if s = "FAILED" then .failed
  else .other s

def isFinal (s : OrderStatus) : Bool := s == .completed || s == .failed

end OrderStatus

/-- One product option line of an order. -/
structure OrderItem where
  id : UInt64 := 0
  orderId : UInt64 := 0
  option : UInt64
  quantity : Int64
  deriving DecidableEq, Repr, Inhabited

def OrderItem.toJson (i : OrderItem) : Json :=
  .obj [("id", .ofUInt64 i.id), ("order_id", .ofUInt64 i.orderId),
    ("product_option_id", .ofUInt64 i.option), ("quantity", .ofInt64 i.quantity)]

/-- An order. -/
structure Order where
  id : UInt64
  userId : UInt64
  status : OrderStatus
  couponId : UInt64 := 0
  usedPoints : Int64 := 0
  failureReason : String := ""
  createdAt : Instant := Instant.zero
  updatedAt : Instant := Instant.zero
  items : List OrderItem := []
  deriving DecidableEq, Repr, Inhabited

namespace Order

def isFinal (o : Order) : Bool := o.status.isFinal

/-- The written order; a zero coupon, zero points, an empty reason and no items are left out. -/
def toJson (o : Order) : Json :=
  .obj ([("id", .ofUInt64 o.id), ("user_id", .ofUInt64 o.userId), ("status", .str o.status.name)]
    ++ (if o.couponId == 0 then [] else [("coupon_id", .ofUInt64 o.couponId)])
    ++ (if o.usedPoints == 0 then [] else [("used_points", .ofInt64 o.usedPoints)])
    ++ (if o.failureReason.isEmpty then [] else [("failure_reason", .str o.failureReason)])
    ++ [("created_at", o.createdAt.toJson), ("updated_at", o.updatedAt.toJson)]
    ++ (if o.items.isEmpty then [] else [("items", .arr (o.items.map OrderItem.toJson))]))

end Order

end OrderSaga
