
namespace OrderSaga

/-- A participant of the order saga. -/
inductive Kind where
  | stock
  | coupon
  | point
  deriving DecidableEq, Repr, Inhabited

namespace Kind

def all : List Kind := [.stock, .coupon, .point]

def name : Kind → String
  | .stock => "stock"
  | .coupon => "coupon"
  | .point => "point"

/-- The participant of a wire name; names are matched exactly. -/
def ofName? (s : String) : Option Kind :=
  if s = "stock" then some .stock
  else if s = "coupon" then some .coupon
  else if s = "point" then some .point
  else none

theorem ofName?_name (k : Kind) : ofName? k.name = some k := by
  cases k <;> rfl

def isName (s : String) : Bool := (ofName? s).isSome

/-- The ledger table of a participant's reservations. -/
def table : Kind → String
  | .stock => "stock_reservations"
  | .coupon => "coupon_reservations"
  | .point => "point_reservations"

end Kind

/-- The corrective action a participant reports after undoing its hold. -/
inductive CompensationType where
  | stockRestore
  | couponCancel
  | pointRefund
  deriving DecidableEq, Repr

namespace CompensationType

def name : CompensationType → String
  | .stockRestore => "STOCK_RESTORE"
  | .couponCancel => "COUPON_CANCEL"
  | .pointRefund => "POINT_REFUND"

def ofName? (s : String) : Option CompensationType :=
  if s = "STOCK_RESTORE" then some .stockRestore
  else if s = "COUPON_CANCEL" then some .couponCancel
  else if s = "POINT_REFUND" then some .pointRefund
  else none

/-- The participant that performs the action. -/
def kind : CompensationType → Kind
  | .stockRestore => .stock
  | .couponCancel => .coupon
  | .pointRefund => .point

end CompensationType

/-- The compensation a participant performs. -/
def Kind.compensation : Kind → CompensationType
  | .stock => .stockRestore
  | .coupon => .couponCancel
  | .point => .pointRefund

theorem Kind.compensation_kind (k : Kind) : k.compensation.kind = k := by
  cases k <;> rfl

end OrderSaga
