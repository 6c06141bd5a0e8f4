import OrderSaga.Reservation.Codes
import OrderSaga.Store.Resources
import OrderSaga.Kind
import OrderSaga.Text.Quote

namespace OrderSaga

namespace Kind

/-- The key that guards one resource of a line. -/
def lockKey (k : Kind) (userId : UInt64) (l : Line) : String :=
  match k with
  | .stock => "stock:option:" ++ toString l.resource.toNat
  | .coupon => "coupon:" ++ toString l.resource.toNat
  | .point => "point:user:" ++ toString userId.toNat

/-- Adds two amounts, refusing a total above the largest amount. -/
def addAmount (total amount : Int64) : Except Failure Int64 :=
  if amount.toInt > 9223372036854775807 - total.toInt then
    .error (Condition.fail .invalidRequest "amount overflows")
  else .ok (total + amount)

/-- Adds a line into a merged list: a fixed amount replaces, otherwise amounts add up. -/
def mergeInto (fixed : Option Int64) (merged : List Line) (l : Line) : Except Failure (List Line) :=
  if l.resource == 0 then .error (Condition.fail .invalidRequest "resource id is required")
  else if l.amount ≤ 0 then
    .error (Condition.fail .invalidRequest
      ("resource " ++ toString l.resource.toNat ++ " amount must be positive"))
  else
    match merged.find? (·.resource == l.resource) with
    | none => .ok (merged ++ [⟨l.resource, fixed.getD l.amount⟩])
    | some m => do
      let total ← match fixed with
        | some a => pure a
        | none => match addAmount m.amount l.amount with
          | .ok t => pure t
          | .error f => throw (f.detail ("resource " ++ toString l.resource.toNat))
      pure (merged.map fun x => if x.resource == l.resource then ⟨x.resource, total⟩ else x)

/-- Checks request lines in order and merges lines of one resource, sorted by resource. -/
def mergeLines (fixed : Option Int64) (lines : List Line) : Except Failure (List Line) := do
  if lines.isEmpty then throw (Condition.fail .invalidRequest "no lines")
  let merged ← lines.foldlM (mergeInto fixed) []
  pure (merged.mergeSort fun a b => a.resource ≤ b.resource)

/-- Checks the lines of a request and brings them to the participant's form. -/
def normalize (k : Kind) (lines : List Line) : Except Failure (List Line) :=
  match k with
  | .stock => mergeLines none lines
  | .coupon => mergeLines (some 1) lines
  | .point => do
    if lines.isEmpty then throw (Condition.fail .invalidRequest "no lines")
    let total ← lines.foldlM (fun total l =>
      if l.amount ≤ 0 then throw (Condition.fail .invalidRequest "point amount must be positive")
      else addAmount total l.amount) 0
    pure [⟨0, total⟩]

def missing (what : String) (id : UInt64) : Failure :=
  Condition.fail .resourceNotFound (what ++ " " ++ toString id.toNat)

def loadOption (id : UInt64) : Store.Op ProductOption := do
  match (← get).getOption id with
  | .ok o => pure o
  | .error _ => throw (missing "product option" id)

def loadCoupon (id : UInt64) : Store.Op Coupon := do
  match (← get).getCoupon id with
  | .ok c => pure c
  | .error _ => throw (missing "coupon" id)

def loadPoints (userId : UInt64) : Store.Op PointBalance := do
  match (← get).getPoints userId with
  | .ok p => pure p
  | .error _ => throw (missing "point balance of user" userId)

/-- A reserved pool after taking `amount` out, never below zero. -/
def lessReserved (reserved amount : Int64) : Int64 :=
  let r := reserved - amount
  if r < 0 then 0 else r

/-- Moves a line's amount from available capacity into the reserved pool. -/
def hold (k : Kind) (orderId userId : UInt64) (l : Line) (now : Instant) : Store.Op Unit :=
  match k with
  | .stock => do
    let o ← loadOption l.resource
    if o.available < l.amount then
      throw (Condition.fail .insufficientCapacity ("product option " ++ toString o.id.toNat
        ++ " has " ++ toString o.available.toInt ++ " available, "
        ++ toString l.amount.toInt ++ " requested"))
    let _ ← Store.updateOption { o with reserved := o.reserved + l.amount } now
  | .coupon => do
    let c ← loadCoupon l.resource
    if c.userId != userId then
      throw (Condition.fail .resourceInvalid ("coupon " ++ toString c.id.toNat
        ++ " is not owned by user " ++ toString userId.toNat))
    if !now.before c.expiresAt then
      throw (Condition.fail .resourceInvalid ("coupon " ++ toString c.id.toNat
        ++ " expired at " ++ c.expiresAt.secondsText))
    if c.status != .available then
      throw (Condition.fail .insufficientCapacity ("coupon " ++ toString c.id.toNat
        ++ " is " ++ c.status.name))
    let _ ← Store.updateCoupon { c with status := .reserved, reservedBy := orderId } now
  | .point => do
    let p ← loadPoints userId
    if p.available < l.amount then
      throw (Condition.fail .insufficientCapacity ("user " ++ toString userId.toNat ++ " has "
        ++ toString p.available.toInt ++ " points available, "
        ++ toString l.amount.toInt ++ " requested"))
    let _ ← Store.updatePoints { p with reserved := p.reserved + l.amount } now

/-- Returns a held amount to available capacity. -/
def release (k : Kind) (orderId userId : UInt64) (l : Line) (now : Instant) : Store.Op Unit :=
  match k with
  | .stock => do
    let o ← loadOption l.resource
    let _ ← Store.updateOption { o with reserved := lessReserved o.reserved l.amount } now
  | .coupon => do
    let c ← loadCoupon l.resource
    if c.status == .reserved && c.reservedBy == orderId then
      let _ ← Store.updateCoupon { c with status := .available, reservedBy := 0 } now
  | .point => do
    let p ← loadPoints userId
    let _ ← Store.updatePoints { p with reserved := lessReserved p.reserved l.amount } now

/-- Consumes a held amount for good. -/
def commit (k : Kind) (orderId userId : UInt64) (l : Line) (now : Instant) : Store.Op Unit :=
  match k with
  | .stock => do
    let o ← loadOption l.resource
    let _ ← Store.updateOption { o with stock := o.stock - l.amount,
                                        reserved := lessReserved o.reserved l.amount } now
  | .coupon => do
    let c ← loadCoupon l.resource
    if c.status != .reserved || c.reservedBy != orderId then
      throw (Condition.fail .invalidReservationState ("coupon " ++ toString c.id.toNat ++ " is "
        ++ c.status.name ++ " for order " ++ toString c.reservedBy.toNat))
    let _ ← Store.updateCoupon { c with status := .used } now
  | .point => do
    let p ← loadPoints userId
    let _ ← Store.updatePoints { p with balance := p.balance - l.amount,
                                        reserved := lessReserved p.reserved l.amount } now

end Kind

/-- The capacity adapter of a participant named by text. -/
def capacityOf (kind : String) : Except Failure Kind :=
  match Kind.ofName? kind with
  | some k => .ok k
  | none => .error (.plain ("no capacity adapter for participant " ++ Text.quoted kind))

end OrderSaga
