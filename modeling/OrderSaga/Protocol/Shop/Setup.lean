import OrderSaga.Protocol.Events
import OrderSaga.Shop.Delivery
import OrderSaga.Store.Resources

namespace OrderSaga.Protocol

/-- The kind a request names. -/
def kindNamed (name : String) : Reading Kind :=
  match Kind.ofName? name with
  | some k => .ok k
  | none => .error ("unknown kind " ++ name)

/-- Reads the participants' modes from every table of them in turn: a table adds its kinds, a kind
given again is replaced, and `null` empties the table; a mode that is no text reads as the empty
text. -/
def readModes (spec : Request) (w : Wiring) : Reading Wiring :=
  let modes := (spec.values "modes").foldl (fun acc t => match t with
    | .obj ms => ms.foldl (fun acc (k, v) =>
        let m := Json.Reader.text.read v ""
        if acc.any (·.1 == k) then acc.map fun (k', m') => if k' == k then (k, m) else (k', m')
        else acc ++ [(k, m)]) acc
    | _ => []) ([] : List (String × String))
  modes.foldlM (fun (w : Wiring) (name, mode) => do
    let (configured, client) ← match mode with
      | "sync" => .ok (Mode.sync, true)
      | "async" => .ok (Mode.async, false)
      | "sync_without_client" => .ok (Mode.sync, false)
      | m => .error ("unknown mode " ++ m)
    match Kind.ofName? name with
    | none => pure w
    | some k => pure { w with
        configured := fun k' => if k' == k then configured else w.configured k'
        clients := fun k' => if k' == k then client else w.clients k' }) w

/-- Whether consumers remember processed events: yes by default, and not when the registry is left
out or disabled. -/
def readRemembers (spec : Request) : Reading Bool :=
  match spec.raw "idempotency" with
  | .null => .ok true
  | .bool b => .ok b
  | .str "disabled" => .ok false
  | _ => .error "idempotency must be true, false or \"disabled\""

def readOrderIds (spec : Request) : OrderIds :=
  if spec.given "order_ids" then
    .listed ((spec.items "order_ids").map (Json.Reader.uint64.read · 0))
  else .counting (spec.u64 "first_order_id" 1001)

def seedAnswer (key : String) (id : Json) (err : Option Failure) : Json :=
  .obj [(key, id), ("error", Failure.toJson? err)]

/-- Creates a row in a participant's store and answers for it; `key` reads the created row's key off
the store when the row is refused. -/
def seedRow {α : Type} (sh : Shop) (k : Kind) (name : String) (m : Store.Op α)
    (keyOf : α → UInt64) (refusedKey : Store → UInt64) : Json × Shop :=
  let s := sh.store (.participant k)
  match m s with
  | .ok a s' => (seedAnswer name (.ofUInt64 (keyOf a)) none, sh.setStore (.participant k) s')
  | .error e s' => (seedAnswer name (.ofUInt64 (refusedKey s')) (some e),
      sh.setStore (.participant k) s')

def seedOption (sh : Shop) (row : Request) : Json × Shop :=
  let o : ProductOption := {
    id := row.u64 "id", productId := row.u64 "product_id", name := row.text "name",
    stock := row.i64 "stock", reserved := row.i64 "reserved" }
  seedRow sh .stock "option" (Store.createOption o sh.now) (·.id)
    fun s => if o.id == 0 then s.seq else o.id

/-- A seeded coupon expires a day after the shop's clock unless the row says otherwise. -/
def seedCoupon (sh : Shop) (row : Request) : Json × Shop :=
  let c : Coupon := {
    id := row.u64 "id", userId := row.u64 "user", code := row.text "code",
    discount := row.i64 "discount", status := CouponStatus.ofName (row.text "status"),
    expiresAt := sh.now.shift (Span.ofMillis ((row.i64? "expires_in_ms").getD 86400000))
    reservedBy := row.u64 "reserved_by" }
  seedRow sh .coupon "coupon" (Store.createCoupon c sh.now) (·.id)
    fun s => if c.id == 0 then s.seq else c.id

def seedPoints (sh : Shop) (row : Request) : Json × Shop :=
  let p : PointBalance := {
    userId := row.u64 "user", balance := row.i64 "balance", reserved := row.i64 "reserved" }
  seedRow sh .point "points" (Store.createPoints p sh.now) (·.userId) fun _ => p.userId

/-- Seeds the rows of each kind in turn, answering per row. -/
def seedRows (sh : Shop) (rows : List Request) (one : Shop → Request → Json × Shop) :
    List Json × Shop :=
  rows.foldl (fun (out, sh) row =>
    let (a, sh) := one sh row
    (out ++ [a], sh)) ([], sh)

/-- The rows a seed gives and their types. -/
def seedSchema : Json.Schema :=
  .record "main.seedSpec" [
    ("options", .listOf (.unnamed [⟨"ID", "id", .uint64, false⟩,
      ⟨"ProductID", "product_id", .uint64, false⟩, ⟨"Name", "name", .text, false⟩,
      ⟨"Stock", "stock", .int64, false⟩, ⟨"Reserved", "reserved", .int64, false⟩])),
    ("coupons", .listOf (.unnamed [⟨"ID", "id", .uint64, false⟩,
      ⟨"User", "user", .uint64, false⟩, ⟨"Code", "code", .text, false⟩,
      ⟨"Discount", "discount", .int64, false⟩, ⟨"Status", "status", .text, false⟩,
      ⟨"ExpiresInMs", "expires_in_ms", .int64, true⟩,
      ⟨"ReservedBy", "reserved_by", .uint64, false⟩])),
    ("points", .listOf (.unnamed [⟨"User", "user", .uint64, false⟩,
      ⟨"Balance", "balance", .int64, false⟩, ⟨"Reserved", "reserved", .int64, false⟩]))]

/-- Seeds options, coupons and point balances, in that order; a seed holding a value its type cannot
hold seeds nothing and is refused. -/
def seed (sh : Shop) (spec : Json) : Reading (List Json × Shop) := do
  if let some m := seedSchema.check spec then throw ("seed: " ++ m.report seedSchema)
  let spec := Request.record spec
  let (a, sh) := seedRows sh (spec.records "options") seedOption
  let (b, sh) := seedRows sh (spec.records "coupons") seedCoupon
  let (c, sh) := seedRows sh (spec.records "points") seedPoints
  pure (a ++ b ++ c, sh)

/-- The shop a request describes, before its seed. -/
def readShop (spec : Request) : Reading Shop := do
  let w : Wiring := {
    remembers := ← readRemembers spec, watchesDegraded := !(spec.flag "no_degrade_registry"),
    batch := Relay.batchSize (spec.int "outbox_batch") }
  let w ← readModes spec w
  let down := spec.texts "down"
  let participants := Kind.all.foldl (fun ps k =>
    if down.contains k.name then ps.set k { ps.get k with down := true } else ps) {}
  pure { wiring := w, now := baseTime, participants, degraded := (spec.texts "degraded").eraseDups
         ids := readOrderIds spec }

end OrderSaga.Protocol
