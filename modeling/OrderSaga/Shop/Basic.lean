import OrderSaga.Saga.Orchestrator
import OrderSaga.Reservation.Reaper
import OrderSaga.Reservation.Compensation
import OrderSaga.Relay

/-!
A shop: the order service with its saga orchestrator, the stock, coupon and point participants,
and the bus between them. A participant is called directly when it is configured synchronous and
has a client, and is reached by commands on the bus otherwise.
-/

namespace OrderSaga

/-- A service of the shop that keeps a store and an outbox. -/
inductive Site where
  | orders
  | participant (k : Kind)
  deriving DecidableEq, Repr

namespace Site

def name : Site → String
  | .orders => "order"
  | .participant k => k.name

def all : List Site := .orders :: Kind.all.map .participant

def ofName? (s : String) : Option Site := all.find? (·.name == s)

end Site

/-- A participant: its store, and whether it is down for direct calls. -/
structure Participant where
  store : Store := {}
  down : Bool := false

structure Participants where
  stock : Participant := {}
  coupon : Participant := {}
  point : Participant := {}

namespace Participants

def get (ps : Participants) : Kind → Participant
  | .stock => ps.stock
  | .coupon => ps.coupon
  | .point => ps.point

def set (ps : Participants) : Kind → Participant → Participants
  | .stock, p => { ps with stock := p }
  | .coupon, p => { ps with coupon := p }
  | .point, p => { ps with point := p }

theorem get_set (ps : Participants) (k : Kind) (p : Participant) : (ps.set k p).get k = p := by
  cases k <;> rfl

end Participants

/-- How a shop is put together. -/
structure Wiring where
  configured : Kind → Mode := fun _ => .async
  clients : Kind → Bool := fun _ => false
  remembers : Bool := true
  watchesDegraded : Bool := true
  batch : Nat := 100

/-- Where order ids come from: a fixed list that can run out, or counting up. -/
inductive OrderIds where
  | listed (ids : List UInt64)
  | counting (next : UInt64)
  deriving Repr

structure Shop where
  wiring : Wiring := {}
  now : Instant
  orders : Store := {}
  participants : Participants := {}
  bus : Bus := {}
  processed : List (String × String) := []
  degraded : List String := []
  ids : OrderIds := .counting 1001

abbrev ShopM := EStateM Failure Shop

namespace Shop

def store (sh : Shop) : Site → Store
  | .orders => sh.orders
  | .participant k => (sh.participants.get k).store

def setStore (sh : Shop) : Site → Store → Shop
  | .orders, s => { sh with orders := s }
  | .participant k, s =>
    { sh with participants := sh.participants.set k { sh.participants.get k with store := s } }

def withIdSource (src : IdSource) (sh : Shop) : Shop :=
  Site.all.foldl (fun sh site => sh.setStore site { sh.store site with idSource := src }) sh

/-- Runs a store operation on a service's store. -/
def onSite {α : Type} (site : Site) (m : Store.Op α) : ShopM α := fun sh =>
  match m (sh.store site) with
  | .ok a s => .ok a (sh.setStore site s)
  | .error e s => .error e (sh.setStore site s)

def withStore {α : Type} (site : Site) (f : Store → α × Store) : ShopM α :=
  modifyGet fun sh => let (a, s) := f (sh.store site); (a, sh.setStore site s)

def clock : ShopM Instant := do pure (← get).now

def service (k : Kind) : Reservation.Service := ⟨k, k.name ++ "-service"⟩

def mode (sh : Shop) (k : Kind) : Mode :=
  if sh.wiring.configured k == .sync && sh.wiring.clients k then .sync else .async

def nextOrderId : ShopM UInt64 := do
  match (← get).ids with
  | .listed [] => throw (.plain "id generator exhausted")
  | .listed (i :: rest) => modify fun sh => { sh with ids := .listed rest }; pure i
  | .counting n => modify fun sh => { sh with ids := .counting (n + 1) }; pure n

/-- Runs a reservation operation at a participant. -/
def apply (k : Kind) (op : Reservation.Operation) (req : Reservation.Request)
    (announce : Option Reservation.Announcer) :
    ShopM (Option Reservation.Result × Option Failure) :=
  do withStore (.participant k) ((service k).apply op req announce (← clock))

def unavailable (kind : String) (op : Reservation.Operation) (detail : String) : Failure :=
  Condition.fail .participantUnavailable (kind ++ " " ++ op.name ++ ": " ++ detail)

/-- A direct call of a participant, as its client sees it. -/
def call (op : Reservation.Operation) (kind : String) (req : Reservation.Request) :
    ShopM (Except Failure (Option Reservation.Result)) := do
  match Kind.ofName? kind with
  | none => pure (.error (unavailable kind op "no client"))
  | some k =>
    if ((← get).participants.get k).down then
      return .error (unavailable kind op "connection refused")
    match ← apply k op req none with
    | (res, none) => pure (.ok res)
    | (_, some e) =>
      match e.appError? with
      | some ae => pure (.error (Failure.rejection kind ae.code.httpStatus ae.code ae.message))
      | none => pure (.error (unavailable kind op e.message))

def request (g : Saga) (st : SagaStep) : Reservation.Request :=
  ⟨g.sagaId, g.orderId, g.userId, st.lines⟩

/-- The step result a direct call amounts to. -/
def stepResultOf (g : Saga) (kind : String) (r : Except Failure (Option Reservation.Result))
    (now : Instant) : StepResult :=
  let base : StepResult :=
    { sagaId := g.sagaId, orderId := g.orderId, userId := g.userId, kind, timestamp := now }
  match r with
  | .ok res => { base with success := true, outcome := (res.map (·.outcome.name)).getD "" }
  | .error e =>
    { base with reason := if e.isRejection then e.reason else "PARTICIPANT_UNAVAILABLE",
                errorMessage := e.message }

end Shop

end OrderSaga
