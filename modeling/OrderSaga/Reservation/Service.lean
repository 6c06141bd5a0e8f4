import OrderSaga.Reservation.Capacity
import OrderSaga.Store.Ledger
import OrderSaga.Store.Envelope

namespace OrderSaga

namespace Reservation

inductive Operation where
  | reserve
  | confirm
  | cancel
  deriving DecidableEq, Repr

def Operation.name : Operation → String
  | .reserve => "reserve"
  | .confirm => "confirm"
  | .cancel => "cancel"

/-- What an operation did to the ledger. -/
inductive Outcome where
  | reserved
  | alreadyReserved
  | confirmed
  | alreadyConfirmed
  | canceled
  | alreadyCanceled
  deriving DecidableEq, Repr

def Outcome.name : Outcome → String
  | .reserved => "RESERVED"
  | .alreadyReserved => "ALREADY_RESERVED"
  | .confirmed => "CONFIRMED"
  | .alreadyConfirmed => "ALREADY_CONFIRMED"
  | .canceled => "CANCELED"
  | .alreadyCanceled => "ALREADY_CANCELED"

/-- One order's reservation at a participant. -/
structure Request where
  sagaId : String
  orderId : UInt64
  userId : UInt64
  lines : List Line := []
  deriving DecidableEq, Repr

/-- The answer to an applied or replayed operation. -/
structure Result where
  kind : Kind
  sagaId : String
  orderId : UInt64
  userId : UInt64
  outcome : Outcome
  lines : List Line
  deriving DecidableEq, Repr

def Result.toJson (r : Result) : Json :=
  .obj [("kind", .str r.kind.name), ("sagaId", .str r.sagaId), ("orderId", .ofUInt64 r.orderId),
    ("userId", .ofUInt64 r.userId), ("outcome", .str r.outcome.name),
    ("lines", Line.listJson r.lines)]

abbrev Announcer :=
  Request → Option Result → Option Failure → Instant → Except Failure (Option Envelope)

/-- An operation's progress: the outcome reached, if any, and the lines answered so far. -/
structure Progress where
  outcome : Option Outcome := none
  lines : List Line := []

abbrev Tx := EStateM Failure (Store × Progress)

namespace Tx

def store {α : Type} (m : Store.Op α) : Tx α := fun (s, p) =>
  match m s with
  | .ok a s' => .ok a (s', p)
  | .error e s' => .error e (s', p)

def setOutcome (o : Option Outcome) : Tx Unit := modify fun (s, p) => (s, { p with outcome := o })

def setLines (ls : List Line) : Tx Unit := modify fun (s, p) => (s, { p with lines := ls })

def reading : Tx Store := do pure (← get).1

/-- Runs the body as one transaction: on failure the store is as before, the progress as the body
left it. -/
def run (body : Tx Unit) (s : Store) (p : Progress) : Option Failure × Progress × Store :=
  match body (s, p) with
  | .ok () (s', p') => (none, p', s')
  | .error e (_, p') => (some e, p', s)

end Tx

/-- The ledger rows of one order, per resource: the last opening row and the last closing row. -/
structure Rows where
  reserve : Option LedgerEntry := none
  final : Option LedgerEntry := none

def rowsOf (entries : List LedgerEntry) (resource : UInt64) : Rows :=
  entries.foldl (fun r e =>
    if e.resource != resource then r
    else if e.type.isFinalization then { r with final := some e }
    else { r with reserve := some e }) {}

def resourcesOf (entries : List LedgerEntry) : List UInt64 :=
  (entries.map (·.resource)).eraseDups

def alreadyOutcome (t : EntryType) : Outcome :=
  if t == .confirm then .alreadyConfirmed else .alreadyCanceled

def doneOutcome (t : EntryType) : Outcome :=
  if t == .confirm then .confirmed else .canceled

def validate (req : Request) : Except Failure Unit :=
  if req.orderId == 0 then .error (Condition.fail .invalidRequest "order id is required")
  else if req.userId == 0 then .error (Condition.fail .invalidRequest "user id is required")
  else .ok ()

/-- A reserve for an order that has rows already: the same open reservation is reserved already,
anything else is a state conflict. -/
def replayReserve (entries : List LedgerEntry) (lines : List Line) :
    Option Outcome × Option Failure :=
  let resources := resourcesOf entries
  match resources.findSome? fun r => (rowsOf entries r).final with
  | some f => (some (alreadyOutcome f.type),
      some (Condition.fail .invalidReservationState ("reservation already " ++ f.type.name)))
  | none =>
    let differ := (none, some (Condition.fail .invalidReservationState
      "already reserved with different lines"))
    if resources.length != lines.length then differ
    else if lines.all (fun l => match (rowsOf entries l.resource).reserve with
        | some e => e.amount == l.amount
        | none => false) then (some .alreadyReserved, none)
    else differ

/-- A participant's reservation service: its kind names its ledger, and `service` names it among the
services of a system. -/
structure Service where
  kind : Kind
  service : String

namespace Service

def result (svc : Service) (req : Request) (p : Progress) : Option Result :=
  p.outcome.map fun o => ⟨svc.kind, req.sagaId, req.orderId, req.userId, o, p.lines⟩

/-- Writes the announcement of a successful operation inside its transaction. -/
def announceInTx (svc : Service) (announce : Option Announcer) (req : Request) (now : Instant) :
    Tx Unit := do
  match announce with
  | none => pure ()
  | some a =>
    let (_, p) ← get
    match a req (svc.result req p) none now with
    | .error f => throw (f.wrap "build announcement")
    | .ok none => pure ()
    | .ok (some e) => Tx.store (Store.writeEnvelope svc.service e now)

/-- Writes the announcement of a failed operation in a transaction of its own. -/
def announceFailure (svc : Service) (a : Announcer) (req : Request) (res : Option Result)
    (cause : Failure) (now : Instant) : Store.Op Unit := do
  match a req res (some cause) now with
  | .error f => throw (f.wrap "build announcement")
  | .ok none => pure ()
  | .ok (some e) => Store.atomically (Store.writeEnvelope svc.service e now)

/-- Ends an operation: a failure is announced if the operation is announced, and a failure to
announce it replaces the failure. -/
def finish (svc : Service) (op : Operation) (req : Request) (res : Option Result)
    (err : Option Failure) (announce : Option Announcer) (now : Instant) (s : Store) :
    (Option Result × Option Failure) × Store :=
  match err, announce with
  | some e, some a =>
    match Store.run (svc.announceFailure a req res e now) s with
    | (.ok (), s') => ((res, some e), s')
    | (.error f, s') =>
      ((res, some ⟨Condition.announceFailed.text ++ ": " ++ op.name ++ " failure: " ++ f.message,
        [.announceFailed]⟩), s')
  | _, _ => ((res, err), s)

/-- The transaction of a reserve. -/
def reserveTx (svc : Service) (req : Request) (lines : List Line) (announce : Option Announcer)
    (now : Instant) : Tx Unit := do
  Tx.setOutcome none
  let entries := (← Tx.reading).findByOrder svc.kind.name req.orderId req.userId
  if !entries.isEmpty then
    let (outcome, err) := replayReserve entries lines
    Tx.setOutcome outcome
    match err with
    | some e => throw (e.wrap ("order " ++ toString req.orderId.toNat))
    | none => svc.announceInTx announce req now
  else
    for l in lines do
      Tx.store (svc.kind.hold req.orderId req.userId l now)
      let entry := LedgerEntry.ofLine req.sagaId req.orderId req.userId l .reserve now
      let _ ← Tx.store (Store.withContext "append reserve entry"
        (Store.appendLedger svc.kind.name entry))
    Tx.setOutcome (some .reserved)
    svc.announceInTx announce req now

/-- Reserves the request's lines. -/
def reserve (svc : Service) (req : Request) (announce : Option Announcer) (now : Instant)
    (s : Store) : (Option Result × Option Failure) × Store :=
  let prepared : Except Failure (List Line) := do
    validate req
    svc.kind.normalize req.lines
  match prepared with
  | .error e => svc.finish .reserve req none (some e) announce now s
  | .ok lines =>
    let (err, p, s') := Tx.run (svc.reserveTx req lines announce now) s { lines }
    svc.finish .reserve req (svc.result req p) err announce now s'

/-- The lines a confirm or cancel addresses: the request's, or every reserved line of the order, by
resource. -/
def resolveLines (svc : Service) (s : Store) (req : Request) : Except Failure (List Line) :=
  if !req.lines.isEmpty then svc.kind.normalize req.lines
  else
    let rows := (s.findByOrder svc.kind.name req.orderId req.userId).filter (·.type == .reserve)
    if rows.isEmpty then
      .error (Condition.fail .reservationNotFound ("order " ++ toString req.orderId.toNat
        ++ " user " ++ toString req.userId.toNat))
    else .ok ((rows.map LedgerEntry.line).mergeSort fun a b => a.resource ≤ b.resource)

/-- Checks every addressed line against the ledger, answering the opening rows' lines, and collects
the rows still open. -/
def checkLines (req : Request) (target : EntryType) (entries : List LedgerEntry) :
    List Line → List LedgerEntry → Tx (List LedgerEntry)
  | [], pending => pure pending
  | l :: rest, pending => do
    let rows := rowsOf entries l.resource
    match rows.reserve with
    | none => throw (Condition.fail .reservationNotFound ("order " ++ toString req.orderId.toNat
        ++ " resource " ++ toString l.resource.toNat))
    | some r =>
      modify fun (s, p) => (s, { p with lines := p.lines ++ [r.line] })
      match rows.final with
      | none => checkLines req target entries rest (pending ++ [r])
      | some f =>
        if f.type != target then
          Tx.setOutcome (some (alreadyOutcome f.type))
          throw (Condition.fail .invalidReservationState ("order " ++ toString req.orderId.toNat
            ++ " resource " ++ toString l.resource.toNat ++ " is already " ++ f.type.name))
        else checkLines req target entries rest pending

/-- The transaction of a confirm or cancel. -/
def finalizeTx (svc : Service) (op : Operation) (req : Request) (lines : List Line)
    (announce : Option Announcer) (now : Instant) : Tx Unit := do
  let target : EntryType := if op == .confirm then .confirm else .cancel
  Tx.setOutcome none
  let entries := (← Tx.reading).findByOrder svc.kind.name req.orderId req.userId
  Tx.setLines []
  let pending ← checkLines req target entries lines []
  if pending.isEmpty then
    Tx.setOutcome (some (alreadyOutcome target))
    svc.announceInTx announce req now
  else
    for r in pending do
      if op == .confirm then Tx.store (svc.kind.commit req.orderId req.userId r.line now)
      else Tx.store (svc.kind.release req.orderId req.userId r.line now)
      let sagaId := if req.sagaId.isEmpty then r.sagaId else req.sagaId
      let entry := LedgerEntry.ofLine sagaId req.orderId req.userId r.line target now
      let _ ← Tx.store (Store.withContext ("append " ++ target.name ++ " entry")
        (Store.appendLedger svc.kind.name entry))
    Tx.setOutcome (some (doneOutcome target))
    svc.announceInTx announce req now

/-- Confirms or cancels a reservation. -/
def finalize (svc : Service) (op : Operation) (req : Request) (announce : Option Announcer)
    (now : Instant) (s : Store) : (Option Result × Option Failure) × Store :=
  let prepared : Except Failure (List Line) := do
    validate req
    svc.resolveLines s req
  match prepared with
  | .error e => svc.finish op req none (some e) announce now s
  | .ok lines =>
    let (err, p, s') := Tx.run (svc.finalizeTx op req lines announce now) s { lines }
    svc.finish op req (svc.result req p) err announce now s'

/-- Runs one operation. -/
def apply (svc : Service) (op : Operation) (req : Request) (announce : Option Announcer)
    (now : Instant) (s : Store) : (Option Result × Option Failure) × Store :=
  match op with
  | .reserve => svc.reserve req announce now s
  | .confirm => svc.finalize .confirm req announce now s
  | .cancel => svc.finalize .cancel req announce now s

end Service

/-- Announces reserve or confirm outcomes as step results of type `t`. -/
def resultAnnouncer (t : String) (kind : Kind) : Announcer :=
  fun req res err now =>
    match err with
    | some e => if !e.isDomain then .ok none else build req res err now
    | none => build req res err now
where
  build (req : Request) (res : Option Result) (err : Option Failure) (now : Instant) :
      Except Failure (Option Envelope) :=
    let out : StepResult := {
      sagaId := req.sagaId, orderId := req.orderId, userId := req.userId, kind := kind.name
      success := err.isNone, outcome := (res.map (·.outcome.name)).getD ""
      reason := (err.map Failure.reason).getD "", errorMessage := (err.map (·.message)).getD ""
      timestamp := now }
    (Envelope.createNamed t (some (.stepResult out)) now).map some

end Reservation

end OrderSaga
