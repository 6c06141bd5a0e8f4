import OrderSaga.Shop.Orchestration

namespace OrderSaga

/-- A consumer of the bus: a participant, reading its requests, or the orchestrator, reading the
answers. -/
inductive Consumer where
  | participant (k : Kind)
  | orchestrator
  deriving DecidableEq, Repr

namespace Consumer

def name : Consumer → String
  | .participant k => k.name ++ "-service"
  | .orchestrator => "order-service"

/-- The topics a consumer reads. -/
def topics : Consumer → List String
  | .participant k => [(EventType.reserveRequested k).topic, (EventType.confirmRequested k).topic,
      (EventType.compensationRequested k).topic]
  | .orchestrator => [EventType.reservationResult.topic, EventType.confirmationResult.topic,
      EventType.compensationCompleted.topic]

def all : List Consumer := .orchestrator :: Kind.all.map .participant

def ofTopic? (topic : String) : Option Consumer := all.find? (·.topics.contains topic)

end Consumer

/-- What became of a delivered message. -/
inductive Delivery where
  | ok
  | unrouted
  | failed (errors : List Failure)

namespace Shop

/-- Runs a reserve or confirm command at a participant, announcing its outcome. -/
def runCommand (k : Kind) (op : Reservation.Operation) (resultType : String) (cmd : Command) :
    ShopM Unit := do
  let req : Reservation.Request := ⟨cmd.sagaId, cmd.orderId, cmd.userId, cmd.lines⟩
  match ← apply k op req (some (Reservation.resultAnnouncer resultType k)) with
  | (_, some e) => if e.isDomain && !e.has .announceFailed then pure () else throw e
  | (_, none) => pure ()

/-- Handles a compensation request at a participant. -/
def compensate (k : Kind) (req : CompensationRequest) : ShopM Unit := do
  match ← withStore (.participant k) ((service k).compensate req (← clock)) with
  | some e => throw e
  | none => pure ()

def ignoreUnknownSaga (m : ShopM Unit) : ShopM Unit :=
  tryCatch m fun e => if e.has .sagaNotFound then pure () else throw e

/-- Hands an envelope to a consumer's handler for its type. -/
def handle : Consumer → Envelope → ShopM Unit
  | .participant k, ⟨_, .reserveRequested _, _, .command c⟩ =>
    runCommand k .reserve EventType.reservationResult.name c
  | .participant k, ⟨_, .confirmRequested _, _, .command c⟩ =>
    runCommand k .confirm EventType.confirmationResult.name c
  | .participant k, ⟨_, _, _, .compensationRequest r⟩ => compensate k r
  | .orchestrator, ⟨_, .reservationResult, _, .stepResult r⟩ =>
    ignoreUnknownSaga (onReservationResult r)
  | .orchestrator, ⟨_, _, _, .stepResult r⟩ => ignoreUnknownSaga (onConfirmationResult r)
  | .orchestrator, ⟨_, _, _, .compensationReport r⟩ =>
    ignoreUnknownSaga (onCompensationReport r)
  | _, e => throw (.of .payloadMismatch
      (Condition.payloadMismatch.text ++ ": " ++ e.payload.recordName))

/-- A consumer processing one message of a topic it reads. -/
def consume (c : Consumer) (topic : String) (m : Message) : ShopM Unit := do
  match Envelope.decode m.value with
  | .error _ => pure ()
  | .ok e =>
    if e.topic != topic then return
    let sh ← get
    if sh.wiring.remembers && sh.processed.contains (c.name, e.eventId) then return
    handle c e
    if sh.wiring.remembers then
      modify fun sh => { sh with processed := sh.processed ++ [(c.name, e.eventId)] }

/-- Delivers one message; a failed one goes back to the bus. -/
def deliverOne (m : Message) : ShopM Delivery :=
  match Consumer.ofTopic? m.topic with
  | none => pure .unrouted
  | some c => tryCatch (do consume c m.topic m; pure .ok) fun e => do
      modify fun sh => { sh with bus := sh.bus.requeue [m] }
      pure (.failed [e])

/-- Delivers every pending message, in order. -/
def deliver : ShopM (List (Message × Delivery)) := do
  let batch ← modifyGet fun sh => let (ms, b) := sh.bus.take; (ms, { sh with bus := b })
  batch.mapM fun m => do pure (m, ← deliverOne m)

/-- One relay batch of a service: the entries published and those still pending. -/
def relay (site : Site) : ShopM (Nat × Nat) := do
  let sh ← get
  let (n, s, b) := Relay.relayOnce sh.wiring.batch sh.now (sh.store site) sh.bus
  set { sh.setStore site s with bus := b }
  pure (n, s.countPending)

/-- Relays every service once, in order. -/
def relayAll : ShopM Nat := do
  let counts ← Site.all.mapM relay
  pure (counts.foldl (fun n c => n + c.1) 0)

/-- Relays and delivers until a relay round publishes nothing and the bus is empty, for at most
`rounds` deliveries. -/
def pump : Nat → List (List (Message × Delivery)) → ShopM (List (List (Message × Delivery)))
  | 0, done => pure done
  | rounds + 1, done => do
    let published ← relayAll
    if published == 0 && (← get).bus.pending.isEmpty then return done
    let ds ← deliver
    pump rounds (done ++ [ds])

end Shop

end OrderSaga
