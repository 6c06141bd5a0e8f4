import OrderSaga.Store.Ledger
import OrderSaga.Event.Envelope

namespace OrderSaga

/-- The outbox entry that carries an envelope, if the envelope can be written. -/
def Envelope.entry? (e : Envelope) : Except Failure OutboxEntry :=
  match e.encode? with
  | .ok payload =>
    .ok { eventId := e.eventId, topic := e.topic, key := e.key, payload,
          createdAt := e.occurredAt }
  | .error r => .error (.plain r)

namespace Store

def eventId (space : String) (s : Store) : String :=
  s.idSource.draw ("event:" ++ space) (s.seq.toNat + 1)

/-- The outbox entry of an envelope under a fresh event id of the service `space`; an envelope that
cannot be written fails. -/
def entryOf (space : String) (e : Envelope) : Op OutboxEntry := do
  let id := eventId space (← get)
  match Envelope.entry? { e with eventId := id } with
  | .ok entry => pure entry
  | .error f => throw f

def writeEnvelope (space : String) (e : Envelope) (now : Instant) : Op Unit := do
  let _ ← appendOutbox (← entryOf space e) now

end Store

end OrderSaga
