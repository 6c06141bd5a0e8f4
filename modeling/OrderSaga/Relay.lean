import OrderSaga.Bus
import OrderSaga.Store.Ledger
import OrderSaga.Time.Duration

namespace OrderSaga

namespace Relay

def batchSize (configured : Int) : Nat := if configured ≤ 0 then 100 else configured.toNat

abbrev Publisher (σ : Type) := σ → OutboxEntry → Except Failure Unit × σ

/-- The bus as a publisher of entries: an entry goes out as its topic, key and payload, and a failed
attempt leaves the bus as it was. -/
def busPublisher : Publisher Bus := fun b e =>
  match b.publish ⟨e.topic, e.key, e.payload⟩ with
  | .ok b' => (.ok (), b')
  | .error f => (.error f, b)

/-- Publishes the entries in order, skipping the topics in `blocked`; a failed entry blocks the rest
of its topic. -/
def publishAll {σ : Type} (pub : Publisher σ) (now : Instant) :
    List OutboxEntry → List String → Nat → Store → σ → Nat × Store × σ
  | [], _, n, s, b => (n, s, b)
  | e :: rest, blocked, n, s, b =>
    if blocked.contains e.topic then publishAll pub now rest blocked n s b
    else match pub b e with
      | (.error f, b') =>
        let s := (Store.run (Store.recordFailure e.id f.message) s).2
        publishAll pub now rest (e.topic :: blocked) n s b'
      | (.ok (), b') =>
        let s := (Store.run (Store.markPublished e.id now) s).2
        publishAll pub now rest blocked (n + 1) s b'

/-- One batch of the relay through a publisher: the number of entries published. -/
def relayWith {σ : Type} (pub : Publisher σ) (batch : Nat) (now : Instant) (s : Store) (b : σ) :
    Nat × Store × σ :=
  publishAll pub now (s.fetchPending batch) [] 0 s b

def relayOnce (batch : Nat) (now : Instant) (s : Store) (b : Bus) : Nat × Store × Bus :=
  relayWith busPublisher batch now s b

def cleanup (retention : Span) (now : Instant) (s : Store) : Except Failure Nat × Store :=
  Store.run (Store.deletePublishedBefore (now.shift retention.neg)) s

end Relay

end OrderSaga
