import OrderSaga.Failure

namespace OrderSaga

structure Message where
  topic : String
  key : String
  value : String
  deriving DecidableEq, Repr, Inhabited

structure Bus where
  pending : List Message := []
  failing : List String := []
  lastBatch : List Message := []
  deriving Repr, Inhabited

namespace Bus

def unavailable : Failure := .plain "broker unavailable"

def isFailing (b : Bus) (topic : String) : Bool :=
  b.failing.contains "*" || b.failing.contains topic

def publish (b : Bus) (m : Message) : Except Failure Bus :=
  if b.isFailing m.topic then .error unavailable else .ok { b with pending := b.pending ++ [m] }

def setFailing (b : Bus) (topic : String) (on : Bool) : Bus :=
  { b with failing := if on then b.failing ++ [topic] else b.failing.filter (· != topic) }

def take (b : Bus) : List Message × Bus :=
  (b.pending, { b with pending := [], lastBatch := b.pending })

def requeue (b : Bus) (ms : List Message) : Bus := { b with pending := b.pending ++ ms }

/-- Puts the last `count` messages of the last batch back; all of them when `count` is not positive
or exceeds the batch. -/
def redeliver (b : Bus) (count : Int) : Nat × Bus :=
  let n := b.lastBatch.length
  let k := if count ≤ 0 || count > n then n else count.toNat
  let ms := b.lastBatch.drop (n - k)
  (ms.length, b.requeue ms)

end Bus

end OrderSaga
