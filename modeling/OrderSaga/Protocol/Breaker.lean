import OrderSaga.Protocol.Basic
import OrderSaga.Breaker
import OrderSaga.Reservation.Codes

namespace OrderSaga.Protocol

open Breaker in
/-- The breaker of a request and the clock it reads. -/
structure BreakerRun where
  config : Breaker.Config
  breaker : Option Breaker.Circuit := none
  clock : Int := 0

namespace BreakerRun

def tick (r : BreakerRun) : Int × BreakerRun :=
  (r.clock + 1000, { r with clock := r.clock + 1000 })

/-- The breaker, created at the next reading if it does not exist yet. -/
def ensure (r : BreakerRun) : Breaker.Circuit × BreakerRun :=
  match r.breaker with
  | some b => (b, r)
  | none =>
    let (now, r) := r.tick
    let b := Breaker.create r.config now
    (b, { r with breaker := some b })

/-- Runs a breaker step on the existing or new breaker. -/
def step {α : Type} (r : BreakerRun) (m : Breaker.Step α) :
    α × List Breaker.Transition × BreakerRun :=
  let (b, r) := r.ensure
  let (a, b, ts) := (m.run (b, [])).run
  (a, ts, { r with breaker := some b })

end BreakerRun

/-- What a named call returns. -/
def callOutcome (call : String) : Option (Option Failure) :=
  if call == "ok" then some none
  else if call == "fail" then some (some (.plain "boom"))
  else if call == "reject" then
    some (some (Failure.rejection "stock" 409 ResponseCode.insufficientCapacity
      "insufficient capacity"))
  else if call == "unavailable" then
    some (some ⟨"participant unavailable: stock reserve", [.participantUnavailable]⟩)
  else none

def countsJson (c : Breaker.Counts) : Json :=
  .obj [("Requests", .ofNat c.requests.toNat), ("TotalSuccesses", .ofNat c.totalSuccesses.toNat),
    ("TotalFailures", .ofNat c.totalFailures.toNat),
    ("ConsecutiveSuccesses", .ofNat c.consecutiveSuccesses.toNat),
    ("ConsecutiveFailures", .ofNat c.consecutiveFailures.toNat)]

/-- One call: its result and the transitions it caused. -/
def breakerCall (r : BreakerRun) (call : String) :
    Reading (Json × List Breaker.Transition × BreakerRun) :=
  match callOutcome call with
  | some outcome =>
    let (start, r) := r.tick
    let (admitted, ts, r) := r.step (Breaker.beforeRequest start)
    match admitted with
    | .error f =>
      .ok (.obj [("ran", .bool false), ("err", .str f.message), ("breaker_error", .bool true)],
        ts, r)
    | .ok generation =>
      let (finish, r) := r.tick
      let success := match r.breaker with
        | some b => Breaker.succeeded b outcome
        | none => outcome.isNone
      let ((), ts', r) := r.step (Breaker.afterRequest generation success finish)
      .ok (.obj [("ran", .bool true), ("err", Failure.text? outcome),
          ("breaker_error", .bool false)], ts ++ ts', r)
  | none =>
    if call == "state" then
      let (_, r) := r.ensure
      let (now, r) := r.tick
      let ((state, _), ts, r) := r.step (Breaker.currentState now)
      .ok (.str state.name, ts, r)
    else if call == "counts" then
      let (b, r) := r.ensure
      .ok (countsJson b.counts, [], r)
    else if call == "reset" then
      let (_, r) := r.ensure
      let (now, r) := r.tick
      let (now', r) := r.tick
      let ((), ts, r) := r.step (Breaker.reset now now')
      .ok (.str "reset", ts, r)
    else if call == "states" then
      match r.breaker with
      | none => .ok (.obj [("states", .obj []), ("names", .null)], [], r)
      | some _ =>
        let (now, r) := r.tick
        let ((state, _), ts, r) := r.step (Breaker.currentState now)
        .ok (.obj [("states", .obj [("stock", .str state.name)]),
          ("names", .arr [.str "stock"])], ts, r)
    else .error ("unknown call " ++ call)

/-- The members of a breaker configuration and their types. -/
def breakerSchema : Json.Schema :=
  .unnamed [⟨"MaxRequests", "max_requests", .uint32, false⟩,
    ⟨"IntervalMs", "interval_ms", .int64, false⟩, ⟨"TimeoutMs", "timeout_ms", .int64, false⟩,
    ⟨"FailureRatio", "failure_ratio", .real, false⟩,
    ⟨"MinRequestCount", "min_request_count", .uint32, false⟩,
    ⟨"InstantTimeout", "instant_timeout", .flag, false⟩, ⟨"Defaults", "defaults", .flag, false⟩]

/-- The breaker's configuration from its members. -/
def breakerConfig (c : Request) : Breaker.Config :=
  let maxRequests := c.read "max_requests" .uint32 0
  let timeout := if c.flag "instant_timeout" then 1 else (c.millis "timeout_ms").nanos.toInt
  if c.flag "defaults" then { maxRequests, timeout }
  else
    { maxRequests, timeout, interval := (c.millis "interval_ms").nanos.toInt
      trip := Breaker.TripRule.ready
        ⟨c.read "min_request_count" .uint32 0, c.read "failure_ratio" .real 0⟩
      refusalSucceeds := true }

/-- Runs the calls in turn through one breaker; a configuration with a value its type cannot hold is
refused. -/
def breakerCalls (req : Request) : Reading Json := do
  let config ← req.get "config" (Request.reader breakerSchema) ⟨[], true⟩
  let calls ← req.getTexts "calls"
  let (answers, _) ← calls.foldlM (fun (acc : List Json × BreakerRun) call => do
    let (result, ts, r) ← breakerCall acc.2 call
    let transitions : Json := if ts.isEmpty then .null else .arr (ts.map fun t => .str t.text)
    let answer := Json.obj [("call", .str call), ("result", result), ("transitions", transitions)]
    pure (acc.1 ++ [answer], r))
    ([], { config := breakerConfig config })
  pure (.arr answers)

end OrderSaga.Protocol
