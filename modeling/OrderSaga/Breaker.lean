import OrderSaga.Failure

namespace OrderSaga.Breaker

inductive State where
  | closed
  | opened
  | halfOpen
  deriving DecidableEq, Repr, Inhabited

def State.name : State → String
  | .closed => "closed"
  | .opened => "open"
  | .halfOpen => "half-open"

/-- Requests and their outcomes in the current generation. -/
structure Counts where
  requests : UInt32 := 0
  totalSuccesses : UInt32 := 0
  totalFailures : UInt32 := 0
  consecutiveSuccesses : UInt32 := 0
  consecutiveFailures : UInt32 := 0
  deriving DecidableEq, Repr, Inhabited

/-- When the counts are ready to trip: at least `minRequests` requests were seen and the share of
failures, as a double, reaches `ratio`. -/
structure TripRule where
  minRequests : UInt32
  ratio : Float

def TripRule.ready (r : TripRule) (c : Counts) : Bool :=
  c.requests ≥ r.minRequests && c.totalFailures.toFloat / c.requests.toFloat ≥ r.ratio

def TripRule.standard : TripRule := ⟨10, 0.5⟩

structure Config where
  maxRequests : UInt32 := 0
  interval : Int := 0
  timeout : Int := 0
  trip : Counts → Bool := TripRule.standard.ready
  refusalSucceeds : Bool := false

/-- A change of state. -/
structure Transition where
  source : State
  target : State
  deriving DecidableEq, Repr

def Transition.text (t : Transition) : String := t.source.name ++ "->" ++ t.target.name

/-- A circuit breaker: its settings, its state, the generation of its counts, and when that
generation ends. -/
structure Circuit where
  maxRequests : UInt32
  interval : Int
  timeout : Int
  trip : Counts → Bool
  refusalSucceeds : Bool
  state : State := .closed
  generation : UInt64 := 0
  counts : Counts := {}
  expiry : Option Int := none

abbrev Step := StateM (Circuit × List Transition)

def refused (message : String) : Failure := ⟨message, [.breakerRefused]⟩

def openRefusal : Failure := refused "circuit breaker is open"

def tooManyRequests : Failure := refused "too many requests"

def modifyCircuit (f : Circuit → Circuit) : Step Unit := modify fun (b, ts) => (f b, ts)

def breaker : Step Circuit := do pure (← get).1

/-- Starts a new generation at `now`: fresh counts, and an expiry by state. -/
def newGeneration (now : Int) : Step Unit :=
  modifyCircuit fun b => { b with
    generation := b.generation + 1
    counts := {}
    expiry := match b.state with
      | .closed => if b.interval == 0 then none else some (now + b.interval)
      | .opened => some (now + b.timeout)
      | .halfOpen => none }

/-- Moves to state `s`, starting a new generation, and records the change. -/
def setState (s : State) (now : Int) : Step Unit := do
  let prev := (← breaker).state
  if prev != s then
    modifyCircuit fun b => { b with state := s }
    newGeneration now
    modify fun (b, ts) => (b, ts ++ [⟨prev, s⟩])

/-- The state at `now`, moving an open breaker whose timeout passed to half-open and renewing an
expired closed generation. -/
def currentState (now : Int) : Step (State × UInt64) := do
  let b ← breaker
  match b.state with
  | .closed =>
    match b.expiry with
    | some e => if e < now then newGeneration now
    | none => pure ()
  | .opened =>
    if (b.expiry.getD 0) < now then setState .halfOpen now
  | .halfOpen => pure ()
  let b ← breaker
  pure (b.state, b.generation)

/-- Admits a call at `now`, or refuses it; the answer is the generation it runs in. -/
def beforeRequest (now : Int) : Step (Except Failure UInt64) := do
  let (state, generation) ← currentState now
  let b ← breaker
  if state == .opened then pure (.error openRefusal)
  else if state == .halfOpen && b.counts.requests ≥ b.maxRequests then
    pure (.error tooManyRequests)
  else
    modifyCircuit fun b => { b with counts := { b.counts with requests := b.counts.requests + 1 } }
    pure (.ok generation)

def onSuccess (state : State) (now : Int) : Step Unit := do
  modifyCircuit fun b => { b with counts := { b.counts with
    totalSuccesses := b.counts.totalSuccesses + 1
    consecutiveSuccesses := b.counts.consecutiveSuccesses + 1
    consecutiveFailures := 0 } }
  let b ← breaker
  if state == .halfOpen && b.counts.consecutiveSuccesses ≥ b.maxRequests then
    setState .closed now

def onFailure (state : State) (now : Int) : Step Unit := do
  modifyCircuit fun b => { b with counts := { b.counts with
    totalFailures := b.counts.totalFailures + 1
    consecutiveFailures := b.counts.consecutiveFailures + 1
    consecutiveSuccesses := 0 } }
  let b ← breaker
  if state == .halfOpen || b.trip b.counts then setState .opened now

/-- Records the outcome of a call admitted in generation `before`. -/
def afterRequest (before : UInt64) (success : Bool) (now : Int) : Step Unit := do
  let (state, generation) ← currentState now
  if generation == before then
    if success then onSuccess state now else onFailure state now

/-- Whether a call's outcome counts as a success. -/
def succeeded (b : Circuit) (outcome : Option Failure) : Bool :=
  match outcome with
  | none => true
  | some f => b.refusalSucceeds && f.has .rejected

/-- Runs a call whose outcome is `outcome` through the breaker, admitted at `start` and finished at
`finish`; the answer is whether it ran and what it returned. -/
def execute (cancelled : Option Failure) (outcome : Option Failure) (start finish : Int) :
    Step (Bool × Option Failure) := do
  if let some f := cancelled then return (false, some f)
  match ← beforeRequest start with
  | .error f => pure (false, some f)
  | .ok generation =>
    afterRequest generation (succeeded (← breaker) outcome) finish
    pure (true, outcome)

/-- Closes the breaker and starts a new generation. -/
def reset (now now' : Int) : Step Unit := do
  setState .closed now
  newGeneration now'

/-- A new closed breaker at `now`. -/
def create (c : Config) (now : Int) : Circuit :=
  let b : Circuit := {
    maxRequests := if c.maxRequests == 0 then 1 else c.maxRequests
    interval := c.interval
    timeout := if c.timeout == 0 then 60 * 1000000000 else c.timeout
    trip := c.trip, refusalSucceeds := c.refusalSucceeds }
  ((newGeneration now).run (b, [])).2.1

end OrderSaga.Breaker
