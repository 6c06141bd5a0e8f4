import OrderSaga.Failure
import OrderSaga.Time.Instant

namespace OrderSaga.Snowflake

def epoch : Int64 := 1704067200000

def maxNode : Int64 := 1023

def stepMask : Int64 := 4095

/-- A clock read in milliseconds: the given readings in turn, then one millisecond more at each
further reading, counting from the last given one. -/
structure Clock where
  readings : List Int64
  last : Int64
  extra : Int64 := 0
  reads : Nat := 0

namespace Clock

def ofReadings (rs : List Int64) : Clock := ⟨rs, rs.getLast?.getD epoch, 0, 0⟩

def read (c : Clock) : Int64 × Clock :=
  match c.readings with
  | r :: rs => (r, { c with readings := rs, reads := c.reads + 1 })
  | [] => (c.last + c.extra + 1, { c with extra := c.extra + 1, reads := c.reads + 1 })

/-- Reads until a reading is at least `bound` (or above it, when `strict`). -/
def readUntil (bound : Int64) (strict : Bool) (c : Clock) : Int64 × Clock :=
  match _h : c.readings with
  | r :: rs =>
    if (if strict then r > bound else r ≥ bound) then
      (r, { c with readings := rs, reads := c.reads + 1 })
    else readUntil bound strict { c with readings := rs, reads := c.reads + 1 }
  | [] =>
    let base := (c.last + c.extra).toInt
    let need := bound.toInt - base + (if strict then 1 else 0)
    let j := if need < 1 then 1 else need
    ((c.last + c.extra + Int64.ofInt j),
      { c with extra := c.extra + Int64.ofInt j, reads := c.reads + j.toNat })
termination_by c.readings.length
decreasing_by simp [_h]

end Clock

structure Generator where
  node : Int64
  timestamp : Int64 := 0
  step : Int64 := 0

def clockBackwards (by_ : Int64) : Failure :=
  .of .clockBackwards ("snowflake: clock moved backwards by " ++ toString by_.toInt ++ "ms")

/-- A generator for a node in range. -/
def Generator.create (node : Int64) : Except Failure Generator :=
  if node < 0 || node > maxNode then
    .error (.plain ("snowflake: node id " ++ toString node.toInt ++ " out of range [0, 1023]"))
  else .ok { node }

/-- The next id of the generator. -/
def Generator.next (g : Generator) (c : Clock) : Except Failure UInt64 × Generator × Clock :=
  let (now, c) := c.read
  let waited : Except Failure (Int64 × Clock) :=
    if now < g.timestamp then
      if (g.timestamp - now) * 1000000 > 5000000 then .error (clockBackwards (g.timestamp - now))
      else .ok (c.readUntil g.timestamp false)
    else .ok (now, c)
  match waited with
  | .error f => (.error f, g, c)
  | .ok (now, c) =>
    let (step, now, c) :=
      if now == g.timestamp then
        let step := (g.step + 1) &&& stepMask
        if step == 0 then
          let (now, c) := c.readUntil g.timestamp true
          (step, now, c)
        else (step, now, c)
      else (0, now, c)
    let id := ((now - epoch) <<< 22) ||| (g.node <<< 12) ||| step
    (.ok id.toUInt64, { g with timestamp := now, step }, c)

/-- `n` calls in a row, each on the generator and clock the call before left: the answers in order,
and the generator and clock left at the end. -/
def Generator.run (g : Generator) (c : Clock) : Nat → List (Except Failure UInt64) × Generator × Clock
  | 0 => ([], g, c)
  | n + 1 =>
    let before := g.run c n
    let call := before.2.1.next before.2.2
    (before.1 ++ [call.1], call.2)

/-- The creation instant, node and step packed into an id. -/
def parts (id : UInt64) : Instant × Int64 × Int64 :=
  let v := id.toInt64
  let step := v &&& stepMask
  let node := (v >>> 12) &&& maxNode
  (Instant.ofUnixMillis ((v >>> 22) + epoch).toInt, node, step)

end OrderSaga.Snowflake
