import OrderSaga.Protocol.Basic
import OrderSaga.Snowflake

namespace OrderSaga.Protocol

/-- An unsigned 64-bit number written in decimal digits. -/
def decimalUInt64? (s : String) : Option UInt64 :=
  if s.isEmpty || !s.toList.all Char.isDigit then none
  else match s.toNat? with
    | some n => if n < UInt64.size then some n.toUInt64 else none
    | none => none

def listOrNull (xs : List Json) : Json := if xs.isEmpty then .null else .arr xs

/-- Unpacks the given ids, and generates `count` ids on a clock that reads the given instants and
then goes on a millisecond at a time. -/
def snowflake (req : Request) : Reading Json := do
  let parts ← if req.given "parts" then do
      let ids ← req.getTexts "parts"
      pure [("parts", listOrNull (ids.map fun s => match decimalUInt64? s with
        | some id =>
          let (created, node, step) := Snowflake.parts id
          .obj [("created", created.toJson), ("node", .ofInt64 node), ("step", .ofInt64 step)]
        | none => .obj [("error", .str "bad_id")]))]
    else pure []
  if req.given "node" then
    let node ← req.getI64 "node"
    let times := (req.items "times_ms").map fun j => Json.Reader.int64.read j 0
    let count := req.int "count"
    pure (match Snowflake.Generator.create node with
      | .error f => f.toJson
      | .ok g =>
        let (answers, _, clock) := g.run (Snowflake.Clock.ofReadings times) count.toNat
        let ids := answers.map fun r => match r with
          | .ok id => Json.str (toString id.toNat)
          | .error f => f.toJson
        .obj (parts ++ [("clock_reads", .ofNat clock.reads), ("ids", listOrNull ids)]))
  else pure (.obj parts)

end OrderSaga.Protocol
