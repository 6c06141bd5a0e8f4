import OrderSaga.Json.Read
import OrderSaga.Protocol.Reservation
import OrderSaga.Protocol.Store
import OrderSaga.Protocol.Breaker
import OrderSaga.Protocol.Snowflake
import OrderSaga.Protocol.Config
import OrderSaga.Protocol.Shop
import OrderSaga.Text.Identifiers

namespace OrderSaga.Protocol

/-- The answer to a request object. -/
def answer (req : Json) : Json :=
  let r := Request.table req
  match r.raw "op" with
  | .str "saga_status" => answerOf (sagaStatus r)
  | .str "step_state" => answerOf (stepState r)
  | .str "ledger_entry" => ledgerEntry r
  | .str "resource_model" => answerOf (resourceModel r)
  | .str "event_decode" => answerOf (eventDecode r)
  | .str "event_new" => answerOf (eventNew r)
  | .str "normalize" => answerOf (normalize r)
  | .str "classify" => answerOf (classify r)
  | .str "kind_info" => kindInfo r
  | .str "truncate_error" => answerOf (truncateError r)
  | .str "acquire_all" => answerOf (acquireAll r)
  | .str "store" => answerOf (store r)
  | .str "breaker" => answerOf (breakerCalls r)
  | .str "snowflake" => answerOf (snowflake r)
  | .str "config" => answerOf (config req)
  | .str "sim" => answerOf (shopSession req)
  | .str op => badRequest ("unknown op " ++ op)
  | _ => badRequest "missing op"

/-- The answer to one line of input; a line holding `null` is read as an empty request. -/
def answerLine (line : String) : Json :=
  let a := match Json.parse line with
    | some (.obj ms) => answer (.obj ms)
    | some .null => answer (.obj [])
    | _ => badRequest "input line is not a JSON object"
  match a.refusal? with
  | some r => .obj [("error", .str "driver"), ("message", .str r)]
  | none =>
    a.mapStrings fun s => String.ofList (Text.maskUuids (Text.occursIn · line.toList) s.toList)

end OrderSaga.Protocol
