import OrderSaga.Protocol.Events
import OrderSaga.Reservation.Capacity
import OrderSaga.Model.Outbox
import OrderSaga.Lock

namespace OrderSaga.Protocol

/-- The participant's form of the lines and the keys that guard them. -/
def normalize (req : Request) : Reading Json := do
  let kind ← req.getText "kind"
  let lines := (← req.get "lines" Line.listReader none).getD []
  let user ← req.getU64 "user"
  pure (match capacityOf kind with
    | .error f => f.toJson
    | .ok k => match k.normalize lines with
      | .ok ls => .obj [("lines", Line.listJson ls),
          ("lock_keys", .arr (ls.map fun l => .str (k.lockKey user l)))]
      | .error f => f.toJson)

/-- The failure a sentinel name stands for; any other text is a failure of that text. -/
def sentinel (name : String) : Failure :=
  let c : Option Condition :=
    if name == "insufficient_capacity" then some .insufficientCapacity
    else if name == "resource_not_found" then some .resourceNotFound
    else if name == "resource_invalid" then some .resourceInvalid
    else if name == "reservation_not_found" then some .reservationNotFound
    else if name == "invalid_reservation_state" then some .invalidReservationState
    else if name == "invalid_request" then some .invalidRequest
    else if name == "announce_failed" then some .announceFailed
    else if name == "version_conflict" then some .versionConflict
    else if name == "not_found" then some .notFound
    else if name == "duplicate" then some .duplicate
    else if name == "saga_not_found" then some .sagaNotFound
    else if name == "participant_unavailable" then some .participantUnavailable
    else none
  match c with
  | some c => ⟨c.text, [c]⟩
  | none => .plain name

def appErrorJson (e : AppError) : Json :=
  .obj [("code", .ofInt e.code.code), ("message", .str e.message), ("text", .str e.text),
    ("http_status", .ofInt e.code.httpStatus)]

/-- How the protocol classifies a failure, or what a response code stands for. -/
def classify (req : Request) : Reading Json := do
  let mut out : List (String × Json) := []
  if req.given "err" then
    let name ← req.getText "err"
    let f := (← req.getTexts "wrap").foldl (fun f w => f.wrap w) (sentinel name)
    let app := f.appError?
    out := out ++ [("text", .str f.message), ("reason", .str f.reason),
      ("is_validation", .bool f.isValidation), ("is_domain", .bool f.isDomain),
      ("app_error", match app with
        | some e => appErrorJson e
        | none => .null),
      ("error_code", .ofInt (match app with
        | some e => e.code.code
        | none => ResponseCode.internalError.code)),
      ("error_message", .str (match app with
        | some e => e.message
        | none => f.message))]
  if req.given "code" then
    let code : ResponseCode := ⟨← req.getInt "code"⟩
    let message := req.text "message"
    out := out ++ [("error_for_code", match Condition.ofCode? code with
        | some c => .str c.text
        | none => .null),
      ("http_status", .ofInt code.httpStatus),
      ("new_error", .str (AppError.text ⟨code, message, none⟩))]
    if req.given "status" then
      let r := Failure.rejection "stock" (req.int "status") code message
      out := out ++ [("rejection", .obj [("text", .str r.message),
        ("is_rejection", .bool r.isRejection), ("reason", .str r.reason),
        ("is_domain", .bool r.isDomain)])]
  pure (.obj out)

def typeTopic (r : Except Failure EventType) : Json :=
  match r with
  | .ok t => .obj [("type", .str t.name), ("topic", .str t.topic)]
  | .error f => f.toJson

/-- A participant's event types, compensation, ledger and capacity; a compensation's participant; a
type's topic. -/
def kindInfo (req : Request) : Json := Id.run do
  let mut out : List (String × Json) := []
  if req.given "kind" then
    let kind := req.text "kind"
    let k := Kind.ofName? kind
    out := out ++ [("reserve", typeTopic (EventType.forParticipant .reserveRequested kind)),
      ("confirm", typeTopic (EventType.forParticipant .confirmRequested kind)),
      ("compensation", typeTopic (EventType.forParticipant .compensationRequested kind)),
      ("compensation_type", .str ((k.map (·.compensation.name)).getD "")),
      ("reservation_table", .str ((k.map Kind.table).getD "")),
      ("is_kind", .bool k.isSome),
      ("capacity", match capacityOf kind with
        | .ok c => .str c.name
        | .error f => f.toJson)]
  if req.given "compensation_type" then
    let c := CompensationType.ofName? (req.text "compensation_type")
    out := out ++ [("compensation_kind", .str ((c.map (·.kind.name)).getD ""))]
  if req.given "type" then
    let t := req.text "type"
    out := out ++ [("topic", match EventType.topicOf t with
      | .ok t => .str t
      | .error f => f.toJson)]
  pure (.obj out)

/-- An error text as an outbox entry keeps it. -/
def truncateError (req : Request) : Reading Json := do
  let t := OutboxEntry.clipError (← req.getText "text")
  pure (.obj [("text", .str t), ("runes", .ofNat t.length), ("bytes", .ofNat t.utf8ByteSize)])

/-- Takes every key, refusing only `fail_on`, and lets go of them twice. -/
def acquireAll (req : Request) : Reading Json := do
  let keys ← req.getTexts "keys"
  let failOn ← req.getText? "fail_on"
  let events (es : List Lock.Event) : Json :=
    if es.isEmpty then .null else .arr (es.map fun e => .str e.text)
  let locker : Lock.Locker :=
    ⟨fun k => if failOn == some k then some Lock.lockFailed else none, fun _ => none⟩
  let failure (f : Option Failure) : Json := match f with
    | some f => .str f.message
    | none => .null
  pure (match Lock.acquireAll locker keys with
    | .ok (held, es) =>
      let ((released, first), held) := Lock.release locker held
      let ((again, second), _) := Lock.release locker held
      .obj [("error", .null), ("events", events (es ++ released ++ again)),
        ("release", failure first), ("release_again", failure second)]
    | .error (f, es) => .obj [("error", .str f.message), ("events", events es)])

end OrderSaga.Protocol
