import OrderSaga.Protocol.Basic
import OrderSaga.Config

namespace OrderSaga.Protocol

/-- How one participant is reached: the exact `mode` and `base_url` members of its table; a member
that is no text reads as the empty text. -/
def endpointOf (j : Json) : Endpoint :=
  let r := Request.table j
  { mode := r.text "mode", baseUrl := r.text "base_url" }

/-- Participants by kind, from every table of them in turn: a table adds its kinds, a kind given
again is replaced in its place, and `null` empties the table. -/
def participantsOf (tables : List Json) : List (String × Endpoint) :=
  tables.foldl (fun acc t => match t with
    | .obj ms => ms.foldl (fun acc (k, v) =>
        let e := endpointOf v
        if acc.any (·.1 == k) then acc.map fun (k', e') => if k' == k then (k, e) else (k', e')
        else acc ++ [(k, e)]) acc
    | _ => []) []

/-- The members a configuration request may have and their types. -/
def settingsSchema : Json.Schema :=
  .unnamed [⟨"ServerPort", "server_port", .int, false⟩,
    ⟨"DatabaseDriver", "database_driver", .text, false⟩,
    ⟨"DatabaseHost", "database_host", .text, false⟩,
    ⟨"DatabaseUser", "database_user", .text, false⟩,
    ⟨"DatabaseName", "database_name", .text, false⟩,
    ⟨"KafkaDriver", "kafka_driver", .text, false⟩,
    ⟨"KafkaBrokers", "kafka_brokers", .list .text "[]string", false⟩,
    ⟨"RedisEnabled", "redis_enabled", .flag, false⟩, ⟨"RedisHost", "redis_host", .text, true⟩,
    ⟨"ReaperThresholdMs", "reaper_threshold_ms", .int64, false⟩,
    ⟨"PollIntervalMs", "poll_interval_ms", .int64, false⟩,
    ⟨"Participants", "participants", .table (.table .any "map[string]interface \x7b\x7d")
      "map[string]map[string]interface \x7b\x7d", false⟩,
    ⟨"ParticipantKind", "participant_kind", .text, false⟩,
    ⟨"SkipDefaults", "skip_defaults", .flag, false⟩]

/-- A configuration built from the request, completed and checked, and the values it derives. -/
def config (j : Json) : Reading Json := do
  if let some m := settingsSchema.check j then throw (m.report settingsSchema)
  let req := Request.record j
  let c : Config := {
    serverPort := req.int "server_port", databaseDriver := req.text "database_driver"
    databaseHost := req.text "database_host", databaseUser := req.text "database_user"
    databaseName := req.text "database_name", busDriver := req.text "kafka_driver"
    busBrokers := req.texts "kafka_brokers", redisEnabled := req.flag "redis_enabled"
    reaperThreshold := req.millis "reaper_threshold_ms"
    pollInterval := req.millis "poll_interval_ms"
    participants := participantsOf (req.values "participants")
    participantKind := req.text "participant_kind" }
  let c := if req.flag "skip_defaults" then c else c.withDefaults
  let c := match req.text? "redis_host" with
    | some h => { c with redisHost := h }
    | none => c
  let error : Json := match c.validate with
    | .ok () => .null
    | .error m => .str m
  pure (.obj [("valid", .bool error.isNull), ("error", error),
    ("server_port", .ofInt c.serverPort), ("database_driver", .str c.databaseDriver),
    ("database_port", .ofInt c.databasePort), ("kafka_driver", .str c.busDriver),
    ("reaper_threshold_ms", .ofInt64 c.reaperThreshold.toMillis),
    ("reaper_batch_size", .ofInt c.reaperBatchSize),
    ("poll_interval_ms", .ofInt64 c.pollInterval.toMillis),
    ("outbox_batch_size", .ofInt c.outboxBatchSize), ("update_retries", .ofInt c.updateRetries),
    ("stall_after_ms", .ofInt64 c.stallAfter.toMillis),
    ("version_retries", .ofInt c.versionRetries),
    ("idempotency_prefix", .str c.idempotencyPrefix),
    ("breaker_max_requests", .ofNat c.breakerMaxRequests.toNat),
    ("breaker_failure_ratio", .num c.breakerFailureRatio),
    ("participants", .obj (c.participants.map fun (k, e) => (k, .obj [("mode", .str e.mode),
      ("timeout_ms", .ofInt64 e.timeout.toMillis), ("retries", .ofInt e.retries),
      ("endpoint_mode", .str (c.endpoint k).mode)]))),
    ("default_endpoint_mode", .str (c.endpoint "nobody").mode)])

end OrderSaga.Protocol
