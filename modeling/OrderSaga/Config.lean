import OrderSaga.Time.Duration
import OrderSaga.Text.Quote
import OrderSaga.Kind

namespace OrderSaga

/-- How the orchestrator reaches one participant. -/
structure Endpoint where
  mode : String := ""
  baseUrl : String := ""
  timeout : Span := ⟨0⟩
  retries : Int := 0
  deriving Repr

structure Config where
  serverPort : Int := 0
  databaseDriver : String := ""
  databaseHost : String := ""
  databasePort : Int := 0
  databaseUser : String := ""
  databaseName : String := ""
  busDriver : String := ""
  busBrokers : List String := []
  redisEnabled : Bool := false
  redisHost : String := ""
  breakerMaxRequests : UInt32 := 0
  breakerFailureRatio : String := "0"
  participants : List (String × Endpoint) := []
  updateRetries : Int := 0
  stallAfter : Span := ⟨0⟩
  pollInterval : Span := ⟨0⟩
  outboxBatchSize : Int := 0
  reaperThreshold : Span := ⟨0⟩
  reaperBatchSize : Int := 0
  participantKind : String := ""
  versionRetries : Int := 0
  idempotencyPrefix : String := ""
  deriving Repr

namespace Config

def second : Int64 := 1000000000

/-- A setting left at zero or empty takes its default. -/
def withDefaults (c : Config) : Config :=
  let driver := if c.databaseDriver.isEmpty then "mysql" else c.databaseDriver
  { c with
    serverPort := if c.serverPort == 0 then 8080 else c.serverPort
    databaseDriver := driver
    databasePort := if c.databasePort != 0 then c.databasePort
      else if driver == "postgres" then 5432 else 3306
    redisHost := if c.redisHost.isEmpty then "localhost" else c.redisHost
    busDriver := if c.busDriver.isEmpty then "kafka" else c.busDriver
    breakerMaxRequests := if c.breakerMaxRequests == 0 then 5 else c.breakerMaxRequests
    breakerFailureRatio := if c.breakerFailureRatio == "0" then "0.5" else c.breakerFailureRatio
    updateRetries := if c.updateRetries == 0 then 5 else c.updateRetries
    stallAfter := if c.stallAfter.nanos == 0 then ⟨30 * 60 * second⟩ else c.stallAfter
    participants := c.participants.map fun (k, e) => (k, { e with
      mode := if e.mode.isEmpty then "async" else e.mode
      timeout := if e.timeout.nanos == 0 then ⟨3 * second⟩ else e.timeout
      retries := if e.retries == 0 then 2 else e.retries })
    pollInterval := if c.pollInterval.nanos == 0 then ⟨second⟩ else c.pollInterval
    outboxBatchSize := if c.outboxBatchSize == 0 then 100 else c.outboxBatchSize
    reaperThreshold :=
      if c.reaperThreshold.nanos == 0 then ⟨10 * 60 * second⟩ else c.reaperThreshold
    reaperBatchSize := if c.reaperBatchSize == 0 then 500 else c.reaperBatchSize
    versionRetries := if c.versionRetries == 0 then 5 else c.versionRetries
    idempotencyPrefix := if c.idempotencyPrefix.isEmpty then "processed:" else c.idempotencyPrefix }

/-- The endpoint of a participant; an unconfigured one is reached by events. -/
def endpoint (c : Config) (kind : String) : Endpoint :=
  match c.participants.find? (·.1 == kind) with
  | some (_, e) => e
  | none => { mode := "async" }

def checkParticipant (kind : String) (e : Endpoint) : Except String Unit :=
  if !Kind.isName kind then .error ("unknown saga participant: " ++ kind)
  else if e.mode == "async" then .ok ()
  else if e.mode == "sync" then
    if e.baseUrl.isEmpty then
      .error ("participant " ++ kind ++ ": base_url is required in sync mode")
    else .ok ()
  else .error ("participant " ++ kind ++ ": invalid mode " ++ Text.quoted e.mode)

/-- The first check the configuration fails, in a fixed order. -/
def validate (c : Config) : Except String Unit := do
  if c.serverPort ≤ 0 || c.serverPort > 65535 then
    throw ("invalid server port: " ++ toString c.serverPort)
  if c.databaseDriver == "memory" then pure ()
  else if c.databaseDriver == "mysql" || c.databaseDriver == "postgres" then
    if c.databaseHost.isEmpty then throw "database host is required"
    if c.databaseUser.isEmpty then throw "database username is required"
    if c.databaseName.isEmpty then throw "database name is required"
  else throw ("unsupported database driver: " ++ c.databaseDriver)
  if c.busDriver == "memory" then pure ()
  else if c.busDriver == "kafka" then
    if c.busBrokers.isEmpty then throw "kafka brokers are required"
  else throw ("unsupported bus driver: " ++ c.busDriver)
  if c.redisEnabled && c.redisHost.isEmpty then throw "redis host is required"
  if c.reaperThreshold.nanos ≤ 0 then throw "reaper threshold must be positive"
  if c.pollInterval.nanos ≥ c.reaperThreshold.nanos then
    throw ("outbox poll interval " ++ c.pollInterval.text
      ++ " must be below the reservation expiry " ++ c.reaperThreshold.text)
  for (kind, e) in c.participants do
    checkParticipant kind e
  if !c.participantKind.isEmpty && !Kind.isName c.participantKind then
    throw ("invalid participant kind: " ++ c.participantKind)

end Config

end OrderSaga
