import OrderSaga.Protocol.Answer
import OrderSaga.Proofs.Drafts
import OrderSaga.Proofs.Shape
import OrderSaga.Proofs.Runs
import OrderSaga.Proofs.Requests
import OrderSaga.Proofs.Holds
import OrderSaga.Proofs.Capacity
import OrderSaga.Proofs.Conservation
import OrderSaga.Proofs.JsonText
import OrderSaga.Proofs.Redelivery
import OrderSaga.Proofs.Calendar
import OrderSaga.Proofs.TimeText
import OrderSaga.Proofs.Records
import OrderSaga.Proofs.Envelopes
import OrderSaga.Proofs.Outbox
import OrderSaga.Proofs.OutboxOrder
import OrderSaga.Proofs.Verdicts
import OrderSaga.Proofs.Outcome
import OrderSaga.Proofs.Orders
import OrderSaga.Lock.Local
import OrderSaga.Proofs.Locking
import OrderSaga.Proofs.Replays
import OrderSaga.Proofs.Atomicity
import OrderSaga.Proofs.Lines
import OrderSaga.Proofs.Causes
import OrderSaga.Proofs.Consumers
import OrderSaga.Proofs.Compensations
import OrderSaga.Proofs.Sweeps
import OrderSaga.Proofs.Reasons
import OrderSaga.Proofs.Placement
import OrderSaga.Proofs.BreakerCounts
import OrderSaga.Proofs.DegradeFlag
import OrderSaga.Proofs.IdLayout
import OrderSaga.Proofs.IdOrder
import OrderSaga.Proofs.Acquisition
import OrderSaga.Proofs.Stalled
import OrderSaga.Proofs.ErrorText
import OrderSaga.Proofs.LedgerIndex
import OrderSaga.Proofs.Provenance
import OrderSaga.Proofs.Wire
import OrderSaga.Proofs.Agreement
import OrderSaga.Proofs.Announcements
import OrderSaga.Proofs.Handlers
import OrderSaga.Proofs.SystemRuns
