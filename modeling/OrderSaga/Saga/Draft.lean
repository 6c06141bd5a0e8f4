import OrderSaga.Model.Saga
import OrderSaga.Event.Envelope

namespace OrderSaga

/-- What one saga update emits: whether it changed the saga, the envelopes for the bus, and the
steps to confirm synchronously. -/
structure Effects where
  changed : Bool := false
  envelopes : List Envelope := []
  confirms : List SagaStep := []

def SagaStep.waiting (st : SagaStep) : Bool :=
  st.reserve == .pending || st.confirm == .pending || st.compensation == .pending

/-- A saga under update. -/
structure Draft where
  saga : Saga
  steps : List SagaStep
  effects : Effects := {}

namespace Draft

def ofSaga (g : Saga) : Draft := { saga := g, steps := g.stepList }

def touch (d : Draft) : Draft := { d with effects := { d.effects with changed := true } }

def emit (d : Draft) (es : List Envelope) : Draft :=
  { d with effects := { d.effects with envelopes := d.effects.envelopes ++ es } }

/-- Moves the saga along its state machine. -/
def transition (d : Draft) (next : SagaStatus) : Except Failure Draft := do
  let g ← d.saga.transitionTo next
  pure { d.touch with saga := g }

def setError (d : Draft) (message : String) : Draft :=
  { d with saga := { d.saga with errorMessage := message } }

def step? (d : Draft) (kind : String) : Option SagaStep := d.steps.find? (·.kind == kind)

/-- Replaces the first step of that participant. -/
def setStep (d : Draft) (kind : String) (st : SagaStep) : Draft :=
  let rec go : List SagaStep → List SagaStep
    | [] => []
    | s :: rest => if s.kind == kind then st :: rest else s :: go rest
  { d with steps := go d.steps }

def all (d : Draft) (p : SagaStep → Bool) : Bool :=
  d.steps.all fun s => s.reserve == .skipped || p s

/-- A command of type `make kind` for the step. -/
def command (g : Saga) (make : Kind → EventType) (now : Instant) (st : SagaStep) :
    Except Failure Envelope := do
  let t ← EventType.forParticipant make st.kind
  Envelope.create t (some (.command {
    sagaId := g.sagaId, orderId := g.orderId, userId := g.userId, kind := st.kind,
    lines := st.lines, timestamp := now })) now

/-- Requests the release of a step's hold. -/
def release (g : Saga) (now : Instant) (st : SagaStep) :
    Except Failure (SagaStep × List Envelope) :=
  if !st.needsCompensation then .ok (st, [])
  else do
    let t ← EventType.forParticipant .compensationRequested st.kind
    let e ← Envelope.create t (some (.compensationRequest {
      sagaId := g.sagaId, orderId := g.orderId, userId := g.userId, kind := st.kind,
      lines := some st.lines, timestamp := now })) now
    pure ({ st with compensation := .pending }, [e])

/-- Releases the first step of that participant. -/
def compensate (d : Draft) (kind : String) (now : Instant) : Except Failure Draft :=
  match d.step? kind with
  | none => .ok d
  | some st => do
    let (st', es) ← release d.saga now st
    pure ((d.setStep kind st').emit es)

/-- Releases every step, in step order. -/
def compensateAll (d : Draft) (now : Instant) : Except Failure Draft := do
  let rec go : List SagaStep → Except Failure (List SagaStep × List Envelope)
    | [] => .ok ([], [])
    | st :: rest => do
      let (st', es) ← release d.saga now st
      let (rest', es') ← go rest
      pure (st' :: rest', es ++ es')
  let (steps, es) ← go d.steps
  pure ({ d with steps }.emit es)

def joinMessage (a b : String) : String := if a.isEmpty then b else a ++ "; " ++ b

/-- The account of a compensating saga whose steps are all answered: the compensations that failed,
with their errors, and the steps already confirmed. -/
def account (steps : List SagaStep) : List String × List String :=
  ((steps.filter (·.compensation == .failed)).map fun st => st.kind ++ " (" ++ st.error ++ ")",
    (steps.filter (·.confirm == .succeeded)).map (·.kind))

/-- Ends a compensating saga once nothing is pending. -/
def settle (d : Draft) : Except Failure Draft :=
  if d.saga.status != .compensating || d.steps.any SagaStep.waiting then .ok d
  else
    match account d.steps with
    | ([], []) => d.transition .compensationCompleted
    | (failed, confirmed) =>
      let parts :=
        (if failed.isEmpty then [] else ["compensation failed: " ++ ", ".intercalate failed])
        ++ (if confirmed.isEmpty then [] else ["already confirmed: " ++ ", ".intercalate confirmed])
      (d.setError (joinMessage d.saga.errorMessage ("; ".intercalate parts))).transition .failed

/-- Moves a fully reserved saga to confirming and requests every confirm: synchronous steps are
collected, the others get a command. -/
def startConfirm (d : Draft) (now : Instant) : Except Failure Draft := do
  let d ← d.transition .confirming
  let one (st : SagaStep) : Except Failure (SagaStep × List Envelope × List SagaStep) :=
    if st.reserve != .succeeded then .ok (st, [], [])
    else
      let st' := { st with confirm := .pending }
      if st'.mode == .sync then .ok (st', [], [st'])
      else do pure (st', [← command d.saga .confirmRequested now st'], [])
  let rec go : List SagaStep → Except Failure (List SagaStep × List Envelope × List SagaStep)
    | [] => .ok ([], [], [])
    | st :: rest => do
      let (st', es, sync) ← one st
      let (rest', es', sync') ← go rest
      pure (st' :: rest', es ++ es', sync ++ sync')
  let (steps, es, sync) ← go d.steps
  let d := { d with steps }.emit es
  pure { d with effects := { d.effects with confirms := d.effects.confirms ++ sync } }

/-- Applies a participant's answer to a reserve request. -/
def onReserved (res : StepResult) (now : Instant) (d : Draft) : Except Failure Draft :=
  match d.step? res.kind with
  | none => .ok d
  | some st =>
    if st.reserve != .pending then .ok d
    else if !res.success then do
      let d := d.touch.setStep res.kind
        { st with reserve := .failed, error := res.errorMessage, updatedAt := now }
      if d.saga.status == .reserving then
        let d ← (d.setError (st.kind ++ " reserve failed: " ++ res.errorMessage)).transition
          .compensating
        (← d.compensateAll now).settle
      else d.settle
    else
      let d := d.touch.setStep res.kind { st with reserve := .succeeded, updatedAt := now }
      match d.saga.status with
      | .reserving =>
        if d.all (·.reserve == .succeeded) then do (← d.transition .reserved).startConfirm now
        else .ok d
      | .compensating => do (← d.compensate res.kind now).settle
      | _ => .ok d

/-- Applies a participant's answer to a confirm request. -/
def onConfirmed (res : StepResult) (now : Instant) (d : Draft) : Except Failure Draft :=
  match d.step? res.kind with
  | none => .ok d
  | some st =>
    if st.confirm != .pending then .ok d
    else if res.success then
      let d := d.touch.setStep res.kind { st with confirm := .succeeded, updatedAt := now }
      if d.saga.status == .confirming && d.all (·.confirm == .succeeded) then
        d.transition .completed
      else d.settle
    else do
      let d := d.touch.setStep res.kind
        { st with confirm := .failed, error := res.errorMessage, updatedAt := now }
      if d.saga.status == .confirming then
        let d ← (d.setError (st.kind ++ " confirm failed: " ++ res.errorMessage)).transition
          .compensating
        (← d.compensateAll now).settle
      else d.settle

def reportKind (rep : CompensationReport) : String :=
  ((CompensationType.ofName? rep.compensationType).map (·.kind.name)).getD ""

/-- Records a compensation report. -/
def onCompensated (rep : CompensationReport) (now : Instant) (d : Draft) :
    Except Failure Draft :=
  let kind := reportKind rep
  match d.step? kind with
  | none => .ok d
  | some st =>
    if st.compensation != .pending then .ok d
    else
      let error := if rep.success then st.error else rep.errorMessage.getD st.error
      let phase : StepState := if rep.success then .succeeded else .failed
      let st := { st with compensation := phase, error, updatedAt := now }
      (d.touch.setStep kind st).settle

end Draft

end OrderSaga
