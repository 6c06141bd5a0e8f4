import OrderSaga.Proofs.Consumers
import OrderSaga.Proofs.Envelopes

namespace OrderSaga

def CompensationRequest.cancellation (req : CompensationRequest) : Reservation.Request :=
  ⟨req.sagaId, req.orderId, req.userId, req.lines.getD []⟩

theorem Payload.validate_report {r : CompensationReport} :
    (Payload.compensationReport r).validate = .ok () ↔
      checkIdentity r.sagaId r.orderId r.userId = .ok () ∧
      (CompensationType.ofName? r.compensationType).isSome ∧
      (r.success = false → r.errorMessage.getD "" ≠ "") := by
  cases hid : checkIdentity r.sagaId r.orderId r.userId with
  | error m => simp [validate, hid, bind, Except.bind]
  | ok u =>
    cases hty : CompensationType.ofName? r.compensationType <;>
      cases hs : r.success <;> simp [validate, hid, bind, Except.bind, pure, Except.pure, hty, hs]

/-! ## Writing a report -/

theorem Instant.refusal?_toJson_eq_none {t : Instant} :
    t.toJson.refusal? = none ↔ t.fault? = none := by
  unfold Instant.toJson
  split <;> simp_all [Json.refusal?]

theorem Payload.refusal?_compensationReport (r : CompensationReport) :
    (Payload.compensationReport r).toJson.refusal? = r.timestamp.toJson.refusal? := by
  have horder := Json.refusal?_of_readable (Json.readable_ofUInt64 r.orderId)
  have huser := Json.refusal?_of_readable (Json.readable_ofUInt64 r.userId)
  have hmessage := Json.refusal?_of_readable (Json.readable_ofOption r.errorMessage)
  simp only [Payload.toJson, Payload.identity, List.cons_append, List.nil_append, Json.refusal?,
    Json.refusal?.firstField, horder, huser, hmessage, Option.orElse]
  split <;> simp_all

theorem encode?_compensationReport_ok (id : String) (now : Instant) (r : CompensationReport)
    (hts : r.timestamp = now) :
    (∃ text, (⟨id, .compensationCompleted, now, .compensationReport r⟩ : Envelope).encode? =
      .ok text) ↔ now.fault? = none := by
  subst hts
  rw [← Instant.refusal?_toJson_eq_none]
  unfold Envelope.encode?
  rw [Payload.refusal?_compensationReport]
  cases hf : r.timestamp.toJson.refusal? with
  | some reason => simp
  | none =>
    simp only [Envelope.toJson, Json.refusal?, Json.refusal?.firstField, Option.orElse, hf,
      Payload.refusal?_compensationReport]
    simp

namespace Store

variable {space : String} {now : Instant} {s : Store}

theorem appendOutbox_ok_iff (e : OutboxEntry) (now : Instant) (s : Store) :
    (∃ e' s', appendOutbox e now s = .ok e' s') ↔
      s.outbox.any (·.eventId == e.eventId) = false := by
  cases hd : s.outbox.any (·.eventId == e.eventId) with
  | true =>
    simp only [appendOutbox, check, hd, bind, EStateM.bind, get, getThe, MonadStateOf.get,
      EStateM.get, Bool.not_true, Bool.false_eq_true, if_false, throw, throwThe,
      MonadExceptOf.throw, EStateM.throw]
    simp
  | false =>
    simp only [appendOutbox, check, hd, bind, EStateM.bind, get, getThe, MonadStateOf.get,
      EStateM.get, Bool.not_false, if_true, pure, EStateM.pure, nextId, modifyGet,
      MonadStateOf.modifyGet, EStateM.modifyGet, modify]
    simp

theorem entryOf_run (env : Envelope) :
    entryOf space env s =
      match Envelope.entry? { env with eventId := eventId space s } with
      | .ok entry => .ok entry s
      | .error f => .error f s := by
  cases h : Envelope.entry? { env with eventId := eventId space s } <;>
    simp [entryOf, h, bind, EStateM.bind, get, getThe, MonadStateOf.get, EStateM.get, pure,
      EStateM.pure, throw, throwThe, MonadExceptOf.throw, EStateM.throw]

theorem writeEnvelope_ok_iff (env : Envelope) :
    (∃ s', writeEnvelope space env now s = .ok () s') ↔
      (∃ text, ({ env with eventId := eventId space s }).encode? = .ok text) ∧
        s.outbox.any (·.eventId == eventId space s) = false := by
  have hwrite : ∀ s', writeEnvelope space env now s = .ok () s' ↔
      ∃ entry, entryOf space env s = .ok entry s ∧
        ∃ e', appendOutbox entry now s = .ok e' s' := by
    intro s'
    constructor
    · intro h
      obtain ⟨entry, s₁, hentry, h₁⟩ := bind_ok h
      obtain ⟨e', s₂, happend, h₂⟩ := bind_ok h₁
      cases h₂
      obtain ⟨rfl, -⟩ := entryOf_ok hentry
      exact ⟨entry, hentry, e', happend⟩
    · rintro ⟨entry, hentry, e', happend⟩
      simp only [writeEnvelope, bind, EStateM.bind, hentry, happend, pure, EStateM.pure]
  simp only [hwrite, entryOf_run]
  unfold Envelope.entry?
  cases hc : ({ env with eventId := eventId space s }).encode? with
  | error r => simp
  | ok text =>
    simp only [EStateM.Result.ok.injEq, and_true]
    constructor
    · rintro ⟨s', entry, rfl, e', happend⟩
      exact ⟨⟨text, rfl⟩, (appendOutbox_ok_iff _ now s).mp ⟨e', s', happend⟩⟩
    · rintro ⟨-, hfresh⟩
      let entry : OutboxEntry := { eventId := eventId space s, topic := env.topic,
                                   key := env.key, payload := text, createdAt := env.occurredAt }
      obtain ⟨e', s', happend⟩ := (appendOutbox_ok_iff entry now s).mpr hfresh
      exact ⟨s', entry, rfl, e', happend⟩

end Store

namespace Reservation

namespace Service

variable {svc : Service} {req : CompensationRequest} {err : Option Failure} {now : Instant}
  {s s' : Store}

/-- The envelope of the report of `req` with the failure `err`, as it is built. -/
def reportFor (svc : Service) (req : CompensationRequest) (err : Option Failure)
    (now : Instant) : Envelope :=
  ⟨"", .compensationCompleted, now, .compensationReport (svc.report req err now)⟩

theorem writeEnvelope_report_iff (err err' : Option Failure) :
    (∃ s', Store.writeEnvelope svc.service (svc.reportFor req err now) now s = .ok () s') ↔
      ∃ s', Store.writeEnvelope svc.service (svc.reportFor req err' now) now s = .ok () s' := by
  simp only [Store.writeEnvelope_ok_iff, reportFor,
    encode?_compensationReport_ok _ now _ (rfl : (svc.report req _ now).timestamp = now)]

section Valid

variable (hv : (Payload.compensationRequest req).validate = .ok ())
include hv

theorem checkIdentity_of_valid :
    Payload.checkIdentity req.sagaId req.orderId req.userId = .ok () := by
  cases h : Payload.checkIdentity req.sagaId req.orderId req.userId with
  | error m =>
    simp [Payload.validate, h, bind, Except.bind] at hv
  | ok u => rfl

theorem validate_cancellation : validate req.cancellation = .ok () := by
  have hid := checkIdentity_of_valid hv
  unfold Payload.checkIdentity at hid
  split_ifs at hid with hsaga horder huser
  simp [validate, CompensationRequest.cancellation, horder, huser]

theorem reportEnvelope_ok (hmsg : ∀ f, err = some f → f.message ≠ "") :
    svc.reportEnvelope req err now = .ok (svc.reportFor req err now) := by
  have hvalid : (Payload.compensationReport (svc.report req err now)).validate = .ok () := by
    refine Payload.validate_report.mpr ⟨checkIdentity_of_valid hv, ?_, ?_⟩
    · show (CompensationType.ofName?
        ((Kind.ofName? req.kind).getD svc.kind).compensation.name).isSome
      cases (Kind.ofName? req.kind).getD svc.kind <;> rfl
    · cases err with
      | none => simp [report]
      | some f => simpa [report] using hmsg f rfl
  simp [reportEnvelope, Envelope.create, hvalid, reportFor, Payload.shape, EventType.shape]

end Valid

/-! ## The reporter -/

variable {r : Request} {res : Option Result}

theorem reporter_failed (cause : Failure) :
    svc.reporter req r res (some cause) now = (svc.reportEnvelope req (some cause) now).map some :=
  rfl

theorem reporter_cancelled (hres : cancelled res = true) :
    svc.reporter req r res none now = (svc.reportEnvelope req none now).map some := by
  simp [reporter, hres]

theorem reporter_ne_silent : svc.reporter req r res err now ≠ .ok none := by
  unfold reporter
  dsimp only
  cases svc.reportEnvelope req _ now <;> simp [Except.map]

theorem reporter_failures :
    ∀ r res err now f, svc.reporter req r res err now = .error f → f.Refusal := by
  intro r res err now f h
  unfold reporter at h
  dsimp only at h
  revert h
  cases hb : svc.reportEnvelope req _ now with
  | error g =>
    rintro ⟨⟩
    exact Envelope.create_refusal hb
  | ok env => rintro ⟨⟩

theorem announced_reporter {s'' : Store}
    (h : svc.Announced r res err now s (some (svc.reporter req)) s'') :
    ∃ env, svc.reporter req r res err now = .ok (some env) ∧
      Store.writeEnvelope svc.service env now s = .ok () s'' :=
  h.made.resolve_left fun ⟨hsilent, _⟩ => reporter_ne_silent hsilent

/-! ## The cancellation -/

theorem finalizeTx_reached {op : Operation} {lines : List Line} {p p' : Progress}
    (h : svc.finalizeTx op r lines none now (s, p) = .ok () (s', p')) :
    p'.outcome = some (alreadyOutcome (closingType op)) ∨
      p'.outcome = some (doneOutcome (closingType op)) := by
  unfold finalizeTx at h
  rw [Tx.bind_of_ok (Tx.setOutcome_run _), Tx.bind_of_ok Tx.reading_run,
    Tx.bind_of_ok (Tx.setLines_run _)] at h
  dsimp only at h
  obtain ⟨pending, ⟨s₁, p₁⟩, -, h⟩ := Store.bind_ok h
  split at h
  · rw [Tx.bind_of_ok (Tx.setOutcome_run _), announceInTx_none] at h
    cases h
    exact .inl rfl
  · obtain ⟨_, ⟨s₂, p₂⟩, -, h⟩ := Store.bind_ok h
    rw [Tx.bind_of_ok (Tx.setOutcome_run _), announceInTx_none] at h
    cases h
    exact .inr rfl

theorem apply_cancel_cancelled (h : svc.apply .cancel r none now s = ((res, none), s')) :
    cancelled res = true := by
  change svc.finalize .cancel r none now s = _ at h
  unfold finalize at h
  dsimp only at h
  split at h
  next e _ =>
    obtain ⟨e', he', -⟩ := finish_error svc .cancel r none e none now s
    rw [h] at he'
    cases he'
  next lines _ =>
    obtain ⟨p, hbody, rfl⟩ := run_of_finish h
    rcases finalizeTx_reached hbody with ho | ho <;>
      simp [result, ho, cancelled, alreadyOutcome, doneOutcome, closingType]

theorem finalize_settled_quiet (op : Operation) (now : Instant) {lines : List Line}
    (hv : validate r = .ok ()) (hl : svc.resolveLines s r = .ok lines)
    (hs : Settled (s.findByOrder svc.kind.name r.orderId r.userId) (closingType op) lines) :
    svc.finalize op r none now s = ((some ⟨svc.kind, r.sagaId, r.orderId, r.userId,
      alreadyOutcome (closingType op),
      answered (s.findByOrder svc.kind.name r.orderId r.userId) lines⟩, none), s) := by
  have hbody : svc.finalizeTx op r lines none now (s, { lines }) = .ok () (s,
      { outcome := some (alreadyOutcome (closingType op))
        lines := answered (s.findByOrder svc.kind.name r.orderId r.userId) lines }) :=
    finalizeTx_settled hs
  unfold finalize
  dsimp only
  rw [prepared_of hv hl]
  dsimp only
  rw [Tx.run_of_ok hbody]
  rfl

theorem announcedBy_written {op : Operation} {an : Announcer} {env : Envelope} {s₁ s₂ : Store}
    (hmade : an r res none now = .ok (some env))
    (hw : Store.writeEnvelope svc.service env now s₁ = .ok () s₂) :
    svc.announcedBy op r an now s ((res, none), s₁) = ((res, none), s₂) := by
  unfold announcedBy
  simp only [hmade, hw]

/-! ## Answering a compensation request -/

variable {res : Option Result} {s₁ : Store}

theorem compensate_routed (hk : req.kind = svc.kind.name)
    (h : svc.apply .cancel req.cancellation (some (svc.reporter req)) now s = ((res, err), s₁)) :
    svc.compensate req now s = (err.filter (·.has .announceFailed), s₁) := by
  unfold compensate CompensationRequest.cancellation at *
  rw [if_neg (by simp [hk])]
  dsimp only
  rw [h]
  cases err with
  | none => rfl
  | some e => by_cases hf : e.has .announceFailed <;> simp [Option.filter, hf]

section Valid

variable (hv : (Payload.compensationRequest req).validate = .ok ())
include hv

theorem compensate_misrouted (hk : req.kind ≠ svc.kind.name) (now : Instant) (s : Store) :
    ∃ cause : Failure, cause.message ≠ "" ∧
      ((∃ s', Store.writeEnvelope svc.service (svc.reportFor req (some cause) now) now s =
          .ok () s' ∧ svc.compensate req now s = (none, s')) ∨
        (∃ e, svc.compensate req now s = (some e, s) ∧
          ¬ ∃ s', Store.writeEnvelope svc.service (svc.reportFor req (some cause) now) now s =
            .ok () s')) := by
  have hmsg : (Failure.plain ("compensation for " ++ Text.quoted req.kind ++ " routed to "
      ++ Text.quoted svc.kind.name ++ " participant")).message ≠ "" := by simp
  refine ⟨_, hmsg, ?_⟩
  unfold compensate
  rw [if_pos (by simpa using hk)]
  dsimp only
  rw [reportEnvelope_ok hv (by rintro f ⟨⟩; exact hmsg)]
  dsimp only
  cases hw : Store.writeEnvelope svc.service (svc.reportFor req (some (Failure.plain
      ("compensation for " ++ Text.quoted req.kind ++ " routed to " ++ Text.quoted svc.kind.name
        ++ " participant"))) now) now s with
  | ok u s' =>
    refine .inl ⟨s', rfl, ?_⟩
    simp [Store.run, Store.atomically, hw]
  | error g s' =>
    refine .inr ⟨g, by simp [Store.run, Store.atomically, hw], ?_⟩
    rintro ⟨s'', ⟨⟩⟩

theorem reporter_success (hres : cancelled res = true) :
    svc.reporter req r res none now = .ok (some (svc.reportFor req none now)) := by
  rw [reporter_cancelled hres, reportEnvelope_ok hv (by rintro f ⟨⟩)]
  rfl

theorem reporter_failure {cause : Failure} (hmsg : cause.message ≠ "") :
    svc.reporter req r res (some cause) now = .ok (some (svc.reportFor req (some cause) now)) := by
  rw [reporter_failed, reportEnvelope_ok hv (by rintro f ⟨⟩; exact hmsg)]
  rfl

theorem settled_reported {lines : List Line}
    (hl : svc.resolveLines s req.cancellation = .ok lines)
    (hs : Settled (s.findByOrder svc.kind.name req.orderId req.userId) .cancel lines)
    {s₂ : Store}
    (hw : Store.writeEnvelope svc.service (svc.reportFor req none now) now s = .ok () s₂) :
    (svc.apply .cancel req.cancellation (some (svc.reporter req)) now s).1.2 = none := by
  have hquiet := finalize_settled_quiet .cancel now (validate_cancellation hv) hl hs
  have hmade : svc.reporter req req.cancellation (some ⟨svc.kind, req.cancellation.sagaId,
      req.cancellation.orderId, req.cancellation.userId, alreadyOutcome (closingType .cancel),
      answered (s.findByOrder svc.kind.name req.cancellation.orderId req.cancellation.userId)
        lines⟩) none now = .ok (some (svc.reportFor req none now)) :=
    reporter_success hv rfl
  rw [apply_announced, show svc.apply .cancel req.cancellation none now s = _ from hquiet,
    announcedBy_written hmade hw]

theorem compensate_routed_reports (hk : req.kind = svc.kind.name) {answer : Option Failure}
    (h : svc.compensate req now s = (answer, s')) :
    (answer = none ∧ ∃ err entry, s'.outbox = s.outbox ++ [entry] ∧
      entry.Carries (svc.reportFor req err now) ∧
      (err = none ↔ ∃ lines, svc.resolveLines s req.cancellation = .ok lines ∧
        Settled (s'.findByOrder svc.kind.name req.orderId req.userId) .cancel lines) ∧
      ∀ f, err = some f → f.message ≠ "" ∧ s'.holdings = s.holdings) ∨
    (answer ≠ none ∧ s' = s ∧ ∀ err, ¬ ∃ s'',
      Store.writeEnvelope svc.service (svc.reportFor req err now) now s = .ok () s'') := by
  rcases happ : svc.apply .cancel req.cancellation (some (svc.reporter req)) now s with
    ⟨⟨res, err₀⟩, s₁⟩
  rw [compensate_routed hk happ, Prod.mk.injEq] at h
  obtain ⟨hanswer, rfl⟩ := h
  cases err₀ with
  | none =>
    obtain ⟨s₂, h₀, hann⟩ := apply_succeeded happ
    obtain ⟨env, hmade, hw⟩ := announced_reporter hann
    rw [reporter_success hv (apply_cancel_cancelled h₀)] at hmade
    cases hmade
    obtain ⟨entry, hout, hc⟩ := Store.writeEnvelope_carries hw
    obtain ⟨lines, -, hl, -, more, hledger, hmore, hsettled⟩ := finalize_ok h₀
    have hfind : s₁.findByOrder svc.kind.name req.orderId req.userId =
        s.findByOrder svc.kind.name req.orderId req.userId ++ more := by
      rw [findByOrder_of_ledgers (ledgers_of_holdings hann.holdings)]
      exact findByOrder_append hledger fun f hf => ⟨(hmore f hf).1, (hmore f hf).2.1⟩
    refine .inl ⟨hanswer.symm, none, entry, by rw [hout, apply_unannounced_outbox h₀], hc,
      iff_of_true rfl ⟨lines, hl, by rw [hfind]; exact hsettled⟩, nofun⟩
  | some e =>
    obtain ⟨cause, hcause, hcases⟩ := apply_failed_cause reporter_failures happ
    rcases hcases with ⟨rfl, hann⟩ | ⟨hcond, rfl, hno⟩
    ·
      obtain ⟨env, hmade, hw⟩ := announced_reporter hann
      rw [reporter_failure hv hcause.2] at hmade
      cases hmade
      obtain ⟨entry, hout, hc⟩ := Store.writeEnvelope_carries hw
      have hhold := hann.holdings
      refine .inl ⟨by rw [← hanswer]; simp [Option.filter, hcause.1], some e, entry, hout, hc,
        iff_of_false nofun ?_, fun f hf => ?_⟩
      ·
        rintro ⟨lines, hl, hs⟩
        rw [findByOrder_of_ledgers (ledgers_of_holdings hhold)] at hs
        obtain ⟨s₃, hw₃⟩ := (writeEnvelope_report_iff (some e) none).mp ⟨s₁, hw⟩
        have hquiet := settled_reported hv hl hs hw₃
        rw [happ] at hquiet
        cases hquiet
      · cases hf
        exact ⟨hcause.2, hhold⟩
    ·
      have hhas : e.has .announceFailed = true := by simp [Failure.has, hcond]
      refine .inr ⟨by rw [← hanswer]; simp [Option.filter, hhas], rfl,
        fun err hwrite => hno ?_⟩
      obtain ⟨s'', hw⟩ := (writeEnvelope_report_iff err (some cause)).mp hwrite
      exact ⟨s'', .written (reporter_failure hv hcause.2) hw⟩

end Valid

end Service

end Reservation

open Reservation Reservation.Service

/-- **A compensation request is reported truthfully.** -/
theorem compensation_reports_truthfully {svc : Service} {req : CompensationRequest}
    {now : Instant} {s s' : Store} {answer : Option Failure}
    (hv : (Payload.compensationRequest req).validate = .ok ())
    (h : svc.compensate req now s = (answer, s')) :
    (answer = none ∧ ∃ err entry, s'.outbox = s.outbox ++ [entry] ∧
      entry.Carries (svc.reportFor req err now) ∧
      (err = none ↔ req.kind = svc.kind.name ∧ ∃ lines,
        svc.resolveLines s req.cancellation = .ok lines ∧
        Settled (s'.findByOrder svc.kind.name req.orderId req.userId) .cancel lines) ∧
      ∀ f, err = some f → f.message ≠ "" ∧ s'.holdings = s.holdings) ∨
    (answer ≠ none ∧ s' = s ∧ ∀ err, ¬ ∃ s'',
      Store.writeEnvelope svc.service (svc.reportFor req err now) now s = .ok () s'') := by
  by_cases hk : req.kind = svc.kind.name
  · simpa only [hk, true_and] using compensate_routed_reports hv hk h
  ·
    obtain ⟨cause, hmsg, ⟨s₁, hw, hc⟩ | ⟨e, hc, hno⟩⟩ :=
      compensate_misrouted hv hk now s
    · rw [hc, Prod.mk.injEq] at h
      obtain ⟨rfl, rfl⟩ := h
      obtain ⟨entry, hout, hcarries⟩ := Store.writeEnvelope_carries hw
      refine .inl ⟨rfl, some cause, entry, hout, hcarries, iff_of_false nofun (hk ·.1),
        fun f hf => ?_⟩
      cases hf
      exact ⟨hmsg, writeEnvelope_keeps_holdings _ _ _ _ _ _ hw⟩
    · rw [hc, Prod.mk.injEq] at h
      obtain ⟨rfl, rfl⟩ := h
      exact .inr ⟨nofun, rfl, fun err hwrite =>
        hno ((writeEnvelope_report_iff err (some cause)).mp hwrite)⟩

def releaseOrder : CompensationRequest :=
  { sagaId := "saga", orderId := 1, userId := 2, kind := "stock" }

/-- An order with nothing reserved is reported as failed. -/
theorem unreserved_order_reported_failed :
    (Payload.compensationRequest releaseOrder).validate = .ok () ∧
      ∃ err entry, (stockService.compensate releaseOrder Instant.zero fiveOfSeven).2.outbox =
        [entry] ∧ entry.Carries (stockService.reportFor releaseOrder err Instant.zero) ∧
        err ≠ none := by
  have hv : (Payload.compensationRequest releaseOrder).validate = .ok () := by decide
  refine ⟨hv, ?_⟩
  have hdone : (stockService.compensate releaseOrder Instant.zero fiveOfSeven).1 = none := by
    decide +kernel
  rcases hrun : stockService.compensate releaseOrder Instant.zero fiveOfSeven with ⟨answer, s'⟩
  rw [hrun] at hdone
  rcases compensation_reports_truthfully hv hrun with
    ⟨-, err, entry, hout, hc, hiff, -⟩ | ⟨hne, -, -⟩
  · refine ⟨err, entry, hout, hc, ?_⟩
    rintro rfl
    obtain ⟨-, lines, hl, -⟩ := hiff.mp rfl
    have hunresolved :
        (stockService.resolveLines fiveOfSeven releaseOrder.cancellation).toBool = false := by
      decide
    rw [hl] at hunresolved
    cases hunresolved
  · exact absurd hdone hne

/-- Option 7 of `fiveOfSeven` with three units reserved for order 1 of user 2 and then cancelled. -/
def threeOfSevenCancelled : Store :=
  (stockService.apply .cancel threeOfSeven none Instant.zero
    (stockService.apply .reserve threeOfSeven none Instant.zero fiveOfSeven).2).2

/-- A stock compensation of order 1 of user 2 that releases option 7 twice, the first time by the
largest amount a signed 64-bit integer holds. -/
def overflowingRelease : CompensationRequest :=
  { sagaId := "saga", orderId := 1, userId := 2, kind := "stock",
    lines := some [⟨7, 9223372036854775807⟩, ⟨7, 1⟩] }

/-- The reservation of option 7 was cancelled, and the ledger keeps its reserve and its cancel rows,
yet its compensation is reported as a failure: the request's amounts for option 7 overflow when
summed, so its lines do not resolve. -/
theorem overflowing_compensation_reported_failed :
    (Payload.compensationRequest overflowingRelease).validate = .ok () ∧
      ∃ err entry, (stockService.compensate overflowingRelease Instant.zero
          threeOfSevenCancelled).2.outbox = threeOfSevenCancelled.outbox ++ [entry] ∧
        entry.Carries (stockService.reportFor overflowingRelease err Instant.zero) ∧
        (stockService.report overflowingRelease err Instant.zero).success = false ∧
        ∀ t ∈ [EntryType.reserve, .cancel],
          ∃ r ∈ (stockService.compensate overflowingRelease
            Instant.zero threeOfSevenCancelled).2.findByOrder "stock" 1 2,
            r.resource = 7 ∧ r.type = t := by
  have hv : (Payload.compensationRequest overflowingRelease).validate = .ok () := by decide
  refine ⟨hv, ?_⟩
  have hdone : (stockService.compensate overflowingRelease Instant.zero
      threeOfSevenCancelled).1 = none := by
    decide +kernel
  rcases hrun : stockService.compensate overflowingRelease Instant.zero threeOfSevenCancelled with
    ⟨answer, s'⟩
  rw [hrun] at hdone
  rcases compensate_routed_reports hv rfl hrun with
    ⟨-, err, entry, hout, hc, hiff, hfail⟩ | ⟨hne, -, -⟩
  ·
    have hunresolved : (stockService.resolveLines threeOfSevenCancelled
        overflowingRelease.cancellation).toBool = false := by
      decide +kernel
    have herr : err ≠ none := by
      rintro rfl
      obtain ⟨lines, hl, -⟩ := hiff.mp rfl
      rw [hl] at hunresolved
      cases hunresolved
    obtain ⟨f, rfl⟩ := Option.ne_none_iff_exists'.mp herr
    refine ⟨some f, entry, hout, hc, rfl, ?_⟩
    rw [findByOrder_of_ledgers (ledgers_of_holdings (hfail f rfl).2)]
    decide +kernel
  · exact absurd hdone hne

end OrderSaga
