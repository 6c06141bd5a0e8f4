import OrderSaga.Proofs.Compensations
import OrderSaga.Proofs.Orders

namespace OrderSaga

open Orchestrator

/-! ## The request -/

namespace OrderRequest

def Invalid (r : OrderRequest) : Prop :=
  r.userId = 0 ∨ r.items = [] ∨ (∃ it ∈ r.items, it.1 = 0 ∨ it.2 ≤ 0) ∨ r.points < 0

/-- The steps of an order in the order stock, coupon, point: the stock step reserves the items as
lines, in request order; the coupon step reserves the coupon once if there is one, and the point
step the points if they are positive. -/
def layout (r : OrderRequest) (mode : Kind → Mode) (now : Instant) : List SagaStep :=
  [{ kind := "stock", mode := mode .stock, updatedAt := now,
      lines := r.items.map fun (o, q) => ⟨o, q⟩, reserve := .pending },
    if r.couponId ≠ 0 then
      { kind := "coupon", mode := mode .coupon, updatedAt := now,
        lines := [⟨r.couponId, 1⟩], reserve := .pending }
    else { kind := "coupon", mode := mode .coupon, updatedAt := now, reserve := .skipped },
    if 0 < r.points then
      { kind := "point", mode := mode .point, updatedAt := now,
        lines := [⟨0, r.points⟩], reserve := .pending }
    else { kind := "point", mode := mode .point, updatedAt := now, reserve := .skipped }]

variable {r : OrderRequest} {mode : Kind → Mode} {now : Instant}

theorem items_find?_eq_none_iff :
    r.items.zipIdx.find? (fun ((o, q), _) => o == 0 || q ≤ 0) = none ↔
      ¬ ∃ it ∈ r.items, it.1 = 0 ∨ it.2 ≤ 0 := by
  rw [List.find?_eq_none]
  constructor
  · rintro h ⟨it, hit, hbad⟩
    rw [← List.zipIdx_map_fst 0 r.items] at hit
    obtain ⟨⟨⟨o, q⟩, i⟩, hx, rfl⟩ := List.mem_map.mp hit
    exact h _ hx (by simpa using hbad)
  · rintro h ⟨⟨o, q⟩, i⟩ hx hbad
    refine h ⟨(o, q), ?_, by simpa using hbad⟩
    rw [← List.zipIdx_map_fst 0 r.items]
    exact List.mem_map.mpr ⟨_, hx, rfl⟩

theorem validate_eq_ok_iff : r.validate = .ok () ↔ ¬ r.Invalid := by
  unfold validate Invalid
  by_cases hu : r.userId = 0
  · simp [hu, invalid]
  by_cases hi : r.items = []
  · simp [hu, hi, invalid]
  cases hf : r.items.zipIdx.find? (fun ((o, q), _) => o == 0 || q ≤ 0) with
  | some x =>
    have hbad : ∃ it ∈ r.items, it.1 = 0 ∨ it.2 ≤ 0 := by
      by_contra hnone
      rw [← items_find?_eq_none_iff, hf] at hnone
      cases hnone
    simp [hu, hi, hbad, invalid]
  | none =>
    have hgood := items_find?_eq_none_iff.mp hf
    by_cases hp : r.points < 0 <;> simp [hu, hi, hgood, hp, invalid]

theorem validate_error {e : Failure} (h : r.validate = .error e) : e.has .invalidOrder = true := by
  unfold validate at h
  repeat' split at h
  all_goals cases h
  all_goals simp [invalid]

theorem steps_eq_layout (hv : ¬ r.Invalid) : r.steps mode now = r.layout mode now := by
  have hitems : r.items.isEmpty = false := by
    simp only [List.isEmpty_eq_false_iff, ne_eq]
    exact fun h => hv (.inr (.inl h))
  simp only [steps, lines, Kind.all, List.map_cons, List.map_nil, layout, hitems,
    Bool.false_eq_true, ↓reduceIte, Kind.name, beq_iff_eq, gt_iff_lt]
  by_cases hc : r.couponId = 0 <;> by_cases hp : 0 < r.points <;> simp [hc, hp]

theorem layout_pending (hv : ¬ r.Invalid) :
    ∀ st ∈ r.layout mode now, st.reserve = .pending →
      (∃ k : Kind, st.kind = k.name) ∧ ∀ l ∈ st.lines, 0 < l.amount := by
  intro st hst hpending
  simp only [layout, List.mem_cons, List.not_mem_nil, or_false] at hst
  rcases hst with rfl | rfl | rfl
  ·
    refine ⟨⟨.stock, rfl⟩, fun l hl => ?_⟩
    obtain ⟨⟨o, q⟩, hit, rfl⟩ := List.mem_map.mp hl
    have hq : ¬ q ≤ 0 := fun hq => hv (.inr (.inr (.inl ⟨(o, q), hit, .inr hq⟩)))
    rw [Int64.le_iff_toInt_le] at hq
    rw [Int64.lt_iff_toInt_lt]
    simp only [Int64.toInt_zero] at hq ⊢
    omega
  · by_cases hc : r.couponId ≠ 0
    · rw [if_pos hc]
      exact ⟨⟨.coupon, rfl⟩, fun l hl => by
        rw [List.mem_singleton.mp hl]
        show (0 : Int64) < 1
        decide⟩
    · rw [if_neg hc] at hpending
      cases hpending
  · by_cases hp : 0 < r.points
    · rw [if_pos hp]
      exact ⟨⟨.point, rfl⟩, fun l hl => by rw [List.mem_singleton.mp hl]; exact hp⟩
    · rw [if_neg hp] at hpending
      cases hpending

/-- The saga of an order just opened: the request's saga, reserving. -/
def placed (r : OrderRequest) (sagaId : String) (orderId : UInt64) (mode : Kind → Mode)
    (now : Instant) : Saga :=
  { r.saga sagaId orderId mode now with status := .reserving }

theorem saga_transitionTo {sagaId : String} {orderId : UInt64} :
    (r.saga sagaId orderId mode now).transitionTo .reserving =
      .ok (r.placed sagaId orderId mode now) := rfl

end OrderRequest

/-! ## Identifiers -/

def Store.drawnId (s : Store) (space : String) (j : Nat) : String :=
  s.idSource.draw ("event:" ++ space) ((s.seq + j.toUInt64).toNat + 1)

/-- The event ids that `count` outbox writes of the service `space` draw, after `skip` other draws
of the store's sequence, are all different and none is in the outbox yet. -/
def Store.NewEventIds (s : Store) (space : String) (skip count : Nat) : Prop :=
  (∀ i j, i < j → j < count → s.drawnId space (skip + i) ≠ s.drawnId space (skip + j)) ∧
    ∀ e ∈ s.outbox, ∀ j < count, e.eventId ≠ s.drawnId space (skip + j)

/-! ## The reserve commands -/

/-- The reserve command an opened saga sends the participant `k` for the step `st`. -/
def reserveCommand (g : Saga) (now : Instant) (k : Kind) (st : SagaStep) : Envelope :=
  ⟨"", .reserveRequested k, now, .command
    { sagaId := g.sagaId, orderId := g.orderId, userId := g.userId, kind := st.kind,
      lines := st.lines, timestamp := now }⟩

/-- The outbox entry sends the reserve command of the step: to the step's participant, under the
decimal order id as partition key. -/
def Sends (g : Saga) (now : Instant) (entry : OutboxEntry) (st : SagaStep) : Prop :=
  ∃ k : Kind, k.name = st.kind ∧ entry.key = toString g.orderId.toNat ∧
    entry.Carries (reserveCommand g now k st)

theorem command_reserveRequested {g : Saga} {now : Instant} {st : SagaStep} {k : Kind}
    (hk : st.kind = k.name) (hid : g.sagaId ≠ "") (horder : g.orderId ≠ 0)
    (huser : g.userId ≠ 0) (hlines : ∀ l ∈ st.lines, 0 < l.amount) :
    Draft.command g .reserveRequested now st = .ok (reserveCommand g now k st) := by
  have hcheck : Payload.checkLines st.lines = .ok () := by
    unfold Payload.checkLines
    rw [List.find?_eq_none.mpr]
    rintro ⟨l, i⟩ hx hbad
    have hpos := hlines l ((List.zipIdx_map_fst 0 st.lines) ▸ List.mem_map.mpr ⟨_, hx, rfl⟩)
    simp only [decide_eq_true_eq] at hbad
    rw [Int64.le_iff_toInt_le] at hbad
    rw [Int64.lt_iff_toInt_lt] at hpos
    simp only [Int64.toInt_zero] at hbad hpos
    omega
  have hkind : Payload.checkKind k.name = .ok () := by
    simp [Payload.checkKind, Kind.isName, Kind.ofName?_name]
  simp [Draft.command, EventType.forParticipant, hk, Kind.ofName?_name, Envelope.create,
    Payload.shape, EventType.shape, Payload.validate, Payload.checkIdentity, hid, horder, huser,
    hkind, hcheck, reserveCommand, bind, Except.bind]

theorem readable_time_of_fault {t : Instant} (h : t.fault? = none) : Json.Readable t.toJson := by
  unfold Instant.toJson
  rw [h]
  trivial

theorem encode?_reserveCommand (g : Saga) (k : Kind) (st : SagaStep) (id : String)
    {now : Instant} (hclock : now.fault? = none) :
    ({ reserveCommand g now k st with eventId := id }).encode? =
      .ok (Json.compact ({ reserveCommand g now k st with eventId := id }).toJson) := by
  have htime := readable_time_of_fault hclock
  have hpayload : Json.Readable (reserveCommand g now k st).payload.toJson := by
    simp_all [reserveCommand, Payload.toJson, Json.Readable, Json.readableFields_iff,
      Payload.identity, List.mem_ite_nil_left, or_imp]
  have henvelope : Json.Readable ({ reserveCommand g now k st with eventId := id }).toJson := by
    simp_all [Envelope.toJson, reserveCommand, Json.Readable, Json.readableFields_iff, or_imp]
  have hp := Json.refusal?_of_readable hpayload
  have he := Json.refusal?_of_readable henvelope
  simp only [Envelope.encode?, hp, he]

/-! ## The store operations of an opening -/

namespace Store

variable {s : Store}

theorem bind_of_ok {α β ε σ : Type} {x : EStateM ε σ α} {k : α → EStateM ε σ β}
    {t t₁ : σ} {a : α} (hx : x t = .ok a t₁) : (x >>= k) t = k a t₁ := by
  change EStateM.bind x k t = _
  simp [EStateM.bind, hx]

theorem withContext_of_ok {α : Type} {m : Op α} {s' : Store} {a : α} (context : String)
    (h : m s = .ok a s') : withContext context m s = .ok a s' := by
  simp [withContext, h]

theorem atomically_of_ok {α : Type} {m : Op α} {s' : Store} {a : α} (h : m s = .ok a s') :
    atomically m s = .ok a s' := by
  simp [atomically, h]

theorem numberItems_run (orderId : UInt64) (items : List OrderItem) (s : Store) :
    ∃ items', numberItems orderId items s =
        .ok items' { s with seq := s.seq + items.length.toUInt64 } ∧
      items'.map (fun i => (i.option, i.quantity)) =
        items.map (fun i => (i.option, i.quantity)) := by
  induction items generalizing s with
  | nil => exact ⟨[], by simp [numberItems, pure, EStateM.pure], rfl⟩
  | cons i rest ih =>
    obtain ⟨rest', hrun, hmap⟩ := ih { s with seq := s.seq + 1 }
    refine ⟨{ i with id := s.seq + 1, orderId } :: rest', ?_, by simp [hmap]⟩
    simp only [numberItems, bind, EStateM.bind, nextId, modifyGet, MonadStateOf.modifyGet,
      EStateM.modifyGet, hrun, pure, EStateM.pure, List.length_cons, UInt64.ofNat_add,
      Nat.toUInt64_eq]
    congr 2
    ac_rfl

theorem createOrder_run (now : Instant) {o : Order} (hfree : ∀ x ∈ s.orders, x.id ≠ o.id) :
    ∃ items, createOrder o now s =
        .ok { o with createdAt := now, updatedAt := now, items }
          { s with
            seq := s.seq + o.items.length.toUInt64
            orders := s.orders ++ [{ o with createdAt := now, updatedAt := now, items }] } ∧
      items.map (fun i => (i.option, i.quantity)) =
        o.items.map (fun i => (i.option, i.quantity)) := by
  obtain ⟨items, hrun, hmap⟩ := numberItems_run o.id o.items s
  have hcheck : (!s.orders.any (·.id == o.id)) = true := by
    simpa using fun x hx heq => hfree x hx heq
  refine ⟨items, ?_, hmap⟩
  simp only [createOrder, check, hcheck, bind, EStateM.bind, get, getThe, MonadStateOf.get,
    EStateM.get, ↓reduceIte, pure, EStateM.pure, hrun, modify, modifyGet, MonadStateOf.modifyGet,
    EStateM.modifyGet]

theorem createSaga_run (now : Instant) {g : Saga}
    (hfree : ∀ x ∈ s.sagas, x.sagaId ≠ g.sagaId ∧ x.orderId ≠ g.orderId) :
    createSaga g now s = .ok { g with createdAt := now, updatedAt := now }
      { s with
        seq := s.seq + 1
        sagas := s.sagas ++ [({ g with createdAt := now, updatedAt := now } : Saga).stored] } := by
  have hid : (!s.sagas.any (·.sagaId == g.sagaId)) = true := by
    simpa using fun x hx heq => (hfree x hx).1 heq
  have horder : (!s.sagas.any (·.orderId == g.orderId)) = true := by
    simpa using fun x hx heq => (hfree x hx).2 heq
  simp only [createSaga, check, hid, horder, bind, EStateM.bind, get, getThe, MonadStateOf.get,
    EStateM.get, ↓reduceIte, pure, EStateM.pure, nextId, modify, modifyGet,
    MonadStateOf.modifyGet, EStateM.modifyGet]

theorem drawnId_zero (space : String) (s : Store) : s.drawnId space 0 = eventId space s := by
  simp [drawnId, eventId]

theorem drawnId_shift {t : Store} {space : String} {k : Nat} (hsource : t.idSource = s.idSource)
    (hseq : t.seq = s.seq + k.toUInt64) (j : Nat) :
    t.drawnId space j = s.drawnId space (k + j) := by
  simp only [drawnId, hsource, hseq, UInt64.ofNat_add, Nat.toUInt64_eq, UInt64.add_assoc]

namespace NewEventIds

variable {space : String} {c : Nat}

theorem shift {t : Store} {skip : Nat} (h : s.NewEventIds space skip c)
    (hsource : t.idSource = s.idSource) (hseq : t.seq = s.seq + skip.toUInt64)
    (houtbox : t.outbox = s.outbox) : t.NewEventIds space 0 c := by
  simp only [NewEventIds, Nat.zero_add, drawnId_shift hsource hseq, houtbox]
  exact h

theorem head (h : s.NewEventIds space 0 (c + 1)) :
    ∀ e ∈ s.outbox, e.eventId ≠ eventId space s := by
  intro e he
  simpa [drawnId_zero] using h.2 e he 0 (Nat.succ_pos c)

theorem tail {entry : OutboxEntry} (h : s.NewEventIds space 0 (c + 1))
    (hentry : entry.eventId = eventId space s) :
    ({ s with seq := s.seq + 1, outbox := s.outbox ++ [entry] } : Store).NewEventIds space 0 c := by
  have hshift : ∀ j, ({ s with seq := s.seq + 1, outbox := s.outbox ++ [entry] } : Store).drawnId
      space j = s.drawnId space (1 + j) := drawnId_shift rfl rfl
  refine ⟨fun i j hij hj => ?_, fun e he j hj => ?_⟩
  · simp only [Nat.zero_add, hshift]
    simpa using h.1 (1 + i) (1 + j) (by omega) (by omega)
  · simp only [Nat.zero_add, hshift]
    rcases List.mem_append.mp he with he | he
    · simpa using h.2 e he (1 + j) (by omega)
    · rw [List.mem_singleton.mp he, hentry, ← drawnId_zero]
      simpa using h.1 0 (1 + j) (by omega) (by omega)

end NewEventIds

end Store

/-! ## The opening transaction -/

namespace Orchestrator

variable {s : Store} {now : Instant}

theorem appendEnvelope_run (now : Instant) {env : Envelope} {text : String}
    (henc : ({ env with eventId := Store.eventId space s }).encode? = .ok text)
    (hnew : ∀ e ∈ s.outbox, e.eventId ≠ Store.eventId space s) :
    ∃ entry, appendEnvelope env now s =
        .ok () { s with seq := s.seq + 1, outbox := s.outbox ++ [entry] } ∧
      entry.Carries env ∧ entry.eventId = Store.eventId space s := by
  let entry : OutboxEntry :=
    { eventId := Store.eventId space s, topic := env.topic, key := env.key, payload := text,
      createdAt := env.occurredAt }
  have hentry : Store.entryOf space env s = .ok entry s := by
    rw [Store.entryOf_run]
    simp only [Envelope.entry?, henc]
    rfl
  have hfree : (!s.outbox.any (·.eventId == entry.eventId)) = true := by
    simpa using fun x hx heq => hnew x hx heq
  refine ⟨{ entry with
      id := s.seq + 1, createdAt := if entry.createdAt.isZero then now else entry.createdAt },
    ?_, ?_, rfl⟩
  · simp only [appendEnvelope, bind, EStateM.bind, hentry, Store.withContext, Store.appendOutbox,
      Store.check, hfree, get, getThe, MonadStateOf.get, EStateM.get, ↓reduceIte, pure,
      EStateM.pure, Store.nextId, modify, modifyGet, MonadStateOf.modifyGet, EStateM.modifyGet]
  · exact ⟨rfl, rfl, henc⟩

theorem forIn_commands_run {g : Saga} (hclock : now.fault? = none) (hid : g.sagaId ≠ "")
    (horder : g.orderId ≠ 0) (huser : g.userId ≠ 0) :
    ∀ (xs : List SagaStep) (t : Store),
      (∀ st ∈ xs, st.reserve = .pending →
        (∃ k : Kind, st.kind = k.name) ∧ ∀ l ∈ st.lines, 0 < l.amount) →
      t.NewEventIds space 0 (xs.countP fun st => st.reserve == .pending && st.mode == .async) →
      ∃ entries, (forIn xs PUnit.unit (fun st (_ : PUnit) =>
          if (st.reserve == StepState.pending && st.mode == Mode.async) = true then do
            let e ← Store.ofExcept (Draft.command g EventType.reserveRequested now st)
            appendEnvelope e now
            pure (ForInStep.yield PUnit.unit)
          else pure (ForInStep.yield PUnit.unit)) : Store.Op PUnit) t =
          .ok PUnit.unit { t with
            seq := t.seq +
              (xs.countP fun st => st.reserve == .pending && st.mode == .async).toUInt64
            outbox := t.outbox ++ entries } ∧
        List.Forall₂ (Sends g now) entries
          (xs.filter fun st => st.reserve == .pending && st.mode == .async)
  | [], t, _, _ => ⟨[], by simp [pure, EStateM.pure], .nil⟩
  | st :: rest, t, hsteps, hnew => by
    have hrest : ∀ x ∈ rest, x.reserve = .pending →
        (∃ k : Kind, x.kind = k.name) ∧ ∀ l ∈ x.lines, 0 < l.amount :=
      fun x hx => hsteps x (List.mem_cons_of_mem st hx)
    by_cases hsend : (st.reserve == StepState.pending && st.mode == Mode.async) = true
    ·
      have hpending : st.reserve = .pending := by simp_all
      obtain ⟨⟨k, hk⟩, hlines⟩ := hsteps st List.mem_cons_self hpending
      have hcount : (List.countP (fun st => st.reserve == .pending && st.mode == .async)
          (st :: rest)) = rest.countP (fun st => st.reserve == .pending && st.mode == .async) + 1 :=
        List.countP_cons_of_pos hsend
      rw [hcount] at hnew ⊢
      obtain ⟨entry, happend, hcarries, hentry⟩ := appendEnvelope_run now
        (encode?_reserveCommand g k st (Store.eventId space t) hclock) hnew.head
      obtain ⟨entries, hloop, hsends⟩ := forIn_commands_run hclock hid horder huser rest _ hrest
        (hnew.tail hentry)
      refine ⟨entry :: entries, ?_, ?_⟩
      · have hbody : (do
            let e ← Store.ofExcept (Draft.command g EventType.reserveRequested now st)
            appendEnvelope e now
            pure (ForInStep.yield PUnit.unit) : Store.Op (ForInStep PUnit)) t =
              .ok (.yield PUnit.unit)
                { t with seq := t.seq + 1, outbox := t.outbox ++ [entry] } := by
          rw [command_reserveRequested hk hid horder huser hlines]
          exact (Store.bind_of_ok rfl).trans ((Store.bind_of_ok happend).trans rfl)
        rw [List.forIn_cons]
        simp only [if_pos hsend]
        rw [Store.bind_of_ok hbody]
        refine hloop.trans ?_
        simp only [UInt64.ofNat_add, Nat.toUInt64_eq, List.append_assoc, List.singleton_append]
        congr 2
        ac_rfl
      · rw [List.filter_cons, if_pos hsend]
        exact .cons ⟨k, hk.symm, hcarries.2.1, hcarries⟩ hsends
    ·
      have hcount : (List.countP (fun st => st.reserve == .pending && st.mode == .async)
          (st :: rest)) = rest.countP (fun st => st.reserve == .pending && st.mode == .async) :=
        List.countP_cons_of_neg hsend
      rw [hcount] at hnew ⊢
      obtain ⟨entries, hloop, hsends⟩ := forIn_commands_run hclock hid horder huser rest t hrest
        hnew
      refine ⟨entries, ?_, ?_⟩
      · have hskip : (pure (ForInStep.yield PUnit.unit) : Store.Op (ForInStep PUnit)) t =
            .ok (.yield PUnit.unit) t := rfl
        rw [List.forIn_cons]
        simp only [if_neg hsend]
        rw [Store.bind_of_ok hskip]
        exact hloop
      · rw [List.filter_cons, if_neg hsend]
        exact hsends

/-- What opening a saga does to the store: one order and the reserving saga are appended, the outbox
gains the reserve commands sent on the bus, and nothing else changes but the sequence. -/
structure Opened (r : OrderRequest) (mode : Kind → Mode) (now : Instant) (orderId : UInt64)
    (s s' : Store) (g : Saga) : Prop where
  order : ∃ o : Order, s'.orders = s.orders ++ [o] ∧ o.id = orderId ∧ o.userId = r.userId ∧
    o.status = .created ∧ o.items.map (fun i => (i.option, i.quantity)) = r.items
  saga : s'.sagas = s.sagas ++ [g]
  reserving : g.orderId = orderId ∧ g.userId = r.userId ∧ g.status = .reserving
  steps : g.stepList = r.layout mode now
  commands : ∃ entries, s'.outbox = s.outbox ++ entries ∧
    List.Forall₂ (Sends g now) entries
      (g.stepList.filter fun st => st.reserve == .pending && st.mode == .async)
  frame : s'.ledgers = s.ledgers ∧ s'.options = s.options ∧ s'.coupons = s.coupons ∧
    s'.points = s.points ∧ s'.idSource = s.idSource

theorem openSaga_opened {r : OrderRequest} {mode : Kind → Mode} {orderId : UInt64}
    {sagaId : String} (hv : ¬ r.Invalid) (horder : orderId ≠ 0) (hid : sagaId ≠ "")
    (hfree : ∀ o ∈ s.orders, o.id ≠ orderId)
    (hsaga : ∀ x ∈ s.sagas, x.sagaId ≠ sagaId ∧ x.orderId ≠ orderId)
    (hclock : now.fault? = none)
    (hnew : s.NewEventIds space (r.items.length + 1)
      ((r.layout mode now).countP fun st => st.reserve == .pending && st.mode == .async)) :
    ∃ s', openSaga (r.order orderId now) (r.placed sagaId orderId mode now) now s = .ok () s' ∧
      Opened r mode now orderId s s' (r.placed sagaId orderId mode now) := by
  have hsteps : (r.placed sagaId orderId mode now).stepList = r.layout mode now :=
    OrderRequest.steps_eq_layout hv
  have huser : r.userId ≠ 0 := fun h => hv (.inl h)
  obtain ⟨items, hcreate, hitems⟩ := Store.createOrder_run now (o := r.order orderId now) hfree
  have hlength : items.length = r.items.length := by
    simpa [OrderRequest.order] using congrArg List.length hitems
  set s₁ : Store := { s with
    seq := s.seq + (r.order orderId now).items.length.toUInt64,
    orders := s.orders ++ [{ r.order orderId now with createdAt := now, updatedAt := now, items }] }
    with hs₁
  set g := r.placed sagaId orderId mode now with hg
  set s₂ : Store := { s₁ with seq := s₁.seq + 1, sagas := s.sagas ++ [g] } with hs₂
  have hsagaRun : Store.createSaga g now s₁ = .ok g s₂ := Store.createSaga_run now hsaga
  obtain ⟨entries, hloop, hsends⟩ := forIn_commands_run (g := g)
    hclock hid horder huser (r.layout mode now) s₂ (OrderRequest.layout_pending hv)
    (hnew.shift rfl (by simp [s₂, s₁, OrderRequest.order, UInt64.ofNat_add, Nat.toUInt64_eq,
      UInt64.add_assoc]) rfl)
  set s₃ : Store := { s₂ with
    seq := s₂.seq + ((r.layout mode now).countP fun st =>
      st.reserve == .pending && st.mode == .async).toUInt64,
    outbox := s₂.outbox ++ entries } with hs₃
  refine ⟨s₃, ?_, ?_⟩
  · unfold openSaga
    refine Store.atomically_of_ok ?_
    rw [Store.bind_of_ok (Store.withContext_of_ok _ hcreate),
      Store.bind_of_ok (Store.withContext_of_ok _ hsagaRun)]
    rw [hsteps, Store.bind_of_ok hloop]
    rfl
  · refine ⟨⟨_, rfl, rfl, rfl, rfl, ?_⟩, rfl, ⟨rfl, rfl, rfl⟩, hsteps,
      ⟨entries, rfl, ?_⟩, ⟨rfl, rfl, rfl, rfl, rfl⟩⟩
    · simp only [hitems, OrderRequest.order, List.map_map]
      exact List.map_id'' (fun _ => rfl) r.items
    · rw [hsteps]
      exact hsends

end Orchestrator

theorem Draft.command_orderId_zero {g : Saga} {make : Kind → EventType} {now : Instant}
    {st : SagaStep} (horder : g.orderId = 0) : ∃ f, Draft.command g make now st = .error f := by
  have hidentity : ∃ m, Payload.checkIdentity g.sagaId g.orderId g.userId = .error m := by
    unfold Payload.checkIdentity
    split
    · exact ⟨_, rfl⟩
    · simp [horder]
  obtain ⟨m, hm⟩ := hidentity
  unfold Draft.command
  cases hk : EventType.forParticipant make st.kind with
  | error f => exact ⟨f, by simp [bind, Except.bind]⟩
  | ok t =>
    simp only [bind, Except.bind]
    unfold Envelope.create
    dsimp only
    split
    · simp [Payload.validate, hm, bind, Except.bind]
    · exact ⟨_, rfl⟩

namespace Orchestrator

theorem openSaga_orderId_zero {o : Order} {g : Saga} {now : Instant} {s : Store}
    (horder : g.orderId = 0)
    (hsend : ∃ st ∈ g.stepList, st.reserve = .pending ∧ st.mode = .async) :
    ∃ e, openSaga o g now s = .error e s := by
  cases h : openSaga o g now s with
  | error e t => exact ⟨e, by rw [← openSaga_error h]⟩
  | ok u s' =>
    obtain ⟨-, -, es, hes⟩ := openSaga_ok h
    obtain ⟨st, hst, hpending, hasync⟩ := hsend
    have hmem : st ∈ (({ g with createdAt := now, updatedAt := now } : Saga).stepList.filter
        fun st => st.reserve == .pending && st.mode == .async) :=
      List.mem_filter.mpr ⟨hst, by simp [hpending, hasync]⟩
    unfold reserveCommands at hes
    cases hfl : ({ g with createdAt := now, updatedAt := now } : Saga).stepList.filter
        (fun st => st.reserve == .pending && st.mode == .async) with
    | nil =>
      rw [hfl] at hmem
      cases hmem
    | cons first rest =>
      obtain ⟨f, hf⟩ : ∃ f, Draft.command { g with createdAt := now, updatedAt := now }
          .reserveRequested now first = .error f := Draft.command_orderId_zero horder
      rw [hfl, List.mapM_cons, hf] at hes
      cases hes

end Orchestrator

/-! ## What an opening fails with -/

namespace Store

variable {α : Type} {P : Failure → Prop}

theorem atomically_fails {m : Op α} (hm : Fails P m) : Fails P (atomically m) := by
  intro s e s' h
  unfold atomically at h
  split at h
  · cases h
  · cases h
    exact hm _ _ _ ‹_›

theorem ofExcept_fails {r : Except Failure α} (hr : ∀ e, r = .error e → P e) :
    Fails P (ofExcept r) := by
  unfold ofExcept
  split
  · exact .pure _
  · exact .throw (hr _ rfl)

theorem numberItems_fails (orderId : UInt64) (items : List OrderItem) :
    Fails P (numberItems orderId items) := by
  induction items with
  | nil => exact .pure _
  | cons i rest ih => exact .bind nextId_fails fun _ => .bind ih fun _ => .pure _

theorem createOrder_fails (hdup : P duplicate) (o : Order) (now : Instant) :
    Fails P (createOrder o now) :=
  .bind .get fun _ => .bind (check_fails hdup) fun _ => .bind (numberItems_fails _ _) fun _ =>
    .bind (.modify _) fun _ => .pure _

theorem createSaga_fails (hdup : P duplicate) (g : Saga) (now : Instant) :
    Fails P (createSaga g now) :=
  .bind .get fun _ => .bind (check_fails hdup) fun _ => .bind (check_fails hdup) fun _ =>
    .bind nextId_fails fun _ => .bind (.modify _) fun _ => .pure _

theorem entryOf_fails (hplain : ∀ r, P (.plain r)) (space : String) (env : Envelope) :
    Fails P (entryOf space env) := by
  unfold entryOf
  refine .bind .get fun s => ?_
  dsimp only
  split
  · exact .pure _
  · next f hf =>
    refine .throw ?_
    unfold Envelope.entry? at hf
    split at hf
    · cases hf
    · cases hf
      exact hplain _

end Store

theorem Envelope.create_error {t : EventType} {p : Option Payload} {now : Instant} {f : Failure}
    (h : Envelope.create t p now = .error f) :
    ∃ d, f = .of .invalidPayload d ∨ f = .of .payloadMismatch d := by
  unfold Envelope.create at h
  split at h
  · split at h
    · split at h
      · cases h
      · cases h
        exact ⟨_, .inl rfl⟩
    · cases h
      exact ⟨_, .inr rfl⟩
  · cases h
    exact ⟨_, .inr rfl⟩

theorem Draft.command_error {g : Saga} {make : Kind → EventType} {now : Instant} {st : SagaStep}
    {f : Failure} (h : Draft.command g make now st = .error f) : f.has .invalidOrder = false := by
  unfold Draft.command EventType.forParticipant at h
  cases hk : Kind.ofName? st.kind with
  | none =>
    simp only [hk, bind, Except.bind, Except.error.injEq] at h
    subst h
    rfl
  | some k =>
    simp only [hk, bind, Except.bind] at h
    obtain ⟨d, rfl | rfl⟩ := Envelope.create_error h <;> rfl

namespace Orchestrator

theorem appendEnvelope_fails {P : Failure → Prop} (hdup : P Store.duplicate)
    (hplain : ∀ r, P (.plain r)) (hwrap : ∀ e c, P e → P (e.wrap c)) (env : Envelope)
    (now : Instant) : Fails P (appendEnvelope env now) :=
  .bind (Store.entryOf_fails hplain _ _) fun _ =>
    .bind (Store.withContext_fails _ (hwrap · _) (Store.appendOutbox_fails hdup _))
      fun _ => .pure _

theorem openSaga_fails (o : Order) (g : Saga) (now : Instant) :
    Fails (fun e => e.has .invalidOrder = false) (openSaga o g now) := by
  have hdup : Store.duplicate.has .invalidOrder = false := rfl
  have hwrap : ∀ (e : Failure) c,
      e.has .invalidOrder = false → (e.wrap c).has .invalidOrder = false :=
    fun e c he => by simpa using he
  unfold openSaga
  refine Store.atomically_fails (.bind (Store.withContext_fails _ (hwrap · _)
    (Store.createOrder_fails hdup _ _)) fun _ => .bind (Store.withContext_fails _ (hwrap · _)
    (Store.createSaga_fails hdup _ _)) fun g => .bind (.forIn fun st _ => .ite ?_ (.pure _))
    fun _ => .pure _)
  exact .bind (Store.ofExcept_fails fun _ h => Draft.command_error h) fun e =>
    .bind (appendEnvelope_fails hdup (fun _ => rfl) hwrap e now) fun _ => .pure _

end Orchestrator

/-! ## Placing an order at the shop -/

theorem Orchestrator.update_orderIds {sagaId : String} {now : Instant}
    {m : Draft → Except Failure Draft} {s s' : Store} {g : Saga} {fx : Effects}
    (h : update sagaId now m s = .ok (g, fx) s') :
    s'.orders.map (·.id) = s.orders.map (·.id) := by
  obtain ⟨current, d, hcur, hd, -, ⟨-, -, rfl⟩ | ⟨hchanged, -, -⟩⟩ := update_ok h
  · rfl
  rcases update_orders_eq h hcur hd hchanged with
    ⟨-, hs'⟩ | ⟨-, s₁, s₂, hs₁, hsync, hs'⟩
  · rw [hs']
  rw [hs', ← hs₁]
  rcases syncOrder_ok hsync with ⟨-, rfl⟩ | ⟨st, -, -, horders⟩
  · rfl
  rw [horders, List.map_map]
  refine List.map_congr_left fun o _ => ?_
  by_cases ho : o.id = g.orderId <;> simp [ho]

namespace Shop

variable {r : OrderRequest} {sh : Shop}

theorem nextOrderId_ok {i : UInt64} {sh₁ : Shop} (h : nextOrderId sh = .ok i sh₁) :
    ∃ ids, sh₁ = { sh with ids } := by
  cases hids : sh.ids with
  | listed l =>
    cases l <;>
      simp [nextOrderId, hids, bind, EStateM.bind, get, getThe, MonadStateOf.get, EStateM.get,
        throw, throwThe, MonadExceptOf.throw, EStateM.throw, modify, modifyGet,
        MonadStateOf.modifyGet, EStateM.modifyGet, pure, EStateM.pure] at h
    exact ⟨_, h.2.symm⟩
  | counting n =>
    simp [nextOrderId, hids, bind, EStateM.bind, get, getThe, MonadStateOf.get, EStateM.get,
      modify, modifyGet, MonadStateOf.modifyGet, EStateM.modifyGet, pure, EStateM.pure] at h
    exact ⟨_, h.2.symm⟩

theorem openOrder_invalid (sh : Shop) (hv : r.Invalid) :
    ∃ e, openOrder r sh = .error e sh ∧ e.has .invalidOrder = true := by
  cases hval : r.validate with
  | ok u => exact absurd (OrderRequest.validate_eq_ok_iff.mp hval) (not_not.mpr hv)
  | error e =>
    refine ⟨e, ?_, OrderRequest.validate_error hval⟩
    simp [openOrder, hval, bind, EStateM.bind, throw, throwThe, MonadExceptOf.throw,
      EStateM.throw]

theorem openOrder_run (hv : ¬ r.Invalid) {orderId : UInt64} {sh₁ : Shop}
    (hid : nextOrderId sh = .ok orderId sh₁) :
    openOrder r sh =
      (onSite .orders (openSaga (r.order orderId sh₁.now)
          (r.placed (sagaIdOf sh₁.orders orderId) orderId sh₁.mode sh₁.now) sh₁.now) >>=
        fun _ => pure (r.placed (sagaIdOf sh₁.orders orderId) orderId sh₁.mode sh₁.now))
      sh₁ := by
  simp only [openOrder, OrderRequest.validate_eq_ok_iff.mpr hv, bind, EStateM.bind, pure,
    EStateM.pure, tryCatch, tryCatchThe, MonadExceptOf.tryCatch, EStateM.tryCatch, hid, get,
    getThe, MonadStateOf.get, EStateM.get, OrderRequest.saga_transitionTo]

theorem openOrder_of_opened (hv : ¬ r.Invalid) {orderId : UInt64} {sh₁ : Shop} {s' : Store}
    (hid : nextOrderId sh = .ok orderId sh₁)
    (hopen : openSaga (r.order orderId sh₁.now)
      (r.placed (sagaIdOf sh₁.orders orderId) orderId sh₁.mode sh₁.now) sh₁.now
        sh₁.orders = .ok () s') :
    openOrder r sh =
      .ok (r.placed (sagaIdOf sh₁.orders orderId) orderId sh₁.mode sh₁.now)
        { sh₁ with orders := s' } := by
  rw [openOrder_run hv hid]
  simp [onSite, store, setStore, hopen, bind, EStateM.bind, pure, EStateM.pure]

theorem nextOrderId_error {e : Failure} {sh₁ : Shop} (h : nextOrderId sh = .error e sh₁) :
    e.has .invalidOrder = false ∧ sh₁ = sh := by
  cases hids : sh.ids with
  | listed l =>
    cases l <;>
      simp [nextOrderId, hids, bind, EStateM.bind, get, getThe, MonadStateOf.get, EStateM.get,
        throw, throwThe, MonadExceptOf.throw, EStateM.throw, modify, modifyGet,
        MonadStateOf.modifyGet, EStateM.modifyGet, pure, EStateM.pure] at h
    obtain ⟨rfl, rfl⟩ := h
    exact ⟨rfl, rfl⟩
  | counting n =>
    simp [nextOrderId, hids, bind, EStateM.bind, get, getThe, MonadStateOf.get, EStateM.get,
      modify, modifyGet, MonadStateOf.modifyGet, EStateM.modifyGet, pure, EStateM.pure] at h

theorem openOrder_of_valid (sh : Shop) (hv : ¬ r.Invalid) :
    (∃ e sh', openOrder r sh = .error e sh' ∧ e.has .invalidOrder = false) ∨
      ∃ orderId sh₁ s', nextOrderId sh = .ok orderId sh₁ ∧
        openSaga (r.order orderId sh₁.now)
          (r.placed (sagaIdOf sh₁.orders orderId) orderId sh₁.mode sh₁.now) sh₁.now
            sh₁.orders = .ok () s' ∧
        openOrder r sh =
          .ok (r.placed (sagaIdOf sh₁.orders orderId) orderId sh₁.mode sh₁.now)
            { sh₁ with orders := s' } := by
  cases hid : nextOrderId sh with
  | error e sh₁ =>
    obtain ⟨he, rfl⟩ := nextOrderId_error hid
    refine .inl ⟨e.wrap "generate order id", sh₁, ?_, by simpa using he⟩
    simp only [openOrder, OrderRequest.validate_eq_ok_iff.mpr hv, bind, EStateM.bind, pure,
      tryCatch, tryCatchThe, MonadExceptOf.tryCatch, EStateM.tryCatch, hid,
      throw, throwThe, MonadExceptOf.throw, EStateM.throw]
    rfl
  | ok orderId sh₁ =>
    cases hopen : openSaga (r.order orderId sh₁.now)
        (r.placed (sagaIdOf sh₁.orders orderId) orderId sh₁.mode sh₁.now) sh₁.now
          sh₁.orders with
    | error e s' =>
      refine .inl ⟨e, { sh₁ with orders := s' }, ?_,
        Orchestrator.openSaga_fails _ _ _ _ _ _ hopen⟩
      rw [openOrder_run hv hid]
      simp [onSite, store, setStore, hopen, bind, EStateM.bind]
    | ok u s' => exact .inr ⟨orderId, sh₁, s', rfl, hopen, openOrder_of_opened hv hid hopen⟩

end Shop

namespace ShopM.KeepsOrders

variable {P : Store → Prop}

theorem reserveSync (hP : ∀ sagaId now (m : Draft → Except Failure Draft) s r s',
      P s → update sagaId now m s = .ok r s' → P s') (g : Saga) :
    KeepsOrders P (Shop.reserveSync g) := by
  unfold Shop.reserveSync Shop.callAll
  refine .bind (.mapM fun _ => .bind (.call _ _ _) fun _ => .pure _) fun _ => ?_
  refine .bind (.forIn fun x acc => ?_) fun _ => .pure _
  obtain ⟨kind, r⟩ := x
  refine .bind .clock fun now => .bind ?_ fun _ => .pure _
  unfold Shop.onReservationResult
  exact .bind (Shop.KeepsOrders.updateSaga fun now => hP _ now _) fun r =>
    Shop.confirmSync_keeps (fun _ now => hP _ now _) _ _

theorem settlePlacement (hP : ∀ sagaId now (m : Draft → Except Failure Draft) s r s',
      P s → update sagaId now m s = .ok r s' → P s') (req : OrderRequest) (g : Saga) :
    KeepsOrders P (Shop.settlePlacement req g) := by
  unfold Shop.settlePlacement
  exact .bind .get fun _ => .bind (reserveSync hP _) fun _ => .bind .get fun _ => .pure _

end ShopM.KeepsOrders

namespace Shop

variable {r : OrderRequest} {sh : Shop}

theorem mode_eq_sync_iff (sh : Shop) (k : Kind) :
    sh.mode k = .sync ↔ sh.wiring.configured k = .sync ∧ sh.wiring.clients k = true := by
  unfold mode
  split <;> simp_all

theorem placeOrder_invalidOrder (hv : ¬ r.Invalid) {e : Failure} {sh' : Shop}
    (h : placeOrder r sh = .error e sh') (he : e.has .invalidOrder = true) :
    sh'.orders ≠ sh.orders := by
  unfold placeOrder at h
  rcases openOrder_of_valid sh hv with
    ⟨e', sh₁, hopen, he'⟩ | ⟨orderId, sh₁, s', hid, hsaga, hopen⟩
  ·
    rw [ShopM.bind_of_error hopen] at h
    cases h
    rw [he'] at he
    cases he
  ·
    rw [ShopM.bind_of_ok hopen] at h
    obtain ⟨hfresh, o', hs', ho'⟩ := Orchestrator.openSaga_appends_order hsaga
    have hstored : orderId ∈ s'.orders.map (·.id) := by
      rw [hs', ho']
      simp [OrderRequest.order]
    have hkeeps := ShopM.KeepsOrders.settlePlacement
      (P := fun s => orderId ∈ s.orders.map (·.id))
      (fun _ _ _ _ _ _ hs hu => (Orchestrator.update_orderIds hu) ▸ hs) r _ _ sh' hstored
      (.inr ⟨e, h⟩)
    obtain ⟨ids, rfl⟩ := nextOrderId_ok hid
    intro horders
    simp only [horders, List.mem_map] at hkeeps
    obtain ⟨x, hx, hxid⟩ := hkeeps
    exact hfresh x hx hxid

theorem placeOrder_orderId_zero (hv : ¬ r.Invalid) {sh₁ : Shop}
    (hid : nextOrderId sh = .ok 0 sh₁) (hstock : sh.mode .stock = .async) :
    ∃ e, placeOrder r sh = .error e sh₁ := by
  obtain ⟨ids, rfl⟩ := nextOrderId_ok hid
  have hsteps : (r.placed (sagaIdOf sh.orders 0) 0 sh.mode sh.now).stepList =
      r.layout sh.mode sh.now := OrderRequest.steps_eq_layout hv
  have hsend : ∃ st ∈ (r.placed (sagaIdOf sh.orders 0) 0 sh.mode sh.now).stepList,
      st.reserve = .pending ∧ st.mode = .async := by
    rw [hsteps]
    exact ⟨_, List.mem_cons_self, rfl, hstock⟩
  obtain ⟨e, hopen⟩ : ∃ e, openSaga (r.order 0 sh.now)
      (r.placed (sagaIdOf sh.orders 0) 0 sh.mode sh.now) sh.now sh.orders = .error e sh.orders :=
    Orchestrator.openSaga_orderId_zero rfl hsend
  have hmode : ({ sh with ids } : Shop).mode = sh.mode := rfl
  have hrefused : openOrder r sh = .error e { sh with ids } := by
    rw [openOrder_run hv hid]
    simp [onSite, store, setStore, hmode, hopen, bind, EStateM.bind]
  exact ⟨e, ShopM.bind_of_error hrefused⟩

end Shop

/-- **What placing an order stores.** -/
theorem placement_layout (req : OrderRequest) (sh : Shop) :
    ((∃ e sh', Shop.placeOrder req sh = .error e sh' ∧ e.has .invalidOrder = true ∧
        sh'.orders = sh.orders) ↔ req.Invalid) ∧
    (req.Invalid → ∃ e, Shop.placeOrder req sh = .error e sh ∧ e.has .invalidOrder = true) ∧
    (∀ orderId sh₁, ¬ req.Invalid → Shop.nextOrderId sh = .ok orderId sh₁ → orderId ≠ 0 →
      (∀ o ∈ sh.orders.orders, o.id ≠ orderId) →
      (∀ x ∈ sh.orders.sagas, x.sagaId ≠ sagaIdOf sh.orders orderId ∧ x.orderId ≠ orderId) →
      sh.now.fault? = none →
      sh.orders.NewEventIds space (req.items.length + 1)
        ((req.layout sh.mode sh.now).countP fun st => st.reserve == .pending && st.mode == .async) →
      ∃ g s', Shop.openOrder req sh = .ok g { sh₁ with orders := s' } ∧
        Shop.placeOrder req sh = Shop.settlePlacement req g { sh₁ with orders := s' } ∧
        Opened req sh.mode sh.now orderId sh.orders s' g) ∧
    (∀ k, sh.mode k = .sync ↔ sh.wiring.configured k = .sync ∧ sh.wiring.clients k = true) := by
  have hrefused : req.Invalid →
      ∃ e, Shop.placeOrder req sh = .error e sh ∧ e.has .invalidOrder = true := by
    intro hv
    obtain ⟨e, hopen, he⟩ := Shop.openOrder_invalid sh hv
    exact ⟨e, ShopM.bind_of_error hopen, he⟩
  refine ⟨⟨?_, fun hv => ?_⟩, hrefused, ?_, Shop.mode_eq_sync_iff sh⟩
  · rintro ⟨e, sh', h, he, horders⟩
    by_contra hv
    exact Shop.placeOrder_invalidOrder hv h he horders
  · obtain ⟨e, h, he⟩ := hrefused hv
    exact ⟨e, sh, h, he, rfl⟩
  · intro orderId sh₁ hv hid horder hfree hsaga hclock hnew
    obtain ⟨ids, rfl⟩ := Shop.nextOrderId_ok hid
    obtain ⟨s', hrun, hopened⟩ := Orchestrator.openSaga_opened hv horder
      (IdSource.draw_ne_empty _ _ _) hfree hsaga hclock hnew
    have hopen := Shop.openOrder_of_opened hv hid hrun
    exact ⟨_, s', hopen, ShopM.bind_of_ok hopen, hopened⟩

/-- An order of one item, placed in a shop without orders whose participants are all on the bus,
opens with the stock step alone reserving and its command alone on the bus. -/
theorem single_item_order_opens :
    ∃ g s', Shop.openOrder { userId := 5, items := [(1, 1)] } { now := .zero } =
        .ok g { now := .zero, ids := .counting 1002, orders := s' } ∧
      Opened { userId := 5, items := [(1, 1)] } (fun _ => .async) .zero 1001 {} s' g := by
  obtain ⟨g, s', hopen, -, hopened⟩ :=
    (placement_layout { userId := 5, items := [(1, 1)] } { now := .zero }).2.2.1 1001
      { now := .zero, ids := .counting 1002 } (by simp [OrderRequest.Invalid]) rfl (by decide)
      (by simp) (by simp) (by decide)
      ⟨fun i j hij hj => by simp [OrderRequest.layout, Shop.mode] at hj; omega,
        fun e he => by simp at he⟩
  exact ⟨g, s', hopen, hopened⟩

/-- A valid request given the order id zero is not opened: no order and no saga are stored, and only
the id generator moved on. -/
theorem order_id_zero_not_opened :
    ∃ e, Shop.placeOrder { userId := 5, items := [(1, 1)] } { now := .zero, ids := .listed [0] } =
      .error e { now := .zero, ids := .listed [] } :=
  Shop.placeOrder_orderId_zero (by simp [OrderRequest.Invalid]) rfl rfl

end OrderSaga
