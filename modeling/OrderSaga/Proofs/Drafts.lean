import OrderSaga.Saga.Draft

namespace OrderSaga

theorem Except.bind_eq_ok {ε α β : Type} {x : Except ε α} {f : α → Except ε β} {b : β} :
    x >>= f = .ok b ↔ ∃ a, x = .ok a ∧ f a = .ok b := by
  cases x <;> simp [bind, Except.bind]

namespace SagaStep

def released (st : SagaStep) : SagaStep :=
  if st.needsCompensation then { st with compensation := .pending } else st

def confirming (st : SagaStep) : SagaStep :=
  if st.reserve = .succeeded then { st with confirm := .pending } else st

@[simp] theorem released_kind (st : SagaStep) : st.released.kind = st.kind := by
  unfold released; split <;> rfl

@[simp] theorem released_reserve (st : SagaStep) : st.released.reserve = st.reserve := by
  unfold released; split <;> rfl

@[simp] theorem released_confirm (st : SagaStep) : st.released.confirm = st.confirm := by
  unfold released; split <;> rfl

@[simp] theorem confirming_kind (st : SagaStep) : st.confirming.kind = st.kind := by
  unfold confirming; split <;> rfl

@[simp] theorem confirming_reserve (st : SagaStep) : st.confirming.reserve = st.reserve := by
  unfold confirming; split <;> rfl

@[simp] theorem confirming_compensation (st : SagaStep) :
    st.confirming.compensation = st.compensation := by
  unfold confirming; split <;> rfl

theorem needsCompensation_iff (st : SagaStep) :
    st.needsCompensation = true ↔
      st.reserve = .succeeded ∧ st.confirm ≠ .succeeded ∧ st.compensation = .none := by
  simp [needsCompensation, and_assoc]

theorem released_compensation (st : SagaStep) :
    st.released.compensation =
      if st.needsCompensation then .pending else st.compensation := by
  unfold released; split <;> rfl

theorem confirming_confirm (st : SagaStep) :
    st.confirming.confirm = if st.reserve = .succeeded then .pending else st.confirm := by
  unfold confirming; split <;> rfl

end SagaStep

namespace Draft

variable {d d' : Draft} {k : String} {st st' : SagaStep} {now : Instant}

@[simp] theorem touch_saga : d.touch.saga = d.saga := rfl
@[simp] theorem touch_steps : d.touch.steps = d.steps := rfl
@[simp] theorem touch_changed : d.touch.effects.changed = true := rfl
@[simp] theorem touch_envelopes : d.touch.effects.envelopes = d.effects.envelopes := rfl
@[simp] theorem touch_confirms : d.touch.effects.confirms = d.effects.confirms := rfl

@[simp] theorem emit_saga (es : List Envelope) : (d.emit es).saga = d.saga := rfl
@[simp] theorem emit_steps (es : List Envelope) : (d.emit es).steps = d.steps := rfl
@[simp] theorem emit_changed (es : List Envelope) :
    (d.emit es).effects.changed = d.effects.changed := rfl
@[simp] theorem emit_envelopes (es : List Envelope) :
    (d.emit es).effects.envelopes = d.effects.envelopes ++ es := rfl
@[simp] theorem emit_confirms (es : List Envelope) :
    (d.emit es).effects.confirms = d.effects.confirms := rfl

@[simp] theorem setError_steps (m : String) : (d.setError m).steps = d.steps := rfl
@[simp] theorem setError_effects (m : String) : (d.setError m).effects = d.effects := rfl
@[simp] theorem setError_status (m : String) : (d.setError m).saga.status = d.saga.status := rfl
@[simp] theorem setError_sagaId (m : String) : (d.setError m).saga.sagaId = d.saga.sagaId := rfl

@[simp] theorem setStep_saga : (d.setStep k st).saga = d.saga := rfl
@[simp] theorem setStep_effects : (d.setStep k st).effects = d.effects := rfl

@[simp] theorem ofSaga_saga (g : Saga) : (ofSaga g).saga = g := rfl
@[simp] theorem ofSaga_steps (g : Saga) : (ofSaga g).steps = g.stepList := rfl
@[simp] theorem ofSaga_changed (g : Saga) : (ofSaga g).effects.changed = false := rfl
@[simp] theorem ofSaga_envelopes (g : Saga) : (ofSaga g).effects.envelopes = [] := rfl
@[simp] theorem ofSaga_confirms (g : Saga) : (ofSaga g).effects.confirms = [] := rfl

/-! ### One step replaced -/

theorem setStep_go_append (pre post : List SagaStep) (hpre : ∀ x ∈ pre, x.kind ≠ k)
    (hst : st.kind = k) : setStep.go k st' (pre ++ st :: post) = pre ++ st' :: post := by
  induction pre with
  | nil => simp [setStep.go, hst]
  | cons x rest ih =>
    have hx : x.kind ≠ k := hpre x List.mem_cons_self
    simp only [List.cons_append, setStep.go, beq_iff_eq, hx, if_false]
    rw [ih fun y hy => hpre y (List.mem_cons_of_mem x hy)]

theorem step?_split (h : d.step? k = some st) :
    ∃ pre post, d.steps = pre ++ st :: post ∧ (∀ x ∈ pre, x.kind ≠ k) ∧
      st.kind = k := by
  obtain ⟨hk, pre, post, hsplit, hpre⟩ := List.find?_eq_some_iff_append.mp h
  refine ⟨pre, post, hsplit, fun x hx => ?_, by simpa using hk⟩
  simpa using hpre x hx

theorem setStep_steps (st' : SagaStep) (h : d.step? k = some st) :
    ∃ pre post, d.steps = pre ++ st :: post ∧ (∀ x ∈ pre, x.kind ≠ k) ∧
      (d.setStep k st').steps = pre ++ st' :: post := by
  obtain ⟨pre, post, hsplit, hpre, hk⟩ := step?_split h
  refine ⟨pre, post, hsplit, hpre, ?_⟩
  simp only [setStep, hsplit]
  exact setStep_go_append pre post hpre hk

theorem step?_mem (h : d.step? k = some st) : st ∈ d.steps := List.mem_of_find?_eq_some h

theorem step?_kind (h : d.step? k = some st) : st.kind = k := by
  simpa using List.find?_some h

theorem mem_setStep (h : d.step? k = some st) {x : SagaStep} (hx : x ∈ (d.setStep k st').steps) :
    x = st' ∨ x ∈ d.steps := by
  obtain ⟨pre, post, hsplit, -, hset⟩ := setStep_steps st' h
  rw [hset] at hx
  rw [hsplit]
  simp only [List.mem_append, List.mem_cons] at hx ⊢
  rcases hx with hx | rfl | hx
  · exact .inr (.inl hx)
  · exact .inl rfl
  · exact .inr (.inr (.inr hx))

theorem setStep_mem (h : d.step? k = some st) : st' ∈ (d.setStep k st').steps := by
  obtain ⟨pre, post, -, -, hset⟩ := setStep_steps st' h
  simp [hset]

theorem setStep_step? (h : d.step? k = some st) (hk : st'.kind = k) :
    (d.setStep k st').step? k = some st' := by
  obtain ⟨pre, post, -, hpre, hset⟩ := setStep_steps st' h
  have hnone : pre.find? (·.kind == k) = none := List.find?_eq_none.mpr (by simpa using hpre)
  simp [step?, hset, List.find?_append, hnone, hk]

theorem setStep_setStep {st'' : SagaStep} (h : d.step? k = some st) (hk : st'.kind = k) :
    ((d.setStep k st').setStep k st'').steps = (d.setStep k st'').steps := by
  obtain ⟨pre, post, hsplit, hpre, hset⟩ := setStep_steps st' h
  have hd : (d.setStep k st'').steps = pre ++ st'' :: post := by
    simp only [setStep, hsplit]
    exact setStep_go_append pre post hpre (step?_kind h)
  rw [hd]
  change setStep.go k st'' (d.setStep k st').steps = _
  rw [hset]
  exact setStep_go_append pre post hpre hk

theorem all_eq_true {p : SagaStep → Bool} :
    d.all p = true ↔ ∀ st ∈ d.steps, st.reserve = .skipped ∨ p st = true := by
  simp [all]

/-! ### Requests to participants -/

theorem Envelope.create_ok {t : EventType} {p : Payload} {e : Envelope}
    (h : Envelope.create t (some p) now = .ok e) : e = ⟨"", t, now, p⟩ := by
  simp only [Envelope.create] at h
  split at h
  · split at h
    · exact (Except.ok.inj h).symm
    · cases h
  · cases h

theorem Kind.name_of_ofName? {s : String} {kd : Kind} (h : Kind.ofName? s = some kd) :
    kd.name = s := by
  unfold Kind.ofName? at h
  split at h
  next hs => cases h; exact hs.symm
  split at h
  next hs => cases h; exact hs.symm
  split at h
  next hs => cases h; exact hs.symm
  cases h

theorem EventType.forParticipant_ok {make : Kind → EventType} {t : EventType}
    (h : EventType.forParticipant make k = .ok t) : ∃ kd : Kind, kd.name = k ∧ t = make kd := by
  unfold EventType.forParticipant at h
  split at h
  next kd hkd => exact ⟨kd, Kind.name_of_ofName? hkd, (Except.ok.inj h).symm⟩
  cases h

/-- The command of type `t` that asks a step's participant to act for the saga. -/
def commandOf (g : Saga) (t : EventType) (now : Instant) (st : SagaStep) : Envelope :=
  ⟨"", t, now, .command {
    sagaId := g.sagaId, orderId := g.orderId, userId := g.userId, kind := st.kind,
    lines := st.lines, timestamp := now }⟩

/-- The request to release a step's hold, sent to participant `kd`. -/
def releaseOf (g : Saga) (kd : Kind) (now : Instant) (st : SagaStep) : Envelope :=
  ⟨"", .compensationRequested kd, now, .compensationRequest {
    sagaId := g.sagaId, orderId := g.orderId, userId := g.userId, kind := st.kind,
    lines := some st.lines, timestamp := now }⟩

theorem command_ok {g : Saga} {make : Kind → EventType} {e : Envelope}
    (h : command g make now st = .ok e) :
    ∃ kd : Kind, kd.name = st.kind ∧ e = commandOf g (make kd) now st := by
  obtain ⟨t, ht, he⟩ := Except.bind_eq_ok.mp h
  obtain ⟨kd, hk, rfl⟩ := EventType.forParticipant_ok ht
  exact ⟨kd, hk, Envelope.create_ok he⟩

theorem release_ok {g : Saga} {es : List Envelope} (h : release g now st = .ok (st', es)) :
    st' = st.released ∧ (st.needsCompensation = false → es = []) ∧
      (st.needsCompensation = true →
        ∃ kd : Kind, kd.name = st.kind ∧ es = [releaseOf g kd now st]) := by
  unfold release at h
  cases hn : st.needsCompensation with
  | false =>
    simp only [hn, Bool.not_false, if_true, Except.ok.injEq, Prod.mk.injEq] at h
    obtain ⟨rfl, rfl⟩ := h
    simp [SagaStep.released, hn]
  | true =>
    simp only [hn, Bool.not_true, Bool.false_eq_true, if_false] at h
    obtain ⟨t, ht, h⟩ := Except.bind_eq_ok.mp h
    obtain ⟨kd, hk, rfl⟩ := EventType.forParticipant_ok ht
    obtain ⟨e, he, h⟩ := Except.bind_eq_ok.mp h
    rw [Envelope.create_ok he] at h
    simp only [pure, Except.pure, Except.ok.injEq, Prod.mk.injEq] at h
    obtain ⟨rfl, rfl⟩ := h
    exact ⟨by simp [SagaStep.released, hn], by simp, fun _ => ⟨kd, hk, rfl⟩⟩

theorem Kind.name_inj {kd kd' : Kind} : kd.name = kd'.name ↔ kd = kd' := by
  cases kd <;> cases kd' <;> simp [Kind.name]

/-! ### Releasing every hold -/

theorem compensateAll_go_ok {steps steps' : List SagaStep} {es : List Envelope}
    (h : compensateAll.go d now steps = .ok (steps', es)) :
    steps' = steps.map SagaStep.released ∧
    (∀ e ∈ es, ∃ st ∈ steps, st.needsCompensation = true ∧
      ∃ kd : Kind, kd.name = st.kind ∧ e = releaseOf d.saga kd now st) ∧
    ∀ kd : Kind, es.countP (·.type == .compensationRequested kd) =
      steps.countP (fun st => st.needsCompensation && st.kind == kd.name) := by
  induction steps generalizing steps' es with
  | nil =>
    simp only [compensateAll.go, Except.ok.injEq, Prod.mk.injEq] at h
    obtain ⟨rfl, rfl⟩ := h
    simp
  | cons st rest ih =>
    obtain ⟨⟨st₁, es₁⟩, hst, h⟩ := Except.bind_eq_ok.mp h
    obtain ⟨⟨rest₁, es₂⟩, hrest, h⟩ := Except.bind_eq_ok.mp h
    simp only [pure, Except.pure, Except.ok.injEq, Prod.mk.injEq] at h
    obtain ⟨rfl, rfl⟩ := h
    obtain ⟨hs₁, hkeep, hemit⟩ := release_ok hst
    obtain ⟨rfl, hmem, hcount⟩ := ih hrest
    refine ⟨by simp [hs₁], ?_, fun kd => ?_⟩
    · intro e he
      rcases List.mem_append.mp he with he | he
      · cases hn : st.needsCompensation with
        | false => simp [hkeep hn] at he
        | true =>
          obtain ⟨kd, hk, hes⟩ := hemit hn
          simp only [hes, List.mem_singleton] at he
          exact ⟨st, List.mem_cons_self, hn, kd, hk, he⟩
      · obtain ⟨x, hx, hxn, kd, hk, rfl⟩ := hmem e he
        exact ⟨x, List.mem_cons_of_mem st hx, hxn, kd, hk, rfl⟩
    · rw [List.countP_append, List.countP_cons, hcount kd]
      cases hn : st.needsCompensation with
      | false => simp [hkeep hn]
      | true =>
        obtain ⟨kd₀, hk, hes⟩ := hemit hn
        simp only [hes, List.countP_singleton, releaseOf, Bool.true_and, ← hk, beq_iff_eq,
          EventType.compensationRequested.injEq, Kind.name_inj]
        omega

theorem compensateAll_ok (h : d.compensateAll now = .ok d') :
    d'.saga = d.saga ∧ d'.steps = d.steps.map SagaStep.released ∧
    d'.effects.changed = d.effects.changed ∧ d'.effects.confirms = d.effects.confirms ∧
    ∃ es, d'.effects.envelopes = d.effects.envelopes ++ es ∧
      (∀ e ∈ es, ∃ st ∈ d.steps, st.needsCompensation = true ∧
        ∃ kd : Kind, kd.name = st.kind ∧ e = releaseOf d.saga kd now st) ∧
      ∀ kd : Kind, es.countP (·.type == .compensationRequested kd) =
        d.steps.countP (fun st => st.needsCompensation && st.kind == kd.name) := by
  obtain ⟨⟨steps, es⟩, hgo, h⟩ := Except.bind_eq_ok.mp h
  simp only [pure, Except.pure, Except.ok.injEq] at h
  subst h
  obtain ⟨rfl, hmem, hcount⟩ := compensateAll_go_ok hgo
  exact ⟨rfl, rfl, rfl, rfl, es, rfl, hmem, hcount⟩

/-! ### Moves along the state machine -/

theorem transition_ok {next : SagaStatus} (h : d.transition next = .ok d') :
    d.saga.status.canTransition next = true ∧
      d' = { d.touch with saga := { d.saga with status := next } } := by
  unfold transition Saga.transitionTo at h
  split at h
  next hc =>
    simp only [bind, Except.bind, pure, Except.pure, Except.ok.injEq] at h
    exact ⟨hc, h.symm⟩
  next => cases h

theorem account_eq_nil_iff (steps : List SagaStep) :
    account steps = ([], []) ↔
      ∀ st ∈ steps, st.compensation ≠ .failed ∧ st.confirm ≠ .succeeded := by
  simp only [account, Prod.mk.injEq, List.map_eq_nil_iff, List.filter_eq_nil_iff, beq_iff_eq]
  constructor
  · rintro ⟨hf, hc⟩ st hst
    exact ⟨hf st hst, hc st hst⟩
  · intro h
    exact ⟨fun st hst => (h st hst).1, fun st hst => (h st hst).2⟩

theorem settle_ok (h : d.settle = .ok d') :
    (d' = d ∧ (d.saga.status ≠ .compensating ∨ ∃ st ∈ d.steps, st.waiting = true)) ∨
    (d.saga.status = .compensating ∧ (∀ st ∈ d.steps, st.waiting = false) ∧
      d'.steps = d.steps ∧ d'.effects = { d.effects with changed := true } ∧
      d'.saga.sagaId = d.saga.sagaId ∧
      (account d.steps = ([], []) → d'.saga.status = .compensationCompleted) ∧
      (account d.steps ≠ ([], []) → d'.saga.status = .failed)) := by
  unfold settle at h
  split at h
  next hw =>
    refine .inl ⟨(Except.ok.inj h).symm, ?_⟩
    simp only [Bool.or_eq_true, bne_iff_ne, ne_eq, List.any_eq_true] at hw
    exact hw
  next hw =>
    simp only [Bool.or_eq_true, bne_iff_ne, ne_eq, List.any_eq_true, not_or, Classical.not_not,
      not_exists, not_and, Bool.not_eq_true] at hw
    obtain ⟨hc, hw⟩ := hw
    refine .inr ⟨hc, hw, ?_⟩
    split at h
    next ha =>
      obtain ⟨-, rfl⟩ := transition_ok h
      exact ⟨rfl, rfl, rfl, fun _ => rfl, fun hne => absurd ha hne⟩
    next _ _ _ hne ha =>
      obtain ⟨-, rfl⟩ := transition_ok h
      refine ⟨rfl, rfl, rfl, fun hnil => ?_, fun _ => rfl⟩
      rw [hnil, Prod.mk.injEq] at ha
      exact (hne ha.1.symm ha.2.symm).elim

/-! ### Starting to confirm -/

/-- What confirming does to one step: the step as it leaves, the envelopes it sends and the direct
calls it makes. -/
def ConfirmsStep (g : Saga) (now : Instant) (st : SagaStep)
    (r : SagaStep × List Envelope × List SagaStep) : Prop :=
  r.1 = st.confirming ∧ (st.reserve ≠ .succeeded → r.2 = ([], [])) ∧
  (st.reserve = .succeeded → st.mode = .sync → r.2 = ([], [st.confirming])) ∧
  (st.reserve = .succeeded → st.mode ≠ .sync →
    ∃ kd : Kind, kd.name = st.kind ∧
      r.2 = ([commandOf g (.confirmRequested kd) now st.confirming], []))

theorem startConfirm_go_ok (g : Saga) (now : Instant)
    {one : SagaStep → Except Failure (SagaStep × List Envelope × List SagaStep)}
    (hone : ∀ st r, one st = .ok r → ConfirmsStep g now st r)
    {steps steps' : List SagaStep} {es : List Envelope} {sync : List SagaStep}
    (h : startConfirm.go one steps = .ok (steps', es, sync)) :
    steps' = steps.map SagaStep.confirming ∧
    sync = (steps.filter fun st => st.reserve == .succeeded && st.mode == .sync).map
      SagaStep.confirming ∧
    (∀ e ∈ es, ∃ st ∈ steps, st.reserve = .succeeded ∧ st.mode ≠ .sync ∧
      ∃ kd : Kind, kd.name = st.kind ∧
        e = commandOf g (.confirmRequested kd) now st.confirming) ∧
    ∀ kd : Kind,
      es.countP (·.type == .confirmRequested kd) + sync.countP (·.kind == kd.name) =
      steps.countP (fun st => st.reserve == .succeeded && st.kind == kd.name) := by
  induction steps generalizing steps' es sync with
  | nil =>
    simp only [startConfirm.go, Except.ok.injEq, Prod.mk.injEq] at h
    obtain ⟨rfl, rfl, rfl⟩ := h
    simp
  | cons st rest ih =>
    obtain ⟨⟨st₁, es₁, sync₁⟩, hst, h⟩ := Except.bind_eq_ok.mp h
    obtain ⟨⟨rest₁, es₂, sync₂⟩, hrest, h⟩ := Except.bind_eq_ok.mp h
    simp only [pure, Except.pure, Except.ok.injEq, Prod.mk.injEq] at h
    obtain ⟨rfl, rfl, rfl⟩ := h
    obtain ⟨rfl, hskip, hsync, hasync⟩ := hone st _ hst
    obtain ⟨rfl, rfl, hmem, hcount⟩ := ih hrest
    by_cases hr : st.reserve = .succeeded
    · by_cases hm : st.mode = .sync
      · simp only [Prod.mk.injEq] at hsync
        obtain ⟨rfl, rfl⟩ := hsync hr hm
        refine ⟨rfl, by simp [hr, hm], ?_, fun kd => ?_⟩
        · intro e he
          obtain ⟨x, hx, hxr, hxm, kd, hk, rfl⟩ := hmem e (by simpa using he)
          exact ⟨x, List.mem_cons_of_mem st hx, hxr, hxm, kd, hk, rfl⟩
        · have := hcount kd
          simp only [List.nil_append, List.singleton_append, List.countP_cons,
            SagaStep.confirming_kind, hr, beq_self_eq_true, Bool.true_and]
          omega
      · obtain ⟨kd₀, hk, hes⟩ := hasync hr hm
        simp only [Prod.mk.injEq] at hes
        obtain ⟨rfl, rfl⟩ := hes
        refine ⟨rfl, by simp [hr, hm], ?_, fun kd => ?_⟩
        · intro e he
          rcases List.mem_append.mp he with he | he
          · rw [List.mem_singleton] at he
            exact ⟨st, List.mem_cons_self, hr, hm, kd₀, hk, he⟩
          · obtain ⟨x, hx, hxr, hxm, kd, hk, rfl⟩ := hmem e he
            exact ⟨x, List.mem_cons_of_mem st hx, hxr, hxm, kd, hk, rfl⟩
        · have := hcount kd
          have hc : ((commandOf g (.confirmRequested kd₀) now st.confirming).type ==
              .confirmRequested kd) = (st.reserve == .succeeded && st.kind == kd.name) := by
            simp only [commandOf, hr, ← hk, beq_self_eq_true, Bool.true_and]
            cases kd₀ <;> cases kd <;> rfl
          simp only [List.nil_append, List.countP_append, List.countP_cons, List.countP_nil, hc]
          omega
    · obtain ⟨rfl, rfl⟩ := Prod.mk.inj (hskip hr)
      refine ⟨rfl, by simp [hr], ?_, fun kd => ?_⟩
      · intro e he
        obtain ⟨x, hx, hxr, hxm, kd, hk, rfl⟩ := hmem e (by simpa using he)
        exact ⟨x, List.mem_cons_of_mem st hx, hxr, hxm, kd, hk, rfl⟩
      · have := hcount kd
        have hr' : (st.reserve == .succeeded) = false := by simpa using hr
        simp only [List.nil_append, List.countP_cons, hr', Bool.false_and, Bool.false_eq_true,
          ↓reduceIte]
        omega

theorem startConfirm_ok (h : d.startConfirm now = .ok d') :
    d.saga.status.canTransition .confirming = true ∧
    d'.saga = { d.saga with status := .confirming } ∧
    d'.steps = d.steps.map SagaStep.confirming ∧ d'.effects.changed = true ∧
    ∃ es sync, d'.effects.envelopes = d.effects.envelopes ++ es ∧
      d'.effects.confirms = d.effects.confirms ++ sync ∧
      sync = (d.steps.filter fun st => st.reserve == .succeeded && st.mode == .sync).map
        SagaStep.confirming ∧
      (∀ e ∈ es, ∃ st ∈ d.steps, st.reserve = .succeeded ∧ st.mode ≠ .sync ∧
        ∃ kd : Kind, kd.name = st.kind ∧
        e = commandOf { d.saga with status := .confirming } (.confirmRequested kd) now
          st.confirming) ∧
      ∀ kd : Kind,
        es.countP (·.type == .confirmRequested kd) + sync.countP (·.kind == kd.name) =
        d.steps.countP (fun st => st.reserve == .succeeded && st.kind == kd.name) := by
  obtain ⟨d₁, ht, h⟩ := Except.bind_eq_ok.mp h
  obtain ⟨hc, rfl⟩ := transition_ok ht
  obtain ⟨⟨steps, es, sync⟩, hgo, h⟩ := Except.bind_eq_ok.mp h
  simp only [pure, Except.pure, Except.ok.injEq] at h
  subst h
  have hgo' := startConfirm_go_ok { d.saga with status := .confirming } now (fun st r hr => by
      by_cases hres : st.reserve = .succeeded
      · by_cases hm : st.mode = .sync
        · simp only [hres, bne_self_eq_false, Bool.false_eq_true, if_false, hm, beq_self_eq_true,
            if_true, Except.ok.injEq] at hr
          subst hr
          refine ⟨?_, fun h => absurd hres h, fun _ _ => ?_, fun _ h => absurd hm h⟩ <;>
            simp [SagaStep.confirming, hres, hm]
        · have hm' : (st.mode == .sync) = false := by simpa using hm
          simp only [hres, bne_self_eq_false, Bool.false_eq_true, hm', ↓reduceIte] at hr
          obtain ⟨e, he, hr⟩ := Except.bind_eq_ok.mp hr
          obtain ⟨kd, hk, rfl⟩ := command_ok he
          simp only [pure, Except.pure, Except.ok.injEq] at hr
          subst hr
          refine ⟨?_, fun h => absurd hres h, fun _ h => absurd h hm,
            fun _ _ => ⟨kd, hk, ?_⟩⟩ <;>
            simp [SagaStep.confirming, hres, commandOf]
      · have hres' : (st.reserve != .succeeded) = true := by simpa using hres
        simp only [hres', if_true, Except.ok.injEq] at hr
        subst hr
        exact ⟨by simp [SagaStep.confirming, hres], fun _ => rfl, fun h => absurd h hres,
          fun h => absurd h hres⟩) hgo
  obtain ⟨rfl, hsync, hmem, hcount⟩ := hgo'
  exact ⟨hc, rfl, rfl, rfl, es, _, rfl, rfl, hsync, hmem, hcount⟩

/-! ### Releasing one hold -/

theorem compensate_ok (hst : d.step? k = some st) (h : d.compensate k now = .ok d') :
    ∃ es, d' = (d.setStep k st.released).emit es ∧
      (st.needsCompensation = false → es = []) ∧
      (st.needsCompensation = true → ∃ kd : Kind, kd.name = st.kind ∧
        es = [releaseOf d.saga kd now st]) := by
  simp only [compensate, hst] at h
  obtain ⟨⟨st₁, es⟩, hrel, h⟩ := Except.bind_eq_ok.mp h
  simp only [pure, Except.pure, Except.ok.injEq] at h
  subst h
  obtain ⟨rfl, hkeep, hemit⟩ := release_ok hrel
  exact ⟨es, rfl, hkeep, hemit⟩

end Draft

end OrderSaga
