import OrderSaga.Proofs.Outcome
import OrderSaga.Proofs.Envelopes

namespace OrderSaga

/-- The orchestrator sent `e` for the saga `g` at `now`: it is stamped `now`, its payload has its
type's shape and is a request, not a step result, and a confirm command among such envelopes names
the saga, its order and its user. -/
structure Envelope.SentFor (g : Saga) (now : Instant) (e : Envelope) : Prop where
  occurredAt : e.occurredAt = now
  timestamp : e.payload.timestamp = now
  shape : e.payload.shape = e.type.shape
  request : ∀ r, e.payload ≠ .stepResult r
  names : ∀ kd c, e.type = .confirmRequested kd → e.payload = .command c →
    c.sagaId = g.sagaId ∧ c.orderId = g.orderId ∧ c.userId = g.userId

namespace Envelope.SentFor

variable {g g' : Saga} {now : Instant} {e : Envelope}

theorem congr (h : e.SentFor g now) (hid : g'.sagaId = g.sagaId) (ho : g'.orderId = g.orderId)
    (hu : g'.userId = g.userId) : e.SentFor g' now := by
  refine ⟨h.occurredAt, h.timestamp, h.shape, h.request, fun kd c ht hp => ?_⟩
  rw [hid, ho, hu]
  exact h.names kd c ht hp

theorem releaseOf {kd : Kind} {st : SagaStep} : (Draft.releaseOf g kd now st).SentFor g now :=
  ⟨rfl, rfl, rfl, fun _ hp => (by cases hp), fun _ _ ht => (by cases ht)⟩

theorem commandOf {t : EventType} (ht : t.shape = .command) {st : SagaStep} :
    (Draft.commandOf g t now st).SentFor g now :=
  ⟨rfl, rfl, ht.symm, fun _ hp => (by cases hp),
    fun _ c _ hp => by cases hp; exact ⟨rfl, rfl, rfl⟩⟩

end Envelope.SentFor

namespace Draft

/-- From `d` to `d'` the saga stays the same saga of the same order and user; a step of `d'` that
holds a confirmation held one in `d`, or is of a participant `P` admits; and the envelopes emitted
on the way were sent for the saga at `now`. -/
structure Advances (P : String → Prop) (now : Instant) (d d' : Draft) : Prop where
  sagaId : d'.saga.sagaId = d.saga.sagaId
  orderId : d'.saga.orderId = d.saga.orderId
  userId : d'.saga.userId = d.saga.userId
  confirmed : ∀ x ∈ d'.steps, x.confirm = .succeeded →
    (∃ y ∈ d.steps, y.kind = x.kind ∧ y.confirm = .succeeded) ∨ P x.kind
  emitted : ∃ es, d'.effects.envelopes = d.effects.envelopes ++ es ∧
    ∀ e ∈ es, e.SentFor d.saga now

namespace Advances

variable {P : String → Prop} {now : Instant} {d d₁ d' : Draft} {k : String} {st st' : SagaStep}

theorem refl (d : Draft) : Advances P now d d :=
  ⟨rfl, rfl, rfl, fun x hx hc => .inl ⟨x, hx, rfl, hc⟩, [], by simp, by simp⟩

theorem trans (h₁ : Advances P now d d₁) (h₂ : Advances P now d₁ d') : Advances P now d d' := by
  refine ⟨h₂.sagaId.trans h₁.sagaId, h₂.orderId.trans h₁.orderId, h₂.userId.trans h₁.userId,
    fun x hx hc => ?_, ?_⟩
  · rcases h₂.confirmed x hx hc with ⟨y, hy, hk, hyc⟩ | hP
    · rcases h₁.confirmed y hy hyc with ⟨z, hz, hzk, hzc⟩ | hP
      · exact .inl ⟨z, hz, hzk.trans hk, hzc⟩
      · exact .inr (hk ▸ hP)
    · exact .inr hP
  · obtain ⟨es₁, he₁, hs₁⟩ := h₁.emitted
    obtain ⟨es₂, he₂, hs₂⟩ := h₂.emitted
    refine ⟨es₁ ++ es₂, by rw [he₂, he₁, List.append_assoc], fun e he => ?_⟩
    rcases List.mem_append.mp he with he | he
    · exact hs₁ e he
    · exact (hs₂ e he).congr h₁.sagaId.symm h₁.orderId.symm h₁.userId.symm

theorem of_same (hsaga : d'.saga.sagaId = d.saga.sagaId ∧ d'.saga.orderId = d.saga.orderId ∧
      d'.saga.userId = d.saga.userId) (hsteps : d'.steps = d.steps)
    (henv : d'.effects.envelopes = d.effects.envelopes) : Advances P now d d' :=
  ⟨hsaga.1, hsaga.2.1, hsaga.2.2, fun x hx hc => .inl ⟨x, hsteps ▸ hx, rfl, hc⟩, [],
    by simp [henv], by simp⟩

theorem touch (d : Draft) : Advances P now d d.touch := of_same ⟨rfl, rfl, rfl⟩ rfl rfl

theorem setError (d : Draft) (m : String) : Advances P now d (d.setError m) :=
  of_same ⟨rfl, rfl, rfl⟩ rfl rfl

theorem transition {next : SagaStatus} (h : d.transition next = .ok d') : Advances P now d d' := by
  obtain ⟨-, rfl⟩ := transition_ok h
  exact of_same ⟨rfl, rfl, rfl⟩ rfl rfl

theorem settle (h : d.settle = .ok d') : Advances P now d d' := by
  have howner := settle_owner h
  rcases settle_ok h with ⟨rfl, -⟩ | ⟨-, -, hsteps, heff, hid, -⟩
  · exact refl _
  · exact of_same ⟨hid, howner⟩ hsteps (by rw [heff])

theorem setStep (hst : d.step? k = some st) (hkind : st'.kind = st.kind)
    (hc : st'.confirm = .succeeded → st.confirm = .succeeded ∨ P k) :
    Advances P now d (d.setStep k st') := by
  refine ⟨rfl, rfl, rfl, fun x hx hxc => ?_, [], by simp, by simp⟩
  rcases mem_setStep hst hx with rfl | hx
  · rcases hc hxc with hsc | hP
    · exact .inl ⟨st, step?_mem hst, hkind.symm, hsc⟩
    · exact .inr (by rw [hkind, step?_kind hst]; exact hP)
  · exact .inl ⟨x, hx, rfl, hxc⟩

theorem compensateAll (h : d.compensateAll now = .ok d') : Advances P now d d' := by
  obtain ⟨hsaga, hsteps, -, -, es, henv, hmem, -⟩ := compensateAll_ok h
  refine ⟨by rw [hsaga], by rw [hsaga], by rw [hsaga], fun x hx hxc => ?_, es, henv,
    fun e he => ?_⟩
  · rw [hsteps] at hx
    obtain ⟨y, hy, rfl⟩ := List.mem_map.mp hx
    exact .inl ⟨y, hy, by simp, by simpa using hxc⟩
  · obtain ⟨st, -, -, kd, -, rfl⟩ := hmem e he
    exact .releaseOf

theorem startConfirm (h : d.startConfirm now = .ok d') : Advances P now d d' := by
  obtain ⟨-, hsaga, hsteps, -, es, sync, henv, -, -, hmem, -⟩ := startConfirm_ok h
  refine ⟨by rw [hsaga], by rw [hsaga], by rw [hsaga], fun x hx hxc => ?_, es, henv,
    fun e he => ?_⟩
  · rw [hsteps] at hx
    obtain ⟨y, hy, rfl⟩ := List.mem_map.mp hx
    refine .inl ⟨y, hy, by simp, ?_⟩
    rw [SagaStep.confirming_confirm] at hxc
    split at hxc
    · cases hxc
    · exact hxc
  · obtain ⟨st, -, -, -, kd, -, rfl⟩ := hmem e he
    exact (Envelope.SentFor.commandOf rfl).congr rfl rfl rfl

theorem compensate (h : d.compensate k now = .ok d') : Advances P now d d' := by
  cases hst : d.step? k with
  | none =>
    simp only [Draft.compensate, hst, Except.ok.injEq] at h
    rw [← h]
    exact refl d
  | some st =>
    obtain ⟨es, rfl, hkeep, hemit⟩ := compensate_ok hst h
    have hset : Advances P now d (d.setStep k st.released) :=
      setStep hst (by simp) (fun hc => .inl (by simpa using hc))
    refine hset.trans ⟨rfl, rfl, rfl, fun x hx hxc => .inl ⟨x, hx, rfl, hxc⟩, es, rfl,
      fun e he => ?_⟩
    cases hn : st.needsCompensation with
    | false => simp [hkeep hn] at he
    | true =>
      obtain ⟨kd, -, hes⟩ := hemit hn
      rw [hes, List.mem_singleton] at he
      subst he
      exact .releaseOf

end Advances

variable {now : Instant} {d d' : Draft} {P : String → Prop}

theorem onReserved_advances {res : StepResult} (h : onReserved res now d = .ok d') :
    Advances P now d d' := by
  unfold onReserved at h
  split at h
  next => cases h; exact .refl d
  next st hst =>
    have hst' : d.touch.step? res.kind = some st := hst
    split at h
    next => cases h; exact .refl d
    next =>
      split at h
      next =>
        dsimp only at h
        have hrec : Advances P now d (d.touch.setStep res.kind
            { st with reserve := .failed, error := res.errorMessage, updatedAt := now }) :=
          (Advances.touch d).trans (Advances.setStep hst' rfl fun hc => .inl hc)
        split at h
        next =>
          obtain ⟨d₂, ht, h⟩ := Except.bind_eq_ok.mp h
          obtain ⟨d₃, hcomp, h⟩ := Except.bind_eq_ok.mp h
          exact hrec.trans ((Advances.setError _ _).trans (Advances.transition ht) |>.trans
            (Advances.compensateAll hcomp) |>.trans (Advances.settle h))
        next => exact hrec.trans (Advances.settle h)
      next =>
        dsimp only at h
        have hrec : Advances P now d (d.touch.setStep res.kind
            { st with reserve := .succeeded, updatedAt := now }) :=
          (Advances.touch d).trans (Advances.setStep hst' rfl fun hc => .inl hc)
        split at h
        next =>
          split at h
          next =>
            obtain ⟨d₂, ht, h⟩ := Except.bind_eq_ok.mp h
            exact hrec.trans ((Advances.transition ht).trans (Advances.startConfirm h))
          next =>
            cases h
            exact hrec
        next =>
          obtain ⟨d₂, hcomp, h⟩ := Except.bind_eq_ok.mp h
          exact hrec.trans ((Advances.compensate hcomp).trans (Advances.settle h))
        next =>
          cases h
          exact hrec

theorem onConfirmed_advances {res : StepResult} (h : onConfirmed res now d = .ok d') :
    Advances (fun k => k = res.kind ∧ res.success = true) now d d' := by
  unfold onConfirmed at h
  split at h
  next => cases h; exact .refl d
  next st hst =>
    have hst' : d.touch.step? res.kind = some st := hst
    split at h
    next => cases h; exact .refl d
    next =>
      split at h
      next hok =>
        dsimp only at h
        have hrec : Advances (fun k => k = res.kind ∧ res.success = true) now d
            (d.touch.setStep res.kind { st with confirm := .succeeded, updatedAt := now }) :=
          (Advances.touch d).trans (Advances.setStep hst' rfl fun _ => .inr ⟨rfl, hok⟩)
        split at h
        next => exact hrec.trans (Advances.transition h)
        next => exact hrec.trans (Advances.settle h)
      next =>
        dsimp only at h
        have hrec : Advances (fun k => k = res.kind ∧ res.success = true) now d
            (d.touch.setStep res.kind
              { st with confirm := .failed, error := res.errorMessage, updatedAt := now }) :=
          (Advances.touch d).trans (Advances.setStep hst' rfl fun hc => by cases hc)
        split at h
        next =>
          obtain ⟨d₂, ht, h⟩ := Except.bind_eq_ok.mp h
          obtain ⟨d₃, hcomp, h⟩ := Except.bind_eq_ok.mp h
          exact hrec.trans ((Advances.setError _ _).trans (Advances.transition ht) |>.trans
            (Advances.compensateAll hcomp) |>.trans (Advances.settle h))
        next => exact hrec.trans (Advances.settle h)

theorem onCompensated_advances {rep : CompensationReport} (h : onCompensated rep now d = .ok d') :
    Advances P now d d' := by
  unfold onCompensated at h
  dsimp only at h
  split at h
  next => cases h; exact .refl d
  next st hst =>
    split at h
    next => cases h; exact .refl d
    next =>
      have hst' : d.touch.step? (reportKind rep) = some st := hst
      have hrec : Advances P now d (d.touch.setStep (reportKind rep)
          { st with compensation := if rep.success then .succeeded else .failed,
                    error := if rep.success then st.error else rep.errorMessage.getD st.error,
                    updatedAt := now }) :=
        (Advances.touch d).trans (Advances.setStep hst' rfl fun hc => .inl hc)
      exact hrec.trans (Advances.settle h)

end Draft

namespace Answer

/-- The participant an answer vouches for: a confirmation result that reports success vouches for
its own participant; no other answer vouches for any. -/
def Vouches : Answer → String → Prop
  | .confirmed res => fun k => k = res.kind ∧ res.success = true
  | _ => fun _ => False

theorem apply_advances (a : Answer) {now : Instant} {d d' : Draft} (h : a.apply now d = .ok d') :
    Draft.Advances a.Vouches now d d' := by
  cases a with
  | reserved res => exact Draft.onReserved_advances h
  | confirmed res => exact Draft.onConfirmed_advances h
  | compensated rep => exact Draft.onCompensated_advances h

end Answer

end OrderSaga
