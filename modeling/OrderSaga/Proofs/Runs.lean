import OrderSaga.Proofs.Shape
import OrderSaga.Proofs.Transactions

namespace OrderSaga

open Orchestrator

/-! ## Placing an order -/

theorem Saga.transitionTo_ok {g g' : Saga} {next : SagaStatus} (h : g.transitionTo next = .ok g') :
    g.status.canTransition next = true ∧ g' = { g with status := next } := by
  unfold Saga.transitionTo at h
  split at h
  next hc => exact ⟨hc, (Except.ok.inj h).symm⟩
  next => cases h

namespace OrderRequest

variable {r : OrderRequest} {mode : Kind → Mode} {now : Instant}

theorem items_of_validate (hv : r.validate = .ok ()) : r.items.isEmpty = false := by
  unfold validate at hv
  split at hv
  · cases hv
  · split at hv
    · cases hv
    · simpa using ‹¬r.items.isEmpty = true›

theorem steps_kinds : (r.steps mode now).map (·.kind) = Kind.all.map Kind.name := by
  simp only [steps, List.map_map]
  apply List.map_congr_left
  intro k _
  simp only [Function.comp_apply]
  split <;> rfl

theorem steps_fresh {st : SagaStep} (h : st ∈ r.steps mode now) :
    (st.reserve = .pending ∨ st.reserve = .skipped) ∧ st.confirm = .none ∧
      st.compensation = .none := by
  obtain ⟨k, -, rfl⟩ := List.mem_map.mp h
  split <;> simp

theorem steps_pending (hv : r.validate = .ok ()) :
    ∃ st ∈ r.steps mode now, st.reserve = .pending := by
  have hitems := items_of_validate hv
  refine ⟨_, List.mem_map.mpr ⟨.stock, by simp [Kind.all], rfl⟩, ?_⟩
  simp [lines, hitems]

theorem steps_shaped (hv : r.validate = .ok ()) : Shaped .reserving (r.steps mode now) := by
  refine ⟨steps_kinds, fun st h => ?_, fun st h _ => ?_, steps_pending hv⟩
  · obtain ⟨hr, hc, hp⟩ := steps_fresh h
    refine ⟨?_, .inl hc, .inl hp, fun hne => absurd hc hne, fun hne => absurd hp hne⟩
    rcases hr with hr | hr
    · exact .inl hr
    · exact .inr (.inr (.inr hr))
  · obtain ⟨hr, hc, hp⟩ := steps_fresh h
    rcases hr with hr | hr
    · exact ⟨.inl hr, hc, hp⟩
    · contradiction

theorem placed_shaped {sagaId : String} {orderId : UInt64} {g : Saga} (hv : r.validate = .ok ())
    (hg : (r.saga sagaId orderId mode now).transitionTo .reserving = .ok g) (t : Instant) :
    ({ g with createdAt := t, updatedAt := t } : Saga).stored.Shaped := by
  obtain ⟨-, rfl⟩ := Saga.transitionTo_ok hg
  exact steps_shaped hv

end OrderRequest

/-! ## Answers -/

/-- An answer the orchestrator applies to a saga: a participant's reservation or confirmation
result, or a compensation report. -/
inductive Answer where
  | reserved (res : StepResult)
  | confirmed (res : StepResult)
  | compensated (rep : CompensationReport)

namespace Answer

/-- The saga the answer is for. -/
def sagaId : Answer → String
  | .reserved res => res.sagaId
  | .confirmed res => res.sagaId
  | .compensated rep => rep.sagaId

/-- The mutation that applies the answer to a saga. -/
def apply : Answer → Instant → Draft → Except Failure Draft
  | .reserved res => Draft.onReserved res
  | .confirmed res => Draft.onConfirmed res
  | .compensated rep => Draft.onCompensated rep

theorem apply_shaped {a : Answer} {now : Instant} {d d' : Draft} (hs : d.Shaped)
    (h : a.apply now d = .ok d') : d'.Shaped := by
  cases a with
  | reserved res => exact Draft.onReserved_shaped hs h
  | confirmed res => exact Draft.onConfirmed_shaped hs h
  | compensated rep => exact Draft.onCompensated_shaped hs h

end Answer

/-! ## Transactions keep every saga shaped -/

theorem update_keeps_shaped {sagaId : String} {now : Instant} {m : Draft → Except Failure Draft}
    {s s' : Store} {g : Saga} {fx : Effects}
    (hm : ∀ d d', d.Shaped → m d = .ok d' → d'.Shaped) (hs : ∀ x ∈ s.sagas, x.Shaped)
    (h : update sagaId now m s = .ok (g, fx) s') : ∀ x ∈ s'.sagas, x.Shaped := by
  obtain ⟨current, d, hcur, hd, -, ⟨-, -, rfl⟩ | ⟨-, rfl, hsagas⟩⟩ := update_ok h
  · exact hs
  · have hw : (written d now).Shaped :=
      hm (.ofSaga current) d (hs current (Store.getSaga_ok hcur).1) hd
    rw [hsagas]
    intro x hx
    obtain ⟨y, hy, rfl⟩ := List.mem_map.mp hx
    split
    · exact hw
    · exact hs y hy

theorem openSaga_keeps_shaped {o : Order} {g : Saga} {now : Instant} {s s' : Store} {u : Unit}
    (hg : ({ g with createdAt := now, updatedAt := now } : Saga).stored.Shaped)
    (hs : ∀ x ∈ s.sagas, x.Shaped) (h : openSaga o g now s = .ok u s') :
    ∀ x ∈ s'.sagas, x.Shaped := by
  obtain ⟨-, hsagas, -⟩ := openSaga_ok h
  rw [hsagas]
  intro x hx
  rcases List.mem_append.mp hx with hx | hx
  · exact hs x hx
  · rw [List.mem_singleton.mp hx]
    exact hg

/-! ## Runs -/

/-- What a run of the orchestrator leaves: its store, and each successful transaction's saga as
written with the effects of the write. -/
inductive Run : Store → List (Saga × Effects) → Prop
  | start {s : Store} (empty : s.sagas = []) : Run s []
  | place {s s' : Store} {sent : List (Saga × Effects)} {req : OrderRequest} {sagaId : String}
      {orderId : UInt64} {mode : Kind → Mode} {now : Instant} {g : Saga} {es : List Envelope}
      (run : Run s sent) (valid : req.validate = .ok ())
      (opened : (req.saga sagaId orderId mode now).transitionTo .reserving = .ok g)
      (ok : openSaga (req.order orderId now) g now s = .ok () s')
      (commands : reserveCommands { g with createdAt := now, updatedAt := now } now = .ok es) :
      Run s' (sent ++ [(({ g with createdAt := now, updatedAt := now } : Saga).stored,
        { changed := true, envelopes := es })])
  | placeFailed {s s' : Store} {sent : List (Saga × Effects)} {o : Order} {g : Saga}
      {now : Instant} {e : Failure} (run : Run s sent) (failed : openSaga o g now s = .error e s') :
      Run s' sent
  | answer {s s' : Store} {sent : List (Saga × Effects)} {a : Answer} {now : Instant} {g : Saga}
      {fx : Effects} (run : Run s sent)
      (ok : update a.sagaId now (a.apply now) s = .ok (g, fx) s') :
      Run s' (sent ++ [(g, fx)])
  | answerFailed {s s' : Store} {sent : List (Saga × Effects)} {a : Answer} {now : Instant}
      {e : Failure} (run : Run s sent)
      (failed : update a.sagaId now (a.apply now) s = .error e s') :
      Run s' sent

theorem Run.shaped {s : Store} {sent : List (Saga × Effects)} (run : Run s sent) :
    ∀ g ∈ s.sagas, g.Shaped := by
  induction run with
  | start empty => simp [empty]
  | place _ valid opened ok _ ih =>
    exact openSaga_keeps_shaped (OrderRequest.placed_shaped valid opened _) ih ok
  | placeFailed _ failed ih => rw [openSaga_error failed]; exact ih
  | answer _ ok ih => exact update_keeps_shaped (fun _ _ => Answer.apply_shaped) ih ok
  | answerFailed _ failed ih => rw [update_error failed]; exact ih

/-! ## What the shape says -/

namespace Shaped

variable {status : SagaStatus} {steps : List SagaStep}

theorem status_stored (h : Shaped status steps) :
    status = .reserving ∨ status = .confirming ∨ status = .compensating ∨
      status = .completed ∨ status = .compensationCompleted ∨ status = .failed := by
  have fits := h.fits
  cases status with
  | reserving => exact .inl rfl
  | confirming => exact .inr (.inl rfl)
  | compensating => exact .inr (.inr (.inl rfl))
  | completed => exact .inr (.inr (.inr (.inl rfl)))
  | compensationCompleted => exact .inr (.inr (.inr (.inr (.inl rfl))))
  | failed => exact .inr (.inr (.inr (.inr (.inr rfl))))
  | created => exact fits.elim
  | reserved => exact fits.elim
  | other _ => exact fits.elim

theorem not_waiting_of_ended (h : Shaped status steps)
    (hend : status = .completed ∨ status = .compensationCompleted ∨ status = .failed) :
    ∀ st ∈ steps, st.waiting = false := by
  intro st hst
  cases hw : st.waiting with
  | false => rfl
  | true =>
    rcases h.live_of_waiting hst hw with hl | hl | hl <;>
      rcases hend with he | he | he <;> rw [hl] at he <;> cases he

end Shaped

/-- **The shape of a stored saga.** -/
theorem stored_saga_shape {s : Store} {sent : List (Saga × Effects)} (run : Run s sent) {g : Saga}
    (hg : g ∈ s.sagas) :
    (g.status = .reserving ∨ g.status = .confirming ∨ g.status = .compensating ∨
      g.status = .completed ∨ g.status = .compensationCompleted ∨ g.status = .failed) ∧
    (g.status = .reserving →
      (∀ st ∈ g.stepList, st.reserve ≠ .skipped →
        (st.reserve = .pending ∨ st.reserve = .succeeded) ∧ st.confirm = .none ∧
          st.compensation = .none) ∧
      ∃ st ∈ g.stepList, st.reserve = .pending) ∧
    (g.status = .confirming →
      (∀ st ∈ g.stepList, st.reserve ≠ .skipped →
        st.reserve = .succeeded ∧ (st.confirm = .pending ∨ st.confirm = .succeeded) ∧
          st.compensation = .none) ∧
      ∃ st ∈ g.stepList, st.confirm = .pending) ∧
    (g.status = .compensating → ∃ st ∈ g.stepList,
      st.reserve = .pending ∨ st.confirm = .pending ∨ st.compensation = .pending) ∧
    (∀ st ∈ g.stepList, st.compensation ≠ .none → st.reserve = .succeeded) ∧
    ((g.status = .completed ∨ g.status = .compensationCompleted ∨ g.status = .failed) →
      ∀ st ∈ g.stepList,
        st.reserve ≠ .pending ∧ st.confirm ≠ .pending ∧ st.compensation ≠ .pending) := by
  have hs : g.Shaped := run.shaped g hg
  refine ⟨hs.status_stored, fun hr => ?_, fun hc => ?_, fun hc => ?_,
    fun st hst => (hs.sound st hst).compensation_reserved, fun hend st hst => ?_⟩
  · have fits := hs.fits
    rw [hr] at fits
    exact fits
  · have fits := hs.fits
    rw [hc] at fits
    exact fits
  · have fits := hs.fits
    rw [hc] at fits
    obtain ⟨st, hst, hw⟩ := fits.1
    exact ⟨st, hst, (SagaStep.waiting_iff st).mp hw⟩
  · have hw := hs.not_waiting_of_ended hend st hst
    simpa [SagaStep.waiting, and_assoc] using hw

theorem one_order_placed : ∃ (s : Store) (sent : List (Saga × Effects)) (g : Saga),
    Run s sent ∧ g ∈ s.sagas ∧ g.status = .reserving := by
  let req : OrderRequest := { userId := 1, items := [(7, 2)] }
  let g : Saga := { req.saga "saga-1" 1 (fun _ => .sync) .zero with status := .reserving }
  obtain ⟨s, ok⟩ : ∃ s, openSaga (req.order 1 .zero) g .zero {} = .ok () s := ⟨_, rfl⟩
  have run : Run s _ :=
    @Run.place {} s [] req "saga-1" 1 (fun _ => .sync) .zero g [] (.start rfl) rfl rfl ok rfl
  have mem : ({ g with createdAt := .zero, updatedAt := .zero } : Saga).stored ∈ s.sagas := by
    rw [(openSaga_ok ok).2.1]
    exact List.mem_append_right _ (List.mem_singleton_self _)
  exact ⟨s, _, _, run, mem, rfl⟩

/-- A run that places one order stores a reserving saga that waits for a reservation. -/
theorem placed_saga_reserving : ∃ (s : Store) (sent : List (Saga × Effects)) (g : Saga),
    Run s sent ∧ g ∈ s.sagas ∧ g.status = .reserving ∧
      ∃ st ∈ g.stepList, st.reserve = .pending := by
  obtain ⟨s, sent, g, run, mem, hres⟩ := one_order_placed
  exact ⟨s, sent, g, run, mem, hres, ((stored_saga_shape run mem).2.1 hres).2⟩

end OrderSaga
