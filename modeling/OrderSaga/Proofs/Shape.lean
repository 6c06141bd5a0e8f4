import OrderSaga.Proofs.Drafts

namespace OrderSaga

namespace SagaStep

/-- A step whose phases hold only states the orchestrator writes, and whose confirmation and
compensation began only after its reservation succeeded. -/
structure Sound (st : SagaStep) : Prop where
  reserve : st.reserve = .pending ∨ st.reserve = .succeeded ∨ st.reserve = .failed ∨
    st.reserve = .skipped
  confirm : st.confirm = .none ∨ st.confirm = .pending ∨ st.confirm = .succeeded ∨
    st.confirm = .failed
  compensation : st.compensation = .none ∨ st.compensation = .pending ∨
    st.compensation = .succeeded ∨ st.compensation = .failed
  confirm_reserved : st.confirm ≠ .none → st.reserve = .succeeded
  compensation_reserved : st.compensation ≠ .none → st.reserve = .succeeded

theorem waiting_iff (st : SagaStep) :
    st.waiting = true ↔
      st.reserve = .pending ∨ st.confirm = .pending ∨ st.compensation = .pending := by
  simp [waiting, or_assoc]

theorem Sound.released {st : SagaStep} (h : st.Sound) : st.released.Sound := by
  unfold SagaStep.released
  split
  next hn =>
    obtain ⟨hr, -, -⟩ := (needsCompensation_iff st).mp hn
    exact ⟨h.reserve, h.confirm, .inr (.inl rfl), h.confirm_reserved, fun _ => hr⟩
  next => exact h

theorem Sound.confirming {st : SagaStep} (h : st.Sound) : st.confirming.Sound := by
  unfold SagaStep.confirming
  split
  next hr =>
    exact ⟨h.reserve, .inr (.inl rfl), h.compensation, fun _ => hr, h.compensation_reserved⟩
  next => exact h

end SagaStep

/-- What the steps of a saga look like in each status it can be stored in. -/
def SagaStatus.Fits : SagaStatus → List SagaStep → Prop
  | .reserving, steps =>
    (∀ st ∈ steps, st.reserve ≠ .skipped →
      (st.reserve = .pending ∨ st.reserve = .succeeded) ∧ st.confirm = .none ∧
        st.compensation = .none) ∧
    ∃ st ∈ steps, st.reserve = .pending
  | .confirming, steps =>
    (∀ st ∈ steps, st.reserve ≠ .skipped →
      st.reserve = .succeeded ∧ (st.confirm = .pending ∨ st.confirm = .succeeded) ∧
        st.compensation = .none) ∧
    ∃ st ∈ steps, st.confirm = .pending
  | .compensating, steps =>
    (∃ st ∈ steps, st.waiting = true) ∧
    ∀ st ∈ steps, st.reserve = .succeeded →
      st.confirm = .succeeded ∨ st.compensation ≠ .none
  | .completed, steps =>
    ∀ st ∈ steps, st.reserve ≠ .skipped →
      st.reserve = .succeeded ∧ st.confirm = .succeeded ∧ st.compensation = .none
  | .compensationCompleted, steps =>
    ∀ st ∈ steps, st.waiting = false ∧ st.confirm ≠ .succeeded ∧
      st.compensation ≠ .failed ∧ (st.reserve = .succeeded → st.compensation ≠ .none)
  | .failed, steps =>
    ∀ st ∈ steps, st.waiting = false ∧
      (st.reserve = .succeeded → st.confirm = .succeeded ∨ st.compensation ≠ .none)
  | _, _ => False

/-- The invariant of a stored saga: one step per participant in catalogue order, every step sound,
and the steps as the status requires. -/
structure Shaped (status : SagaStatus) (steps : List SagaStep) : Prop where
  kinds : steps.map (·.kind) = Kind.all.map Kind.name
  sound : ∀ st ∈ steps, st.Sound
  fits : status.Fits steps

def Saga.Shaped (g : Saga) : Prop := OrderSaga.Shaped g.status g.stepList

def Draft.Shaped (d : Draft) : Prop := OrderSaga.Shaped d.saga.status d.steps

namespace Shaped

variable {status : SagaStatus} {steps : List SagaStep}

theorem live_of_waiting (h : Shaped status steps) {st : SagaStep} (hst : st ∈ steps)
    (hw : st.waiting = true) :
    status = .reserving ∨ status = .confirming ∨ status = .compensating := by
  have fits := h.fits
  cases status with
  | reserving => exact .inl rfl
  | confirming => exact .inr (.inl rfl)
  | compensating => exact .inr (.inr rfl)
  | completed =>
    have hr : st.reserve ≠ .skipped := by
      intro hs
      rcases (SagaStep.waiting_iff st).mp hw with hp | hp | hp
      · rw [hs] at hp; cases hp
      · have := (h.sound st hst).confirm_reserved (by rw [hp]; decide)
        rw [hs] at this; cases this
      · have := (h.sound st hst).compensation_reserved (by rw [hp]; decide)
        rw [hs] at this; cases this
    obtain ⟨h₁, h₂, h₃⟩ := fits st hst hr
    rcases (SagaStep.waiting_iff st).mp hw with hp | hp | hp
    · rw [h₁] at hp; cases hp
    · rw [h₂] at hp; cases hp
    · rw [h₃] at hp; cases hp
  | compensationCompleted => rw [(fits st hst).1] at hw; cases hw
  | failed => rw [(fits st hst).1] at hw; cases hw
  | created => exact fits.elim
  | reserved => exact fits.elim
  | other _ => exact fits.elim

theorem status_of_reserve_pending (h : Shaped status steps) {st : SagaStep} (hst : st ∈ steps)
    (hp : st.reserve = .pending) : status = .reserving ∨ status = .compensating := by
  rcases h.live_of_waiting hst ((SagaStep.waiting_iff st).mpr (.inl hp)) with hs | hs | hs
  · exact .inl hs
  · subst hs
    rw [(h.fits.1 st hst (by rw [hp]; decide)).1] at hp
    cases hp
  · exact .inr hs

theorem status_of_confirm_pending (h : Shaped status steps) {st : SagaStep} (hst : st ∈ steps)
    (hp : st.confirm = .pending) : status = .confirming ∨ status = .compensating := by
  have hr := (h.sound st hst).confirm_reserved (by rw [hp]; decide)
  rcases h.live_of_waiting hst ((SagaStep.waiting_iff st).mpr (.inr (.inl hp))) with hs | hs | hs
  · subst hs
    rw [(h.fits.1 st hst (by rw [hr]; decide)).2.1] at hp
    cases hp
  · exact .inl hs
  · exact .inr hs

theorem status_of_compensation_pending (h : Shaped status steps) {st : SagaStep}
    (hst : st ∈ steps) (hp : st.compensation = .pending) : status = .compensating := by
  have hr := (h.sound st hst).compensation_reserved (by rw [hp]; decide)
  rcases h.live_of_waiting hst ((SagaStep.waiting_iff st).mpr (.inr (.inr hp))) with hs | hs | hs
  · subst hs
    rw [(h.fits.1 st hst (by rw [hr]; decide)).2.2] at hp
    cases hp
  · subst hs
    rw [(h.fits.1 st hst (by rw [hr]; decide)).2.2] at hp
    cases hp
  · exact hs

end Shaped

namespace Draft

variable {d d' : Draft} {k : String} {st st' : SagaStep} {now : Instant}

theorem setStep_kinds (hst : d.step? k = some st) (hk : st'.kind = st.kind) :
    (d.setStep k st').steps.map (·.kind) = d.steps.map (·.kind) := by
  obtain ⟨pre, post, hsplit, -, hset⟩ := setStep_steps st' hst
  simp [hset, hsplit, hk]

theorem setStep_sound (hs : ∀ x ∈ d.steps, x.Sound) (hst : d.step? k = some st)
    (h : st'.Sound) : ∀ x ∈ (d.setStep k st').steps, x.Sound := by
  intro x hx
  rcases mem_setStep hst hx with rfl | hx
  · exact h
  · exact hs x hx

theorem released_covered (x : SagaStep) (hr : x.released.reserve = .succeeded) :
    x.released.confirm = .succeeded ∨ x.released.compensation ≠ .none := by
  rw [SagaStep.released_compensation]
  rw [SagaStep.released_reserve] at hr
  rw [SagaStep.released_confirm]
  cases hn : x.needsCompensation with
  | true => exact .inr (by simp)
  | false =>
    have : ¬ (x.reserve = .succeeded ∧ x.confirm ≠ .succeeded ∧ x.compensation = .none) :=
      fun h => by rw [(SagaStep.needsCompensation_iff x).mpr h] at hn; cases hn
    by_cases hc : x.confirm = .succeeded
    · exact .inl hc
    · exact .inr (by simpa [hr, hc] using this)

theorem settle_shaped (hc : d.saga.status = .compensating)
    (hk : d.steps.map (·.kind) = Kind.all.map Kind.name) (hs : ∀ x ∈ d.steps, x.Sound)
    (hcov : ∀ x ∈ d.steps, x.reserve = .succeeded →
      x.confirm = .succeeded ∨ x.compensation ≠ .none)
    (h : d.settle = .ok d') : d'.Shaped := by
  rcases settle_ok h with ⟨hdd, hw⟩ | ⟨-, hw, hsteps, -, -, hclean, hfail⟩
  · have hw : ∃ x ∈ d.steps, x.waiting = true := hw.resolve_left (fun hne => hne hc)
    rw [hdd]
    refine ⟨hk, hs, ?_⟩
    rw [hc]
    exact ⟨hw, hcov⟩
  · refine ⟨hsteps ▸ hk, hsteps ▸ hs, ?_⟩
    rw [hsteps]
    by_cases ha : account d.steps = ([], [])
    · rw [hclean ha]
      intro x hx
      obtain ⟨hf, hcf⟩ := (account_eq_nil_iff d.steps).mp ha x hx
      exact ⟨hw x hx, hcf, hf, fun hr => (hcov x hx hr).resolve_left hcf⟩
    · rw [hfail ha]
      exact fun x hx => ⟨hw x hx, hcov x hx⟩

theorem compensateAll_settle_shaped {d₁ d₂ : Draft} (hcomp : d.compensateAll now = .ok d₁)
    (h : d₁.settle = .ok d₂) (hc : d.saga.status = .compensating)
    (hk : d.steps.map (·.kind) = Kind.all.map Kind.name) (hs : ∀ x ∈ d.steps, x.Sound) :
    d₂.Shaped := by
  obtain ⟨hsaga, hsteps, -⟩ := compensateAll_ok hcomp
  refine settle_shaped (by rw [hsaga, hc]) ?_ ?_ ?_ h
  · rw [hsteps, List.map_map]
    simpa [Function.comp_def] using hk
  · rw [hsteps]
    intro x hx
    obtain ⟨y, hy, rfl⟩ := List.mem_map.mp hx
    exact (hs y hy).released
  · rw [hsteps]
    intro x hx
    obtain ⟨y, -, rfl⟩ := List.mem_map.mp hx
    exact released_covered y

theorem setStep_settle_shaped (hs : d.Shaped) (hc : d.saga.status = .compensating)
    (hst : d.step? k = some st) (hsound : st'.Sound) (hkind : st'.kind = st.kind)
    (hcov : st'.reserve = .succeeded → st'.confirm = .succeeded ∨ st'.compensation ≠ .none)
    (h : (d.touch.setStep k st').settle = .ok d') : d'.Shaped := by
  have hst' : d.touch.step? k = some st := hst
  have hf := hs.fits
  rw [hc] at hf
  have hc' : (d.touch.setStep k st').saga.status = .compensating := hc
  refine settle_shaped hc' ((setStep_kinds hst' hkind).trans hs.kinds)
    (setStep_sound hs.sound hst' hsound) (fun x hx hxr => ?_) h
  rcases mem_setStep hst' hx with rfl | hx
  · exact hcov hxr
  · exact hf.2 x hx hxr

theorem Shaped.fresh_of_reserve_pending (hs : d.Shaped) (hst : st ∈ d.steps)
    (hp : st.reserve = .pending) : st.confirm = .none ∧ st.compensation = .none := by
  have hsound := hs.sound st hst
  constructor
  · by_cases hc : st.confirm = .none
    · exact hc
    · have := hsound.confirm_reserved hc
      rw [hp] at this; cases this
  · by_cases hc : st.compensation = .none
    · exact hc
    · have := hsound.compensation_reserved hc
      rw [hp] at this; cases this

theorem onReserved_shaped {res : StepResult} (hs : d.Shaped) (h : onReserved res now d = .ok d') :
    d'.Shaped := by
  unfold onReserved at h
  split at h
  next => cases h; exact hs
  next st hst =>
    split at h
    next => cases h; exact hs
    next hp =>
      have hp : st.reserve = .pending := by simpa using hp
      have hmem := step?_mem hst
      obtain ⟨hcn, hpn⟩ := hs.fresh_of_reserve_pending hmem hp
      split at h
      next =>
        dsimp only at h
        have hst' : d.touch.step? res.kind = some st := hst
        generalize hst₁ :
          ({ st with reserve := .failed, error := res.errorMessage, updatedAt := now } : SagaStep) =
            st₁ at h
        have hsound₁ : st₁.Sound := by
          subst hst₁
          exact ⟨.inr (.inr (.inl rfl)), .inl hcn, .inl hpn, fun h => absurd hcn h,
            fun h => absurd hpn h⟩
        have hkind₁ : st₁.kind = st.kind := by rw [← hst₁]
        split at h
        next =>
          obtain ⟨d₂, ht, h⟩ := Except.bind_eq_ok.mp h
          obtain ⟨-, rfl⟩ := transition_ok ht
          obtain ⟨d₃, hcomp, h⟩ := Except.bind_eq_ok.mp h
          exact compensateAll_settle_shaped hcomp h rfl
            ((setStep_kinds hst' hkind₁).trans hs.kinds) (setStep_sound hs.sound hst' hsound₁)
        next hr =>
          have hc : d.saga.status = .compensating :=
            (hs.status_of_reserve_pending hmem hp).resolve_left (by simpa using hr)
          exact setStep_settle_shaped hs hc hst hsound₁ hkind₁
            (fun hxr => by rw [← hst₁] at hxr; cases hxr) h
      next =>
        dsimp only at h
        have hst' : d.touch.step? res.kind = some st := hst
        generalize hst₂ :
          ({ st with reserve := .succeeded, updatedAt := now } : SagaStep) = st₂ at h
        have hsound₂ : st₂.Sound := by
          subst hst₂
          exact ⟨.inr (.inl rfl), .inl hcn, .inl hpn, fun _ => rfl, fun _ => rfl⟩
        have hr₂ : st₂.reserve = .succeeded := by rw [← hst₂]
        have hkind₂ : st₂.kind = st.kind := by rw [← hst₂]
        have hc₂ : st₂.confirm = .none := by rw [← hst₂]; exact hcn
        have hp₂ : st₂.compensation = .none := by rw [← hst₂]; exact hpn
        have hk₁ :
            (d.touch.setStep res.kind st₂).steps.map (·.kind) = Kind.all.map Kind.name :=
          (setStep_kinds hst' hkind₂).trans hs.kinds
        have hs₁ := setStep_sound hs.sound hst' hsound₂
        split at h
        next hres =>
          have hf := hs.fits
          rw [show d.saga.status = .reserving from hres] at hf
          split at h
          next hall =>
            obtain ⟨d₂, ht, h⟩ := Except.bind_eq_ok.mp h
            obtain ⟨-, rfl⟩ := transition_ok ht
            obtain ⟨-, hsaga, hsteps, -⟩ := startConfirm_ok h
            have hall := all_eq_true.mp hall
            refine ⟨?_, ?_, ?_⟩
            · rw [hsteps, List.map_map]
              simpa [Function.comp_def] using hk₁
            · rw [hsteps]
              intro x hx
              obtain ⟨y, hy, rfl⟩ := List.mem_map.mp hx
              exact (hs₁ y hy).confirming
            · rw [hsaga, hsteps]
              refine ⟨fun x hx hxs => ?_, st₂.confirming,
                List.mem_map.mpr ⟨st₂, setStep_mem hst', rfl⟩,
                by simp [SagaStep.confirming, hr₂]⟩
              obtain ⟨y, hy, rfl⟩ := List.mem_map.mp hx
              rw [SagaStep.confirming_reserve] at hxs
              have hyr : y.reserve = .succeeded := by simpa [hxs] using hall y hy
              refine ⟨by simp [hyr], by simp [SagaStep.confirming, hyr], ?_⟩
              rw [SagaStep.confirming_compensation]
              rcases mem_setStep hst' hy with rfl | hy
              · exact hp₂
              · exact (hf.1 y hy hxs).2.2
          next hall =>
            cases h
            refine ⟨hk₁, hs₁, ?_⟩
            show SagaStatus.Fits d.saga.status _
            rw [show d.saga.status = .reserving from hres]
            refine ⟨fun x hx hxs => ?_, ?_⟩
            · rcases mem_setStep hst' hx with rfl | hx
              · exact ⟨.inr hr₂, hc₂, hp₂⟩
              · exact hf.1 x hx hxs
            · simp only [all_eq_true, beq_iff_eq, Classical.not_forall, not_or] at hall
              obtain ⟨x, hx, hxs, hxr⟩ := hall
              refine ⟨x, hx, ?_⟩
              rcases mem_setStep hst' hx with rfl | hx'
              · exact absurd hr₂ hxr
              · exact ((hf.1 x hx' hxs).1).resolve_right hxr
        next hres =>
          obtain ⟨d₂, hcomp, h⟩ := Except.bind_eq_ok.mp h
          have hst₂ : (d.touch.setStep res.kind st₂).step? res.kind = some st₂ :=
            setStep_step? hst' (hkind₂.trans (step?_kind hst))
          obtain ⟨es, rfl, -, -⟩ := compensate_ok hst₂ hcomp
          have hsteps :
              (((d.touch.setStep res.kind st₂).setStep res.kind st₂.released).emit es).steps =
              (d.touch.setStep res.kind st₂.released).steps :=
            setStep_setStep hst' (hkind₂.trans (step?_kind hst))
          have hf := hs.fits
          rw [show d.saga.status = .compensating from hres] at hf
          have hc₃ : (((d.touch.setStep res.kind st₂).setStep res.kind st₂.released).emit
              es).saga.status = .compensating := hres
          refine settle_shaped hc₃ ?_ ?_ ?_ h
          · rw [hsteps]
            exact (setStep_kinds hst' (by simp [hkind₂])).trans hs.kinds
          · rw [hsteps]
            exact setStep_sound hs.sound hst' hsound₂.released
          · rw [hsteps]
            intro x hx hxr
            rcases mem_setStep hst' hx with rfl | hx
            · exact released_covered st₂ hxr
            · exact hf.2 x hx hxr
        next hnr hnc =>
          rcases hs.status_of_reserve_pending hmem hp with hres | hres
          · exact absurd hres hnr
          · exact absurd hres hnc

theorem onConfirmed_shaped {res : StepResult} (hs : d.Shaped)
    (h : onConfirmed res now d = .ok d') : d'.Shaped := by
  unfold onConfirmed at h
  split at h
  next => cases h; exact hs
  next st hst =>
    split at h
    next => cases h; exact hs
    next hp =>
      have hp : st.confirm = .pending := by simpa using hp
      have hmem := step?_mem hst
      have hr : st.reserve = .succeeded := (hs.sound st hmem).confirm_reserved (by rw [hp]; decide)
      have hst' : d.touch.step? res.kind = some st := hst
      split at h
      next =>
        dsimp only at h
        generalize hst₁ :
          ({ st with confirm := .succeeded, updatedAt := now } : SagaStep) = st₁ at h
        have hsound₁ : st₁.Sound := by
          subst hst₁
          exact ⟨.inr (.inl hr), .inr (.inr (.inl rfl)), (hs.sound st hmem).compensation,
            fun _ => hr, fun _ => hr⟩
        have hkind₁ : st₁.kind = st.kind := by rw [← hst₁]
        have hr₁ : st₁.reserve = .succeeded := by rw [← hst₁]; exact hr
        have hc₁ : st₁.confirm = .succeeded := by rw [← hst₁]
        have hk₁ := (setStep_kinds hst' hkind₁).trans hs.kinds
        have hs₁ := setStep_sound hs.sound hst' hsound₁
        split at h
        next hall =>
          simp only [Bool.and_eq_true, beq_iff_eq, all_eq_true] at hall
          obtain ⟨hc, hall⟩ := hall
          have hf := hs.fits
          rw [show d.saga.status = .confirming from hc] at hf
          have hp₁ : st₁.compensation = .none := by
            rw [← hst₁]; exact (hf.1 st hmem (by rw [hr]; decide)).2.2
          obtain ⟨-, rfl⟩ := transition_ok h
          refine ⟨hk₁, hs₁, fun x hx hxs => ?_⟩
          have hxc := (hall x hx).resolve_left hxs
          rcases mem_setStep hst' hx with rfl | hx'
          · exact ⟨hr₁, hxc, hp₁⟩
          · exact ⟨(hf.1 x hx' hxs).1, hxc, (hf.1 x hx' hxs).2.2⟩
        next hall =>
          rcases hs.status_of_confirm_pending hmem hp with hc | hc
          ·
            have hf := hs.fits
            rw [hc] at hf
            have hp₁ : st₁.compensation = .none := by
              rw [← hst₁]; exact (hf.1 st hmem (by rw [hr]; decide)).2.2
            have hc' : (d.touch.setStep res.kind st₁).saga.status = .confirming := hc
            rcases settle_ok h with ⟨rfl, -⟩ | ⟨hcomp, -⟩
            · refine ⟨hk₁, hs₁, ?_⟩
              show SagaStatus.Fits d.saga.status _
              rw [hc]
              refine ⟨fun x hx hxs => ?_, ?_⟩
              · rcases mem_setStep hst' hx with rfl | hx'
                · exact ⟨hr₁, .inr hc₁, hp₁⟩
                · exact hf.1 x hx' hxs
              · simp only [hc', beq_self_eq_true, Bool.true_and, all_eq_true, beq_iff_eq,
                  Classical.not_forall, not_or] at hall
                obtain ⟨x, hx, hxs, hxc⟩ := hall
                refine ⟨x, hx, ?_⟩
                rcases mem_setStep hst' hx with rfl | hx'
                · exact absurd hc₁ hxc
                · exact ((hf.1 x hx' hxs).2.1).resolve_right hxc
            · rw [hc'] at hcomp
              cases hcomp
          · exact setStep_settle_shaped hs hc hst hsound₁ hkind₁ (fun _ => .inl hc₁) h
      next =>
        dsimp only at h
        generalize hst₁ :
          ({ st with confirm := .failed, error := res.errorMessage, updatedAt := now } : SagaStep) =
            st₁ at h
        have hsound₁ : st₁.Sound := by
          subst hst₁
          exact ⟨.inr (.inl hr), .inr (.inr (.inr rfl)), (hs.sound st hmem).compensation,
            fun _ => hr, fun _ => hr⟩
        have hkind₁ : st₁.kind = st.kind := by rw [← hst₁]
        split at h
        next =>
          obtain ⟨d₂, ht, h⟩ := Except.bind_eq_ok.mp h
          obtain ⟨-, rfl⟩ := transition_ok ht
          obtain ⟨d₃, hcomp, h⟩ := Except.bind_eq_ok.mp h
          exact compensateAll_settle_shaped hcomp h rfl
            ((setStep_kinds hst' hkind₁).trans hs.kinds) (setStep_sound hs.sound hst' hsound₁)
        next hnc =>
          have hc : d.saga.status = .compensating :=
            (hs.status_of_confirm_pending hmem hp).resolve_left (by simpa using hnc)
          have hf := hs.fits
          rw [hc] at hf
          have hpn : st.compensation ≠ .none :=
            (hf.2 st hmem hr).resolve_left (by rw [hp]; decide)
          exact setStep_settle_shaped hs hc hst hsound₁ hkind₁
            (fun _ => .inr (by rw [← hst₁]; exact hpn)) h

theorem onCompensated_shaped {rep : CompensationReport} (hs : d.Shaped)
    (h : onCompensated rep now d = .ok d') : d'.Shaped := by
  unfold onCompensated at h
  dsimp only at h
  split at h
  next => cases h; exact hs
  next st hst =>
    split at h
    next => cases h; exact hs
    next hp =>
      have hp : st.compensation = .pending := by simpa using hp
      have hmem := step?_mem hst
      have hr : st.reserve = .succeeded :=
        (hs.sound st hmem).compensation_reserved (by rw [hp]; decide)
      have hc := hs.status_of_compensation_pending hmem hp
      obtain ⟨st₁, h, hkind₁, hr₁, hc₁, hp₁⟩ : ∃ st₁ : SagaStep,
          (d.touch.setStep (reportKind rep) st₁).settle = .ok d' ∧ st₁.kind = st.kind ∧
          st₁.reserve = st.reserve ∧ st₁.confirm = st.confirm ∧
          (st₁.compensation = .succeeded ∨ st₁.compensation = .failed) :=
        ⟨_, h, rfl, rfl, rfl, by split <;> simp⟩
      have hpn : st₁.compensation ≠ .none := by
        rcases hp₁ with hp₁ | hp₁ <;> rw [hp₁] <;> decide
      refine setStep_settle_shaped hs hc hst ⟨.inr (.inl (hr₁.trans hr)),
        hc₁ ▸ (hs.sound st hmem).confirm, .inr (.inr hp₁), fun _ => hr₁.trans hr,
        fun _ => hr₁.trans hr⟩ hkind₁ (fun _ => .inr hpn) h

end Draft

end OrderSaga
