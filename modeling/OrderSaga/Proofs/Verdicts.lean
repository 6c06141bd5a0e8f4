import OrderSaga.Proofs.Requests

namespace OrderSaga

/-- What every participant answers a saga, by participant name: whether it takes its hold, whether
it confirms it, and whether it releases it. -/
structure Verdicts where
  reserve : String → Bool
  confirm : String → Bool
  compensation : String → Bool

namespace Verdicts

variable (F : Verdicts) (ks : List String)

/-- The answer carries its participant's verdict for the phase it settles. -/
def Agrees : Answer → Prop
  | .reserved res => res.success = F.reserve res.kind
  | .confirmed res => res.success = F.confirm res.kind
  | .compensated rep => rep.success = F.compensation (Draft.reportKind rep)

/-- How a saga of the participants `ks` ends under the verdicts `F`. -/
def outcome : SagaStatus :=
  if ks.all F.reserve then
    if ks.all F.confirm then .completed
    else if ks.any F.confirm || !ks.all F.compensation then .failed
    else .compensationCompleted
  else if ks.any (fun k => F.reserve k && !F.compensation k) then .failed
  else .compensationCompleted

theorem outcome_isTerminal : (F.outcome ks).isTerminal = true := by
  unfold outcome
  split
  · split
    · rfl
    · split <;> rfl
  · split <;> rfl

theorem outcome_eq_completed :
    F.outcome ks = .completed ↔ ∀ k ∈ ks, F.reserve k = true ∧ F.confirm k = true := by
  unfold outcome
  constructor
  · intro h
    split at h
    next hr =>
      split at h
      next hc => exact fun k hk => ⟨List.all_eq_true.mp hr k hk, List.all_eq_true.mp hc k hk⟩
      next => split at h <;> cases h
    next => split at h <;> cases h
  · intro h
    have hr : ks.all F.reserve = true := List.all_eq_true.mpr fun k hk => (h k hk).1
    have hc : ks.all F.confirm = true := List.all_eq_true.mpr fun k hk => (h k hk).2
    simp [hr, hc]

variable {F ks}

theorem outcome_refused_clean (hr : ∃ k ∈ ks, F.reserve k = false)
    (hp : ∀ k ∈ ks, F.reserve k = true → F.compensation k = true) :
    F.outcome ks = .compensationCompleted := by
  have hr : ks.all F.reserve = false := by simpa using hr
  have hp : ks.any (fun k => F.reserve k && !F.compensation k) = false := by
    simpa using fun k hk hrk => hp k hk hrk
  simp only [outcome, hr, hp, Bool.false_eq_true, ↓reduceIte]

theorem outcome_refused_failed (hr : ∃ k ∈ ks, F.reserve k = false)
    (hp : ∃ k ∈ ks, F.reserve k = true ∧ F.compensation k = false) :
    F.outcome ks = .failed := by
  have hr : ks.all F.reserve = false := by simpa using hr
  have hp : ks.any (fun k => F.reserve k && !F.compensation k) = true := by simpa using hp
  simp only [outcome, hr, hp, Bool.false_eq_true, ↓reduceIte]

theorem outcome_unconfirmed_clean (hr : ∀ k ∈ ks, F.reserve k = true)
    (hc : ∃ k ∈ ks, F.confirm k = false) (hnc : ∀ k ∈ ks, F.confirm k = false)
    (hp : ∀ k ∈ ks, F.compensation k = true) : F.outcome ks = .compensationCompleted := by
  have hr : ks.all F.reserve = true := List.all_eq_true.mpr hr
  have hc : ks.all F.confirm = false := by simpa using hc
  have hnc : ks.any F.confirm = false := by simpa using hnc
  have hp : ks.all F.compensation = true := List.all_eq_true.mpr hp
  simp only [outcome, hr, hc, hnc, hp, Bool.not_true, Bool.or_self, Bool.false_eq_true,
    ↓reduceIte]

theorem outcome_unconfirmed_failed (hr : ∀ k ∈ ks, F.reserve k = true)
    (hc : ∃ k ∈ ks, F.confirm k = false)
    (hx : (∃ k ∈ ks, F.confirm k = true) ∨ ∃ k ∈ ks, F.compensation k = false) :
    F.outcome ks = .failed := by
  have hr : ks.all F.reserve = true := List.all_eq_true.mpr hr
  have hc : ks.all F.confirm = false := by simpa using hc
  have hx : (ks.any F.confirm || !ks.all F.compensation) = true := by simpa using hx
  simp only [outcome, hr, hc, hx, Bool.false_eq_true, ↓reduceIte]

end Verdicts

namespace StepState

def ofVerdict (ok : Bool) : StepState := if ok then .succeeded else .failed

@[simp] theorem ofVerdict_eq_succeeded {ok : Bool} : ofVerdict ok = .succeeded ↔ ok = true := by
  cases ok <;> simp [ofVerdict]

@[simp] theorem ofVerdict_eq_failed {ok : Bool} : ofVerdict ok = .failed ↔ ok = false := by
  cases ok <;> simp [ofVerdict]

def Heeds (p : StepState) (ok : Bool) : Prop := p = .succeeded ∨ p = .failed → p = ofVerdict ok

theorem Heeds.move {p p' : StepState} {ok : Bool} (h : p.Heeds ok)
    (hp : p' = p ∨ p' = .pending ∨ p' = ofVerdict ok) : p'.Heeds ok := by
  rcases hp with rfl | rfl | rfl
  · exact h
  · rintro (h | h) <;> cases h
  · exact fun _ => rfl

end StepState

def participants (steps : List SagaStep) : List String :=
  (steps.filter (·.reserve != .skipped)).map (·.kind)

namespace SagaStep

/-- A step of a saga of the participants `ks` answered by `F`: it is skipped exactly when its
participant takes no part, and each of its answered phases holds that participant's verdict. -/
structure Heeds (F : Verdicts) (ks : List String) (st : SagaStep) : Prop where
  skipped : st.reserve = .skipped ↔ st.kind ∉ ks
  reserve : st.reserve.Heeds (F.reserve st.kind)
  confirm : st.confirm.Heeds (F.confirm st.kind)
  compensation : st.compensation.Heeds (F.compensation st.kind)

variable {F : Verdicts} {ks : List String} {st st' : SagaStep}

theorem Heeds.move (h : st.Heeds F ks) (hk : st'.kind = st.kind)
    (hs : st'.reserve = .skipped ↔ st.reserve = .skipped)
    (hr : st'.reserve = st.reserve ∨ st'.reserve = .pending ∨
      st'.reserve = .ofVerdict (F.reserve st.kind))
    (hc : st'.confirm = st.confirm ∨ st'.confirm = .pending ∨
      st'.confirm = .ofVerdict (F.confirm st.kind))
    (hp : st'.compensation = st.compensation ∨ st'.compensation = .pending ∨
      st'.compensation = .ofVerdict (F.compensation st.kind)) : st'.Heeds F ks := by
  refine ⟨?_, ?_, ?_, ?_⟩ <;> rw [hk]
  · exact hs.trans h.skipped
  · exact h.reserve.move hr
  · exact h.confirm.move hc
  · exact h.compensation.move hp

theorem Heeds.released (h : st.Heeds F ks) : st.released.Heeds F ks := by
  unfold SagaStep.released
  split
  · exact h.move rfl Iff.rfl (.inl rfl) (.inl rfl) (.inr (.inl rfl))
  · exact h

theorem Heeds.confirming (h : st.Heeds F ks) : st.confirming.Heeds F ks := by
  unfold SagaStep.confirming
  split
  · exact h.move rfl Iff.rfl (.inl rfl) (.inr (.inl rfl)) (.inl rfl)
  · exact h

theorem Heeds.reserve_done (h : st.Heeds F ks) (hs : st.Sound) (hw : st.waiting = false)
    (hk : st.kind ∈ ks) : st.reserve = .ofVerdict (F.reserve st.kind) := by
  apply h.reserve
  rcases hs.reserve with hp | hp | hp | hp
  · simp [waiting, hp] at hw
  · exact .inl hp
  · exact .inr hp
  · exact absurd hk (h.skipped.mp hp)

theorem Heeds.confirm_done (h : st.Heeds F ks) (hs : st.Sound) (hw : st.waiting = false)
    (hc : st.confirm ≠ .none) : st.confirm = .ofVerdict (F.confirm st.kind) := by
  apply h.confirm
  rcases hs.confirm with hp | hp | hp | hp
  · exact absurd hp hc
  · simp [waiting, hp] at hw
  · exact .inl hp
  · exact .inr hp

theorem Heeds.compensation_done (h : st.Heeds F ks) (hs : st.Sound) (hw : st.waiting = false)
    (hc : st.compensation ≠ .none) : st.compensation = .ofVerdict (F.compensation st.kind) := by
  apply h.compensation
  rcases hs.compensation with hp | hp | hp | hp
  · exact absurd hp hc
  · simp [waiting, hp] at hw
  · exact .inl hp
  · exact .inr hp

end SagaStep

/-- Why a saga compensates: a reservation was refused before any confirmation was asked for, or
every participant took its hold, was asked to confirm, and one refused. -/
def Cause (steps : List SagaStep) : Prop :=
  ((∃ st ∈ steps, st.reserve = .failed) ∧ ∀ st ∈ steps, st.confirm = .none) ∨
  ((∃ st ∈ steps, st.confirm = .failed) ∧
    ∀ st ∈ steps, st.reserve ≠ .skipped → st.reserve = .succeeded ∧ st.confirm ≠ .none)

/-- What a saga answered by `F` keeps besides its shape: its steps heed the verdicts, a saga that
compensates or ended compensating has a cause, and a failed one an account that is not clean. -/
structure Tracks (F : Verdicts) (ks : List String) (status : SagaStatus)
    (steps : List SagaStep) : Prop where
  heeds : ∀ st ∈ steps, st.Heeds F ks
  cause : status = .compensating ∨ status = .compensationCompleted ∨ status = .failed →
    Cause steps
  unclean : status = .failed → Draft.account steps ≠ ([], [])

/-- The invariant of a saga whose participants `ks` answer by `F`. -/
structure Follows (F : Verdicts) (ks : List String) (status : SagaStatus)
    (steps : List SagaStep) : Prop extends Tracks F ks status steps where
  shaped : Shaped status steps

section Invariant

variable {F : Verdicts} {ks : List String} {status : SagaStatus} {steps : List SagaStep}

theorem Cause.released (h : Cause steps) : Cause (steps.map SagaStep.released) := by
  have hex : ∀ {P : SagaStep → Prop}, (∀ x, P x.released ↔ P x) → (∃ x ∈ steps, P x) →
      ∃ x ∈ steps.map SagaStep.released, P x :=
    fun hP ⟨x, hx, hpx⟩ => ⟨x.released, List.mem_map_of_mem hx, (hP x).mpr hpx⟩
  simp only [Cause, List.forall_mem_map, SagaStep.released_reserve, SagaStep.released_confirm]
  rcases h with ⟨hx, hall⟩ | ⟨hx, hall⟩
  · exact .inl ⟨hex (fun x => by simp) hx, hall⟩
  · exact .inr ⟨hex (fun x => by simp) hx, hall⟩

theorem Tracks.of_heeds (hh : ∀ st ∈ steps, st.Heeds F ks)
    (hs : status = .reserving ∨ status = .confirming ∨ status = .completed) :
    Tracks F ks status steps := by
  refine ⟨hh, fun hc => ?_, fun hf => ?_⟩
  · rcases hs with rfl | rfl | rfl <;> rcases hc with h | h | h <;> cases h
  · rcases hs with rfl | rfl | rfl <;> cases hf

end Invariant

namespace Draft

variable {F : Verdicts} {ks : List String} {d d' : Draft} {k : String} {st st' : SagaStep}
  {now : Instant}

/-! ### One step replaced -/

theorem mem_setStep_of_ne (h : d.step? k = some st) {x : SagaStep} (hx : x ∈ d.steps)
    (hne : x ≠ st) : x ∈ (d.setStep k st').steps := by
  obtain ⟨pre, post, hsplit, -, hset⟩ := setStep_steps st' h
  rw [hsplit] at hx
  rw [hset]
  simp only [List.mem_append, List.mem_cons] at hx ⊢
  rcases hx with hx | rfl | hx
  · exact .inl hx
  · exact absurd rfl hne
  · exact .inr (.inr hx)

theorem forall_setStep {P : SagaStep → Prop} (h : d.step? k = some st)
    (hall : ∀ x ∈ d.steps, P x) (hst' : P st') : ∀ x ∈ (d.setStep k st').steps, P x := by
  intro x hx
  rcases mem_setStep h hx with rfl | hx
  · exact hst'
  · exact hall x hx

theorem exists_setStep {P : SagaStep → Prop} (h : d.step? k = some st)
    (hex : ∃ x ∈ d.steps, P x) (hst' : P st → P st') : ∃ x ∈ (d.setStep k st').steps, P x := by
  obtain ⟨x, hx, hpx⟩ := hex
  by_cases hxs : x = st
  · subst hxs
    exact ⟨st', setStep_mem h, hst' hpx⟩
  · exact ⟨x, mem_setStep_of_ne h hx hxs, hpx⟩

theorem Cause.setStep (h : d.step? k = some st) (hc : Cause d.steps)
    (hr : st.reserve = .failed → st'.reserve = .failed)
    (hcf : st.confirm = .failed → st'.confirm = .failed)
    (hA : (∀ x ∈ d.steps, x.confirm = .none) → st'.confirm = .none)
    (hB : (∀ x ∈ d.steps, x.reserve ≠ .skipped → x.reserve = .succeeded ∧ x.confirm ≠ .none) →
      st'.reserve ≠ .skipped → st'.reserve = .succeeded ∧ st'.confirm ≠ .none) :
    Cause (d.setStep k st').steps := by
  rcases hc with ⟨hex, hall⟩ | ⟨hex, hall⟩
  · exact .inl ⟨exists_setStep h hex hr, forall_setStep h hall (hA hall)⟩
  · exact .inr ⟨exists_setStep h hex hcf, forall_setStep h hall (hB hall)⟩

/-! ### Settling -/

theorem settle_tracks (h : d.settle = .ok d') (hc : d.saga.status = .compensating)
    (hh : ∀ x ∈ d.steps, x.Heeds F ks) (hcause : Cause d.steps) :
    Tracks F ks d'.saga.status d'.steps := by
  rcases settle_ok h with ⟨rfl, -⟩ | ⟨-, -, hsteps, -, -, hclean, -⟩
  · exact ⟨hh, fun _ => hcause, fun hf => by rw [hc] at hf; cases hf⟩
  · rw [hsteps]
    refine ⟨hh, fun _ => hcause, fun hf ha => ?_⟩
    rw [hclean ha] at hf
    cases hf

theorem compensateAll_settle_tracks {d₂ d₃ : Draft} (hcomp : d₂.compensateAll now = .ok d₃)
    (h : d₃.settle = .ok d') (hc : d₂.saga.status = .compensating)
    (hh : ∀ x ∈ d₂.steps, x.Heeds F ks) (hcause : Cause d₂.steps) :
    Tracks F ks d'.saga.status d'.steps := by
  obtain ⟨hsaga, hsteps, -⟩ := compensateAll_ok hcomp
  refine settle_tracks h (by rw [hsaga, hc]) ?_ ?_
  · rw [hsteps]
    exact List.forall_mem_map.mpr fun x hx => (hh x hx).released
  · rw [hsteps]
    exact hcause.released

/-! ### The three answers -/

theorem onReserved_tracks {res : StepResult} (hf : Follows F ks d.saga.status d.steps)
    (ha : res.success = F.reserve res.kind) (h : onReserved res now d = .ok d') :
    Tracks F ks d'.saga.status d'.steps := by
  unfold onReserved at h
  split at h
  next => cases h; exact hf.toTracks
  next st hst =>
    split at h
    next => cases h; exact hf.toTracks
    next hp =>
      have hp : st.reserve = .pending := by simpa using hp
      have hmem := step?_mem hst
      have hv : F.reserve st.kind = res.success := by rw [step?_kind hst, ha]
      have hst' : d.touch.step? res.kind = some st := hst
      have hh := hf.heeds st hmem
      have hcn := (Shaped.fresh_of_reserve_pending hf.shaped hmem hp).1
      have hB : (∀ x ∈ d.steps, x.reserve ≠ .skipped →
          x.reserve = .succeeded ∧ x.confirm ≠ .none) → False := fun hall => by
        have hr := (hall st hmem (by rw [hp]; decide)).1
        rw [hp] at hr
        cases hr
      split at h
      next hno =>
        have hno : res.success = false := by simpa using hno
        dsimp only at h
        generalize hst₁ :
          ({ st with reserve := .failed, error := res.errorMessage, updatedAt := now } : SagaStep) =
            st₁ at h
        have hh₁ : st₁.Heeds F ks := by
          subst hst₁
          exact hh.move rfl (by simp [hp]) (.inr (.inr (by rw [hv, hno]; rfl))) (.inl rfl)
            (.inl rfl)
        have hheeds := forall_setStep hst' hf.heeds hh₁
        split at h
        next hres =>
          have hres : d.saga.status = .reserving := by simpa using hres
          obtain ⟨d₂, ht, h⟩ := Except.bind_eq_ok.mp h
          obtain ⟨-, rfl⟩ := transition_ok ht
          obtain ⟨d₃, hcomp, h⟩ := Except.bind_eq_ok.mp h
          have hcause : Cause (d.touch.setStep res.kind st₁).steps :=
            .inl ⟨⟨st₁, setStep_mem hst', by rw [← hst₁]⟩,
              forall_setStep hst' (fun x hx => confirm_none_of_reserving hf.shaped hres hx)
                (by rw [← hst₁]; exact hcn)⟩
          exact compensateAll_settle_tracks hcomp h rfl hheeds hcause
        next hres =>
          have hc : d.saga.status = .compensating :=
            (hf.shaped.status_of_reserve_pending hmem hp).resolve_left (by simpa using hres)
          refine settle_tracks h hc hheeds ?_
          exact Cause.setStep hst' (hf.cause (.inl hc)) (fun _ => by rw [← hst₁])
            (fun h => by rw [← hst₁]; exact h) (fun _ => by rw [← hst₁]; exact hcn)
            (fun hall => (hB hall).elim)
      next hyes =>
        have hyes : res.success = true := by simpa using hyes
        dsimp only at h
        generalize hst₂ :
          ({ st with reserve := .succeeded, updatedAt := now } : SagaStep) = st₂ at h
        have hh₂ : st₂.Heeds F ks := by
          subst hst₂
          exact hh.move rfl (by simp [hp]) (.inr (.inr (by rw [hv, hyes]; rfl))) (.inl rfl)
            (.inl rfl)
        have hk₂ : st₂.kind = res.kind := by
          rw [← hst₂]
          exact (step?_kind hst : st.kind = res.kind)
        split at h
        next hres =>
          split at h
          next =>
            obtain ⟨d₂, ht, h⟩ := Except.bind_eq_ok.mp h
            obtain ⟨-, rfl⟩ := transition_ok ht
            obtain ⟨-, hsaga, hsteps, -⟩ := startConfirm_ok h
            rw [hsaga, hsteps]
            exact Tracks.of_heeds (List.forall_mem_map.mpr fun x hx =>
              (forall_setStep hst' hf.heeds hh₂ x hx).confirming) (.inr (.inl rfl))
          next =>
            cases h
            exact Tracks.of_heeds (forall_setStep hst' hf.heeds hh₂) (.inl hres)
        next hres =>
          obtain ⟨d₂, hcomp, h⟩ := Except.bind_eq_ok.mp h
          have hfound₂ : (d.touch.setStep res.kind st₂).step? res.kind = some st₂ :=
            setStep_step? hst' hk₂
          obtain ⟨es, rfl, -, -⟩ := compensate_ok hfound₂ hcomp
          have hsteps : (((d.touch.setStep res.kind st₂).setStep res.kind st₂.released).emit
              es).steps = (d.touch.setStep res.kind st₂.released).steps :=
            setStep_setStep hst' hk₂
          have hc : d.saga.status = .compensating := hres
          refine settle_tracks h hc ?_ ?_
          · rw [hsteps]
            exact forall_setStep hst' hf.heeds hh₂.released
          · rw [hsteps]
            exact Cause.setStep hst' (hf.cause (.inl hc)) (fun h => by rw [hp] at h; cases h)
              (fun h => by rw [SagaStep.released_confirm, ← hst₂]; exact h)
              (fun _ => by rw [SagaStep.released_confirm, ← hst₂]; exact hcn)
              (fun hall => (hB hall).elim)
        next hnr hnc =>
          rcases hf.shaped.status_of_reserve_pending hmem hp with hres | hres
          · exact absurd hres hnr
          · exact absurd hres hnc

theorem onConfirmed_tracks {res : StepResult} (hf : Follows F ks d.saga.status d.steps)
    (ha : res.success = F.confirm res.kind) (h : onConfirmed res now d = .ok d') :
    Tracks F ks d'.saga.status d'.steps := by
  unfold onConfirmed at h
  split at h
  next => cases h; exact hf.toTracks
  next st hst =>
    split at h
    next => cases h; exact hf.toTracks
    next hp =>
      have hp : st.confirm = .pending := by simpa using hp
      have hmem := step?_mem hst
      have hr : st.reserve = .succeeded :=
        (hf.shaped.sound st hmem).confirm_reserved (by rw [hp]; decide)
      have hv : F.confirm st.kind = res.success := by rw [step?_kind hst, ha]
      have hst' : d.touch.step? res.kind = some st := hst
      have hh := hf.heeds st hmem
      have hcause : ∀ st₁ : SagaStep, st₁.reserve = st.reserve → st₁.confirm ≠ .none →
          Cause d.steps → Cause (d.touch.setStep res.kind st₁).steps := by
        intro st₁ hr₁ hc₁ hc
        refine Cause.setStep hst' hc (fun h => by rw [hr] at h; cases h)
          (fun h => by rw [hp] at h; cases h) (fun hall => ?_) (fun _ _ => ⟨hr₁.trans hr, hc₁⟩)
        have hn := hall st hmem
        rw [hp] at hn
        cases hn
      split at h
      next hyes =>
        dsimp only at h
        generalize hst₁ :
          ({ st with confirm := .succeeded, updatedAt := now } : SagaStep) = st₁ at h
        have hh₁ : st₁.Heeds F ks := by
          subst hst₁
          exact hh.move rfl Iff.rfl (.inl rfl) (.inr (.inr (by rw [hv, hyes]; rfl))) (.inl rfl)
        have hheeds := forall_setStep hst' hf.heeds hh₁
        split at h
        next =>
          obtain ⟨-, rfl⟩ := transition_ok h
          exact Tracks.of_heeds hheeds (.inr (.inr rfl))
        next =>
          rcases hf.shaped.status_of_confirm_pending hmem hp with hc | hc
          ·
            rcases settle_ok h with ⟨rfl, -⟩ | ⟨hcomp, -⟩
            · exact Tracks.of_heeds hheeds (.inr (.inl hc))
            · exact absurd (hcomp.symm.trans hc) (by decide)
          · exact settle_tracks h hc hheeds
              (hcause st₁ (by rw [← hst₁]) (by rw [← hst₁]; simp) (hf.cause (.inl hc)))
      next hno =>
        have hno : res.success = false := by simpa using hno
        dsimp only at h
        generalize hst₁ :
          ({ st with confirm := .failed, error := res.errorMessage, updatedAt := now } : SagaStep) =
            st₁ at h
        have hh₁ : st₁.Heeds F ks := by
          subst hst₁
          exact hh.move rfl Iff.rfl (.inl rfl) (.inr (.inr (by rw [hv, hno]; rfl))) (.inl rfl)
        have hheeds := forall_setStep hst' hf.heeds hh₁
        split at h
        next hc =>
          have hc : d.saga.status = .confirming := by simpa using hc
          have hfits := hf.shaped.fits
          rw [hc] at hfits
          obtain ⟨d₂, ht, h⟩ := Except.bind_eq_ok.mp h
          obtain ⟨-, rfl⟩ := transition_ok ht
          obtain ⟨d₃, hcomp, h⟩ := Except.bind_eq_ok.mp h
          have hbegun : ∀ x ∈ d.steps, x.reserve ≠ .skipped →
              x.reserve = .succeeded ∧ x.confirm ≠ .none := by
            intro x hx hxs
            obtain ⟨hxr, hxc, -⟩ := hfits.1 x hx hxs
            exact ⟨hxr, by rcases hxc with hxc | hxc <;> rw [hxc] <;> decide⟩
          have hcause : Cause (d.touch.setStep res.kind st₁).steps :=
            .inr ⟨⟨st₁, setStep_mem hst', by rw [← hst₁]⟩,
              forall_setStep hst' hbegun (fun _ => ⟨by rw [← hst₁]; exact hr,
                by rw [← hst₁]; simp⟩)⟩
          exact compensateAll_settle_tracks hcomp h rfl hheeds hcause
        next hnc =>
          have hc : d.saga.status = .compensating :=
            (hf.shaped.status_of_confirm_pending hmem hp).resolve_left (by simpa using hnc)
          exact settle_tracks h hc hheeds
            (hcause st₁ (by rw [← hst₁]) (by rw [← hst₁]; simp) (hf.cause (.inl hc)))

theorem onCompensated_tracks {rep : CompensationReport} (hf : Follows F ks d.saga.status d.steps)
    (ha : rep.success = F.compensation (reportKind rep)) (h : onCompensated rep now d = .ok d') :
    Tracks F ks d'.saga.status d'.steps := by
  unfold onCompensated at h
  dsimp only at h
  split at h
  next => cases h; exact hf.toTracks
  next st hst =>
    split at h
    next => cases h; exact hf.toTracks
    next hp =>
      have hp : st.compensation = .pending := by simpa using hp
      have hmem := step?_mem hst
      have hc := hf.shaped.status_of_compensation_pending hmem hp
      have hv : F.compensation st.kind = rep.success := by rw [step?_kind hst, ha]
      obtain ⟨st₁, h, hk₁, hr₁, hc₁, hp₁⟩ : ∃ st₁ : SagaStep,
          (d.touch.setStep (reportKind rep) st₁).settle = .ok d' ∧ st₁.kind = st.kind ∧
          st₁.reserve = st.reserve ∧ st₁.confirm = st.confirm ∧
          st₁.compensation = .ofVerdict (F.compensation st.kind) :=
        ⟨_, h, rfl, rfl, rfl, by rw [hv]; rfl⟩
      have hst' : d.touch.step? (reportKind rep) = some st := hst
      have hh₁ : st₁.Heeds F ks :=
        (hf.heeds st hmem).move hk₁ (by rw [hr₁]) (.inl hr₁) (.inl hc₁) (.inr (.inr hp₁))
      refine settle_tracks h hc (forall_setStep hst' hf.heeds hh₁) ?_
      refine Cause.setStep hst' (hf.cause (.inl hc)) (fun h => hr₁.trans h)
        (fun h => hc₁.trans h) (fun hall => hc₁.trans (hall st hmem)) (fun hall hs => ?_)
      rw [hr₁] at hs ⊢
      rw [hc₁]
      exact hall st hmem hs

end Draft

theorem Answer.apply_follows {F : Verdicts} {ks : List String} {a : Answer} {now : Instant}
    {d d' : Draft} (hf : Follows F ks d.saga.status d.steps) (ha : F.Agrees a)
    (h : a.apply now d = .ok d') : Follows F ks d'.saga.status d'.steps := by
  cases a with
  | reserved res => exact ⟨Draft.onReserved_tracks hf ha h, Draft.onReserved_shaped hf.shaped h⟩
  | confirmed res =>
    exact ⟨Draft.onConfirmed_tracks hf ha h, Draft.onConfirmed_shaped hf.shaped h⟩
  | compensated rep =>
    exact ⟨Draft.onCompensated_tracks hf ha h, Draft.onCompensated_shaped hf.shaped h⟩

/-! ## A saga that waits for nothing -/

namespace Follows

variable {F : Verdicts} {ks : List String} {status : SagaStatus} {steps : List SagaStep}
  {st : SagaStep}

theorem step_of (hf : Follows F ks status steps) (hks : ∀ k ∈ ks, k ∈ Kind.all.map Kind.name)
    {k : String} (hk : k ∈ ks) : ∃ st ∈ steps, st.kind = k ∧ st.reserve ≠ .skipped := by
  rw [← hf.shaped.kinds] at hks
  obtain ⟨st, hst, rfl⟩ := List.mem_map.mp (hks k hk)
  exact ⟨st, hst, rfl, fun hs => (hf.heeds st hst).skipped.mp hs hk⟩

theorem mem_of_taking_part (hf : Follows F ks status steps) (hst : st ∈ steps)
    (hs : st.reserve ≠ .skipped) : st.kind ∈ ks :=
  Classical.byContradiction fun hk => hs ((hf.heeds st hst).skipped.mpr hk)

theorem mem_of_begun (hf : Follows F ks status steps) (hst : st ∈ steps)
    (hb : st.confirm ≠ .none ∨ st.compensation ≠ .none) : st.kind ∈ ks := by
  have hr : st.reserve = .succeeded :=
    hb.elim (hf.shaped.sound st hst).confirm_reserved (hf.shaped.sound st hst).compensation_reserved
  exact hf.mem_of_taking_part hst (by rw [hr]; decide)

theorem reserve_done (hf : Follows F ks status steps) (hw : ∀ x ∈ steps, x.waiting = false)
    (hst : st ∈ steps) (hk : st.kind ∈ ks) : st.reserve = .ofVerdict (F.reserve st.kind) :=
  (hf.heeds st hst).reserve_done (hf.shaped.sound st hst) (hw st hst) hk

theorem confirm_done (hf : Follows F ks status steps) (hw : ∀ x ∈ steps, x.waiting = false)
    (hst : st ∈ steps) (hc : st.confirm ≠ .none) : st.confirm = .ofVerdict (F.confirm st.kind) :=
  (hf.heeds st hst).confirm_done (hf.shaped.sound st hst) (hw st hst) hc

theorem compensation_done (hf : Follows F ks status steps) (hw : ∀ x ∈ steps, x.waiting = false)
    (hst : st ∈ steps) (hc : st.compensation ≠ .none) :
    st.compensation = .ofVerdict (F.compensation st.kind) :=
  (hf.heeds st hst).compensation_done (hf.shaped.sound st hst) (hw st hst) hc

variable (hks : ∀ k ∈ ks, k ∈ Kind.all.map Kind.name)
include hks

theorem completed_outcome (hf : Follows F ks .completed steps)
    (hw : ∀ x ∈ steps, x.waiting = false) : F.outcome ks = .completed := by
  refine (F.outcome_eq_completed ks).mpr fun k hk => ?_
  obtain ⟨st, hst, rfl, hs⟩ := hf.step_of hks hk
  obtain ⟨hr, hc, -⟩ := hf.shaped.fits st hst hs
  rw [hf.reserve_done hw hst hk] at hr
  rw [hf.confirm_done hw hst (by rw [hc]; decide)] at hc
  exact ⟨StepState.ofVerdict_eq_succeeded.mp hr, StepState.ofVerdict_eq_succeeded.mp hc⟩

theorem clean_outcome (hf : Follows F ks .compensationCompleted steps) :
    F.outcome ks = .compensationCompleted := by
  have hfits : ∀ x ∈ steps, x.waiting = false ∧ x.confirm ≠ .succeeded ∧
      x.compensation ≠ .failed ∧ (x.reserve = .succeeded → x.compensation ≠ .none) :=
    hf.shaped.fits
  have hw : ∀ x ∈ steps, x.waiting = false := fun x hx => (hfits x hx).1
  have hreleased : ∀ x ∈ steps, x.reserve = .succeeded → F.compensation x.kind = true := by
    intro x hx hxr
    obtain ⟨-, -, hpf, hpn⟩ := hfits x hx
    rw [hf.compensation_done hw hx (hpn hxr)] at hpf
    simpa using hpf
  rcases hf.cause (.inr (.inl rfl)) with ⟨⟨x, hx, hxr⟩, -⟩ | ⟨⟨x, hx, hxc⟩, hall⟩
  ·
    have hxk := hf.mem_of_taking_part hx (by rw [hxr]; decide)
    rw [hf.reserve_done hw hx hxk] at hxr
    refine Verdicts.outcome_refused_clean ⟨x.kind, hxk, by simpa using hxr⟩ fun k hk hrk => ?_
    obtain ⟨st, hst, rfl, -⟩ := hf.step_of hks hk
    exact hreleased st hst (by rw [hf.reserve_done hw hst hk]; simpa using hrk)
  ·
    have hxk := hf.mem_of_begun hx (.inl (by rw [hxc]; decide))
    rw [hf.confirm_done hw hx (by rw [hxc]; decide)] at hxc
    refine Verdicts.outcome_unconfirmed_clean (fun k hk => ?_) ⟨x.kind, hxk, by simpa using hxc⟩
      (fun k hk => ?_) (fun k hk => ?_) <;>
      obtain ⟨st, hst, rfl, hs⟩ := hf.step_of hks hk <;>
      obtain ⟨hr, hc⟩ := hall st hst hs
    · rw [hf.reserve_done hw hst hk] at hr
      simpa using hr
    · have hnc := (hfits st hst).2.1
      rw [hf.confirm_done hw hst hc] at hnc
      simpa using hnc
    · exact hreleased st hst hr

theorem failed_outcome (hf : Follows F ks .failed steps) : F.outcome ks = .failed := by
  have hfits : ∀ x ∈ steps, x.waiting = false ∧
      (x.reserve = .succeeded → x.confirm = .succeeded ∨ x.compensation ≠ .none) :=
    hf.shaped.fits
  have hw : ∀ x ∈ steps, x.waiting = false := fun x hx => (hfits x hx).1
  obtain ⟨y, hy, hyp⟩ : ∃ y ∈ steps, y.compensation = .failed ∨ y.confirm = .succeeded := by
    have hne := hf.unclean rfl
    rw [Ne, Draft.account_eq_nil_iff] at hne
    refine Classical.byContradiction fun hnone => hne fun y hy => ⟨fun h => ?_, fun h => ?_⟩
    · exact hnone ⟨y, hy, .inl h⟩
    · exact hnone ⟨y, hy, .inr h⟩
  have hyk := hf.mem_of_begun hy
    (hyp.symm.imp (fun h => by rw [h]; decide) (fun h => by rw [h]; decide))
  rcases hf.cause (.inr (.inr rfl)) with ⟨⟨x, hx, hxr⟩, hnone⟩ | ⟨⟨x, hx, hxc⟩, hall⟩
  ·
    have hxk := hf.mem_of_taking_part hx (by rw [hxr]; decide)
    rw [hf.reserve_done hw hx hxk] at hxr
    have hyp : y.compensation = .failed := hyp.resolve_right (by rw [hnone y hy]; decide)
    have hyr : y.reserve = .succeeded :=
      (hf.shaped.sound y hy).compensation_reserved (by rw [hyp]; decide)
    rw [hf.reserve_done hw hy hyk] at hyr
    rw [hf.compensation_done hw hy (by rw [hyp]; decide)] at hyp
    exact Verdicts.outcome_refused_failed ⟨x.kind, hxk, by simpa using hxr⟩
      ⟨y.kind, hyk, by simpa using hyr, by simpa using hyp⟩
  ·
    have hxk := hf.mem_of_begun hx (.inl (by rw [hxc]; decide))
    rw [hf.confirm_done hw hx (by rw [hxc]; decide)] at hxc
    refine Verdicts.outcome_unconfirmed_failed (fun k hk => ?_) ⟨x.kind, hxk, by simpa using hxc⟩
      ?_
    · obtain ⟨st, hst, rfl, hs⟩ := hf.step_of hks hk
      have hr := (hall st hst hs).1
      rw [hf.reserve_done hw hst hk] at hr
      simpa using hr
    · rcases hyp with hyp | hyp
      · rw [hf.compensation_done hw hy (by rw [hyp]; decide)] at hyp
        exact .inr ⟨y.kind, hyk, by simpa using hyp⟩
      · rw [hf.confirm_done hw hy (by rw [hyp]; decide)] at hyp
        exact .inl ⟨y.kind, hyk, by simpa using hyp⟩

omit hks in
theorem ended (hf : Follows F ks status steps) (hw : ∀ x ∈ steps, x.waiting = false) :
    status = .completed ∨ status = .compensationCompleted ∨ status = .failed := by
  have hfits := hf.shaped.fits
  rcases hf.shaped.status_stored with hs | hs | hs | hs | hs | hs <;> subst hs
  · obtain ⟨st, hst, hp⟩ := hfits.2
    have := hw st hst
    simp [SagaStep.waiting, hp] at this
  · obtain ⟨st, hst, hp⟩ := hfits.2
    have := hw st hst
    simp [SagaStep.waiting, hp] at this
  · obtain ⟨st, hst, hwt⟩ := hfits.1
    rw [hw st hst] at hwt
    cases hwt
  · exact .inl rfl
  · exact .inr (.inl rfl)
  · exact .inr (.inr rfl)

theorem outcome (hf : Follows F ks status steps) (hw : ∀ x ∈ steps, x.waiting = false) :
    status = F.outcome ks := by
  rcases hf.ended hw with rfl | rfl | rfl
  · exact (hf.completed_outcome hks hw).symm
  · exact (hf.clean_outcome hks).symm
  · exact (hf.failed_outcome hks).symm

end Follows

/-! ## A saga just placed -/

namespace OrderRequest

variable {r : OrderRequest} {mode : Kind → Mode} {now : Instant}

theorem participants_catalogued :
    ∀ k ∈ participants (r.steps mode now), k ∈ Kind.all.map Kind.name := by
  intro k hk
  obtain ⟨st, hst, rfl⟩ := List.mem_map.mp hk
  rw [← steps_kinds]
  exact List.mem_map_of_mem (List.mem_of_mem_filter hst)

theorem placed_follows (hv : r.validate = .ok ()) (F : Verdicts) :
    Follows F (participants (r.steps mode now)) .reserving (r.steps mode now) := by
  refine ⟨Tracks.of_heeds (fun st hst => ?_) (.inl rfl), steps_shaped hv⟩
  obtain ⟨hr, hc, hp⟩ := steps_fresh hst
  have hunanswered : ∀ {p : StepState} {ok : Bool}, p = .pending ∨ p = .skipped ∨ p = .none →
      p.Heeds ok := by
    rintro p ok (rfl | rfl | rfl) (h | h) <;> cases h
  refine ⟨⟨fun hs hk => ?_, fun hk => ?_⟩, hunanswered (hr.imp_right .inl),
    hunanswered (.inr (.inr hc)), hunanswered (.inr (.inr hp))⟩
  ·
    obtain ⟨x, hx, hxk⟩ := List.mem_map.mp hk
    obtain ⟨hx, hxs⟩ := List.mem_filter.mp hx
    rw [eq_of_kind_eq steps_kinds hx hst hxk, hs] at hxs
    cases hxs
  · refine Classical.byContradiction fun hs => hk (List.mem_map_of_mem ?_)
    exact List.mem_filter.mpr ⟨hst, by simpa using hs⟩

end OrderRequest

end OrderSaga
