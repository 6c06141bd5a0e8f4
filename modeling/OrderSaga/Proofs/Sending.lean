import OrderSaga.Proofs.Shape

namespace OrderSaga

def stepsWith (steps : List SagaStep) (kd : Kind) (p : SagaStep → Bool) : Nat :=
  steps.countP fun st => st.kind == kd.name && p st

namespace SagaStep

def confirmBegun (st : SagaStep) : Bool := st.confirm != .none

def releaseBegun (st : SagaStep) : Bool := st.compensation != .none

def isSkipped (st : SagaStep) : Bool := st.reserve == .skipped

@[simp] theorem released_confirmBegun (st : SagaStep) :
    st.released.confirmBegun = st.confirmBegun := by
  simp [confirmBegun]

@[simp] theorem released_isSkipped (st : SagaStep) : st.released.isSkipped = st.isSkipped := by
  simp [isSkipped]

@[simp] theorem confirming_releaseBegun (st : SagaStep) :
    st.confirming.releaseBegun = st.releaseBegun := by
  simp [releaseBegun]

@[simp] theorem confirming_isSkipped (st : SagaStep) :
    st.confirming.isSkipped = st.isSkipped := by
  simp [isSkipped]

end SagaStep

namespace Effects

def confirmsFor (fx : Effects) (kd : Kind) : Nat :=
  fx.envelopes.countP (·.type == .confirmRequested kd) + fx.confirms.countP (·.kind == kd.name)

def releasesFor (fx : Effects) (kd : Kind) : Nat :=
  fx.envelopes.countP (·.type == .compensationRequested kd)

end Effects

/-! ## Counting the steps of a participant -/

section Counting

variable {steps : List SagaStep} {kd : Kind} {p : SagaStep → Bool}

theorem stepsWith_pos_iff :
    0 < stepsWith steps kd p ↔ ∃ st ∈ steps, st.kind = kd.name ∧ p st = true := by
  simp [stepsWith, List.countP_pos_iff]

theorem stepsWith_le_one (hk : steps.map (·.kind) = Kind.all.map Kind.name) :
    stepsWith steps kd p ≤ 1 := by
  have hone : steps.countP (fun st => st.kind == kd.name) = 1 := by
    have := congrArg (List.countP (· == kd.name)) hk
    simp only [List.countP_map] at this
    rw [show (fun st : SagaStep => st.kind == kd.name) = (· == kd.name) ∘ (·.kind) from rfl,
      this]
    cases kd <;> rfl
  calc stepsWith steps kd p
      ≤ steps.countP (fun st => st.kind == kd.name) :=
        List.countP_mono_left fun st _ h => (Bool.and_eq_true_iff.mp h).1
    _ = 1 := hone

theorem stepsWith_map {f : SagaStep → SagaStep} (hk : ∀ x, (f x).kind = x.kind)
    (hp : ∀ x, p (f x) = p x) : stepsWith (steps.map f) kd p = stepsWith steps kd p := by
  simp [stepsWith, List.countP_map, Function.comp_def, hk, hp]

theorem stepsWith_released :
    stepsWith (steps.map SagaStep.released) kd SagaStep.releaseBegun =
      stepsWith steps kd SagaStep.releaseBegun +
        steps.countP (fun st => st.needsCompensation && st.kind == kd.name) := by
  induction steps with
  | nil => rfl
  | cons x rest ih =>
    simp only [stepsWith, List.map_cons, List.countP_cons] at ih ⊢
    rw [ih]
    cases hn : x.needsCompensation with
    | false =>
      simp [SagaStep.released, hn]
      omega
    | true =>
      obtain ⟨-, -, hp⟩ := (SagaStep.needsCompensation_iff x).mp hn
      simp [SagaStep.released, SagaStep.releaseBegun, hn, hp]
      omega

theorem stepsWith_confirming (hfresh : ∀ st ∈ steps, st.confirm = .none) :
    stepsWith (steps.map SagaStep.confirming) kd SagaStep.confirmBegun =
      steps.countP (fun st => st.reserve == .succeeded && st.kind == kd.name) := by
  simp only [stepsWith, List.countP_map]
  apply List.countP_congr
  intro st hst
  have hc := hfresh st hst
  by_cases hr : st.reserve = .succeeded <;>
    simp [SagaStep.confirming, SagaStep.confirmBegun, hr, hc, Bool.and_comm]

end Counting

namespace Draft

variable {d d' d₁ : Draft} {k : String} {st st' : SagaStep} {now : Instant}

theorem stepsWith_setStep {p : SagaStep → Bool} {kd : Kind} (hst : d.step? k = some st)
    (hk : st'.kind = st.kind) (hp : p st' = p st) :
    stepsWith (d.setStep k st').steps kd p = stepsWith d.steps kd p := by
  obtain ⟨pre, post, hsplit, -, hset⟩ := setStep_steps st' hst
  simp only [stepsWith, hset, hsplit, List.countP_append, List.countP_cons, hk, hp]

/-! ## Accounts: what was begun was sent -/

/-- Between two drafts of one answer, every confirm and release begun was sent, once; no step
changed whether it takes part, and the saga kept its id. -/
structure Accounts (d d' : Draft) : Prop where
  confirms : ∀ kd, stepsWith d'.steps kd SagaStep.confirmBegun + d.effects.confirmsFor kd =
    stepsWith d.steps kd SagaStep.confirmBegun + d'.effects.confirmsFor kd
  releases : ∀ kd, stepsWith d'.steps kd SagaStep.releaseBegun + d.effects.releasesFor kd =
    stepsWith d.steps kd SagaStep.releaseBegun + d'.effects.releasesFor kd
  skipped : ∀ kd,
    stepsWith d'.steps kd SagaStep.isSkipped = stepsWith d.steps kd SagaStep.isSkipped
  sagaId : d'.saga.sagaId = d.saga.sagaId

theorem Accounts.refl (d : Draft) : Accounts d d :=
  ⟨fun _ => rfl, fun _ => rfl, fun _ => rfl, rfl⟩

theorem Accounts.trans {d₂ : Draft} (h₁ : Accounts d d₁) (h₂ : Accounts d₁ d₂) :
    Accounts d d₂ where
  confirms kd := by have := h₁.confirms kd; have := h₂.confirms kd; omega
  releases kd := by have := h₁.releases kd; have := h₂.releases kd; omega
  skipped kd := (h₂.skipped kd).trans (h₁.skipped kd)
  sagaId := h₂.sagaId.trans h₁.sagaId

theorem Accounts.of_same (hs : d'.steps = d.steps)
    (he : d'.effects.envelopes = d.effects.envelopes)
    (hc : d'.effects.confirms = d.effects.confirms) (hid : d'.saga.sagaId = d.saga.sagaId) :
    Accounts d d' where
  confirms kd := by simp [Effects.confirmsFor, hs, he, hc]
  releases kd := by simp [Effects.releasesFor, hs, he]
  skipped kd := by rw [hs]
  sagaId := hid

theorem Accounts.of_settle (h : d.settle = .ok d') : Accounts d d' := by
  rcases settle_ok h with ⟨rfl, -⟩ | ⟨-, -, hs, he, hid, -, -⟩
  · exact .refl _
  · exact .of_same hs (by rw [he]) (by rw [he]) hid

theorem Accounts.of_transition {next : SagaStatus} (h : d.transition next = .ok d') :
    Accounts d d' := by
  obtain ⟨-, rfl⟩ := transition_ok h
  exact .of_same rfl rfl rfl rfl

theorem releaseOf_type_ne (g : Saga) (kd kd' : Kind) (st : SagaStep) :
    ((releaseOf g kd' now st).type == .confirmRequested kd) = false := by
  simp [releaseOf]

theorem Accounts.of_compensateAll (h : d.compensateAll now = .ok d') : Accounts d d' := by
  obtain ⟨hsaga, hsteps, -, hconfirms, es, henv, hmem, hcount⟩ := compensateAll_ok h
  have hnone : ∀ kd, es.countP (·.type == .confirmRequested kd) = 0 := by
    intro kd
    refine List.countP_eq_zero.mpr fun e he => ?_
    obtain ⟨x, -, -, kd', -, rfl⟩ := hmem e he
    simp [releaseOf_type_ne]
  refine ⟨fun kd => ?_, fun kd => ?_, fun kd => ?_, by rw [hsaga]⟩
  · have := hnone kd
    rw [hsteps, stepsWith_map SagaStep.released_kind SagaStep.released_confirmBegun]
    simp only [Effects.confirmsFor, henv, hconfirms, List.countP_append]
    omega
  · rw [hsteps, stepsWith_released]
    simp only [Effects.releasesFor, henv, List.countP_append, hcount kd]
    omega
  · rw [hsteps, stepsWith_map SagaStep.released_kind SagaStep.released_isSkipped]

theorem Accounts.of_compensate (h : d.compensate k now = .ok d') : Accounts d d' := by
  cases hst : d.step? k with
  | none =>
    simp only [compensate, hst, Except.ok.injEq] at h
    rw [← h]
    exact .refl d
  | some st =>
    obtain ⟨es, rfl, hkeep, hemit⟩ := compensate_ok hst h
    have hk : st.released.kind = st.kind := SagaStep.released_kind st
    cases hn : st.needsCompensation with
    | false =>
      have hrel : st.released = st := by simp [SagaStep.released, hn]
      rw [hkeep hn, hrel]
      refine .of_same ?_ (by simp) rfl rfl
      obtain ⟨pre, post, hsplit, -, hset⟩ := setStep_steps st hst
      simp [hset, hsplit]
    | true =>
      obtain ⟨kd₀, hk₀, rfl⟩ := hemit hn
      obtain ⟨-, -, hp⟩ := (SagaStep.needsCompensation_iff st).mp hn
      refine ⟨fun kd => ?_, fun kd => ?_, fun kd => ?_, rfl⟩
      · rw [emit_steps, stepsWith_setStep hst hk (SagaStep.released_confirmBegun st)]
        simp [Effects.confirmsFor, releaseOf_type_ne]
      · obtain ⟨pre, post, hsplit, -, hset⟩ := setStep_steps st.released hst
        simp only [stepsWith, emit_steps, hset, hsplit, List.countP_append, List.countP_cons,
          hk, Effects.releasesFor, emit_envelopes, setStep_effects]
        by_cases hkd : kd₀ = kd
        · subst hkd
          simp [SagaStep.released, SagaStep.releaseBegun, hn, hp, releaseOf, ← hk₀]
          omega
        · have hname : (st.kind == kd.name) = false := by
            simpa [← hk₀, Kind.name_inj] using hkd
          simp [hname, releaseOf, hkd]
      · rw [emit_steps, stepsWith_setStep hst hk (SagaStep.released_isSkipped st)]

theorem Accounts.of_startConfirm (hfresh : ∀ st ∈ d.steps, st.confirm = .none)
    (h : d.startConfirm now = .ok d') : Accounts d d' := by
  obtain ⟨-, hsaga, hsteps, -, es, sync, henv, hconfirms, -, hmem, hcount⟩ := startConfirm_ok h
  have hnone : ∀ kd, es.countP (·.type == .compensationRequested kd) = 0 := by
    intro kd
    refine List.countP_eq_zero.mpr fun e he => ?_
    obtain ⟨x, -, -, -, kd', -, rfl⟩ := hmem e he
    simp [commandOf]
  have hbegun : ∀ kd, stepsWith d.steps kd SagaStep.confirmBegun = 0 := by
    intro kd
    refine List.countP_eq_zero.mpr fun x hx => ?_
    simp [SagaStep.confirmBegun, hfresh x hx]
  refine ⟨fun kd => ?_, fun kd => ?_, fun kd => ?_, by rw [hsaga]⟩
  · rw [hsteps, stepsWith_confirming hfresh, hbegun kd, ← hcount kd]
    simp only [Effects.confirmsFor, henv, hconfirms, List.countP_append]
    omega
  · have := hnone kd
    rw [hsteps, stepsWith_map SagaStep.confirming_kind SagaStep.confirming_releaseBegun]
    simp only [Effects.releasesFor, henv, List.countP_append]
    omega
  · rw [hsteps, stepsWith_map SagaStep.confirming_kind SagaStep.confirming_isSkipped]

/-! ## Awaiting: what was sent waits for its answer -/

theorem confirmsFor_eq_zero {fx : Effects} (he : fx.envelopes = []) (hc : fx.confirms = [])
    (kd : Kind) : fx.confirmsFor kd = 0 := by
  simp [Effects.confirmsFor, he, hc]

theorem releasesFor_eq_zero {fx : Effects} (he : fx.envelopes = []) (kd : Kind) :
    fx.releasesFor kd = 0 := by
  simp [Effects.releasesFor, he]

/-- Every confirm a draft has sent comes from a confirming saga, and every release it has sent is
for a hold that waits for it: reserved, not confirmed, its release pending. -/
structure Awaiting (d : Draft) : Prop where
  confirms : ∀ kd, 0 < d.effects.confirmsFor kd → d.saga.status = .confirming
  releases : ∀ kd, 0 < d.effects.releasesFor kd → ∃ st ∈ d.steps, st.kind = kd.name ∧
    st.reserve = .succeeded ∧ st.confirm ≠ .succeeded ∧ st.compensation = .pending

theorem Awaiting.of_quiet (he : d.effects.envelopes = []) (hc : d.effects.confirms = []) :
    Awaiting d where
  confirms kd h := by rw [confirmsFor_eq_zero he hc] at h; cases h
  releases kd h := by rw [releasesFor_eq_zero he] at h; cases h

theorem Awaiting.of_same (ha : Awaiting d) (hs : d'.steps = d.steps)
    (he : d'.effects.envelopes = d.effects.envelopes)
    (hc : d'.effects.confirms = d.effects.confirms)
    (hst : d'.saga.status = d.saga.status) : Awaiting d' where
  confirms kd h := by
    rw [hst]
    exact ha.confirms kd (by simpa [Effects.confirmsFor, he, hc] using h)
  releases kd h := by
    rw [hs]
    exact ha.releases kd (by simpa [Effects.releasesFor, he] using h)

theorem Awaiting.settle (ha : Awaiting d) (h : d.settle = .ok d') : Awaiting d' := by
  rcases settle_ok h with ⟨rfl, -⟩ | ⟨hc, -, hs, he, -, -, -⟩
  · exact ha
  · refine ⟨fun kd hk => ?_, fun kd hk => ?_⟩
    · have := ha.confirms kd (by simpa [Effects.confirmsFor, he] using hk)
      rw [hc] at this
      cases this
    · rw [hs]
      exact ha.releases kd (by simpa [Effects.releasesFor, he] using hk)

theorem released_of_pending {x : SagaStep} (hp : x.compensation = .pending) :
    x.released = x := by
  have hn : x.needsCompensation = false := by
    cases hn : x.needsCompensation with
    | false => rfl
    | true => rw [((SagaStep.needsCompensation_iff x).mp hn).2.2] at hp; cases hp
  simp [SagaStep.released, hn]

theorem released_awaits {x : SagaStep} (hn : x.needsCompensation = true) :
    x.released.reserve = .succeeded ∧ x.released.confirm ≠ .succeeded ∧
      x.released.compensation = .pending := by
  obtain ⟨hr, hc, -⟩ := (SagaStep.needsCompensation_iff x).mp hn
  simp [SagaStep.released, hn, hr, hc]

theorem Awaiting.compensateAll (ha : Awaiting d) (h : d.compensateAll now = .ok d') :
    Awaiting d' := by
  obtain ⟨hsaga, hsteps, -, hconfirms, es, henv, hmem, hcount⟩ := compensateAll_ok h
  refine ⟨fun kd hk => ?_, fun kd hk => ?_⟩
  · rw [hsaga]
    refine ha.confirms kd ?_
    have hnone : es.countP (·.type == .confirmRequested kd) = 0 := by
      refine List.countP_eq_zero.mpr fun e he => ?_
      obtain ⟨x, -, -, kd', -, rfl⟩ := hmem e he
      simp [releaseOf_type_ne]
    simp only [Effects.confirmsFor, henv, hconfirms, List.countP_append] at hk ⊢
    omega
  · simp only [Effects.releasesFor, henv, List.countP_append, hcount kd] at hk
    rw [hsteps]
    by_cases hold : 0 < d.effects.releasesFor kd
    · obtain ⟨x, hx, hxk, hxr, hxc, hxp⟩ := ha.releases kd hold
      exact ⟨x, List.mem_map.mpr ⟨x, hx, released_of_pending hxp⟩, hxk, hxr, hxc, hxp⟩
    · have hnew : 0 < d.steps.countP (fun st => st.needsCompensation && st.kind == kd.name) := by
        simp only [Effects.releasesFor] at hold
        omega
      obtain ⟨x, hx, hxn⟩ := List.countP_pos_iff.mp hnew
      simp only [Bool.and_eq_true, beq_iff_eq] at hxn
      obtain ⟨hr, hc, hp⟩ := released_awaits hxn.1
      exact ⟨x.released, List.mem_map.mpr ⟨x, hx, rfl⟩, by simp [hxn.2], hr, hc, hp⟩

theorem Awaiting.compensate (ha : Awaiting d) (h : d.compensate k now = .ok d') :
    Awaiting d' := by
  cases hst : d.step? k with
  | none =>
    simp only [Draft.compensate, hst, Except.ok.injEq] at h
    rw [← h]
    exact ha
  | some st =>
    obtain ⟨es, rfl, hkeep, hemit⟩ := compensate_ok hst h
    obtain ⟨pre, post, hsplit, -, hset⟩ := setStep_steps st.released hst
    have hkept : ∀ x ∈ d.steps, x.compensation = .pending →
        x ∈ ((d.setStep k st.released).emit es).steps := by
      intro x hx hxp
      rw [emit_steps, hset]
      rw [hsplit] at hx
      simp only [List.mem_append, List.mem_cons] at hx ⊢
      rcases hx with hx | rfl | hx
      · exact .inl hx
      · exact .inr (.inl (released_of_pending hxp).symm)
      · exact .inr (.inr hx)
    have hold : ∀ kd, (d.effects.envelopes ++ es).countP (·.type == .confirmRequested kd) =
        d.effects.envelopes.countP (·.type == .confirmRequested kd) := by
      intro kd
      cases hn : st.needsCompensation with
      | false => simp [hkeep hn]
      | true =>
        obtain ⟨kd₀, -, rfl⟩ := hemit hn
        simp [releaseOf_type_ne]
    refine ⟨fun kd hk => ha.confirms kd ?_, fun kd hk => ?_⟩
    · simpa [Effects.confirmsFor, hold] using hk
    · by_cases hprev : 0 < d.effects.releasesFor kd
      · obtain ⟨x, hx, hxk, hxr, hxc, hxp⟩ := ha.releases kd hprev
        exact ⟨x, hkept x hx hxp, hxk, hxr, hxc, hxp⟩
      · cases hn : st.needsCompensation with
        | false =>
          have hsame : ((d.setStep k st.released).emit es).effects.releasesFor kd =
              d.effects.releasesFor kd := by
            simp [Effects.releasesFor, hkeep hn]
          exact absurd (hsame ▸ hk) hprev
        | true =>
          obtain ⟨kd₀, hk₀, rfl⟩ := hemit hn
          by_cases hkd : kd₀ = kd
          · subst hkd
            obtain ⟨hr, hc, hp⟩ := released_awaits hn
            refine ⟨st.released, ?_, by simp [hk₀], hr, hc, hp⟩
            rw [emit_steps, hset]
            simp
          · have hsame :
                ((d.setStep k st.released).emit [releaseOf d.saga kd₀ now st]).effects.releasesFor
                  kd = d.effects.releasesFor kd := by
              simp [Effects.releasesFor, releaseOf, hkd]
            exact absurd (hsame ▸ hk) hprev

theorem Awaiting.startConfirm (ha : Awaiting d) (h : d.startConfirm now = .ok d') :
    Awaiting d' := by
  obtain ⟨-, hsaga, hsteps, -, es, sync, henv, -, -, hmem, -⟩ := startConfirm_ok h
  refine ⟨fun _ _ => by rw [hsaga], fun kd hk => ?_⟩
  have hnone : es.countP (·.type == .compensationRequested kd) = 0 := by
    refine List.countP_eq_zero.mpr fun e he => ?_
    obtain ⟨x, -, -, -, kd', -, rfl⟩ := hmem e he
    simp [commandOf]
  simp only [Effects.releasesFor, henv, List.countP_append, hnone] at hk
  obtain ⟨x, hx, hxk, hxr, hxc, hxp⟩ := ha.releases kd (by simpa [Effects.releasesFor] using hk)
  refine ⟨x.confirming, by rw [hsteps]; exact List.mem_map.mpr ⟨x, hx, rfl⟩, by simp [hxk],
    by simp [hxr], ?_, by simp [hxp]⟩
  simp [SagaStep.confirming, hxr]

/-! ## The moves of an answer -/

/-- The moves an answer is made of. -/
inductive Move : Draft → Draft → Prop
  | touch (d : Draft) : Move d d.touch
  | record {d : Draft} {k : String} {st st' : SagaStep} (touched : d.effects.changed = true)
      (quiet : d.effects.envelopes = [] ∧ d.effects.confirms = [])
      (found : d.step? k = some st) (kind : st'.kind = st.kind)
      (confirm : st'.confirmBegun = st.confirmBegun) (release : st'.releaseBegun = st.releaseBegun)
      (skip : st'.isSkipped = st.isSkipped) : Move d (d.setStep k st')
  | setError {d : Draft} (touched : d.effects.changed = true) (message : String) :
      Move d (d.setError message)
  | transition {d d' : Draft} {next : SagaStatus} (touched : d.effects.changed = true)
      (quiet : ∀ kd, d.effects.confirmsFor kd = 0) (ok : d.transition next = .ok d') : Move d d'
  | compensateAll {d d' : Draft} {now : Instant} (touched : d.effects.changed = true)
      (ok : d.compensateAll now = .ok d') : Move d d'
  | compensate {d d' : Draft} {k : String} {now : Instant} (touched : d.effects.changed = true)
      (ok : d.compensate k now = .ok d') : Move d d'
  | startConfirm {d d' : Draft} {now : Instant} (touched : d.effects.changed = true)
      (fresh : ∀ st ∈ d.steps, st.confirm = .none) (ok : d.startConfirm now = .ok d') :
      Move d d'
  | settle {d d' : Draft} (touched : d.effects.changed = true) (ok : d.settle = .ok d') :
      Move d d'

theorem compensate_changed (h : d.compensate k now = .ok d') :
    d'.effects.changed = d.effects.changed := by
  cases hst : d.step? k with
  | none =>
    simp only [Draft.compensate, hst, Except.ok.injEq] at h
    rw [← h]
  | some st =>
    obtain ⟨es, rfl, -, -⟩ := compensate_ok hst h
    rfl

namespace Move

theorem accounts (h : Move d d') : Accounts d d' := by
  cases h with
  | touch => exact .of_same rfl rfl rfl rfl
  | record _ _ found kind confirm release skip =>
    exact ⟨fun kd => by rw [stepsWith_setStep found kind confirm]; rfl,
      fun kd => by rw [stepsWith_setStep found kind release]; rfl,
      fun kd => stepsWith_setStep found kind skip, rfl⟩
  | setError => exact .of_same rfl rfl rfl rfl
  | transition _ _ ok => exact .of_transition ok
  | compensateAll _ ok => exact .of_compensateAll ok
  | compensate _ ok => exact .of_compensate ok
  | startConfirm _ fresh ok => exact .of_startConfirm fresh ok
  | settle _ ok => exact .of_settle ok

theorem awaiting (h : Move d d') (ha : Awaiting d) : Awaiting d' := by
  cases h with
  | touch => exact ha.of_same rfl rfl rfl rfl
  | record _ quiet => exact .of_quiet quiet.1 quiet.2
  | setError => exact ha.of_same rfl rfl rfl rfl
  | transition _ quiet ok =>
    obtain ⟨-, rfl⟩ := transition_ok ok
    refine ⟨fun kd hk => ?_, ha.releases⟩
    have hk : 0 < d.effects.confirmsFor kd := hk
    rw [quiet kd] at hk
    cases hk
  | compensateAll _ ok => exact ha.compensateAll ok
  | compensate _ ok => exact ha.compensate ok
  | startConfirm _ _ ok => exact ha.startConfirm ok
  | settle _ ok => exact ha.settle ok

theorem touched (h : Move d d') : d'.effects.changed = true := by
  cases h with
  | touch => rfl
  | record touched => exact touched
  | setError touched => exact touched
  | transition _ _ ok => obtain ⟨-, rfl⟩ := transition_ok ok; rfl
  | compensateAll touched ok => rw [(compensateAll_ok ok).2.2.1]; exact touched
  | compensate touched ok => rw [compensate_changed ok]; exact touched
  | startConfirm _ _ ok => exact (startConfirm_ok ok).2.2.2.1
  | settle touched ok =>
    rcases settle_ok ok with ⟨rfl, -⟩ | ⟨-, -, -, he, -, -, -⟩
    · exact touched
    · rw [he]

end Move

/-- A sequence of moves. -/
inductive Moves : Draft → Draft → Prop
  | refl (d : Draft) : Moves d d
  | tail {d d₁ d₂ : Draft} : Moves d d₁ → Move d₁ d₂ → Moves d d₂

namespace Moves

theorem accounts (h : Moves d d') : Accounts d d' := by
  induction h with
  | refl => exact .refl _
  | tail _ m ih => exact ih.trans m.accounts

theorem awaiting (h : Moves d d') (ha : Awaiting d) : Awaiting d' := by
  induction h with
  | refl => exact ha
  | tail _ m ih => exact m.awaiting ih

theorem eq_of_unchanged (h : Moves d d') (hc : d'.effects.changed = false) : d' = d := by
  cases h with
  | refl => rfl
  | tail _ m => rw [m.touched] at hc; cases hc

end Moves

/-! ## Every answer is a sequence of moves -/

theorem confirm_none_of_reserving (hs : d.Shaped) (hr : d.saga.status = .reserving)
    {x : SagaStep} (hx : x ∈ d.steps) : x.confirm = .none := by
  have fits := hs.fits
  rw [hr] at fits
  by_cases hskip : x.reserve = .skipped
  · by_cases hc : x.confirm = .none
    · exact hc
    · have := (hs.sound x hx).confirm_reserved hc
      rw [hskip] at this
      cases this
  · exact (fits.1 x hx hskip).2.1

theorem Moves.record (hq : d.effects.envelopes = [] ∧ d.effects.confirms = [])
    (hst : d.step? k = some st) (hk : st'.kind = st.kind)
    (hc : st'.confirmBegun = st.confirmBegun) (hp : st'.releaseBegun = st.releaseBegun)
    (hskip : st'.isSkipped = st.isSkipped) : Moves d (d.touch.setStep k st') :=
  ((Moves.refl d).tail (.touch d)).tail (.record rfl hq hst hk hc hp hskip)

theorem Moves.compensateAll_settle {d₂ d₃ : Draft} {message : String}
    (hm : Moves d d₁) (hc : d₁.effects.changed = true)
    (hq : d₁.effects.envelopes = [] ∧ d₁.effects.confirms = [])
    (ht : (d₁.setError message).transition .compensating = .ok d₂)
    (hcomp : d₂.compensateAll now = .ok d₃) (h : d₃.settle = .ok d') : Moves d d' := by
  have m₁ : Move (d₁.setError message) d₂ :=
    .transition hc (confirmsFor_eq_zero hq.1 hq.2) ht
  have m₂ : Move d₂ d₃ := .compensateAll m₁.touched hcomp
  exact (((hm.tail (.setError hc message)).tail m₁).tail m₂).tail (.settle m₂.touched h)

theorem onReserved_moves {res : StepResult} (hs : d.Shaped)
    (hq : d.effects.envelopes = [] ∧ d.effects.confirms = [])
    (h : onReserved res now d = .ok d') : Moves d d' := by
  unfold onReserved at h
  split at h
  next => cases h; exact .refl d
  next st hst =>
    split at h
    next => cases h; exact .refl d
    next hp =>
      have hp : st.reserve = .pending := by simpa using hp
      have hst' : d.touch.step? res.kind = some st := hst
      split at h
      next =>
        dsimp only at h
        have hm : Moves d (d.touch.setStep res.kind
            { st with reserve := .failed, error := res.errorMessage, updatedAt := now }) :=
          Moves.record hq hst rfl rfl rfl (by simp only [SagaStep.isSkipped, hp]; decide)
        split at h
        next =>
          obtain ⟨d₂, ht, h⟩ := Except.bind_eq_ok.mp h
          obtain ⟨d₃, hcomp, h⟩ := Except.bind_eq_ok.mp h
          exact hm.compensateAll_settle rfl hq ht hcomp h
        next => exact hm.tail (.settle rfl h)
      next =>
        dsimp only at h
        have hm : Moves d
            (d.touch.setStep res.kind { st with reserve := .succeeded, updatedAt := now }) :=
          Moves.record hq hst rfl rfl rfl (by simp only [SagaStep.isSkipped, hp]; decide)
        split at h
        next hres =>
          split at h
          next =>
            obtain ⟨d₂, ht, h⟩ := Except.bind_eq_ok.mp h
            have m₁ :
                Move (d.touch.setStep res.kind { st with reserve := .succeeded, updatedAt := now })
                  d₂ := .transition rfl (confirmsFor_eq_zero hq.1 hq.2) ht
            have hfresh : ∀ x ∈ d₂.steps, x.confirm = .none := by
              obtain ⟨-, rfl⟩ := transition_ok ht
              intro x hx
              rcases mem_setStep hst' hx with rfl | hx
              · exact (hs.fresh_of_reserve_pending (step?_mem hst) hp).1
              · exact confirm_none_of_reserving hs hres hx
            exact (hm.tail m₁).tail (.startConfirm m₁.touched hfresh h)
          next => cases h; exact hm
        next =>
          obtain ⟨d₂, hcomp, h⟩ := Except.bind_eq_ok.mp h
          have m₁ : Move _ d₂ := .compensate rfl hcomp
          exact (hm.tail m₁).tail (.settle m₁.touched h)
        next => cases h; exact hm

theorem onConfirmed_moves {res : StepResult}
    (hq : d.effects.envelopes = [] ∧ d.effects.confirms = [])
    (h : onConfirmed res now d = .ok d') : Moves d d' := by
  unfold onConfirmed at h
  split at h
  next => cases h; exact .refl d
  next st hst =>
    split at h
    next => cases h; exact .refl d
    next hp =>
      have hp : st.confirm = .pending := by simpa using hp
      split at h
      next =>
        dsimp only at h
        have hm : Moves d
            (d.touch.setStep res.kind { st with confirm := .succeeded, updatedAt := now }) :=
          Moves.record hq hst rfl (by simp only [SagaStep.confirmBegun, hp]; decide) rfl rfl
        split at h
        next => exact hm.tail (.transition rfl (confirmsFor_eq_zero hq.1 hq.2) h)
        next => exact hm.tail (.settle rfl h)
      next =>
        dsimp only at h
        have hm : Moves d (d.touch.setStep res.kind
            { st with confirm := .failed, error := res.errorMessage, updatedAt := now }) :=
          Moves.record hq hst rfl (by simp only [SagaStep.confirmBegun, hp]; decide) rfl rfl
        split at h
        next =>
          obtain ⟨d₂, ht, h⟩ := Except.bind_eq_ok.mp h
          obtain ⟨d₃, hcomp, h⟩ := Except.bind_eq_ok.mp h
          exact hm.compensateAll_settle rfl hq ht hcomp h
        next => exact hm.tail (.settle rfl h)

theorem onCompensated_moves {rep : CompensationReport}
    (hq : d.effects.envelopes = [] ∧ d.effects.confirms = [])
    (h : onCompensated rep now d = .ok d') : Moves d d' := by
  unfold onCompensated at h
  dsimp only at h
  split at h
  next => cases h; exact .refl d
  next st hst =>
    split at h
    next => cases h; exact .refl d
    next hp =>
      have hp : st.compensation = .pending := by simpa using hp
      obtain ⟨st₁, h, hkind, hr, hc, hp₁⟩ : ∃ st₁ : SagaStep,
          (d.touch.setStep (reportKind rep) st₁).settle = .ok d' ∧ st₁.kind = st.kind ∧
          st₁.reserve = st.reserve ∧ st₁.confirm = st.confirm ∧
          (st₁.compensation = .succeeded ∨ st₁.compensation = .failed) :=
        ⟨_, h, rfl, rfl, rfl, by split <;> simp⟩
      have hrel : st₁.releaseBegun = st.releaseBegun := by
        rcases hp₁ with hp₁ | hp₁ <;> simp only [SagaStep.releaseBegun, hp, hp₁] <;> decide
      have hm := Moves.record hq hst hkind (by simp [SagaStep.confirmBegun, hc]) hrel
        (by simp [SagaStep.isSkipped, hr])
      exact hm.tail (.settle rfl h)

end Draft

end OrderSaga
