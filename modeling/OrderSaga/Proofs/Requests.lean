import Mathlib.Data.List.Nodup
import OrderSaga.Proofs.Runs
import OrderSaga.Proofs.Sending

namespace OrderSaga

open Orchestrator

/-- What the writes of a run sent to the saga `sagaId`, counted by `count` per write. -/
def sentTo : List (Saga × Effects) → String → (Effects → Nat) → Nat
  | [], _, _ => 0
  | w :: rest, sagaId, count =>
    (if w.1.sagaId = sagaId then count w.2 else 0) + sentTo rest sagaId count

section Sent

variable {sent : List (Saga × Effects)} {sagaId : String} {count : Effects → Nat}

@[simp] theorem sentTo_append (more : List (Saga × Effects)) :
    sentTo (sent ++ more) sagaId count = sentTo sent sagaId count + sentTo more sagaId count := by
  induction sent with
  | nil => simp [sentTo]
  | cons w rest ih => simp only [List.cons_append, sentTo, ih]; omega

@[simp] theorem sentTo_singleton (g : Saga) (fx : Effects) :
    sentTo [(g, fx)] sagaId count = if g.sagaId = sagaId then count fx else 0 := by
  simp [sentTo]

theorem sentTo_eq_zero (h : ∀ w ∈ sent, w.1.sagaId ≠ sagaId) :
    sentTo sent sagaId count = 0 := by
  induction sent with
  | nil => rfl
  | cons w rest ih =>
    simp only [sentTo, h w List.mem_cons_self, if_false, Nat.zero_add]
    exact ih fun w' hw' => h w' (List.mem_cons_of_mem w hw')

end Sent

/-! ## One step per participant -/

section Kinds

variable {steps : List SagaStep} {kd : Kind} {p : SagaStep → Bool}

theorem exists_step_of_kinds (hk : steps.map (·.kind) = Kind.all.map Kind.name) (kd : Kind) :
    ∃ st ∈ steps, st.kind = kd.name := by
  have hmem : kd.name ∈ steps.map (·.kind) := by
    rw [hk]
    exact List.mem_map.mpr ⟨kd, by cases kd <;> simp [Kind.all], rfl⟩
  obtain ⟨st, hst, hname⟩ := List.mem_map.mp hmem
  exact ⟨st, hst, hname⟩

theorem kind_of_mem (hk : steps.map (·.kind) = Kind.all.map Kind.name) {st : SagaStep}
    (hst : st ∈ steps) : ∃ kd : Kind, st.kind = kd.name := by
  have hmem : st.kind ∈ Kind.all.map Kind.name := hk ▸ List.mem_map_of_mem hst
  obtain ⟨kd, -, hname⟩ := List.mem_map.mp hmem
  exact ⟨kd, hname.symm⟩

theorem stepsWith_eq_zero_iff :
    stepsWith steps kd p = 0 ↔ ∀ st ∈ steps, st.kind = kd.name → p st = false := by
  simp [stepsWith, List.countP_eq_zero]

theorem eq_of_kind_eq (hk : steps.map (·.kind) = Kind.all.map Kind.name) {st st' : SagaStep}
    (hst : st ∈ steps) (hst' : st' ∈ steps) (h : st.kind = st'.kind) : st = st' := by
  have hnames : (Kind.all.map Kind.name).Nodup := by
    refine List.Nodup.map (fun a b hab => ?_) (by decide)
    simpa [Kind.ofName?_name] using congrArg Kind.ofName? hab
  exact List.inj_on_of_nodup_map (hk ▸ hnames) hst hst' h

theorem stepsWith_skipped_eq_zero (hk : steps.map (·.kind) = Kind.all.map Kind.name)
    {st : SagaStep} (hst : st ∈ steps) (hname : st.kind = kd.name)
    (hr : st.reserve ≠ .skipped) :
    stepsWith steps kd SagaStep.isSkipped = 0 := by
  refine stepsWith_eq_zero_iff.mpr fun st' hst' hname' => ?_
  rw [eq_of_kind_eq hk hst' hst (hname'.trans hname.symm)]
  simpa [SagaStep.isSkipped] using hr

end Kinds

/-! ## What an answer to a stored saga does -/

theorem Answer.apply_moves {a : Answer} {now : Instant} {d d' : Draft} (hs : d.Shaped)
    (hq : d.effects.envelopes = [] ∧ d.effects.confirms = []) (h : a.apply now d = .ok d') :
    Draft.Moves d d' := by
  cases a with
  | reserved res => exact Draft.onReserved_moves hs hq h
  | confirmed res => exact Draft.onConfirmed_moves hq h
  | compensated rep => exact Draft.onCompensated_moves hq h

/-- The draft an answer leaves of a shaped stored saga: shaped, with every confirm and release it
began sent once, each waiting for its answer, and the stored saga itself if nothing changed. -/
structure Answered (g : Saga) (d : Draft) : Prop where
  shaped : d.Shaped
  confirms : ∀ kd, stepsWith d.steps kd SagaStep.confirmBegun =
    stepsWith g.stepList kd SagaStep.confirmBegun + d.effects.confirmsFor kd
  releases : ∀ kd, stepsWith d.steps kd SagaStep.releaseBegun =
    stepsWith g.stepList kd SagaStep.releaseBegun + d.effects.releasesFor kd
  skipped : ∀ kd,
    stepsWith d.steps kd SagaStep.isSkipped = stepsWith g.stepList kd SagaStep.isSkipped
  sagaId : d.saga.sagaId = g.sagaId
  awaiting : d.Awaiting
  quiet : d.effects.changed = false → d = .ofSaga g

theorem Answer.answered {a : Answer} {now : Instant} {g : Saga} {d : Draft} (hs : g.Shaped)
    (h : a.apply now (.ofSaga g) = .ok d) : Answered g d := by
  have hs' : (Draft.ofSaga g).Shaped := hs
  have hm := Answer.apply_moves hs' ⟨rfl, rfl⟩ h
  have acc := hm.accounts
  exact ⟨Answer.apply_shaped hs' h,
    fun kd => by simpa [Effects.confirmsFor] using acc.confirms kd,
    fun kd => by simpa [Effects.releasesFor] using acc.releases kd, acc.skipped, acc.sagaId,
    hm.awaiting (.of_quiet rfl rfl), hm.eq_of_unchanged⟩

/-! ## What the shape says of begun phases -/

namespace Shaped

variable {status : SagaStatus} {steps : List SagaStep} {kd : Kind}

theorem reserved_of_begun (hs : Shaped status steps)
    (h : 0 < stepsWith steps kd SagaStep.confirmBegun ∨
      0 < stepsWith steps kd SagaStep.releaseBegun) :
    ∃ st ∈ steps, st.kind = kd.name ∧ st.reserve = .succeeded := by
  rcases h with h | h
  · obtain ⟨st, hst, hk, hc⟩ := stepsWith_pos_iff.mp h
    exact ⟨st, hst, hk,
      (hs.sound st hst).confirm_reserved (by simpa [SagaStep.confirmBegun] using hc)⟩
  · obtain ⟨st, hst, hk, hc⟩ := stepsWith_pos_iff.mp h
    exact ⟨st, hst, hk,
      (hs.sound st hst).compensation_reserved (by simpa [SagaStep.releaseBegun] using hc)⟩

theorem confirmBegun_of_confirming (hs : Shaped .confirming steps)
    (hk : stepsWith steps kd SagaStep.isSkipped = 0) :
    0 < stepsWith steps kd SagaStep.confirmBegun := by
  obtain ⟨st, hst, hname⟩ := exists_step_of_kinds hs.kinds kd
  have hskip : st.reserve ≠ .skipped := by
    have := stepsWith_eq_zero_iff.mp hk st hst hname
    simpa [SagaStep.isSkipped] using this
  have hc := (hs.fits.1 st hst hskip).2.1
  refine stepsWith_pos_iff.mpr ⟨st, hst, hname, ?_⟩
  rcases hc with hc | hc <;> simp [SagaStep.confirmBegun, hc]

theorem hold_settled (hs : Shaped status steps)
    (hend : status = .compensationCompleted ∨ status = .failed) :
    ∀ st ∈ steps, st.reserve = .succeeded →
      st.confirm = .succeeded ∨ st.compensation ≠ .none := by
  intro st hst hr
  rcases hend with rfl | rfl
  · exact .inr ((hs.fits st hst).2.2.2 hr)
  · exact (hs.fits st hst).2 hr

theorem released_all (hs : Shaped .compensationCompleted steps) :
    ∀ st ∈ steps, (st.reserve = .succeeded → st.compensation = .succeeded) ∧
      st.confirm ≠ .succeeded ∧ st.compensation ≠ .failed := by
  intro st hst
  obtain ⟨hw, hc, hf, hn⟩ := hs.fits st hst
  refine ⟨fun hr => ?_, hc, hf⟩
  rcases (hs.sound st hst).compensation with h | h | h | h
  · exact absurd h (hn hr)
  · have hwait := (SagaStep.waiting_iff st).mpr (.inr (.inr h))
    rw [hw] at hwait
    cases hwait
  · exact h
  · exact absurd h hf

theorem confirmBegun_some (hs : Shaped .confirming steps) :
    ∃ kd, 0 < stepsWith steps kd SagaStep.confirmBegun := by
  obtain ⟨st, hst, hp⟩ := hs.fits.2
  obtain ⟨kd, hname⟩ := kind_of_mem hs.kinds hst
  exact ⟨kd, stepsWith_pos_iff.mpr ⟨st, hst, hname, by simp [SagaStep.confirmBegun, hp]⟩⟩

end Shaped

/-! ## The invariant of a run -/

/-- What a run's writes sent agrees with its store. -/
structure Accounted (s : Store) (sent : List (Saga × Effects)) : Prop where
  stored : ∀ w ∈ sent, ∃ x ∈ s.sagas, x.sagaId = w.1.sagaId
  confirms : ∀ x ∈ s.sagas, ∀ kd,
    sentTo sent x.sagaId (·.confirmsFor kd) = stepsWith x.stepList kd SagaStep.confirmBegun
  releases : ∀ x ∈ s.sagas, ∀ kd,
    sentTo sent x.sagaId (·.releasesFor kd) = stepsWith x.stepList kd SagaStep.releaseBegun
  entered : ∀ x ∈ s.sagas,
    (∃ w ∈ sent, w.1.sagaId = x.sagaId ∧ w.1.status = .confirming) ↔
    ∃ kd, 0 < stepsWith x.stepList kd SagaStep.confirmBegun
  allOrNone : ∀ x ∈ s.sagas, ∀ kd₀ kd,
    0 < stepsWith x.stepList kd₀ SagaStep.confirmBegun →
    stepsWith x.stepList kd SagaStep.isSkipped = 0 →
      0 < stepsWith x.stepList kd SagaStep.confirmBegun
  written : ∀ w ∈ sent, ∀ kd, 0 < w.2.releasesFor kd → w.1.status = .compensating ∧
    ∃ st ∈ w.1.stepList, st.kind = kd.name ∧ st.reserve = .succeeded ∧
      st.confirm ≠ .succeeded
  reserved : ∀ w ∈ sent, ∀ kd, 0 < w.2.confirmsFor kd ∨ 0 < w.2.releasesFor kd →
    ∃ st ∈ w.1.stepList, st.kind = kd.name ∧ st.reserve = .succeeded

namespace Accounted

variable {s s' : Store} {sent : List (Saga × Effects)}

theorem start (h : s.sagas = []) : Accounted s [] := by
  constructor <;> simp [h]

theorem quiet {x : Saga} (hacc : Accounted s sent) (hx : x ∈ s.sagas) (hs : x.Shaped) :
    Accounted s (sent ++ [(x, (Draft.ofSaga x).effects)]) := by
  have zero : ∀ kd, (Draft.ofSaga x).effects.confirmsFor kd = 0 ∧
      (Draft.ofSaga x).effects.releasesFor kd = 0 :=
    fun _ => ⟨rfl, rfl⟩
  refine ⟨fun w hw => ?_, fun y hy kd => ?_, fun y hy kd => ?_, fun y hy => ?_, hacc.allOrNone,
    fun w hw kd h => ?_, fun w hw kd h => ?_⟩
  · rcases List.mem_append.mp hw with hw | hw
    · exact hacc.stored w hw
    · rw [List.mem_singleton.mp hw]
      exact ⟨x, hx, rfl⟩
  · simp [hacc.confirms y hy kd, (zero kd).1]
  · simp [hacc.releases y hy kd, (zero kd).2]
  · rw [← hacc.entered y hy]
    constructor
    · rintro ⟨w, hw, hid, hc⟩
      rcases List.mem_append.mp hw with hw | hw
      · exact ⟨w, hw, hid, hc⟩
      ·
        rw [List.mem_singleton.mp hw] at hid hc
        have hs' : Shaped .confirming x.stepList := hc ▸ hs
        rw [← hid]
        exact (hacc.entered x hx).mpr hs'.confirmBegun_some
    · rintro ⟨w, hw, hid, hc⟩
      exact ⟨w, List.mem_append_left _ hw, hid, hc⟩
  · rcases List.mem_append.mp hw with hw | hw
    · exact hacc.written w hw kd h
    · rw [List.mem_singleton.mp hw, (zero kd).2] at h
      cases h
  · rcases List.mem_append.mp hw with hw | hw
    · exact hacc.reserved w hw kd h
    · rw [List.mem_singleton.mp hw, (zero kd).1, (zero kd).2] at h
      simp at h

theorem write {current : Saga} {d : Draft} {now : Instant} (hacc : Accounted s sent)
    (hmem : current ∈ s.sagas) (ans : Answered current d)
    (hsagas : s'.sagas = s.sagas.map fun x =>
      if x.sagaId == (Orchestrator.written d now).sagaId then Orchestrator.written d now else x) :
    Accounted s' (sent ++ [(Orchestrator.written d now, d.effects)]) := by
  have hid : (Orchestrator.written d now).sagaId = current.sagaId := ans.sagaId
  have hcases : ∀ x ∈ s'.sagas,
      x = Orchestrator.written d now ∨ x ∈ s.sagas ∧ x.sagaId ≠ current.sagaId := by
    intro x hx
    rw [hsagas] at hx
    obtain ⟨y, hy, rfl⟩ := List.mem_map.mp hx
    by_cases h : y.sagaId = (Orchestrator.written d now).sagaId
    · exact .inl (by simp [h])
    · have hkeep : (if y.sagaId == (Orchestrator.written d now).sagaId then
          Orchestrator.written d now else y) = y := if_neg (by simpa using h)
      rw [hkeep]
      exact .inr ⟨hy, hid ▸ h⟩
  have hother : ∀ x ∈ s.sagas, ∃ y ∈ s'.sagas, y.sagaId = x.sagaId := by
    intro x hx
    rw [hsagas]
    refine ⟨_, List.mem_map_of_mem hx, ?_⟩
    split
    · simp_all
    · rfl
  have hnew : ∀ {w}, w ∈ sent ++ [(Orchestrator.written d now, d.effects)] →
      w ∈ sent ∨ w = (Orchestrator.written d now, d.effects) := by
    intro w hw
    simpa using hw
  refine ⟨fun w hw => ?_, fun x hx kd => ?_, fun x hx kd => ?_, fun x hx => ?_,
    fun x hx kd₀ kd h₀ hk => ?_, fun w hw kd h => ?_, fun w hw kd h => ?_⟩
  · rcases hnew hw with hw | rfl
    · obtain ⟨y, hy, hyid⟩ := hacc.stored w hw
      obtain ⟨x, hx, hxid⟩ := hother y hy
      exact ⟨x, hx, hxid.trans hyid⟩
    · obtain ⟨x, hx, hxid⟩ := hother current hmem
      exact ⟨x, hx, hxid.trans hid.symm⟩
  · rcases hcases x hx with rfl | ⟨hx, hne⟩
    · rw [sentTo_append, sentTo_singleton, if_pos rfl, hid, hacc.confirms current hmem kd,
        written_stepList, ans.confirms kd]
    · rw [sentTo_append, sentTo_singleton, if_neg (by rw [hid]; exact fun h => hne h.symm),
        Nat.add_zero, hacc.confirms x hx kd]
  · rcases hcases x hx with rfl | ⟨hx, hne⟩
    · rw [sentTo_append, sentTo_singleton, if_pos rfl, hid, hacc.releases current hmem kd,
        written_stepList, ans.releases kd]
    · rw [sentTo_append, sentTo_singleton, if_neg (by rw [hid]; exact fun h => hne h.symm),
        Nat.add_zero, hacc.releases x hx kd]
  · rcases hcases x hx with rfl | ⟨hx, hne⟩
    · rw [written_stepList, hid]
      constructor
      · rintro ⟨w, hw, hwid, hwc⟩
        rcases hnew hw with hw | rfl
        · obtain ⟨kd, hpos⟩ := (hacc.entered current hmem).mp ⟨w, hw, hwid, hwc⟩
          exact ⟨kd, by rw [ans.confirms kd]; omega⟩
        ·
          have hs : Shaped .confirming d.steps := (written_status d now ▸ hwc) ▸ ans.shaped
          exact hs.confirmBegun_some
      · rintro ⟨kd, hpos⟩
        rw [ans.confirms kd] at hpos
        by_cases hold : 0 < stepsWith current.stepList kd SagaStep.confirmBegun
        · obtain ⟨w, hw, hwid, hwc⟩ := (hacc.entered current hmem).mpr ⟨kd, hold⟩
          exact ⟨w, List.mem_append_left _ hw, hwid, hwc⟩
        ·
          exact ⟨_, List.mem_append_right _ (List.mem_singleton_self _), hid,
            ans.awaiting.confirms kd (by omega)⟩
    · rw [← hacc.entered x hx]
      constructor
      · rintro ⟨w, hw, hwid, hwc⟩
        rcases hnew hw with hw | rfl
        · exact ⟨w, hw, hwid, hwc⟩
        · exact absurd (hid.symm.trans hwid) (fun h => hne h.symm)
      · rintro ⟨w, hw, hwid, hwc⟩
        exact ⟨w, List.mem_append_left _ hw, hwid, hwc⟩
  · rcases hcases x hx with rfl | ⟨hx, -⟩
    · rw [written_stepList] at h₀ hk ⊢
      rw [ans.skipped kd] at hk
      rw [ans.confirms kd]
      by_cases hold : 0 < stepsWith current.stepList kd₀ SagaStep.confirmBegun
      · have := hacc.allOrNone current hmem kd₀ kd hold hk
        omega
      ·
        rw [ans.confirms kd₀] at h₀
        have hc := ans.awaiting.confirms kd₀ (by omega)
        have hs : Shaped .confirming d.steps := hc ▸ ans.shaped
        have hk' : stepsWith d.steps kd SagaStep.isSkipped = 0 := by rw [ans.skipped kd]; exact hk
        have := hs.confirmBegun_of_confirming hk'
        rw [ans.confirms kd] at this
        exact this
    · exact hacc.allOrNone x hx kd₀ kd h₀ hk
  · rcases hnew hw with hw | rfl
    · exact hacc.written w hw kd h
    · obtain ⟨st, hst, hk, hr, hc, hp⟩ := ans.awaiting.releases kd h
      exact ⟨ans.shaped.status_of_compensation_pending hst hp, st, hst, hk, hr, hc⟩
  · rcases hnew hw with hw | rfl
    · exact hacc.reserved w hw kd h
    · refine ans.shaped.reserved_of_begun ?_
      dsimp only at h
      rcases h with h | h
      · exact .inl (by rw [ans.confirms kd]; omega)
      · exact .inr (by rw [ans.releases kd]; omega)

theorem open_ {p : Saga} {fx : Effects} (hacc : Accounted s sent)
    (hfresh : ∀ x ∈ s.sagas, x.sagaId ≠ p.sagaId) (hsagas : s'.sagas = s.sagas ++ [p])
    (hp : p.status = .reserving)
    (hbegun : ∀ kd, stepsWith p.stepList kd SagaStep.confirmBegun = 0 ∧
      stepsWith p.stepList kd SagaStep.releaseBegun = 0)
    (hfx : ∀ kd, fx.confirmsFor kd = 0 ∧ fx.releasesFor kd = 0) :
    Accounted s' (sent ++ [(p, fx)]) := by
  have hnone : ∀ w ∈ sent, w.1.sagaId ≠ p.sagaId := by
    intro w hw
    obtain ⟨x, hx, hxid⟩ := hacc.stored w hw
    exact hxid ▸ hfresh x hx
  have hcases : ∀ x ∈ s'.sagas, x = p ∨ x ∈ s.sagas := by
    intro x hx
    rw [hsagas] at hx
    rcases List.mem_append.mp hx with hx | hx
    · exact .inr hx
    · exact .inl (List.mem_singleton.mp hx)
  have hnew : ∀ {w}, w ∈ sent ++ [(p, fx)] → w ∈ sent ∨ w = (p, fx) := by
    intro w hw
    simpa using hw
  refine ⟨fun w hw => ?_, fun x hx kd => ?_, fun x hx kd => ?_, fun x hx => ?_,
    fun x hx kd₀ kd h₀ hk => ?_, fun w hw kd h => ?_, fun w hw kd h => ?_⟩
  · rw [hsagas]
    rcases hnew hw with hw | rfl
    · obtain ⟨x, hx, hxid⟩ := hacc.stored w hw
      exact ⟨x, List.mem_append_left _ hx, hxid⟩
    · exact ⟨p, List.mem_append_right _ (List.mem_singleton_self _), rfl⟩
  · rcases hcases x hx with rfl | hx
    · simp [sentTo_eq_zero hnone, (hfx kd).1, (hbegun kd).1]
    · rw [sentTo_append, sentTo_singleton, if_neg (fun h => hfresh x hx h.symm), Nat.add_zero,
        hacc.confirms x hx kd]
  · rcases hcases x hx with rfl | hx
    · simp [sentTo_eq_zero hnone, (hfx kd).2, (hbegun kd).2]
    · rw [sentTo_append, sentTo_singleton, if_neg (fun h => hfresh x hx h.symm), Nat.add_zero,
        hacc.releases x hx kd]
  · rcases hcases x hx with rfl | hx
    ·
      constructor
      · rintro ⟨w, hw, hwid, hwc⟩
        rcases hnew hw with hw | rfl
        · exact absurd hwid (hnone w hw)
        · rw [hp] at hwc
          cases hwc
      · rintro ⟨kd, hpos⟩
        rw [(hbegun kd).1] at hpos
        cases hpos
    · rw [← hacc.entered x hx]
      constructor
      · rintro ⟨w, hw, hwid, hwc⟩
        rcases hnew hw with hw | rfl
        · exact ⟨w, hw, hwid, hwc⟩
        · exact absurd hwid.symm (hfresh x hx)
      · rintro ⟨w, hw, hwid, hwc⟩
        exact ⟨w, List.mem_append_left _ hw, hwid, hwc⟩
  · rcases hcases x hx with rfl | hx
    · rw [(hbegun kd₀).1] at h₀
      cases h₀
    · exact hacc.allOrNone x hx kd₀ kd h₀ hk
  · rcases hnew hw with hw | rfl
    · exact hacc.written w hw kd h
    · rw [(hfx kd).2] at h
      cases h
  · rcases hnew hw with hw | rfl
    · exact hacc.reserved w hw kd h
    · dsimp only at h
      rw [(hfx kd).1, (hfx kd).2] at h
      simp at h

end Accounted

/-! ## Openings send only reserve commands -/

theorem mapM_ok_forall {α β ε : Type} {f : α → Except ε β} {P : β → Prop}
    (hf : ∀ a b, f a = .ok b → P b) {l : List α} {bs : List β} (h : l.mapM f = .ok bs) :
    ∀ b ∈ bs, P b := by
  induction l generalizing bs with
  | nil =>
    simp only [List.mapM_nil, pure, Except.pure, Except.ok.injEq] at h
    subst h
    simp
  | cons a l ih =>
    rw [List.mapM_cons] at h
    obtain ⟨b, hb, h⟩ := Except.bind_eq_ok.mp h
    obtain ⟨bs', hbs, h⟩ := Except.bind_eq_ok.mp h
    simp only [pure, Except.pure, Except.ok.injEq] at h
    subst h
    intro x hx
    rcases List.mem_cons.mp hx with rfl | hx
    · exact hf a x hb
    · exact ih hbs x hx

theorem reserveCommands_quiet {g : Saga} {now : Instant} {es : List Envelope}
    (h : reserveCommands g now = .ok es) (kd : Kind) :
    ({ changed := true, envelopes := es } : Effects).confirmsFor kd = 0 ∧
      ({ changed := true, envelopes := es } : Effects).releasesFor kd = 0 := by
  have htypes : ∀ e ∈ es, ∃ kd', e.type = .reserveRequested kd' :=
    mapM_ok_forall (fun st e he => by
      obtain ⟨kd', -, rfl⟩ := Draft.command_ok he
      exact ⟨kd', rfl⟩) h
  constructor
  · refine Nat.add_eq_zero_iff.mpr ⟨List.countP_eq_zero.mpr fun e he => ?_, rfl⟩
    obtain ⟨kd', hkd'⟩ := htypes e he
    simp [hkd']
  · refine List.countP_eq_zero.mpr fun e he => ?_
    obtain ⟨kd', hkd'⟩ := htypes e he
    simp [hkd']

theorem OrderRequest.placed_fresh {r : OrderRequest} {sagaId : String} {orderId : UInt64}
    {mode : Kind → Mode} {now : Instant} {g : Saga}
    (hg : (r.saga sagaId orderId mode now).transitionTo .reserving = .ok g) (t : Instant) :
    ({ g with createdAt := t, updatedAt := t } : Saga).stored.status = .reserving ∧
      ∀ kd, stepsWith ({ g with createdAt := t, updatedAt := t } : Saga).stored.stepList kd
          SagaStep.confirmBegun = 0 ∧
        stepsWith ({ g with createdAt := t, updatedAt := t } : Saga).stored.stepList kd
          SagaStep.releaseBegun = 0 := by
  obtain ⟨-, rfl⟩ := Saga.transitionTo_ok hg
  refine ⟨rfl, fun kd => ⟨List.countP_eq_zero.mpr fun st hst => ?_,
    List.countP_eq_zero.mpr fun st hst => ?_⟩⟩
  · obtain ⟨-, hc, -⟩ := OrderRequest.steps_fresh hst
    simp [SagaStep.confirmBegun, hc]
  · obtain ⟨-, -, hp⟩ := OrderRequest.steps_fresh hst
    simp [SagaStep.releaseBegun, hp]

theorem Run.accounted {s : Store} {sent : List (Saga × Effects)} (run : Run s sent) :
    Accounted s sent := by
  induction run with
  | start empty => exact .start empty
  | place _ _ opened ok commands ih =>
    obtain ⟨hfresh, hsagas, -⟩ := openSaga_ok ok
    obtain ⟨hp, hbegun⟩ := OrderRequest.placed_fresh opened _
    exact ih.open_ (fun x hx => (hfresh x hx).1) hsagas hp hbegun (reserveCommands_quiet commands)
  | placeFailed _ failed ih => rw [openSaga_error failed]; exact ih
  | answer run ok ih =>
    obtain ⟨current, d, hcur, hd, rfl, hcase⟩ := update_ok ok
    obtain ⟨hmem, -⟩ := Store.getSaga_ok hcur
    have ans := Answer.answered (run.shaped current hmem) hd
    rcases hcase with ⟨hc, rfl, rfl⟩ | ⟨-, rfl, hsagas⟩
    · rw [ans.quiet hc]
      exact ih.quiet hmem (run.shaped current hmem)
    · exact ih.write hmem ans hsagas
  | answerFailed _ failed ih => rw [update_error failed]; exact ih

namespace Accounted

variable {s : Store} {sent : List (Saga × Effects)} {x : Saga}

theorem confirm_sent_iff (hacc : Accounted s sent) (hx : x ∈ s.sagas) (hs : x.Shaped)
    (kd : Kind) :
    sentTo sent x.sagaId (·.confirmsFor kd) = 1 ↔
      (∃ w ∈ sent, w.1.sagaId = x.sagaId ∧ w.1.status = .confirming) ∧
        ∃ st ∈ x.stepList, st.kind = kd.name ∧ st.reserve ≠ .skipped := by
  rw [hacc.confirms x hx kd, hacc.entered x hx]
  have hle : stepsWith x.stepList kd SagaStep.confirmBegun ≤ 1 := stepsWith_le_one hs.kinds
  constructor
  · intro h
    have hpos : 0 < stepsWith x.stepList kd SagaStep.confirmBegun := by omega
    obtain ⟨st, hst, hname, hr⟩ := Shaped.reserved_of_begun hs (.inl hpos)
    exact ⟨⟨kd, hpos⟩, st, hst, hname, by simp [hr]⟩
  · rintro ⟨⟨kd₀, h₀⟩, st, hst, hname, hr⟩
    have hpos := hacc.allOrNone x hx kd₀ kd h₀ (stepsWith_skipped_eq_zero hs.kinds hst hname hr)
    omega

theorem release_sent_iff (hacc : Accounted s sent) (hx : x ∈ s.sagas) (hs : x.Shaped)
    (kd : Kind) :
    sentTo sent x.sagaId (·.releasesFor kd) = 1 ↔
      ∃ st ∈ x.stepList, st.kind = kd.name ∧ st.compensation ≠ .none := by
  rw [hacc.releases x hx kd]
  have hle : stepsWith x.stepList kd SagaStep.releaseBegun ≤ 1 := stepsWith_le_one hs.kinds
  constructor
  · intro h
    have hpos : 0 < stepsWith x.stepList kd SagaStep.releaseBegun := by omega
    obtain ⟨st, hst, hname, hb⟩ := stepsWith_pos_iff.mp hpos
    exact ⟨st, hst, hname, by simpa [SagaStep.releaseBegun] using hb⟩
  · rintro ⟨st, hst, hname, hc⟩
    have hpos : 0 < stepsWith x.stepList kd SagaStep.releaseBegun :=
      stepsWith_pos_iff.mpr ⟨st, hst, hname, by simpa [SagaStep.releaseBegun] using hc⟩
    omega

end Accounted

/-- Along every run, each participant of a stored saga is asked at most once to confirm and at most
once to release its hold. -/
theorem requests_sent_once {s : Store} {sent : List (Saga × Effects)} (run : Run s sent)
    {x : Saga} (hx : x ∈ s.sagas) (kd : Kind) :
    (sentTo sent x.sagaId (·.confirmsFor kd) ≤ 1 ∧
      (sentTo sent x.sagaId (·.confirmsFor kd) = 1 ↔
        (∃ w ∈ sent, w.1.sagaId = x.sagaId ∧ w.1.status = .confirming) ∧
          ∃ st ∈ x.stepList, st.kind = kd.name ∧ st.reserve ≠ .skipped)) ∧
    (sentTo sent x.sagaId (·.releasesFor kd) ≤ 1 ∧
      (sentTo sent x.sagaId (·.releasesFor kd) = 1 ↔
        ∃ st ∈ x.stepList, st.kind = kd.name ∧ st.compensation ≠ .none) ∧
      ∀ w ∈ sent, w.1.sagaId = x.sagaId → 0 < w.2.releasesFor kd →
        w.1.status = .compensating ∧ ∃ st ∈ w.1.stepList, st.kind = kd.name ∧
          st.reserve = .succeeded ∧ st.confirm ≠ .succeeded) ∧
    (∀ w ∈ sent, w.1.sagaId = x.sagaId → 0 < w.2.confirmsFor kd ∨ 0 < w.2.releasesFor kd →
      ∃ st ∈ w.1.stepList, st.kind = kd.name ∧ st.reserve = .succeeded) ∧
    (x.status = .compensationCompleted ∨ x.status = .failed →
      ∀ st ∈ x.stepList, st.reserve = .succeeded →
        st.confirm = .succeeded ∨ st.compensation ≠ .none) ∧
    (x.status = .compensationCompleted →
      ∀ st ∈ x.stepList, (st.reserve = .succeeded → st.compensation = .succeeded) ∧
        st.confirm ≠ .succeeded ∧ st.compensation ≠ .failed) := by
  have hacc := run.accounted
  have hs := run.shaped x hx
  refine ⟨⟨?_, hacc.confirm_sent_iff hx hs kd⟩, ⟨?_, hacc.release_sent_iff hx hs kd,
    fun w hw _ h => hacc.written w hw kd h⟩, fun w hw _ h => hacc.reserved w hw kd h,
    hs.hold_settled, fun hend => ?_⟩
  · exact hacc.confirms x hx kd ▸ stepsWith_le_one hs.kinds
  · exact hacc.releases x hx kd ▸ stepsWith_le_one hs.kinds
  · have hs' : Shaped .compensationCompleted x.stepList := hend ▸ hs
    exact hs'.released_all

/-- A run that places one order has asked its stock participant at most once to confirm and at most
once to release. -/
theorem placed_saga_requests_bounded : ∃ (s : Store) (sent : List (Saga × Effects)) (x : Saga),
    Run s sent ∧ x ∈ s.sagas ∧ sentTo sent x.sagaId (·.confirmsFor .stock) ≤ 1 ∧
      sentTo sent x.sagaId (·.releasesFor .stock) ≤ 1 := by
  obtain ⟨s, sent, x, run, mem, -⟩ := one_order_placed
  have h := requests_sent_once run mem .stock
  exact ⟨s, sent, x, run, mem, h.1.1, h.2.1.1⟩

end OrderSaga
