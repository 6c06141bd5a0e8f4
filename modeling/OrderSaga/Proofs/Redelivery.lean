import Mathlib
import OrderSaga.Proofs.Runs
import OrderSaga.Shop.Orchestration

namespace OrderSaga

open Orchestrator

namespace Answer

/-- The participant whose step the answer is about. -/
def kind : Answer → String
  | .reserved res => res.kind
  | .confirmed res => res.kind
  | .compensated rep => Draft.reportKind rep

/-- The phase of a step that the answer settles. -/
def phase : Answer → SagaStep → StepState
  | .reserved _, st => st.reserve
  | .confirmed _, st => st.confirm
  | .compensated _, st => st.compensation

def view (a : Answer) (st : SagaStep) : String × StepState := (st.kind, a.phase st)

def Awaited (a : Answer) (steps : List SagaStep) : Prop :=
  ∃ st, steps.find? (·.kind == a.kind) = some st ∧ a.phase st = .pending

theorem awaited_iff_view (a : Answer) (steps : List SagaStep) :
    a.Awaited steps ↔
      ((steps.map a.view).find? (·.1 == a.kind)).map Prod.snd = some .pending := by
  simp [Awaited, List.find?_map, view, Function.comp_def]

theorem awaited_congr {a : Answer} {steps steps' : List SagaStep}
    (h : steps'.map a.view = steps.map a.view) : a.Awaited steps' ↔ a.Awaited steps := by
  rw [awaited_iff_view, awaited_iff_view, h]

theorem waiting_of_awaited {a : Answer} {steps : List SagaStep} (h : a.Awaited steps) :
    ∃ st ∈ steps, st.waiting = true := by
  obtain ⟨st, hst, hp⟩ := h
  refine ⟨st, List.mem_of_find?_eq_some hst, (SagaStep.waiting_iff st).mpr ?_⟩
  cases a <;> simp_all [phase]

end Answer

namespace Draft

variable {β : Type} {f : SagaStep → β} {d d' d₁ d₂ : Draft} {now : Instant} {k : String}
  {st st' : SagaStep}

/-- From `d` to `d'` the view `f` of the steps and the saga's id stay as they were, and a draft
marked changed stays marked: what the moves after an answer's record keep. -/
structure Preserves (f : SagaStep → β) (d d' : Draft) : Prop where
  view : d'.steps.map f = d.steps.map f
  changed : d.effects.changed = true → d'.effects.changed = true
  sagaId : d'.saga.sagaId = d.saga.sagaId

namespace Preserves

theorem refl (f : SagaStep → β) (d : Draft) : Preserves f d d := ⟨rfl, id, rfl⟩

theorem trans (h₁ : Preserves f d d₁) (h₂ : Preserves f d₁ d') : Preserves f d d' :=
  ⟨h₂.view.trans h₁.view, h₂.changed ∘ h₁.changed, h₂.sagaId.trans h₁.sagaId⟩

theorem setError (m : String) : Preserves f d (d.setError m) := ⟨rfl, id, rfl⟩

theorem setStep (hst : d.step? k = some st) (hf : f st' = f st) :
    Preserves f d (d.setStep k st') := by
  obtain ⟨pre, post, hsplit, -, hset⟩ := setStep_steps st' hst
  exact ⟨by simp [hset, hsplit, hf], id, rfl⟩

theorem of_transition {next : SagaStatus} (h : d.transition next = .ok d') : Preserves f d d' := by
  obtain ⟨-, rfl⟩ := transition_ok h
  exact ⟨rfl, fun _ => rfl, rfl⟩

theorem of_settle (h : d.settle = .ok d') : Preserves f d d' := by
  rcases settle_ok h with ⟨rfl, -⟩ | ⟨-, -, hs, he, hid, -⟩
  · exact refl f _
  · exact ⟨by rw [hs], fun _ => by rw [he], hid⟩

theorem of_compensateAll (hf : ∀ x, f x.released = f x) (h : d.compensateAll now = .ok d') :
    Preserves f d d' := by
  obtain ⟨hg, hs, hc, -⟩ := compensateAll_ok h
  exact ⟨by simp [hs, Function.comp_def, hf], fun h' => hc ▸ h', by rw [hg]⟩

theorem of_startConfirm (hf : ∀ x, f x.confirming = f x) (h : d.startConfirm now = .ok d') :
    Preserves f d d' := by
  obtain ⟨-, hg, hs, hc, -⟩ := startConfirm_ok h
  exact ⟨by simp [hs, Function.comp_def, hf], fun _ => hc, by rw [hg]⟩

theorem of_compensate (hf : ∀ x, f x.released = f x) (h : d.compensate k now = .ok d') :
    Preserves f d d' := by
  cases hst : d.step? k with
  | none =>
    simp only [compensate, hst, Except.ok.injEq] at h
    subst h
    exact refl f d
  | some st =>
    obtain ⟨es, rfl, -, -⟩ := compensate_ok hst h
    exact ⟨(setStep hst (hf st)).view, id, rfl⟩

theorem compensateAll_settle (hf : ∀ x, f x.released = f x) {message : String} {d₃ : Draft}
    (ht : (d.setError message).transition .compensating = .ok d₂)
    (hcomp : d₂.compensateAll now = .ok d₃) (h : d₃.settle = .ok d') : Preserves f d d' :=
  (((setError message).trans (of_transition ht)).trans (of_compensateAll hf hcomp)).trans
    (of_settle h)

end Preserves

/-! ## What one answer does to a draft -/

theorem apply_of_not_awaited {a : Answer} (h : ¬ a.Awaited d.steps) (now : Instant) :
    a.apply now d = .ok d := by
  have hidle : ∀ st, d.step? a.kind = some st → a.phase st ≠ .pending :=
    fun st hst hp => h ⟨st, hst, hp⟩
  cases a with
  | reserved res =>
    simp only [Answer.apply, onReserved]
    cases hst : d.step? res.kind with
    | none => rfl
    | some st =>
      have hp : st.reserve ≠ .pending := hidle st hst
      simp [hp]
  | confirmed res =>
    simp only [Answer.apply, onConfirmed]
    cases hst : d.step? res.kind with
    | none => rfl
    | some st =>
      have hp : st.confirm ≠ .pending := hidle st hst
      simp [hp]
  | compensated rep =>
    simp only [Answer.apply, onCompensated]
    cases hst : d.step? (reportKind rep) with
    | none => rfl
    | some st =>
      have hp : st.compensation ≠ .pending := hidle st hst
      simp [hp]

theorem recorded (a : Answer) (st' : SagaStep) (hst : d.step? a.kind = some st)
    (hk : st'.kind = st.kind)
    (hp : a.phase st' ≠ .pending) (hpres : Preserves a.view (d.touch.setStep a.kind st') d') :
    d'.effects.changed = true ∧ ¬ a.Awaited d'.steps ∧ d'.saga.sagaId = d.saga.sagaId := by
  refine ⟨hpres.changed rfl, fun ha => ?_, hpres.sagaId⟩
  obtain ⟨x, hx, hxp⟩ := (Answer.awaited_congr hpres.view).mp ha
  have hst' : d.touch.step? a.kind = some st := hst
  have hset : (d.touch.setStep a.kind st').step? a.kind = some st' :=
    setStep_step? hst' (hk.trans (step?_kind hst))
  have hxe : x = st' := Option.some.inj (hx.symm.trans hset)
  exact hp (hxe ▸ hxp)

theorem onReserved_recorded {res : StepResult} (hst : d.step? res.kind = some st)
    (hp : st.reserve = .pending) (h : onReserved res now d = .ok d') :
    d'.effects.changed = true ∧ ¬ (Answer.reserved res).Awaited d'.steps ∧
      d'.saga.sagaId = d.saga.sagaId := by
  have hrel : ∀ x : SagaStep, (Answer.reserved res).view x.released =
      (Answer.reserved res).view x := by
    intro x; simp [Answer.view, Answer.phase]
  have hconf : ∀ x : SagaStep, (Answer.reserved res).view x.confirming =
      (Answer.reserved res).view x := by
    intro x; simp [Answer.view, Answer.phase]
  unfold onReserved at h
  rw [hst] at h
  simp only [hp, bne_self_eq_false, Bool.false_eq_true, if_false] at h
  split at h
  next =>
    refine recorded (.reserved res)
      { st with reserve := .failed, error := res.errorMessage, updatedAt := now } hst rfl (by simp [Answer.phase]) ?_
    split at h
    next =>
      obtain ⟨d₂, ht, h⟩ := Except.bind_eq_ok.mp h
      obtain ⟨d₃, hcomp, h⟩ := Except.bind_eq_ok.mp h
      exact Preserves.compensateAll_settle hrel ht hcomp h
    next => exact Preserves.of_settle h
  next =>
    refine recorded (.reserved res) { st with reserve := .succeeded, updatedAt := now } hst rfl (by simp [Answer.phase]) ?_
    split at h
    next =>
      split at h
      next =>
        obtain ⟨d₂, ht, h⟩ := Except.bind_eq_ok.mp h
        exact (Preserves.of_transition ht).trans (Preserves.of_startConfirm hconf h)
      next => cases h; exact Preserves.refl _ _
    next =>
      obtain ⟨d₂, hcomp, h⟩ := Except.bind_eq_ok.mp h
      exact (Preserves.of_compensate hrel hcomp).trans (Preserves.of_settle h)
    next => cases h; exact Preserves.refl _ _

theorem onConfirmed_recorded {res : StepResult} (hst : d.step? res.kind = some st)
    (hp : st.confirm = .pending) (h : onConfirmed res now d = .ok d') :
    ∃ st', st'.kind = st.kind ∧ st'.reserve = st.reserve ∧ st'.confirm ≠ .pending ∧
      ∀ (v : SagaStep → String × StepState), (∀ x, v x.released = v x) →
        Preserves v (d.touch.setStep res.kind st') d' := by
  unfold onConfirmed at h
  rw [hst] at h
  simp only [hp, bne_self_eq_false, Bool.false_eq_true, if_false] at h
  split at h
  next =>
    refine ⟨{ st with confirm := .succeeded, updatedAt := now }, rfl, rfl, by simp,
      fun v hv => ?_⟩
    split at h
    next => exact Preserves.of_transition h
    next => exact Preserves.of_settle h
  next =>
    refine ⟨{ st with confirm := .failed, error := res.errorMessage, updatedAt := now }, rfl,
      rfl, by simp, fun v hv => ?_⟩
    split at h
    next =>
      obtain ⟨d₂, ht, h⟩ := Except.bind_eq_ok.mp h
      obtain ⟨d₃, hcomp, h⟩ := Except.bind_eq_ok.mp h
      exact Preserves.compensateAll_settle hv ht hcomp h
    next => exact Preserves.of_settle h

theorem onCompensated_recorded {rep : CompensationReport}
    (hst : d.step? (reportKind rep) = some st) (hp : st.compensation = .pending)
    (h : onCompensated rep now d = .ok d') :
    d'.effects.changed = true ∧ ¬ (Answer.compensated rep).Awaited d'.steps ∧
      d'.saga.sagaId = d.saga.sagaId := by
  unfold onCompensated at h
  dsimp only at h
  rw [hst] at h
  simp only [hp, bne_self_eq_false, Bool.false_eq_true, if_false] at h
  refine recorded (.compensated rep) _ hst ?_ ?_ (Preserves.of_settle h)
  · rfl
  · simp only [Answer.phase]
    split <;> simp

theorem apply_of_awaited {a : Answer} (ha : a.Awaited d.steps) (h : a.apply now d = .ok d') :
    d'.effects.changed = true ∧ ¬ a.Awaited d'.steps ∧ d'.saga.sagaId = d.saga.sagaId := by
  obtain ⟨st, hst, hp⟩ := ha
  cases a with
  | reserved res => exact onReserved_recorded hst hp h
  | confirmed res =>
    obtain ⟨st', hk, -, hc, hpres⟩ := onConfirmed_recorded hst hp h
    exact recorded (.confirmed res) st' hst hk hc
      (hpres _ fun x => by simp [Answer.view, Answer.phase])
  | compensated rep => exact onCompensated_recorded hst hp h

theorem apply_ok_cases {a : Answer} (h : a.apply now d = .ok d') :
    (¬ a.Awaited d.steps ∧ d' = d) ∨
      (d'.effects.changed = true ∧ ¬ a.Awaited d'.steps ∧ d'.saga.sagaId = d.saga.sagaId) := by
  by_cases ha : a.Awaited d.steps
  · exact .inr (apply_of_awaited ha h)
  · rw [apply_of_not_awaited ha] at h
    exact .inl ⟨ha, (Except.ok.inj h).symm⟩

theorem onConfirmed_keeps_reserve {res r : StepResult} (h : onConfirmed res now d = .ok d') :
    d'.steps.map (Answer.reserved r).view = d.steps.map (Answer.reserved r).view := by
  by_cases ha : (Answer.confirmed res).Awaited d.steps
  · obtain ⟨st, hst, hp⟩ := ha
    obtain ⟨st', hk, hr, -, hpres⟩ := onConfirmed_recorded hst hp h
    have hrec : Preserves (Answer.reserved r).view d.touch (d.touch.setStep res.kind st') :=
      Preserves.setStep (show d.touch.step? res.kind = some st from hst)
        (by simp [Answer.view, Answer.phase, hk, hr])
    exact (hpres _ fun x => by simp [Answer.view, Answer.phase]).view.trans hrec.view
  · have hsame := apply_of_not_awaited ha now
    simp only [Answer.apply] at hsame
    rw [hsame] at h
    cases h
    rfl

end Draft

/-! ## Updates of the orchestrator's store -/

namespace Answer

def Settled (a : Answer) (s : Store) : Prop :=
  ∀ g, s.getSaga a.sagaId = .ok g → ¬ a.Awaited g.stepList

end Answer

section Updates

variable {a : Answer} {s s' : Store} {now : Instant} {g : Saga} {fx : Effects}

theorem Draft.apply_sagaId (a : Answer) {d d' : Draft} (h : a.apply now d = .ok d') :
    d'.saga.sagaId = d.saga.sagaId := by
  rcases Draft.apply_ok_cases h with ⟨-, rfl⟩ | ⟨-, -, hid⟩
  · rfl
  · exact hid

theorem getSaga_replaced (hs : s'.sagas = s.sagas.map fun x => if x.sagaId == g.sagaId then g else x)
    (id : String) :
    s'.getSaga id = (s.getSaga id).map fun x => if x.sagaId == g.sagaId then g else x := by
  have hkeep : ∀ x : Saga,
      ((if x.sagaId == g.sagaId then g else x).sagaId == id) = (x.sagaId == id) := by
    intro x
    by_cases hx : x.sagaId = g.sagaId <;> simp [hx]
  simp only [Store.getSaga, hs, List.find?_map, Function.comp_def, hkeep]
  cases s.sagas.find? (·.sagaId == id) <;> rfl

theorem Store.sagaIds_replaced
    (hs : s'.sagas = s.sagas.map fun x => if x.sagaId == g.sagaId then g else x) :
    s'.sagas.map (·.sagaId) = s.sagas.map (·.sagaId) := by
  rw [hs, List.map_map]
  refine List.map_congr_left fun x _ => ?_
  simp only [Function.comp_apply]
  split <;> simp_all

theorem update_of_not_awaited (hg : s.getSaga a.sagaId = .ok g) (ha : ¬ a.Awaited g.stepList)
    (now : Instant) : update a.sagaId now (a.apply now) s = .ok (g, {}) s := by
  have hm : a.apply now (.ofSaga g) = .ok (.ofSaga g) := Draft.apply_of_not_awaited ha now
  simp only [update, Store.atomically, bind, EStateM.bind, get, getThe, MonadStateOf.get,
    EStateM.get, hg, pure, EStateM.pure, Store.ofExcept, hm]
  rfl

theorem update_of_missing {id : String} {e : Failure} (hg : s.getSaga id = .error e)
    (m : Draft → Except Failure Draft) : update id now m s = .error (sagaNotFound id) s := by
  simp only [update, Store.atomically, bind, EStateM.bind, get, getThe, MonadStateOf.get,
    EStateM.get, hg, throw, throwThe, MonadExceptOf.throw, EStateM.throw]

theorem update_of_settled (hs : a.Settled s) (now : Instant) :
    (∃ g, update a.sagaId now (a.apply now) s = .ok (g, {}) s) ∨
      update a.sagaId now (a.apply now) s = .error (sagaNotFound a.sagaId) s := by
  cases hg : s.getSaga a.sagaId with
  | ok g => exact .inl ⟨g, update_of_not_awaited hg (hs g hg) now⟩
  | error e => exact .inr (update_of_missing hg _)

theorem settled_of_update (h : update a.sagaId now (a.apply now) s = .ok (g, fx) s') :
    a.Settled s' := by
  obtain ⟨current, d, hcur, hd, -, ⟨hc, -, rfl⟩ | ⟨hc, hg, hsagas⟩⟩ := update_ok h
  ·
    rcases Draft.apply_ok_cases hd with ⟨ha, rfl⟩ | ⟨hc', -⟩
    · intro x hx
      rw [hcur] at hx
      cases hx
      exact ha
    · rw [hc] at hc'
      cases hc'
  · rcases Draft.apply_ok_cases hd with ⟨-, rfl⟩ | ⟨-, ha, hid⟩
    · cases hc
    · intro x hx
      have hsame : current.sagaId = g.sagaId := by rw [hg, written_sagaId, hid]; rfl
      rw [getSaga_replaced hsagas, hcur] at hx
      simp only [Except.map, hsame, beq_self_eq_true, if_true, Except.ok.injEq] at hx
      subst hx
      rw [hg, written_stepList]
      exact ha

theorem settled_of_confirmed {r res : StepResult} (hs : (Answer.reserved r).Settled s)
    (h : update res.sagaId now (Draft.onConfirmed res now) s = .ok (g, fx) s') :
    (Answer.reserved r).Settled s' := by
  obtain ⟨current, d, hcur, hd, -, ⟨-, -, rfl⟩ | ⟨-, hg, hsagas⟩⟩ := update_ok h
  · exact hs
  · intro x hx
    rw [Answer.sagaId, getSaga_replaced hsagas] at hx
    cases hold : s.getSaga r.sagaId with
    | error e =>
      rw [hold] at hx
      cases hx
    | ok y =>
      rw [hold] at hx
      simp only [Except.map, Except.ok.injEq] at hx
      split at hx
      next hy =>
        have hid : g.sagaId = current.sagaId := by
          rw [hg, written_sagaId]
          exact Draft.apply_sagaId (.confirmed res) hd
        have hyc : y = current := by
          have h₁ := (Store.getSaga_ok hold).2
          have h₂ := (Store.getSaga_ok hcur).2
          have hr : r.sagaId = res.sagaId := by
            rw [← h₁, ← h₂, ← hid]
            simpa using hy
          rw [hr, hcur] at hold
          exact (Except.ok.inj hold).symm
        subst hx hyc
        rw [hg, written_stepList, Answer.awaited_congr (Draft.onConfirmed_keeps_reserve hd)]
        exact hs y hold
      next => subst hx; exact hs y hold

end Updates

/-! ## The handlers -/

namespace Answer

/-- The orchestrator's handler of an answer. -/
def handle : Answer → ShopM Unit
  | .reserved res => Shop.onReservationResult res
  | .confirmed res => Shop.onConfirmationResult res
  | .compensated rep => Shop.onCompensationReport rep

end Answer

namespace ShopM

def Ends {α : Type} (m : ShopM α) (sh sh' : Shop) : Prop :=
  (∃ a, m sh = .ok a sh') ∨ ∃ e, m sh = .error e sh'

def KeepsOrders {α : Type} (P : Store → Prop) (m : ShopM α) : Prop :=
  ∀ sh sh', P sh.orders → Ends m sh sh' → P sh'.orders

variable {α β : Type} {P : Store → Prop}

theorem bind_of_ok {x : ShopM α} {f : α → ShopM β} {sh sh₁ : Shop} {a : α}
    (hx : x sh = .ok a sh₁) : (x >>= f) sh = f a sh₁ := by
  show EStateM.bind x f sh = _
  simp [EStateM.bind, hx]

theorem bind_of_error {x : ShopM α} {f : α → ShopM β} {sh sh₁ : Shop} {e : Failure}
    (hx : x sh = .error e sh₁) : (x >>= f) sh = .error e sh₁ := by
  show EStateM.bind x f sh = _
  simp [EStateM.bind, hx]

theorem Ends.of_ok {m : ShopM α} {sh sh₁ sh' : Shop} {a : α}
    (hm : m sh = .ok a sh₁) (h : Ends m sh sh') : sh' = sh₁ := by
  rcases h with ⟨_, h⟩ | ⟨_, h⟩ <;> rw [hm] at h <;> cases h
  rfl

theorem Ends.of_error {m : ShopM α} {sh sh₁ sh' : Shop} {e : Failure}
    (hm : m sh = .error e sh₁) (h : Ends m sh sh') : sh' = sh₁ := by
  rcases h with ⟨_, h⟩ | ⟨_, h⟩ <;> rw [hm] at h <;> cases h
  rfl

namespace KeepsOrders

theorem pure (a : α) : KeepsOrders P (Pure.pure a : ShopM α) := by
  rintro sh sh' hP (⟨b, h⟩ | ⟨e, h⟩) <;> cases h
  exact hP

theorem get : KeepsOrders P (MonadState.get : ShopM Shop) := by
  rintro sh sh' hP (⟨b, h⟩ | ⟨e, h⟩) <;> cases h
  exact hP

theorem bind {x : ShopM α} {f : α → ShopM β} (hx : KeepsOrders P x)
    (hf : ∀ a, KeepsOrders P (f a)) : KeepsOrders P (x >>= f) := by
  intro sh sh' hP hend
  cases hxs : x sh with
  | ok a sh₁ =>
    unfold Ends at hend
    rw [bind_of_ok hxs] at hend
    exact hf a sh₁ sh' (hx sh sh₁ hP (.inl ⟨a, hxs⟩)) hend
  | error e sh₁ =>
    rw [Ends.of_error (bind_of_error hxs) hend]
    exact hx sh sh₁ hP (.inr ⟨e, hxs⟩)

theorem forIn {xs : List α} {b : β} {f : α → β → ShopM (ForInStep β)}
    (hf : ∀ x b, KeepsOrders P (f x b)) : KeepsOrders P (forIn xs b f) := by
  induction xs generalizing b with
  | nil => exact pure b
  | cons x rest ih =>
    rw [List.forIn_cons]
    refine bind (hf x b) fun r => ?_
    cases r with
    | done b => exact pure b
    | yield b => exact ih

theorem mapM {xs : List α} {f : α → ShopM β} (hf : ∀ x, KeepsOrders P (f x)) :
    KeepsOrders P (xs.mapM f) := by
  induction xs with
  | nil => exact pure []
  | cons x rest ih =>
    rw [List.mapM_cons]
    exact bind (hf x) fun _ => bind ih fun _ => pure _

theorem clock : KeepsOrders P Shop.clock := bind get fun _ => pure _

theorem withStore_participant {k : Kind} {f : Store → α × Store} :
    KeepsOrders P (Shop.withStore (.participant k) f) := by
  rintro sh sh' hP (⟨b, h⟩ | ⟨e, h⟩) <;>
    simp only [Shop.withStore, modifyGet, MonadStateOf.modifyGet, EStateM.modifyGet] at h
  · obtain ⟨-, rfl⟩ := h
    exact hP
  · cases h

theorem call (op : Reservation.Operation) (kind : String) (req : Reservation.Request) :
    KeepsOrders P (Shop.call op kind req) := by
  unfold Shop.call
  split
  · exact pure _
  · refine bind get fun _ => ?_
    split
    · exact pure _
    · refine bind (bind clock fun _ => withStore_participant) fun r => ?_
      split
      · exact pure _
      · split <;> exact pure _

end KeepsOrders

end ShopM

namespace Shop

open ShopM

theorem updateSaga_of_ok {id : String} {m : Instant → Draft → Except Failure Draft} {sh : Shop}
    {r : Saga × Effects} {s' : Store} (hu : update id sh.now (m sh.now) sh.orders = .ok r s') :
    updateSaga id m sh = .ok r { sh with orders := s' } := by
  simp only [updateSaga, clock, onSite, bind, EStateM.bind, get, getThe, MonadStateOf.get,
    EStateM.get, pure, EStateM.pure, store, setStore, hu]

theorem updateSaga_of_error {id : String} {m : Instant → Draft → Except Failure Draft}
    {sh : Shop} {e : Failure} {s' : Store}
    (hu : update id sh.now (m sh.now) sh.orders = .error e s') :
    updateSaga id m sh = .error e { sh with orders := s' } := by
  simp only [updateSaga, clock, onSite, bind, EStateM.bind, get, getThe, MonadStateOf.get,
    EStateM.get, pure, EStateM.pure, store, setStore, hu]

section Handlers

variable {sh : Shop} {s' : Store}

theorem onReservationResult_of_ok {res : StepResult} {g : Saga} {fx : Effects}
    (hu : update res.sagaId sh.now (Draft.onReserved res sh.now) sh.orders = .ok (g, fx) s') :
    onReservationResult res sh = confirmSync g fx.confirms { sh with orders := s' } := by
  unfold onReservationResult
  rw [bind_of_ok (updateSaga_of_ok hu)]

theorem onConfirmationResult_of_ok {res : StepResult} {r : Saga × Effects}
    (hu : update res.sagaId sh.now (Draft.onConfirmed res sh.now) sh.orders = .ok r s') :
    onConfirmationResult res sh = .ok () { sh with orders := s' } := by
  unfold onConfirmationResult
  rw [bind_of_ok (updateSaga_of_ok hu)]
  rfl

theorem onCompensationReport_of_ok {rep : CompensationReport} {r : Saga × Effects}
    (hu : update rep.sagaId sh.now (Draft.onCompensated rep sh.now) sh.orders = .ok r s') :
    onCompensationReport rep sh = .ok () { sh with orders := s' } := by
  unfold onCompensationReport
  rw [bind_of_ok (updateSaga_of_ok hu)]
  rfl

theorem handle_of_error {a : Answer} {e : Failure}
    (hu : update a.sagaId sh.now (a.apply sh.now) sh.orders = .error e s') :
    a.handle sh = .error e { sh with orders := s' } := by
  cases a <;> simp only [Answer.sagaId, Answer.apply] at hu
  case reserved res =>
    show onReservationResult res sh = _
    unfold onReservationResult
    rw [bind_of_error (updateSaga_of_error hu)]
  case confirmed res =>
    show onConfirmationResult res sh = _
    unfold onConfirmationResult
    rw [bind_of_error (updateSaga_of_error hu)]
  case compensated rep =>
    show onCompensationReport rep sh = _
    unfold onCompensationReport
    rw [bind_of_error (updateSaga_of_error hu)]

end Handlers

theorem KeepsOrders.updateSaga {P : Store → Prop} {id : String}
    {m : Instant → Draft → Except Failure Draft}
    (hm : ∀ now s r s', P s → update id now (m now) s = .ok r s' → P s') :
    KeepsOrders P (updateSaga id m) := by
  intro sh sh' hP hend
  cases hu : update id sh.now (m sh.now) sh.orders with
  | ok r s₁ =>
    rcases hend with ⟨_, h⟩ | ⟨_, h⟩ <;> rw [updateSaga_of_ok hu] at h <;> cases h
    exact hm _ _ _ _ hP hu
  | error e s₁ =>
    rw [Ends.of_error (updateSaga_of_error hu) hend]
    show P s₁
    rw [update_error hu]
    exact hP

theorem confirmSync_keeps {P : Store → Prop}
    (hP : ∀ (res : StepResult) now s r s',
      P s → update res.sagaId now (Draft.onConfirmed res now) s = .ok r s' → P s')
    (g : Saga) (steps : List SagaStep) : KeepsOrders P (confirmSync g steps) := by
  unfold confirmSync callAll
  refine .bind (.mapM fun _ => .bind (.call _ _ _) fun _ => .pure _) fun _ => ?_
  refine .bind (.forIn fun x _ => ?_) fun _ => .pure _
  obtain ⟨kind, r⟩ := x
  exact .bind .clock fun _ =>
    .bind (.bind (KeepsOrders.updateSaga fun now => hP _ now) fun _ => .pure _) fun _ => .pure _

end Shop

/-! ## A second delivery, and an ended saga -/

namespace Answer

open ShopM

theorem handle_settles (a : Answer) {sh sh' : Shop} (h : Ends a.handle sh sh') :
    a.Settled sh'.orders ∨ ∃ e, a.handle sh = .error e sh ∧ sh' = sh := by
  cases hu : update a.sagaId sh.now (a.apply sh.now) sh.orders with
  | error e s₁ =>
    obtain rfl : s₁ = sh.orders := update_error hu
    have he : a.handle sh = .error e sh := Shop.handle_of_error hu
    exact .inr ⟨e, he, Ends.of_error he h⟩
  | ok r s₁ =>
    left
    obtain ⟨g, fx⟩ := r
    have hs₁ : a.Settled s₁ := settled_of_update hu
    cases a with
    | reserved res =>
      unfold Ends at h
      rw [handle, Shop.onReservationResult_of_ok hu] at h
      exact Shop.confirmSync_keeps (fun _ _ _ _ _ hP hc => settled_of_confirmed hP hc) g
        fx.confirms _ sh' hs₁ h
    | confirmed res =>
      rw [Ends.of_ok (Shop.onConfirmationResult_of_ok hu) h]
      exact hs₁
    | compensated rep =>
      rw [Ends.of_ok (Shop.onCompensationReport_of_ok hu) h]
      exact hs₁

theorem handle_of_settled {a : Answer} {sh : Shop} (hs : a.Settled sh.orders) :
    Ends a.handle sh sh := by
  rcases update_of_settled hs sh.now with ⟨g, hu⟩ | hu
  ·
    refine .inl ⟨(), ?_⟩
    cases a with
    | reserved res => exact Shop.onReservationResult_of_ok hu
    | confirmed res => exact Shop.onConfirmationResult_of_ok hu
    | compensated rep => exact Shop.onCompensationReport_of_ok hu
  · exact .inr ⟨_, Shop.handle_of_error hu⟩

theorem handle_again {a : Answer} {sh sh' : Shop} (h : Ends a.handle sh sh') :
    Ends a.handle sh' sh' := by
  rcases handle_settles a h with hs | ⟨e, he, rfl⟩
  · exact handle_of_settled hs
  · exact .inr ⟨e, he⟩

end Answer

section Ended

variable {s : Store} {sent : List (Saga × Effects)} {g : Saga}

theorem openSaga_keeps_nodup {β : Type} {key : Saga → β} {o : Order} {g : Saga} {now : Instant}
    {s s' : Store} {u : Unit} (h : openSaga o g now s = .ok u s')
    (hnew : ∀ x ∈ s.sagas, key x ≠ key ({ g with createdAt := now, updatedAt := now } : Saga).stored)
    (hnodup : (s.sagas.map key).Nodup) : (s'.sagas.map key).Nodup := by
  rw [(openSaga_ok h).2.1, List.map_append, List.map_singleton, ← List.concat_eq_append,
    List.nodup_concat]
  refine ⟨fun hin => ?_, hnodup⟩
  obtain ⟨x, hx, hkey⟩ := List.mem_map.mp hin
  exact hnew x hx hkey

theorem Run.sagaIds_nodup (run : Run s sent) : (s.sagas.map (·.sagaId)).Nodup := by
  induction run with
  | start empty => simp [empty]
  | place _ _ _ ok _ ih =>
    exact openSaga_keeps_nodup ok (fun x hx => ((openSaga_ok ok).1 x hx).1) ih
  | placeFailed _ failed ih => rw [openSaga_error failed]; exact ih
  | answer _ ok ih =>
    obtain ⟨-, -, -, -, -, ⟨-, -, rfl⟩ | ⟨-, -, hsagas⟩⟩ := update_ok ok
    · exact ih
    ·
      rwa [Store.sagaIds_replaced hsagas]
  | answerFailed _ failed ih => rw [update_error failed]; exact ih

theorem Run.getSaga_of_mem (run : Run s sent) (hg : g ∈ s.sagas) :
    s.getSaga g.sagaId = .ok g := by
  have hfound : (s.sagas.find? (·.sagaId == g.sagaId)).isSome :=
    List.find?_isSome.mpr ⟨g, hg, by simp⟩
  obtain ⟨x, hx⟩ := Option.isSome_iff_exists.mp hfound
  have hxg : x = g :=
    List.inj_on_of_nodup_map run.sagaIds_nodup (List.mem_of_find?_eq_some hx) hg
      (by simpa using List.find?_some hx)
  simp [Store.getSaga, hx, hxg]

theorem settled_of_ended (run : Run s sent) (hg : g ∈ s.sagas)
    (hend : g.status = .completed ∨ g.status = .compensationCompleted ∨ g.status = .failed)
    {a : Answer} (ha : a.sagaId = g.sagaId) : a.Settled s := by
  intro x hx
  rw [ha, run.getSaga_of_mem hg, Except.ok.injEq] at hx
  subst hx
  intro haw
  obtain ⟨st, hst, hw⟩ := Answer.waiting_of_awaited haw
  have hidle := (run.shaped _ hg).not_waiting_of_ended hend st hst
  rw [hw] at hidle
  cases hidle

end Ended

/-- **Answers delivered again, and answers to sagas that ended, change nothing.** -/
theorem answers_again_or_late_change_nothing :
    (∀ (a : Answer) (sh sh' : Shop), ShopM.Ends a.handle sh sh' →
      ShopM.Ends a.handle sh' sh') ∧
    ∀ {s : Store} {sent : List (Saga × Effects)}, Run s sent → ∀ g ∈ s.sagas,
      (g.status = .completed ∨ g.status = .compensationCompleted ∨ g.status = .failed) →
      ∀ (a : Answer) (sh : Shop), sh.orders = s → a.sagaId = g.sagaId →
        a.handle sh = .ok () sh := by
  refine ⟨fun a sh sh' h => Answer.handle_again h, ?_⟩
  intro s sent run g hg hend a sh hsh ha
  subst hsh
  have hget : sh.orders.getSaga a.sagaId = .ok g := by
    rw [ha]
    exact run.getSaga_of_mem hg
  have hu := update_of_not_awaited hget (settled_of_ended run hg hend ha g hget) sh.now
  cases a with
  | reserved res => exact Shop.onReservationResult_of_ok hu
  | confirmed res => exact Shop.onConfirmationResult_of_ok hu
  | compensated rep => exact Shop.onCompensationReport_of_ok hu

/-- An order of one stock item whose reservation is refused ends its saga compensated, and every
answer to that saga afterwards changes nothing. -/
theorem refused_saga_absorbs_answers : ∃ (s : Store) (sent : List (Saga × Effects)) (g : Saga),
    Run s sent ∧ g ∈ s.sagas ∧ g.status = .compensationCompleted ∧
      ∀ (a : Answer) (sh : Shop), sh.orders = s → a.sagaId = g.sagaId →
        a.handle sh = .ok () sh := by
  let req : OrderRequest := { userId := 1, items := [(7, 2)] }
  let g : Saga := { req.saga "saga-1" 1 (fun _ => .sync) .zero with status := .reserving }
  let refusal : Answer := .reserved { sagaId := "saga-1", kind := "stock", success := false }
  have hrun : (match openSaga (req.order 1 .zero) g .zero {} with
      | .ok _ s => match update refusal.sagaId .zero (refusal.apply .zero) s with
        | .ok (g', _) s' => g'.status == .compensationCompleted && s'.sagas.contains g'
        | .error _ _ => false
      | .error _ _ => false) = true := by
    decide +kernel
  split at hrun
  next s hopen =>
    split at hrun
    next g' fx s' hu =>
      have placed : Run s _ :=
        @Run.place {} s [] req "saga-1" 1 (fun _ => .sync) .zero g [] (.start rfl) rfl rfl
          hopen rfl
      have run : Run s' _ := placed.answer hu
      simp only [Bool.and_eq_true, beq_iff_eq, List.contains_iff_mem] at hrun
      exact ⟨s', _, g', run, hrun.2, hrun.1,
        answers_again_or_late_change_nothing.2 run g' hrun.2 (.inr (.inl hrun.1))⟩
    next => cases hrun
  next => cases hrun

end OrderSaga
