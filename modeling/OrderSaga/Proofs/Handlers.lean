import OrderSaga.Proofs.Announcements
import OrderSaga.Proofs.Placement

namespace OrderSaga

namespace ShopM

variable {α β : Type}

def Stable (P : Shop → Prop) : Prop := ∀ ⦃sh sh' : Shop⦄, P sh → sh.Grows sh' → P sh'

theorem Stable.and {P Q : Shop → Prop} (hP : Stable P) (hQ : Stable Q) :
    Stable fun sh => P sh ∧ Q sh :=
  fun _ _ h hg => ⟨hP h.1 hg, hQ h.2 hg⟩

theorem stable_const (p : Prop) : Stable fun _ => p := fun _ _ h _ => h

theorem stable_names (sagaId : String) (orderId userId : UInt64) :
    Stable fun sh => sh.Names sagaId orderId userId :=
  fun _ _ h hg => hg.names h

theorem stable_truthful (text : String) : Stable fun sh => sh.Truthful text :=
  fun _ _ h hg => hg.truthful h

/-- Work `m` keeps a shop agreeing: run from an agreeing shop that satisfies `P`, it ends, returning
or failing, in an agreeing shop the first grows into; what it returns satisfies `Q` there. -/
structure Agreeing (P : Shop → Prop) (m : ShopM α) (Q : α → Shop → Prop) : Prop where
  ok : ∀ ⦃sh : Shop⦄ ⦃a : α⦄ ⦃sh' : Shop⦄, sh.Agrees → P sh → m sh = .ok a sh' →
    sh'.Agrees ∧ sh.Grows sh' ∧ Q a sh'
  error : ∀ ⦃sh : Shop⦄ ⦃e : Failure⦄ ⦃sh' : Shop⦄, sh.Agrees → P sh → m sh = .error e sh' →
    sh'.Agrees ∧ sh.Grows sh'

namespace Agreeing

variable {P P' : Shop → Prop} {Q Q' : α → Shop → Prop} {R : β → Shop → Prop} {m : ShopM α}

theorem ends (h : Agreeing P m Q) {sh sh' : Shop} (hA : sh.Agrees) (hP : P sh)
    (hend : Ends m sh sh') : sh'.Agrees ∧ sh.Grows sh' := by
  rcases hend with ⟨a, hm⟩ | ⟨e, hm⟩
  · exact (h.ok hA hP hm).imp_right And.left
  · exact h.error hA hP hm

theorem mono (h : Agreeing P m Q) (hP : ∀ sh, sh.Agrees → P' sh → P sh)
    (hQ : ∀ a sh, Q a sh → Q' a sh) : Agreeing P' m Q' := by
  constructor
  · intro sh a sh' hA hp hm
    obtain ⟨hA', hg, hq⟩ := h.ok hA (hP sh hA hp) hm
    exact ⟨hA', hg, hQ a sh' hq⟩
  · intro sh e sh' hA hp hm
    exact h.error hA (hP sh hA hp) hm

theorem keep (h : Agreeing P m Q) (hP : Stable P) : Agreeing P m fun a sh => Q a sh ∧ P sh := by
  constructor
  · intro sh a sh' hA hp hm
    obtain ⟨hA', hg, hq⟩ := h.ok hA hp hm
    exact ⟨hA', hg, hq, hP hp hg⟩
  · exact h.error

theorem of_run {v : Shop → α} {next : Shop → Shop} (hm : ∀ sh, m sh = .ok (v sh) (next sh))
    (h : ∀ sh, sh.Agrees → P sh → (next sh).Agrees ∧ sh.Grows (next sh) ∧ Q (v sh) (next sh)) :
    Agreeing P m Q := by
  constructor
  · intro sh a sh' hA hp hrun
    rw [hm sh] at hrun
    cases hrun
    exact h sh hA hp
  · intro sh e sh' _ _ hrun
    rw [hm sh] at hrun
    cases hrun

theorem of_run_agrees {v : Shop → α} {next : Shop → Shop}
    (hm : ∀ sh, m sh = .ok (v sh) (next sh))
    (h : ∀ sh, sh.Agrees → P sh → (next sh).Agrees ∧ sh.Grows (next sh)) :
    Agreeing P m fun _ _ => True :=
  of_run hm fun sh hA hp => ⟨(h sh hA hp).1, (h sh hA hp).2, trivial⟩

theorem pure {a : α} (h : ∀ sh, P sh → Q a sh) : Agreeing P (Pure.pure a : ShopM α) Q := by
  constructor
  · intro sh b sh' hA hp hm
    cases hm
    exact ⟨hA, .refl sh, h sh hp⟩
  · intro sh e sh' _ _ hm
    cases hm

theorem throw {e : Failure} : Agreeing P (MonadExcept.throw e : ShopM α) Q := by
  constructor
  · intro sh a sh' _ _ hm
    cases hm
  · intro sh e' sh' hA _ hm
    cases hm
    exact ⟨hA, .refl sh⟩

theorem bind {x : ShopM α} {f : α → ShopM β} (hx : Agreeing P x Q)
    (hf : ∀ a, Agreeing (Q a) (f a) R) : Agreeing P (x >>= f) R := by
  constructor
  · intro sh b sh' hA hp hm
    cases hxs : x sh with
    | ok a sh₁ =>
      rw [bind_of_ok hxs] at hm
      obtain ⟨hA₁, hg₁, hq⟩ := hx.ok hA hp hxs
      obtain ⟨hA', hg', hr⟩ := (hf a).ok hA₁ hq hm
      exact ⟨hA', hg₁.trans hg', hr⟩
    | error e sh₁ =>
      rw [bind_of_error hxs] at hm
      cases hm
  · intro sh e sh' hA hp hm
    cases hxs : x sh with
    | ok a sh₁ =>
      rw [bind_of_ok hxs] at hm
      obtain ⟨hA₁, hg₁, hq⟩ := hx.ok hA hp hxs
      obtain ⟨hA', hg'⟩ := (hf a).error hA₁ hq hm
      exact ⟨hA', hg₁.trans hg'⟩
    | error e₁ sh₁ =>
      rw [bind_of_error hxs] at hm
      cases hm
      exact hx.error hA hp hxs

theorem throw_bind {e : Failure} {f : α → ShopM β} :
    Agreeing P (MonadExcept.throw e >>= f) R := by
  constructor
  · intro sh b sh' _ _ hm
    cases hm
  · intro sh e' sh' hA _ hm
    cases hm
    exact ⟨hA, .refl sh⟩

theorem pure_bind {a : α} {f : α → ShopM β} (h : Agreeing P (f a) R) :
    Agreeing P (Pure.pure a >>= f) R :=
  ⟨fun _ _ _ hA hp hm => h.ok hA hp hm, fun _ _ _ hA hp hm => h.error hA hp hm⟩

theorem bind_get {f : Shop → ShopM β} (hf : ∀ s, Agreeing (fun sh => P sh ∧ sh = s) (f s) R) :
    Agreeing P (MonadState.get >>= f) R := by
  constructor
  · intro sh b sh' hA hp hm
    exact (hf sh).ok hA ⟨hp, rfl⟩ hm
  · intro sh e sh' hA hp hm
    exact (hf sh).error hA ⟨hp, rfl⟩ hm

theorem clock : Agreeing P Shop.clock fun t sh => P sh ∧ t = sh.now :=
  bind_get fun _ => pure fun _ h => ⟨h.1, by rw [h.2]⟩

theorem tryCatch {handler : Failure → ShopM α} (hm : Agreeing P m Q)
    (hh : ∀ e, Agreeing P (handler e) Q) (hP : Stable P) :
    Agreeing P (tryCatch m handler) Q := by
  constructor
  · intro sh a sh' hA hp h
    rw [Shop.tryCatch_run] at h
    cases hms : m sh with
    | ok b sh₁ =>
      rw [hms] at h
      cases h
      exact hm.ok hA hp hms
    | error e sh₁ =>
      rw [hms] at h
      obtain ⟨hA₁, hg₁⟩ := hm.error hA hp hms
      obtain ⟨hA', hg', hq⟩ := (hh e).ok hA₁ (hP hp hg₁) h
      exact ⟨hA', hg₁.trans hg', hq⟩
  · intro sh e' sh' hA hp h
    rw [Shop.tryCatch_run] at h
    cases hms : m sh with
    | ok b sh₁ =>
      rw [hms] at h
      cases h
    | error e sh₁ =>
      rw [hms] at h
      obtain ⟨hA₁, hg₁⟩ := hm.error hA hp hms
      obtain ⟨hA', hg'⟩ := (hh e).error hA₁ (hP hp hg₁) h
      exact ⟨hA', hg₁.trans hg'⟩

theorem ite {p : Prop} [Decidable p] {x y : ShopM α} (hx : p → Agreeing P x Q)
    (hy : ¬ p → Agreeing P y Q) : Agreeing P (if p then x else y) Q := by
  by_cases hp : p
  · rw [if_pos hp]
    exact hx hp
  · rw [if_neg hp]
    exact hy hp

theorem forIn {xs : List α} {b : β} {f : α → β → ShopM (ForInStep β)} {I : Shop → Prop}
    (hI : Stable I) (hf : ∀ x ∈ xs, ∀ b, Agreeing I (f x b) fun _ _ => True) :
    Agreeing I (forIn xs b f) fun _ => I := by
  induction xs generalizing b with
  | nil => exact pure fun _ h => h
  | cons x rest ih =>
    rw [List.forIn_cons]
    refine bind ((hf x List.mem_cons_self b).keep hI) fun r => ?_
    cases r with
    | done b' => exact pure fun _ h => h.2
    | yield b' =>
      exact (ih fun y hy => hf y (List.mem_cons_of_mem x hy)).mono (fun _ _ h => h.2)
        fun _ _ h => h

theorem mapM {xs : List α} {f : α → ShopM β} {I : Shop → Prop} (hI : Stable I)
    (hR : ∀ y, Stable (R y)) (hf : ∀ x ∈ xs, Agreeing I (f x) R) :
    Agreeing I (xs.mapM f) fun ys sh => I sh ∧ ∀ y ∈ ys, R y sh := by
  induction xs with
  | nil => exact pure fun _ h => ⟨h, by simp⟩
  | cons x rest ih =>
    rw [List.mapM_cons]
    refine bind ((hf x List.mem_cons_self).keep hI) fun y => ?_
    have hrest := ih fun z hz => hf z (List.mem_cons_of_mem x hz)
    refine bind ((hrest.mono (fun _ _ h => h.2) fun _ _ h => h).keep ((hR y).and hI)) fun ys => ?_
    refine pure fun sh h => ⟨h.1.1, ?_⟩
    intro z hz
    rcases List.mem_cons.mp hz with rfl | hz
    · exact h.2.1
    · exact h.1.2 z hz

end Agreeing

end ShopM

/-! ## Changes of a shop outside its stores -/

namespace Shop

variable {sh : Shop}

theorem Agrees.of_parts (hA : sh.Agrees) {sh' : Shop} (ho : sh'.orders = sh.orders)
    (hp : sh'.participants = sh.participants) (hn : sh'.now = sh.now)
    (hb : sh'.bus.pending = sh.bus.pending) : sh'.Agrees ∧ sh.Grows sh' := by
  have hstore : ∀ site, sh'.store site = sh.store site := by
    intro site
    cases site with
    | orders => exact ho
    | participant k => simp only [store, hp]
  refine hA.of_same (by rw [hn]; exact hA.utc) (by rw [ho]) (fun k => by rw [hstore])
    (fun site x hx => ?_) fun m hm => ?_
  · rw [hstore] at hx
    exact hA.outbox site x hx
  · rw [hb] at hm
    exact hA.bus m hm

theorem Answer.backed_confirmed (hA : sh.Agrees) {res : StepResult} (hv : sh.Vouches res) :
    (Answer.confirmed res).Backed sh := by
  intro kind hk g hg hid
  obtain ⟨rfl, hs⟩ := hk
  obtain ⟨⟨g₀, hg₀, hid₀, ho₀, hu₀⟩, hc⟩ := hv hs
  obtain rfl := List.inj_on_of_nodup_map hA.ids hg hg₀ (hid.trans hid₀.symm)
  rw [ho₀, hu₀]
  exact hc

theorem vouches_stepResultOf {g : Saga} {kind : String}
    {r : Except Failure (Option Reservation.Result)} {t : Instant}
    (hn : sh.Names g.sagaId g.orderId g.userId)
    (hc : (∃ res, r = .ok res) → sh.Confirms g.orderId g.userId kind) :
    sh.Vouches (stepResultOf g kind r t) := by
  intro hs
  cases r with
  | ok res => exact ⟨hn, hc ⟨res, rfl⟩⟩
  | error e => simp [stepResultOf] at hs

end Shop

/-! ## The handlers -/

namespace Shop

open ShopM

variable {P : Shop → Prop}

theorem withStore_run {α : Type} (site : Site) (f : Store → α × Store) (sh : Shop) :
    withStore site f sh = .ok (f (sh.store site)).1 (sh.setStore site (f (sh.store site)).2) :=
  rfl

theorem apply_unannounced_agreeing (k : Kind) (op : Reservation.Operation)
    (req : Reservation.Request) :
    Agreeing P (apply k op req none) fun r sh =>
      op = .confirm → r.2 = none → sh.Confirms req.orderId req.userId k.name :=
  .of_run (apply_run k op req none) fun _ hA _ => hA.apply_unannounced rfl

theorem call_agreeing (op : Reservation.Operation) (kind : String) (req : Reservation.Request) :
    Agreeing P (call op kind req) fun r sh =>
      op = .confirm → (∃ res, r = .ok res) → sh.Confirms req.orderId req.userId kind := by
  have refused : ∀ {Q : Shop → Prop} (e : Failure),
      Agreeing Q (Pure.pure (Except.error e) : ShopM (Except Failure (Option Reservation.Result)))
        fun r sh => op = .confirm → (∃ res, r = .ok res) →
          sh.Confirms req.orderId req.userId kind := by
    intro Q e
    refine .pure fun _ _ _ hok => ?_
    obtain ⟨_, h⟩ := hok
    cases h
  unfold call
  split
  · exact refused _
  · rename_i k hk
    refine .bind_get fun _ => ?_
    split
    · exact refused _
    · refine .bind (apply_unannounced_agreeing k op req) fun r => ?_
      split
      · refine .pure fun _ h hop _ => ?_
        rw [← Draft.Kind.name_of_ofName? hk]
        exact h hop rfl
      · split <;> exact refused _

theorem callAll_agreeing (op : Reservation.Operation) (g : Saga) (steps : List SagaStep)
    {I : Shop → Prop} (hI : Stable I) :
    Agreeing I (callAll op g steps) fun results sh => I sh ∧ ∀ y ∈ results,
      op = .confirm → (∃ res, y.2 = .ok res) → sh.Confirms g.orderId g.userId y.1 := by
  unfold callAll
  refine .mapM hI (fun _ _ _ h hg hop hok => hg.confirms (h hop hok)) fun st _ => ?_
  exact .bind (call_agreeing op st.kind (request g st)) fun _ => .pure fun _ h => h

theorem updateSaga_agreeing (a : Answer) :
    Agreeing (fun sh => a.Backed sh) (updateSaga a.sagaId a.apply) fun r sh =>
      sh.Names r.1.sagaId r.1.orderId r.1.userId := by
  constructor
  · intro sh r sh' hA hb h
    cases hu : Orchestrator.update a.sagaId sh.now (a.apply sh.now) sh.orders with
    | ok r' s' =>
      rw [updateSaga_of_ok hu] at h
      cases h
      exact hA.update hb hu
    | error e s' =>
      rw [updateSaga_of_error hu] at h
      cases h
  · intro sh e sh' hA _ h
    cases hu : Orchestrator.update a.sagaId sh.now (a.apply sh.now) sh.orders with
    | ok r' s' =>
      rw [updateSaga_of_ok hu] at h
      cases h
    | error e' s' =>
      rw [updateSaga_of_error hu] at h
      cases h
      rw [Orchestrator.update_error hu]
      exact ⟨hA, .refl sh⟩

theorem onConfirmationResult_agreeing (res : StepResult) :
    Agreeing (fun sh => sh.Vouches res) (onConfirmationResult res) fun _ _ => True := by
  unfold onConfirmationResult
  exact .bind ((updateSaga_agreeing (.confirmed res)).mono
    (fun _ hA hv => Answer.backed_confirmed hA hv) fun _ _ h => h) fun _ => .pure fun _ _ => trivial

theorem onCompensationReport_agreeing (rep : CompensationReport) :
    Agreeing P (onCompensationReport rep) fun _ _ => True := by
  unfold onCompensationReport
  exact .bind ((updateSaga_agreeing (.compensated rep)).mono (fun _ _ _ _ h => h.elim)
    fun _ _ h => h) fun _ => .pure fun _ _ => trivial

theorem confirmSync_agreeing (g : Saga) (steps : List SagaStep) :
    Agreeing (fun sh => sh.Names g.sagaId g.orderId g.userId) (confirmSync g steps)
      fun _ _ => True := by
  unfold confirmSync
  refine .bind (callAll_agreeing .confirm g steps (stable_names _ _ _)) fun results => ?_
  have hI : Stable fun sh => sh.Names g.sagaId g.orderId g.userId ∧ ∀ y ∈ results,
      Reservation.Operation.confirm = .confirm → (∃ res, y.2 = .ok res) →
        sh.Confirms g.orderId g.userId y.1 :=
    (stable_names _ _ _).and fun _ _ h hg y hy hop hok => hg.confirms (h y hy hop hok)
  refine .bind (.forIn hI fun x hx _ => ?_) fun _ => .pure fun _ _ => trivial
  obtain ⟨kind, r⟩ := x
  refine .bind .clock fun t => .bind ((onConfirmationResult_agreeing _).mono ?_
    fun _ _ h => h) fun _ => .pure fun _ _ => trivial
  intro sh _ h
  exact vouches_stepResultOf h.1.1 (h.1.2 _ hx rfl)

theorem onReservationResult_agreeing (res : StepResult) :
    Agreeing P (onReservationResult res) fun _ _ => True := by
  unfold onReservationResult
  refine .bind ((updateSaga_agreeing (.reserved res)).mono (fun _ _ _ _ h => h.elim)
    fun _ _ h => h) fun r => ?_
  obtain ⟨g, fx⟩ := r
  exact confirmSync_agreeing g fx.confirms

theorem reserveSync_agreeing (g : Saga) : Agreeing P (reserveSync g) fun _ _ => True := by
  suffices h : Agreeing (fun _ => True) (reserveSync g) fun _ _ => True from
    h.mono (fun _ _ _ => trivial) fun _ _ h => h
  unfold reserveSync
  refine .bind ((callAll_agreeing .reserve g _ (stable_const True)).mono (fun _ _ h => h)
    fun _ _ _ => trivial) fun results => ?_
  refine .bind (.forIn (stable_const True) fun x _ acc => ?_) fun _ => .pure fun _ _ => trivial
  obtain ⟨kind, r⟩ := x
  exact .bind .clock fun _ => .bind (onReservationResult_agreeing _) fun _ =>
    .pure fun _ _ => trivial

theorem nextOrderId_agreeing : Agreeing P nextOrderId fun _ _ => True := by
  constructor
  · intro sh i sh' hA _ h
    obtain ⟨ids, rfl⟩ := nextOrderId_ok h
    exact And.intro (And.left (hA.of_parts rfl rfl rfl rfl))
      ⟨And.right (hA.of_parts rfl rfl rfl rfl), trivial⟩
  · intro sh e sh' hA _ h
    obtain ⟨-, rfl⟩ := nextOrderId_error h
    exact ⟨hA, .refl _⟩

theorem openOrder_agreeing (req : OrderRequest) : Agreeing P (openOrder req) fun _ _ => True := by
  suffices h : Agreeing (fun _ => True) (openOrder req) fun _ _ => True from
    h.mono (fun _ _ _ => trivial) fun _ _ h => h
  unfold openOrder
  dsimp only
  split
  · exact .throw_bind
  · rename_i hv
    refine .bind (.tryCatch nextOrderId_agreeing (fun _ => .throw) (stable_const True))
      fun orderId => .bind_get fun s => ?_
    split
    · rename_i g hg
      have hopen : Agreeing (fun sh => True ∧ sh = s)
          (onSite .orders (Orchestrator.openSaga (req.order orderId s.now) g s.now))
          fun _ _ => True := by
        constructor
        · intro sh u sh' hA hs h
          obtain ⟨-, rfl⟩ := hs
          simp only [onSite, store, setStore] at h
          split at h
          · rename_i u' s' ho
            cases h
            exact ⟨(hA.openSaga hv hg ho).1, (hA.openSaga hv hg ho).2, trivial⟩
          · cases h
        · intro sh e sh' hA hs h
          obtain ⟨-, rfl⟩ := hs
          simp only [onSite, store, setStore] at h
          split at h
          · cases h
          · rename_i e' s' ho
            cases h
            rw [Orchestrator.openSaga_error ho]
            exact ⟨hA, .refl _⟩
      exact .pure_bind (.bind hopen fun _ => .pure fun _ _ => trivial)
    · exact .throw_bind

theorem settlePlacement_agreeing (req : OrderRequest) (g : Saga) :
    Agreeing P (settlePlacement req g) fun _ _ => True := by
  unfold settlePlacement
  refine .bind_get fun _ => .bind (reserveSync_agreeing g) fun r => ?_
  obtain ⟨rejection, unavailable⟩ := r
  exact .bind_get fun _ => .pure fun _ _ => trivial

theorem placeOrder_agreeing (req : OrderRequest) :
    Agreeing P (placeOrder req) fun _ _ => True := by
  unfold placeOrder
  exact .bind (openOrder_agreeing req) fun g => settlePlacement_agreeing req g

theorem runCommand_agreeing (k : Kind) (op : Reservation.Operation) (t : String) (cmd : Command) :
    Agreeing (fun sh => t = EventType.reservationResult.name ∨
        t = EventType.confirmationResult.name ∧ op = .confirm ∧
          sh.Names cmd.sagaId cmd.orderId cmd.userId)
      (runCommand k op t cmd) fun _ _ => True := by
  unfold runCommand
  dsimp only
  refine .bind (.of_run_agrees (apply_run k op _ _) fun _ hA ht => hA.apply_announced rfl ht)
    fun r => ?_
  split
  · exact .ite (fun _ => .pure fun _ _ => trivial) fun _ => .throw
  · exact .pure fun _ _ => trivial

theorem compensate_agreeing (k : Kind) (req : CompensationRequest) :
    Agreeing P (compensate k req) fun _ _ => True := by
  unfold compensate
  have hstore : ∀ t, Agreeing (fun sh => P sh ∧ t = sh.now)
      (withStore (.participant k) ((service k).compensate req t)) fun _ _ => True := by
    refine fun t => .of_run_agrees (withStore_run _ _) fun sh hA h => ?_
    obtain ⟨-, rfl⟩ := h
    exact hA.compensate rfl
  refine .bind .clock fun t => .bind (hstore t) fun r => ?_
  · cases r with
    | some e => exact .throw
    | none => exact .pure fun _ _ => trivial

theorem ignoreUnknownSaga_agreeing {m : ShopM Unit} (hm : Agreeing P m fun _ _ => True)
    (hP : Stable P) : Agreeing P (ignoreUnknownSaga m) fun _ _ => True := by
  unfold ignoreUnknownSaga
  exact .tryCatch hm (fun _ => .ite (fun _ => .pure fun _ _ => trivial) fun _ => .throw) hP

theorem handle_agreeing (c : Consumer) (e : Envelope) (hshape : e.payload.shape = e.type.shape) :
    Agreeing (fun sh => e.Honest sh) (handle c e) fun _ _ => True := by
  have hstable : Stable fun sh => e.Honest sh := fun _ _ h hg => hg.honest h
  unfold handle
  split
  · exact (runCommand_agreeing _ _ _ _).mono (fun _ _ _ => .inl rfl) fun _ _ h => h
  · rename_i k id kd time c
    exact (runCommand_agreeing _ _ _ _).mono
      (fun _ _ h => .inr ⟨rfl, rfl, h.command kd c rfl rfl⟩) fun _ _ h => h
  · exact compensate_agreeing _ _
  · exact ignoreUnknownSaga_agreeing (onReservationResult_agreeing _) hstable
  · rename_i id t time r hnot
    have ht : t = .confirmationResult := by
      cases t <;> first
        | rfl
        | exact absurd rfl hnot
        | cases hshape
    subst ht
    exact ignoreUnknownSaga_agreeing ((onConfirmationResult_agreeing r).mono
      (fun _ _ h => h.result r rfl rfl) fun _ _ h => h) hstable
  · exact ignoreUnknownSaga_agreeing (onCompensationReport_agreeing _) hstable
  · exact .throw

theorem markProcessed_agreeing (c : Consumer) (id : String) :
    Agreeing P (modify fun sh : Shop => { sh with processed := sh.processed ++ [(c.name, id)] })
      fun _ _ => True :=
  .of_run_agrees (fun _ => rfl) fun _ hA _ => hA.of_parts rfl rfl rfl rfl

theorem consume_agreeing (c : Consumer) (topic : String) (m : Message) :
    Agreeing (fun sh => sh.Truthful m.value) (consume c topic m) fun _ _ => True := by
  unfold consume
  split
  · exact .pure fun _ _ => trivial
  · rename_i e hd
    refine .ite (fun _ => .pure fun _ _ => trivial) fun _ => .bind_get fun _ => ?_
    refine .ite (fun _ => .pure fun _ _ => trivial) fun _ => ?_
    refine .bind ((handle_agreeing c e (Envelope.decode_checks hd).2.1).mono
      (fun _ _ h => h.1 e hd) fun _ _ h => h) fun _ => ?_
    exact .ite (fun _ => markProcessed_agreeing c e.eventId) fun _ => .pure fun _ _ => trivial

theorem requeue_agreeing (m : Message) :
    Agreeing (fun sh => sh.Truthful m.value)
      (modify fun sh : Shop => { sh with bus := sh.bus.requeue [m] }) fun _ _ => True := by
  refine .of_run_agrees (fun _ => rfl) fun sh hA hm =>
    hA.of_same hA.utc rfl (fun _ => rfl) hA.outbox fun m' hm' => ?_
  rcases List.mem_append.mp hm' with hm' | hm'
  · exact hA.bus m' hm'
  · rw [List.mem_singleton.mp hm']
    exact hm

theorem deliverOne_agreeing (m : Message) :
    Agreeing (fun sh => sh.Truthful m.value) (deliverOne m) fun _ _ => True := by
  unfold deliverOne
  split
  · exact .pure fun _ _ => trivial
  · exact .tryCatch (.bind (consume_agreeing _ _ _) fun _ => .pure fun _ _ => trivial)
      (fun _ => .bind (requeue_agreeing m) fun _ => .pure fun _ _ => trivial)
      (stable_truthful _)

theorem deliver_agreeing : Agreeing P deliver fun _ _ => True := by
  unfold deliver
  have htake : Agreeing P (modifyGet fun sh : Shop => (sh.bus.take.1, { sh with bus := sh.bus.take.2 }))
      fun ms sh => ∀ m ∈ ms, sh.Truthful m.value := by
    refine .of_run (fun _ => rfl) fun sh hA _ => ?_
    have h : ({ sh with bus := sh.bus.take.2 } : Shop).Agrees ∧
        sh.Grows { sh with bus := sh.bus.take.2 } :=
      hA.of_same hA.utc rfl (fun _ => rfl) hA.outbox fun m hm => by cases hm
    exact ⟨h.1, h.2, fun m hm => h.2.truthful (hA.bus m hm)⟩
  refine .bind htake fun batch => ?_
  have hI : Stable fun sh => ∀ m ∈ batch, sh.Truthful m.value :=
    fun _ _ h hg m hm => hg.truthful (h m hm)
  refine (Agreeing.mapM hI (fun _ => stable_const True) fun m hm => ?_).mono (fun _ _ h => h)
    fun _ _ _ => trivial
  exact .bind ((deliverOne_agreeing m).mono (fun _ _ h => h m hm) fun _ _ h => h) fun _ =>
    .pure fun _ _ => trivial

theorem relay_agreeing (site : Site) : Agreeing P (relay site) fun _ _ => True := by
  unfold relay
  refine .bind_get fun s => ?_
  rcases hr : Relay.relayOnce s.wiring.batch s.now (s.store site) s.bus with ⟨n, s', b'⟩
  refine .of_run_agrees (fun _ => rfl) fun sh hA h => ?_
  obtain ⟨-, rfl⟩ := h
  exact hA.relayOnce site _ hr

theorem relayAll_agreeing : Agreeing P relayAll fun _ _ => True := by
  unfold relayAll
  refine ((Agreeing.bind (Agreeing.mapM (stable_const True) (fun _ => stable_const True)
    fun site _ => relay_agreeing site) fun _ => Agreeing.pure fun _ _ => trivial).mono
      (fun _ _ _ => trivial) fun _ _ h => h)

theorem pump_agreeing (rounds : Nat) (done : List (List (Message × Delivery))) :
    Agreeing P (pump rounds done) fun _ _ => True := by
  suffices h : Agreeing (fun _ => True) (pump rounds done) fun _ _ => True from
    h.mono (fun _ _ _ => trivial) fun _ _ h => h
  induction rounds generalizing done with
  | zero =>
    unfold pump
    exact .pure fun _ _ => trivial
  | succ n ih =>
    unfold pump
    refine .bind relayAll_agreeing fun _ => .bind_get fun _ => ?_
    refine .ite (fun _ => .pure fun _ _ => trivial) fun _ => ?_
    exact .bind deliver_agreeing fun _ => ih _

end Shop

end OrderSaga
