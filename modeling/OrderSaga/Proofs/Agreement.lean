import OrderSaga.Proofs.Wire

namespace OrderSaga

open Relation

/-! ## Where a shop keeps its stores -/

theorem Participants.get_set_ne (ps : Participants) {k k' : Kind} (p : Participant)
    (h : k' ≠ k) : (ps.set k p).get k' = ps.get k' := by
  cases k <;> cases k' <;> first | rfl | exact absurd rfl h

namespace Shop

@[simp] theorem store_setStore (sh : Shop) (site : Site) (s : Store) :
    (sh.setStore site s).store site = s := by
  cases site with
  | orders => rfl
  | participant k => simp [store, setStore, Participants.get_set]

theorem store_setStore_ne (sh : Shop) {site site' : Site} (s : Store) (h : site' ≠ site) :
    (sh.setStore site s).store site' = sh.store site' := by
  cases site with
  | orders =>
    cases site' with
    | orders => exact absurd rfl h
    | participant k => rfl
  | participant k =>
    cases site' with
    | orders => rfl
    | participant k' =>
      have hk : k' ≠ k := fun hk => h (hk ▸ rfl)
      simp [store, setStore, Participants.get_set_ne _ _ hk]

@[simp] theorem setStore_now (sh : Shop) (site : Site) (s : Store) :
    (sh.setStore site s).now = sh.now := by
  cases site <;> rfl

@[simp] theorem setStore_bus (sh : Shop) (site : Site) (s : Store) :
    (sh.setStore site s).bus = sh.bus := by
  cases site <;> rfl

@[simp] theorem setStore_participant_orders (sh : Shop) (k : Kind) (s : Store) :
    (sh.setStore (.participant k) s).orders = sh.orders := rfl

end Shop

/-! ## What a shop bears out -/

def Store.HasRow (s : Store) (k : Kind) (t : EntryType) (orderId userId : UInt64) : Prop :=
  ∃ r ∈ s.ledgers k.name, r.type = t ∧ r.orderId = orderId ∧ r.userId = userId

def Store.Typed (s : Store) (k : Kind) : Prop :=
  ∀ r ∈ s.ledgers k.name, r.type.isFinalization = false → r.type = .reserve

namespace Shop

def Names (sh : Shop) (sagaId : String) (orderId userId : UInt64) : Prop :=
  ∃ g ∈ sh.orders.sagas, g.sagaId = sagaId ∧ g.orderId = orderId ∧ g.userId = userId

/-- The participant called `kind` confirmed the order: its ledger has a reserve row and a confirm
row of the order and user. -/
def Confirms (sh : Shop) (orderId userId : UInt64) (kind : String) : Prop :=
  ∃ k : Kind, k.name = kind ∧ (sh.store (.participant k)).HasRow k .reserve orderId userId ∧
    (sh.store (.participant k)).HasRow k .confirm orderId userId

def Vouches (sh : Shop) (r : StepResult) : Prop :=
  r.success = true → sh.Names r.sagaId r.orderId r.userId ∧ sh.Confirms r.orderId r.userId r.kind

end Shop

/-- An envelope the shop bears out: a confirm command names a saga with its order and user, and a
confirmation result is borne out. -/
structure Envelope.Honest (e : Envelope) (sh : Shop) : Prop where
  command : ∀ kd c, e.type = .confirmRequested kd → e.payload = .command c →
    sh.Names c.sagaId c.orderId c.userId
  result : ∀ r, e.type = .confirmationResult → e.payload = .stepResult r → sh.Vouches r

namespace Shop

def Truthful (sh : Shop) (text : String) : Prop :=
  ∀ e, Envelope.decode text = .ok e → e.Honest sh

/-- From `sh` to `sh'` the shop only grows: every saga keeps its id, order and user, and every row
of a participant's ledger stays. -/
structure Grows (sh sh' : Shop) : Prop where
  sagas : ∀ g ∈ sh.orders.sagas, sh'.Names g.sagaId g.orderId g.userId
  ledgers : ∀ (k : Kind), ∀ r ∈ (sh.store (.participant k)).ledgers k.name,
    r ∈ (sh'.store (.participant k)).ledgers k.name

/-- The shop agrees with itself: its sagas are shaped, their confirmed steps are in the ledgers, and
what its outboxes and bus hold is truthful. -/
structure Agrees (sh : Shop) : Prop where
  utc : sh.now.offset = 0
  shaped : ∀ g ∈ sh.orders.sagas, g.Shaped
  ids : (sh.orders.sagas.map (·.sagaId)).Nodup
  confirmed : ∀ g ∈ sh.orders.sagas, ∀ st ∈ g.stepList, st.confirm = .succeeded →
    sh.Confirms g.orderId g.userId st.kind
  typed : ∀ k : Kind, (sh.store (.participant k)).Typed k
  outbox : ∀ site, ∀ x ∈ (sh.store site).outbox, sh.Truthful x.payload
  bus : ∀ m ∈ sh.bus.pending, sh.Truthful m.value

namespace Grows

variable {sh sh₁ sh' : Shop}

theorem refl (sh : Shop) : sh.Grows sh :=
  ⟨fun g hg => ⟨g, hg, rfl, rfl, rfl⟩, fun _ _ hr => hr⟩

theorem names (h : sh.Grows sh') {sagaId : String} {orderId userId : UInt64}
    (hn : sh.Names sagaId orderId userId) : sh'.Names sagaId orderId userId := by
  obtain ⟨g, hg, rfl, rfl, rfl⟩ := hn
  exact h.sagas g hg

theorem trans (h₁ : sh.Grows sh₁) (h₂ : sh₁.Grows sh') : sh.Grows sh' :=
  ⟨fun g hg => h₂.names (h₁.sagas g hg), fun k r hr => h₂.ledgers k r (h₁.ledgers k r hr)⟩

theorem hasRow (h : sh.Grows sh') {k : Kind} {t : EntryType} {orderId userId : UInt64}
    (hr : (sh.store (.participant k)).HasRow k t orderId userId) :
    (sh'.store (.participant k)).HasRow k t orderId userId := by
  obtain ⟨r, hr, hrow⟩ := hr
  exact ⟨r, h.ledgers k r hr, hrow⟩

theorem confirms (h : sh.Grows sh') {orderId userId : UInt64} {kind : String}
    (hc : sh.Confirms orderId userId kind) : sh'.Confirms orderId userId kind := by
  obtain ⟨k, hk, hres, hcon⟩ := hc
  exact ⟨k, hk, h.hasRow hres, h.hasRow hcon⟩

theorem vouches (h : sh.Grows sh') {r : StepResult} (hv : sh.Vouches r) : sh'.Vouches r :=
  fun hs => (hv hs).imp h.names h.confirms

theorem honest (h : sh.Grows sh') {e : Envelope} (he : e.Honest sh) : e.Honest sh' :=
  ⟨fun kd c ht hp => h.names (he.command kd c ht hp), fun r ht hp => h.vouches (he.result r ht hp)⟩

theorem truthful (h : sh.Grows sh') {text : String} (ht : sh.Truthful text) : sh'.Truthful text :=
  fun e hd => h.honest (ht e hd)

end Grows

end Shop

namespace Envelope

variable {e e' : Envelope} {sh : Shop} {text : String}

theorem Honest.of_same (he : e.Honest sh) (ht : e'.type = e.type) (hp : e'.payload = e.payload) :
    e'.Honest sh :=
  ⟨fun kd c h₁ h₂ => he.command kd c (ht.symm.trans h₁) (hp.symm.trans h₂),
    fun r h₁ h₂ => he.result r (ht.symm.trans h₁) (hp.symm.trans h₂)⟩

theorem Honest.of_type (h₁ : ∀ kd, e.type ≠ .confirmRequested kd)
    (h₂ : e.type ≠ .confirmationResult) : e.Honest sh :=
  ⟨fun kd _ ht => absurd ht (h₁ kd), fun _ ht => absurd ht h₂⟩

theorem SentFor.honest {g : Saga} {now : Instant} (hs : e.SentFor g now)
    (hn : sh.Names g.sagaId g.orderId g.userId) : e.Honest sh := by
  refine ⟨fun kd c ht hp => ?_, fun r _ hp => absurd hp (hs.request r)⟩
  obtain ⟨hid, ho, hu⟩ := hs.names kd c ht hp
  rw [hid, ho, hu]
  exact hn

theorem WrittenAs.truthful (hw : e.WrittenAs text) (hf : e.Faithful) (he : e.Honest sh) :
    sh.Truthful text := by
  intro e' hd
  obtain ⟨ht, hp⟩ := hw.decode hf hd
  exact he.of_same ht hp

end Envelope

/-! ## A participant's ledger -/

namespace Store

theorem mem_findByOrder {s : Store} {kind : String} {o u : UInt64} {r : LedgerEntry} :
    r ∈ s.findByOrder kind o u ↔ r ∈ s.ledgers kind ∧ r.orderId = o ∧ r.userId = u := by
  simp [findByOrder]

end Store

theorem Step.typed {k : Kind} {s s' : Store} (h : Step k s s') (hs : s.Typed k) : s'.Typed k := by
  cases h with
  | keep ledgers =>
    intro r hr
    rw [ledgers] at hr
    exact hs r hr
  | hold _ _ held write =>
    intro r hr hfin
    rw [(Store.appendLedger_ok write).2.1, Kind.hold_ledgers held] at hr
    rcases List.mem_append.mp hr with hr | hr
    · exact hs r hr hfin
    · rw [List.mem_singleton.mp hr]
      rfl
  | commit _ _ done write =>
    intro r hr hfin
    rw [(Store.appendLedger_ok write).2.1, Kind.commit_ledgers done] at hr
    rcases List.mem_append.mp hr with hr | hr
    · exact hs r hr hfin
    · rw [List.mem_singleton.mp hr] at hfin
      cases hfin
  | release _ _ done write =>
    intro r hr hfin
    rw [(Store.appendLedger_ok write).2.1, Kind.release_ledgers done] at hr
    rcases List.mem_append.mp hr with hr | hr
    · exact hs r hr hfin
    · rw [List.mem_singleton.mp hr] at hfin
      cases hfin

theorem Store.Typed.of_moves {k : Kind} {s s' : Store} (h : ReflTransGen (Step k) s s')
    (hs : s.Typed k) : s'.Typed k := by
  induction h with
  | refl => exact hs
  | tail _ step ih => exact step.typed ih

namespace Reservation.Service

variable {svc : Service} {req : Request} {announce : Option Announcer} {now : Instant}
  {s s' : Store} {res : Option Result}

theorem finalize_confirm_rows (h : svc.finalize .confirm req announce now s = ((res, none), s'))
    (hs : s.Typed svc.kind) :
    s'.HasRow svc.kind .reserve req.orderId req.userId ∧
      s'.HasRow svc.kind .confirm req.orderId req.userId := by
  obtain ⟨lines, -, hlines, -, more, hledger, hmore, hsettled⟩ := finalize_ok h
  obtain ⟨l, hl⟩ := List.exists_mem_of_ne_nil _ (resolveLines_ne_nil hlines)
  obtain ⟨hopen, f, hf, hft⟩ := hsettled l hl
  obtain ⟨r, hr⟩ := Option.ne_none_iff_exists'.mp hopen
  obtain ⟨hrmem, -, hrfin⟩ := reserve_eq_some hr
  obtain ⟨hfmem, -, -⟩ := final_eq_some hf
  have hrold : r ∈ s.findByOrder svc.kind.name req.orderId req.userId := by
    rcases List.mem_append.mp hrmem with hrold | hrnew
    · exact hrold
    · rw [(hmore r hrnew).2.2] at hrfin
      cases hrfin
  obtain ⟨hrs, hro, hru⟩ := Store.mem_findByOrder.mp hrold
  refine ⟨⟨r, by rw [hledger]; exact List.mem_append_left _ hrs, hs r hrs hrfin, hro, hru⟩, ?_⟩
  rcases List.mem_append.mp hfmem with hfold | hfnew
  · obtain ⟨hfs, hfo, hfu⟩ := Store.mem_findByOrder.mp hfold
    exact ⟨f, by rw [hledger]; exact List.mem_append_left _ hfs, hft, hfo, hfu⟩
  · exact ⟨f, by rw [hledger]; exact List.mem_append_right _ hfnew, hft, (hmore f hfnew).1,
      (hmore f hfnew).2.1⟩

theorem sweep_outbox (threshold : Span) (limit : Int) (now : Instant) (s : Store) :
    (svc.sweep threshold limit now s).2.outbox = s.outbox := by
  unfold sweep
  dsimp only
  suffices h : ∀ (orders : List (UInt64 × UInt64 × String)) (acc : SweepReport × Store),
      (orders.foldl (svc.cancelExpired now) acc).2.outbox = acc.2.outbox from h _ _
  intro orders
  induction orders with
  | nil => exact fun _ => rfl
  | cons o rest ih =>
    intro acc
    rw [List.foldl_cons, ih]
    unfold cancelExpired
    rcases hc : svc.apply .cancel ⟨o.2.2, o.1, o.2.1, []⟩ none now acc.2 with ⟨⟨r, err⟩, s₁⟩
    exact apply_unannounced_outbox hc

end Reservation.Service

/-! ## Changes of a shop that keep it agreeing -/

namespace Shop

variable {sh : Shop}

theorem Agrees.setParticipant (hA : sh.Agrees) {k : Kind} {s' : Store} {P : String → Prop}
    (hmoves : ReflTransGen (Step k) (sh.store (.participant k)) s')
    (hadds : Store.Adds P (sh.store (.participant k)) s')
    (hP : ∀ t, P t → (sh.setStore (.participant k) s').Truthful t) :
    (sh.setStore (.participant k) s').Agrees ∧ sh.Grows (sh.setStore (.participant k) s') := by
  have hgrow : sh.Grows (sh.setStore (.participant k) s') := by
    refine ⟨fun g hg => ⟨g, hg, rfl, rfl, rfl⟩, fun k' r hr => ?_⟩
    by_cases hk : k' = k
    · subst hk
      rw [store_setStore]
      exact mem_ledger_of_moves hmoves hr
    · rwa [store_setStore_ne _ _ fun h => hk (Site.participant.inj h)]
  refine ⟨⟨by simpa using hA.utc, hA.shaped, hA.ids,
    fun g hg st hst hc => hgrow.confirms (hA.confirmed g hg st hst hc), fun k' => ?_,
    fun site x hx => ?_, fun m hm => hgrow.truthful (hA.bus m hm)⟩, hgrow⟩
  · by_cases hk : k' = k
    · subst hk
      rw [store_setStore]
      exact (hA.typed k').of_moves hmoves
    · rw [store_setStore_ne _ _ fun h => hk (Site.participant.inj h)]
      exact hA.typed k'
  · by_cases hsite : site = .participant k
    · subst hsite
      rw [store_setStore] at hx
      rcases hadds x hx with ⟨y, hy, hyx⟩ | hPx
      · exact hyx ▸ hgrow.truthful (hA.outbox _ y hy)
      · exact hP _ hPx
    · rw [store_setStore_ne _ _ hsite] at hx
      exact hgrow.truthful (hA.outbox site x hx)

theorem Agrees.setOrders (hA : sh.Agrees) {s' : Store} {P : String → Prop}
    (hnames : ∀ g ∈ sh.orders.sagas, ∃ g' ∈ s'.sagas,
      g'.sagaId = g.sagaId ∧ g'.orderId = g.orderId ∧ g'.userId = g.userId)
    (hshaped : ∀ g ∈ s'.sagas, g.Shaped) (hids : (s'.sagas.map (·.sagaId)).Nodup)
    (hconfirmed : ∀ g ∈ s'.sagas, ∀ st ∈ g.stepList, st.confirm = .succeeded →
      sh.Confirms g.orderId g.userId st.kind)
    (hadds : Store.Adds P sh.orders s') (hP : ∀ t, P t → ({ sh with orders := s' } : Shop).Truthful t) :
    ({ sh with orders := s' } : Shop).Agrees ∧ sh.Grows { sh with orders := s' } := by
  have hgrow : sh.Grows { sh with orders := s' } := by
    refine ⟨fun g hg => ?_, fun _ _ hr => hr⟩
    obtain ⟨g', hg', hid, ho, hu⟩ := hnames g hg
    exact ⟨g', hg', hid, ho, hu⟩
  refine ⟨⟨hA.utc, hshaped, hids, fun g hg st hst hc => hgrow.confirms (hconfirmed g hg st hst hc),
    hA.typed, fun site x hx => ?_, fun m hm => hgrow.truthful (hA.bus m hm)⟩, hgrow⟩
  cases site with
  | orders =>
    rcases hadds x hx with ⟨y, hy, hyx⟩ | hPx
    · exact hyx ▸ hgrow.truthful (hA.outbox .orders y hy)
    · exact hP _ hPx
  | participant k => exact hgrow.truthful (hA.outbox (.participant k) x hx)

end Shop

/-- The answer's participant confirmed every saga of the answer's id, when the answer vouches for
it. -/
def Answer.Backed (a : Answer) (sh : Shop) : Prop :=
  ∀ kind, a.Vouches kind → ∀ g ∈ sh.orders.sagas, g.sagaId = a.sagaId →
    sh.Confirms g.orderId g.userId kind

namespace Shop

variable {sh : Shop}

theorem Agrees.update {a : Answer} {g : Saga} {fx : Effects} {s' : Store} (hA : sh.Agrees)
    (hb : a.Backed sh)
    (hu : Orchestrator.update a.sagaId sh.now (a.apply sh.now) sh.orders = .ok (g, fx) s') :
    ({ sh with orders := s' } : Shop).Agrees ∧ sh.Grows { sh with orders := s' } ∧
      ({ sh with orders := s' } : Shop).Names g.sagaId g.orderId g.userId := by
  obtain ⟨current, d, hcur, hd, rfl, hcases⟩ := Orchestrator.update_ok hu
  obtain ⟨hmem, hid⟩ := Store.getSaga_ok hcur
  have hadv : Draft.Advances a.Vouches sh.now (.ofSaga current) d := a.apply_advances hd
  rcases hcases with ⟨-, rfl, rfl⟩ | ⟨-, rfl, hsagas⟩
  ·
    exact ⟨hA, .refl sh, current, hmem, hadv.sagaId.symm, hadv.orderId.symm, hadv.userId.symm⟩
  ·
    have hdid : d.saga.sagaId = current.sagaId := hadv.sagaId
    have hwmem : Orchestrator.written d sh.now ∈ s'.sagas := by
      rw [hsagas]
      exact List.mem_map.mpr ⟨current, hmem, by simp [hdid]⟩
    have hnames : ({ sh with orders := s' } : Shop).Names current.sagaId current.orderId
        current.userId := ⟨_, hwmem, hadv.sagaId, hadv.orderId, hadv.userId⟩
    have hsame : ∀ x ∈ sh.orders.sagas, x.sagaId = current.sagaId → x = current :=
      fun x hx hx' => List.inj_on_of_nodup_map hA.ids hx hmem hx'
    have hwritten : ∀ x ∈ s'.sagas, x = Orchestrator.written d sh.now ∨ x ∈ sh.orders.sagas := by
      intro x hx
      rw [hsagas] at hx
      obtain ⟨y, hy, rfl⟩ := List.mem_map.mp hx
      split
      · exact .inl rfl
      · exact .inr hy
    have hkeep : ∀ x ∈ sh.orders.sagas, ∃ x' ∈ s'.sagas,
        x'.sagaId = x.sagaId ∧ x'.orderId = x.orderId ∧ x'.userId = x.userId := by
      intro x hx
      by_cases hx' : x.sagaId = current.sagaId
      · obtain rfl := hsame x hx hx'
        exact ⟨_, hwmem, hadv.sagaId, hadv.orderId, hadv.userId⟩
      · refine ⟨x, ?_, rfl, rfl, rfl⟩
        rw [hsagas]
        exact List.mem_map.mpr ⟨x, hx, by simp [hdid, hx']⟩
    have hconfirmed : ∀ st ∈ d.steps, st.confirm = .succeeded →
        sh.Confirms current.orderId current.userId st.kind := by
      intro st hst hc
      rcases hadv.confirmed st hst hc with ⟨y, hy, hk, hyc⟩ | hv
      · exact hk ▸ hA.confirmed current hmem y hy hyc
      · exact hb st.kind hv current hmem hid
    have hadds : Store.Adds (fun t => ∃ e ∈ d.effects.envelopes, e.WrittenAs t) sh.orders s' :=
      Orchestrator.update_adds hu
    obtain ⟨hagree, hgrow⟩ := hA.setOrders hkeep
      (update_keeps_shaped (fun _ _ => Answer.apply_shaped) hA.shaped hu)
      (by rw [Store.sagaIds_replaced hsagas]; exact hA.ids)
      (fun x hx st hst hc => by
        rcases hwritten x hx with rfl | hx
        · rw [show (Orchestrator.written d sh.now).orderId = current.orderId from hadv.orderId,
            show (Orchestrator.written d sh.now).userId = current.userId from hadv.userId]
          exact hconfirmed st hst hc
        · exact hA.confirmed x hx st hst hc)
      hadds
      (fun t ht => by
        obtain ⟨e, he, hw⟩ := ht
        obtain ⟨es, henv, hsent⟩ := hadv.emitted
        have hes : e ∈ es := by simpa [henv] using he
        exact hw.truthful ((hsent e hes).faithful hA.utc) ((hsent e hes).honest hnames))
    exact ⟨hagree, hgrow, _, hwmem, rfl, rfl, rfl⟩

theorem Agrees.openSaga {req : OrderRequest} {sagaId : String} {orderId : UInt64}
    {mode : Kind → Mode} {g : Saga} {s' : Store} (hA : sh.Agrees) (hv : req.validate = .ok ())
    (hg : (req.saga sagaId orderId mode sh.now).transitionTo .reserving = .ok g)
    (ho : Orchestrator.openSaga (req.order orderId sh.now) g sh.now sh.orders = .ok () s') :
    ({ sh with orders := s' } : Shop).Agrees ∧ sh.Grows { sh with orders := s' } := by
  obtain ⟨hfresh, hsagas, -⟩ := Orchestrator.openSaga_ok ho
  have hnew : ({ g with createdAt := sh.now, updatedAt := sh.now } : Saga).stored ∈ s'.sagas := by
    rw [hsagas]
    exact List.mem_append_right _ (List.mem_singleton_self _)
  refine hA.setOrders
    (fun x hx => ⟨x, by rw [hsagas]; exact List.mem_append_left _ hx, rfl, rfl, rfl⟩)
    (openSaga_keeps_shaped (OrderRequest.placed_shaped hv hg _) hA.shaped ho) ?_ ?_
    (Orchestrator.openSaga_adds ho) ?_
  ·
    exact openSaga_keeps_nodup ho (fun x hx => (hfresh x hx).1) hA.ids
  ·
    intro x hx st hst hc
    rw [hsagas] at hx
    rcases List.mem_append.mp hx with hx | hx
    · exact hA.confirmed x hx st hst hc
    · rw [List.mem_singleton.mp hx] at hst
      obtain ⟨-, rfl⟩ := Saga.transitionTo_ok hg
      have hst' : st ∈ req.steps mode sh.now := hst
      rw [(OrderRequest.steps_fresh hst').2.1] at hc
      cases hc
  · intro t ht
    obtain ⟨e, hs, hw⟩ := ht
    exact hw.truthful (hs.faithful hA.utc) (hs.honest ⟨_, hnew, rfl, rfl, rfl⟩)

end Shop

end OrderSaga
