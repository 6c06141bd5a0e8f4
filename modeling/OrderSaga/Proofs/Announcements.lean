import OrderSaga.Proofs.Agreement

namespace OrderSaga

open Relation

namespace Reservation

variable {req : Request} {res : Option Result} {err : Option Failure} {now : Instant}

theorem resultAnnouncer_made {t : String} {k : Kind} {env : Envelope}
    (h : resultAnnouncer t k req res err now = .ok (some env)) :
    EventType.ofName? t = some env.type ∧ env.occurredAt = now ∧
      env.payload.shape = env.type.shape ∧ ∃ r, env.payload = .stepResult r ∧
        r.sagaId = req.sagaId ∧ r.orderId = req.orderId ∧ r.userId = req.userId ∧
        r.kind = k.name ∧ r.success = err.isNone ∧ r.timestamp = now := by
  have hbuild : resultAnnouncer.build t k req res err now = .ok (some env) := by
    unfold resultAnnouncer at h
    split at h
    · split at h
      · cases h
      · exact h
    · exact h
  unfold resultAnnouncer.build at hbuild
  dsimp only at hbuild
  revert hbuild
  cases hc : Envelope.createNamed t _ now with
  | error g => rintro ⟨⟩
  | ok env' =>
    rintro ⟨⟩
    unfold Envelope.createNamed at hc
    split at hc
    · rename_i et het
      obtain ⟨rfl, hshape, -⟩ := Envelope.create_checks hc
      exact ⟨het, rfl, hshape, _, rfl, rfl, rfl, rfl, rfl, rfl, rfl⟩
    · cases hc

namespace Service

variable {svc : Service} {op : Operation} {an : Announcer} {s s' : Store}

theorem Announced.adds (h : svc.Announced req res err now s (some an) s') :
    Store.Adds (fun t => ∃ env, an req res err now = .ok (some env) ∧ env.WrittenAs t) s s' := by
  rcases h.made with ⟨-, rfl⟩ | ⟨env, hmade, hw⟩
  · exact .refl _
  · exact (Store.writeEnvelope_adds hw).mono fun t ht => ⟨env, hmade, ht⟩

theorem apply_adds (h : svc.apply op req (some an) now s = ((res, err), s')) :
    Store.Adds (fun t => ∃ env, an req res err now = .ok (some env) ∧ env.WrittenAs t) s s' := by
  cases err with
  | none =>
    obtain ⟨s₁, h₀, hann⟩ := apply_succeeded h
    exact (Store.Adds.of_outbox (apply_unannounced_outbox h₀)).trans hann.adds
  | some e =>
    obtain ⟨cause, hfin⟩ := apply_failed h
    obtain ⟨e', s'', hfin', hcases⟩ := finish_failure svc op req an res cause now s
    rw [hfin] at hfin'
    obtain ⟨hres, rfl⟩ := Prod.mk.inj hfin'
    rcases hcases with ⟨rfl, hann⟩ | ⟨-, rfl, -⟩
    · cases hres
      exact hann.adds
    · exact .refl _

theorem compensate_adds {creq : CompensationRequest} {answer : Option Failure}
    (h : svc.compensate creq now s = (answer, s')) :
    Store.Adds (fun t => ∃ e env, svc.reportEnvelope creq e now = .ok env ∧ env.WrittenAs t)
      s s' := by
  unfold compensate at h
  split at h
  ·
    dsimp only at h
    split at h
    · cases h
      exact .refl s
    · rename_i env henv
      cases hw : Store.writeEnvelope svc.service env now s with
      | ok u s₁ =>
        simp only [Store.run, Store.atomically, hw, Prod.mk.injEq] at h
        obtain ⟨-, rfl⟩ := h
        exact (Store.writeEnvelope_adds hw).mono fun t ht => ⟨_, env, henv, ht⟩
      | error f s₁ =>
        simp only [Store.run, Store.atomically, hw, Prod.mk.injEq] at h
        obtain ⟨-, rfl⟩ := h
        exact .refl s
  ·
    dsimp only at h
    rcases happ : svc.apply .cancel ⟨creq.sagaId, creq.orderId, creq.userId, creq.lines.getD []⟩
      (some (svc.reporter creq)) now s with ⟨⟨r, e⟩, s₁⟩
    have hs₁ : s' = s₁ := by
      rw [happ] at h
      dsimp only at h
      split at h <;> (try split at h) <;> exact (Prod.mk.inj h).2.symm
    subst hs₁
    refine (apply_adds happ).mono fun t ht => ?_
    obtain ⟨env, hmade, hw⟩ := ht
    have hmap : ∀ x : Except Failure Envelope, x.map some = .ok (some env) → x = .ok env := by
      intro x hx
      cases x with
      | error f => cases hx
      | ok v =>
        cases hx
        rfl
    unfold reporter at hmade
    exact ⟨_, env, hmap _ hmade, hw⟩

end Service

end Reservation

/-! ## A participant's work keeps a shop agreeing -/

namespace Shop

variable {sh : Shop}

theorem Grows.of_same {sh' : Shop} (hsagas : sh'.orders.sagas = sh.orders.sagas)
    (hledgers : ∀ k : Kind,
      (sh'.store (.participant k)).ledgers = (sh.store (.participant k)).ledgers) :
    sh.Grows sh' :=
  ⟨fun g hg => ⟨g, hsagas ▸ hg, rfl, rfl, rfl⟩, fun k r hr => by rw [hledgers k]; exact hr⟩

theorem Agrees.of_same (hA : sh.Agrees) {sh' : Shop} (hnow : sh'.now.offset = 0)
    (hsagas : sh'.orders.sagas = sh.orders.sagas)
    (hledgers : ∀ k : Kind,
      (sh'.store (.participant k)).ledgers = (sh.store (.participant k)).ledgers)
    (houtbox : ∀ site, ∀ x ∈ (sh'.store site).outbox, sh.Truthful x.payload)
    (hbus : ∀ m ∈ sh'.bus.pending, sh.Truthful m.value) :
    sh'.Agrees ∧ sh.Grows sh' := by
  have hgrow : sh.Grows sh' := .of_same hsagas hledgers
  refine ⟨⟨hnow, by rw [hsagas]; exact hA.shaped, by rw [hsagas]; exact hA.ids, ?_, ?_,
    fun site x hx => hgrow.truthful (houtbox site x hx),
    fun m hm => hgrow.truthful (hbus m hm)⟩, hgrow⟩
  · intro g hg st hst hc
    rw [hsagas] at hg
    exact hgrow.confirms (hA.confirmed g hg st hst hc)
  · intro k r hr
    rw [hledgers k] at hr
    exact hA.typed k r hr

theorem store_setStore_rows {site : Site} {s' : Store} (hsagas : s'.sagas = (sh.store site).sagas)
    (hledgers : s'.ledgers = (sh.store site).ledgers) (site' : Site) :
    ((sh.setStore site s').store site').sagas = (sh.store site').sagas ∧
      ((sh.setStore site s').store site').ledgers = (sh.store site').ledgers := by
  by_cases h : site' = site
  · subst h
    rw [store_setStore]
    exact ⟨hsagas, hledgers⟩
  · rw [store_setStore_ne _ _ h]
    exact ⟨rfl, rfl⟩

theorem Agrees.apply_unannounced (hA : sh.Agrees) {k : Kind} {op : Reservation.Operation}
    {req : Reservation.Request} {r : Option Reservation.Result × Option Failure} {s' : Store}
    (h : (service k).apply op req none sh.now (sh.store (.participant k)) = (r, s')) :
    (sh.setStore (.participant k) s').Agrees ∧ sh.Grows (sh.setStore (.participant k) s') ∧
      (op = .confirm → r.2 = none →
        (sh.setStore (.participant k) s').Confirms req.orderId req.userId k.name) := by
  obtain ⟨res, err⟩ := r
  have hmoves : ReflTransGen (Step k) (sh.store (.participant k)) s' := by
    have := Reservation.Service.apply_moves (service k) op req none sh.now
      (sh.store (.participant k))
    rwa [h] at this
  have hadds : Store.Adds (fun _ => False) (sh.store (.participant k)) s' :=
    .of_outbox (Reservation.Service.apply_unannounced_outbox h)
  obtain ⟨hA', hgrow⟩ := hA.setParticipant hmoves hadds fun _ h => h.elim
  refine ⟨hA', hgrow, ?_⟩
  rintro rfl (rfl : err = none)
  obtain ⟨hres, hcon⟩ := Reservation.Service.finalize_confirm_rows h (hA.typed k)
  exact ⟨k, rfl, by rw [store_setStore]; exact hres, by rw [store_setStore]; exact hcon⟩

theorem Agrees.apply_announced (hA : sh.Agrees) {k : Kind} {op : Reservation.Operation}
    {t : String} {req : Reservation.Request} {r : Option Reservation.Result × Option Failure}
    {s' : Store}
    (h : (service k).apply op req (some (Reservation.resultAnnouncer t k)) sh.now
      (sh.store (.participant k)) = (r, s'))
    (ht : t = EventType.reservationResult.name ∨ t = EventType.confirmationResult.name ∧
      op = .confirm ∧ sh.Names req.sagaId req.orderId req.userId) :
    (sh.setStore (.participant k) s').Agrees ∧ sh.Grows (sh.setStore (.participant k) s') := by
  obtain ⟨res, err⟩ := r
  have hmoves : ReflTransGen (Step k) (sh.store (.participant k)) s' := by
    have := Reservation.Service.apply_moves (service k) op req
      (some (Reservation.resultAnnouncer t k)) sh.now (sh.store (.participant k))
    rwa [h] at this
  refine hA.setParticipant hmoves (Reservation.Service.apply_adds h) fun text htext => ?_
  obtain ⟨env, hmade, hw⟩ := htext
  obtain ⟨hname, hat, hshape, out, hout, hsid, hoid, huid, hkind, hsucc, hts⟩ :=
    Reservation.resultAnnouncer_made hmade
  have hfaithful : env.Faithful := by
    refine ⟨hshape, by rw [hat, hA.utc]; rfl, ?_⟩
    rw [hout]
    show out.timestamp.offset % 60 = 0
    rw [hts, hA.utc]
    rfl
  refine hw.truthful hfaithful ⟨fun kd c hkd _ => ?_, fun r' hr hp => ?_⟩
  ·
    rcases ht with rfl | ⟨rfl, -⟩ <;> rw [EventType.ofName?_name, hkd] at hname <;> cases hname
  · rcases ht with rfl | ⟨-, rfl, hnames⟩
    · rw [EventType.ofName?_name, hr] at hname
      cases hname
    ·
      rw [hout] at hp
      cases hp
      intro hs
      rw [hsucc, Option.isNone_iff_eq_none] at hs
      subst hs
      obtain ⟨hres, hcon⟩ := Reservation.Service.finalize_confirm_rows h (hA.typed k)
      rw [hsid, hoid, huid, hkind]
      exact ⟨hnames, k, rfl, by rw [store_setStore]; exact hres,
        by rw [store_setStore]; exact hcon⟩

theorem Agrees.compensate (hA : sh.Agrees) {k : Kind} {creq : CompensationRequest}
    {answer : Option Failure} {s' : Store}
    (h : (service k).compensate creq sh.now (sh.store (.participant k)) = (answer, s')) :
    (sh.setStore (.participant k) s').Agrees ∧ sh.Grows (sh.setStore (.participant k) s') := by
  have hmoves : ReflTransGen (Step k) (sh.store (.participant k)) s' := by
    have := Reservation.Service.compensate_moves (service k) creq sh.now
      (sh.store (.participant k))
    rwa [h] at this
  refine hA.setParticipant hmoves (Reservation.Service.compensate_adds h) fun text htext => ?_
  obtain ⟨e, env, henv, hw⟩ := htext
  obtain ⟨rfl, hshape, -⟩ := Envelope.create_checks henv
  have hfaithful : Envelope.Faithful ⟨"", .compensationCompleted, sh.now,
      .compensationReport ((service k).report creq e sh.now)⟩ := by
    refine ⟨hshape, ?_, ?_⟩ <;> show sh.now.offset % 60 = 0 <;> rw [hA.utc] <;> rfl
  exact hw.truthful hfaithful (.of_type (fun kd hkd => by cases hkd) fun hkd => by cases hkd)

theorem Agrees.sweep (hA : sh.Agrees) (k : Kind) (threshold : Span) (limit : Int)
    (time : Instant) :
    (sh.setStore (.participant k)
        ((service k).sweep threshold limit time (sh.store (.participant k))).2).Agrees ∧
      sh.Grows (sh.setStore (.participant k)
        ((service k).sweep threshold limit time (sh.store (.participant k))).2) :=
  hA.setParticipant (Reservation.Service.sweep_moves (service k) threshold limit time _)
    (.of_outbox (Reservation.Service.sweep_outbox _ _ _ _)) fun _ (h : False) => h.elim

theorem Agrees.relayOnce (hA : sh.Agrees) (site : Site) (batch : Nat) {n : Nat} {s' : Store}
    {b' : Bus} (h : Relay.relayOnce batch sh.now (sh.store site) sh.bus = (n, s', b')) :
    ({ sh.setStore site s' with bus := b' } : Shop).Agrees ∧
      sh.Grows { sh.setStore site s' with bus := b' } := by
  have hrun : Relay.publishAll Relay.busPublisher sh.now ((sh.store site).fetchPending batch) []
      0 (sh.store site) sh.bus = (n, s', b') := h
  have hrep : Store.Republished (sh.store site) s' := by
    have := Relay.publishAll_republished Relay.busPublisher sh.now
      ((sh.store site).fetchPending batch) [] 0 (sh.store site) sh.bus
    rwa [hrun] at this
  have hsagas : s'.sagas = (sh.store site).sagas := by rw [hrep.1]
  have hledgers : s'.ledgers = (sh.store site).ledgers := by rw [hrep.1]
  have hrows := store_setStore_rows hsagas hledgers
  refine hA.of_same (by simpa using hA.utc) (hrows .orders).1 (fun k => (hrows (.participant k)).2)
    (fun site' x hx => ?_) fun m hm => ?_
  · by_cases hsite : site' = site
    · subst hsite
      rw [show ({ sh.setStore site' s' with bus := b' } : Shop).store site' = s' from
        store_setStore sh site' s'] at hx
      obtain ⟨y, hy, hyx⟩ := hrep.payload_mem hx
      exact hyx ▸ hA.outbox site' y hy
    · rw [show ({ sh.setStore site s' with bus := b' } : Shop).store site' = sh.store site' from
        store_setStore_ne sh s' hsite] at hx
      exact hA.outbox site' x hx
  · have hm' : m ∈ (Relay.publishAll Relay.busPublisher sh.now
        ((sh.store site).fetchPending batch) [] 0 (sh.store site) sh.bus).2.2.pending := by
      rw [hrun]
      exact hm
    rcases Relay.publishAll_pending sh.now Relay.busPublisher_posts _ [] 0 _ _ m hm' with
      hm | ⟨x, hx, hv⟩
    · exact hA.bus m hm
    · rw [hv]
      exact hA.outbox site x (Store.fetchPending_pending hx).1

end Shop

end OrderSaga
