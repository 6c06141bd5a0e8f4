import OrderSaga.Proofs.Outcome

namespace OrderSaga

open Orchestrator

/-! ## Lists paired in step -/

section Pairs

variable {α β : Type} {R S : α → β → Prop}

theorem forall₂_map_of_mem {f : α → α} {g : β → β} {l₁ : List α} {l₂ : List β}
    (h : List.Forall₂ R l₁ l₂) (H : ∀ a b, b ∈ l₂ → R a b → S (f a) (g b)) :
    List.Forall₂ S (l₁.map f) (l₂.map g) := by
  induction h with
  | nil => exact .nil
  | cons hab _ ih =>
    exact .cons (H _ _ List.mem_cons_self hab)
      (ih fun a b hb => H a b (List.mem_cons_of_mem _ hb))

theorem forall₂_exists_right {l₁ : List α} {l₂ : List β} (h : List.Forall₂ R l₁ l₂) {a : α}
    (ha : a ∈ l₁) : ∃ b ∈ l₂, R a b := by
  induction h with
  | nil => cases ha
  | @cons x y _ _ hxy _ ih =>
    rcases List.mem_cons.mp ha with rfl | ha
    · exact ⟨y, List.mem_cons_self, hxy⟩
    · obtain ⟨b, hb, hab⟩ := ih ha
      exact ⟨b, List.mem_cons_of_mem _ hb, hab⟩

theorem forall₂_exists_left {l₁ : List α} {l₂ : List β} (h : List.Forall₂ R l₁ l₂) {b : β}
    (hb : b ∈ l₂) : ∃ a ∈ l₁, R a b := by
  induction h with
  | nil => cases hb
  | @cons x y _ _ hxy _ ih =>
    rcases List.mem_cons.mp hb with rfl | hb
    · exact ⟨x, List.mem_cons_self, hxy⟩
    · obtain ⟨a, ha, hab⟩ := ih hb
      exact ⟨a, List.mem_cons_of_mem _ ha, hab⟩

end Pairs

/-! ## The order service's transactions -/

namespace Orchestrator

/-- One transaction of the order service: an order placed, or an answer of any kind applied to any
saga. -/
inductive Transaction : Store → Store → Prop
  | place {s s' : Store} {req : OrderRequest} {sagaId : String} {orderId : UInt64}
      {mode : Kind → Mode} {now : Instant} {g : Saga} (valid : req.validate = .ok ())
      (opened : (req.saga sagaId orderId mode now).transitionTo .reserving = .ok g)
      (ok : openSaga (req.order orderId now) g now s = .ok () s') : Transaction s s'
  | placeFailed {s s' : Store} {o : Order} {g : Saga} {now : Instant} {e : Failure}
      (failed : openSaga o g now s = .error e s') : Transaction s s'
  | answer {s s' : Store} {a : Answer} {now : Instant} {r : Saga × Effects}
      (ok : update a.sagaId now (a.apply now) s = .ok r s') : Transaction s s'
  | answerFailed {s s' : Store} {a : Answer} {now : Instant} {e : Failure}
      (failed : update a.sagaId now (a.apply now) s = .error e s') : Transaction s s'

/-- The stores the order service reaches from one that holds no orders and no sagas. -/
inductive Reachable : Store → Prop
  | start {s : Store} (noOrders : s.orders = []) (noSagas : s.sagas = []) : Reachable s
  | next {s s' : Store} : Reachable s → Transaction s s' → Reachable s'

theorem Transaction.run {s s' : Store} {sent : List (Saga × Effects)} (h : Transaction s s')
    (run : Run s sent) : ∃ sent', Run s' sent' := by
  cases h with
  | place valid opened ok =>
    obtain ⟨-, -, es, hes⟩ := openSaga_ok ok
    exact ⟨_, run.place valid opened ok hes⟩
  | placeFailed failed => exact ⟨_, run.placeFailed failed⟩
  | answer ok => exact ⟨_, run.answer ok⟩
  | answerFailed failed => exact ⟨_, run.answerFailed failed⟩

theorem Reachable.run {s : Store} (h : Reachable s) : ∃ sent, Run s sent := by
  induction h with
  | start _ noSagas => exact ⟨[], .start noSagas⟩
  | next _ t ih =>
    obtain ⟨sent, run⟩ := ih
    exact t.run run

end Orchestrator

/-! ## Orders that stand as their sagas -/

/-- The order `o` stands as the saga `g`: it is the saga's order, of the saga's user; it is created
while the saga runs and takes the saga's outcome once the saga ended; and once failed, it gives the
saga's account of the failure as its reason. -/
structure Mirrors (o : Order) (g : Saga) : Prop where
  order : o.id = g.orderId
  user : o.userId = g.userId
  status : o.status = orderStanding g.status
  reason : o.status = .failed → o.failureReason = g.errorMessage

/-- The orders and the sagas of a store pair up in table order, each order standing as its saga, and
no two sagas share an order. -/
structure Mirrored (s : Store) : Prop where
  pairs : List.Forall₂ Mirrors s.orders s.sagas
  orderIds : (s.sagas.map (·.orderId)).Nodup

theorem orderStanding_cases (st : SagaStatus) :
    (orderStanding st = .completed ↔ st = .completed) ∧
    (orderStanding st = .failed ↔ st = .compensationCompleted ∨ st = .failed) ∧
    (st ≠ .completed → st ≠ .compensationCompleted → st ≠ .failed →
      orderStanding st = .created) := by
  cases st <;> simp [orderStanding, orderStatus?]

theorem Mirrors.orderIds {os : List Order} {gs : List Saga} (h : List.Forall₂ Mirrors os gs) :
    os.map (·.id) = gs.map (·.orderId) := by
  induction h with
  | nil => rfl
  | cons hab _ ih => simp [hab.order, ih]

namespace Mirrored

variable {s s' : Store}

theorem eq_of_orderId (hm : Mirrored s) {x y : Saga} (hx : x ∈ s.sagas) (hy : y ∈ s.sagas)
    (h : x.orderId = y.orderId) : x = y :=
  List.inj_on_of_nodup_map hm.orderIds hx hy h

theorem openSaga {req : OrderRequest} {sagaId : String} {orderId : UInt64} {mode : Kind → Mode}
    {now : Instant} {g : Saga} (hm : Mirrored s)
    (opened : (req.saga sagaId orderId mode now).transitionTo .reserving = .ok g)
    (ok : openSaga (req.order orderId now) g now s = .ok () s') : Mirrored s' := by
  obtain ⟨-, rfl⟩ := Saga.transitionTo_ok opened
  obtain ⟨hfresh, hsagas, -⟩ := openSaga_ok ok
  obtain ⟨-, o', hords, ho'⟩ := openSaga_appends_order ok
  have hnew : Mirrors o' ({ { req.saga sagaId orderId mode now with status := .reserving } with
      createdAt := now, updatedAt := now } : Saga).stored := by
    rw [ho']
    exact ⟨rfl, rfl, rfl, nofun⟩
  refine ⟨?_, ?_⟩
  · rw [hords, hsagas]
    exact List.rel_append hm.pairs (.cons hnew .nil)
  · exact openSaga_keeps_nodup ok (fun x hx => (hfresh x hx).2) hm.orderIds

theorem replace {current g : Saga} {f : Order → Order} (hm : Mirrored s)
    (hids : (s.sagas.map (·.sagaId)).Nodup) (hcur : current ∈ s.sagas)
    (hsid : g.sagaId = current.sagaId) (horder : g.orderId = current.orderId)
    (hother : ∀ o, o.id ≠ g.orderId → f o = o) (hsame : ∀ o, Mirrors o current → Mirrors (f o) g)
    (hords : s'.orders = s.orders.map f)
    (hsagas : s'.sagas = s.sagas.map fun x => if x.sagaId == g.sagaId then g else x) :
    Mirrored s' := by
  have hcurrent : ∀ x ∈ s.sagas, x.sagaId = g.sagaId → x = current := fun x hx hx' =>
    List.inj_on_of_nodup_map hids hx hcur (hx'.trans hsid)
  refine ⟨?_, ?_⟩
  · rw [hords, hsagas]
    refine forall₂_map_of_mem hm.pairs fun o x hx hox => ?_
    by_cases hxg : x.sagaId = g.sagaId
    · obtain rfl := hcurrent x hx hxg
      simpa [hxg] using hsame o hox
    · have hoid : o.id ≠ g.orderId := by
        rw [hox.order, horder]
        exact fun h => hxg ((hm.eq_of_orderId hx hcur h) ▸ hsid.symm)
      simpa [hxg, hother o hoid] using hox
  · rw [hsagas, List.map_map]
    convert hm.orderIds using 1
    refine List.map_congr_left fun x hx => ?_
    by_cases hxg : x.sagaId = g.sagaId
    · obtain rfl := hcurrent x hx hxg
      simp [hxg, horder]
    · simp [hxg]

theorem update {a : Answer} {now : Instant} {r : Saga × Effects} {sent : List (Saga × Effects)}
    (run : Run s sent) (hm : Mirrored s) (ok : update a.sagaId now (a.apply now) s = .ok r s') :
    Mirrored s' := by
  obtain ⟨g, fx⟩ := r
  obtain ⟨current, d, hcur, hd, -, ⟨-, -, rfl⟩ | ⟨hchanged, rfl, hsagas⟩⟩ := update_ok ok
  · exact hm
  obtain ⟨hmem, -⟩ := Store.getSaga_ok hcur
  have hshaped : current.Shaped := run.shaped current hmem
  have hans := Answer.answered hshaped hd
  have howner := (Answer.apply_moves (d := .ofSaga current) hshaped ⟨rfl, rfl⟩ hd).owner
  have hlive : orderStanding current.status = .created := by
    rcases Answer.live_of_changed hshaped hd hchanged with h | h | h <;> rw [h] <;> rfl
  have hids := run.sagaIds_nodup
  rcases update_orders_eq ok hcur hd hchanged with ⟨heq, hs'⟩ | ⟨-, s₁, s₂, hs₁, hsync, hs'⟩
  ·
    refine replace (f := id) (g := written d now) hm hids hmem hans.sagaId howner.1
      (fun _ _ => rfl) (fun o ho => ?_) (by rw [hs', List.map_id]) hsagas
    have hst : o.status = .created := ho.status.trans hlive
    exact ⟨ho.order.trans howner.1.symm, ho.user.trans howner.2.symm,
      hst.trans (heq ▸ hlive).symm, fun h => absurd (hst.symm.trans h) nofun⟩
  rcases syncOrder_ok hsync with ⟨hnone, rfl⟩ | ⟨st, hst, -, hs₂⟩
  ·
    have hcreated : orderStanding (written d now).status = .created := by
      rw [orderStanding, hnone]
      rfl
    refine replace (f := id) (g := written d now) hm hids hmem hans.sagaId howner.1
      (fun _ _ => rfl) (fun o ho => ?_) (by rw [hs', hs₁, List.map_id]) hsagas
    have hst : o.status = .created := ho.status.trans hlive
    exact ⟨ho.order.trans howner.1.symm, ho.user.trans howner.2.symm, hst.trans hcreated.symm,
      fun h => absurd (hst.symm.trans h) nofun⟩
  ·
    have hstand : orderStanding (written d now).status = st := by
      rw [orderStanding, hst]
      rfl
    refine replace (g := written d now) hm hids hmem hans.sagaId howner.1 ?_ (fun o ho => ?_)
      (by rw [hs', hs₂, hs₁]) hsagas
    · intro o ho
      simp only [beq_iff_eq, ho, if_false]
    · have hid : o.id = (written d now).orderId := ho.order.trans howner.1.symm
      simp only [hid, beq_self_eq_true, if_true]
      exact ⟨rfl, ho.user.trans howner.2.symm, hstand.symm, fun _ => rfl⟩

end Mirrored

theorem Orchestrator.Reachable.mirrored {s : Store} (h : Reachable s) : Mirrored s := by
  induction h with
  | start noOrders noSagas =>
    refine ⟨?_, by simp [noSagas]⟩
    rw [noOrders, noSagas]
    exact .nil
  | next reach t ih =>
    obtain ⟨sent, run⟩ := reach.run
    cases t with
    | place _ opened ok => exact ih.openSaga opened ok
    | placeFailed failed => rw [openSaga_error failed]; exact ih
    | answer ok => exact ih.update run ok
    | answerFailed failed => rw [update_error failed]; exact ih

/-- **Every order stands as its saga.** -/
theorem orders_mirror_sagas {s : Store} (h : Orchestrator.Reachable s) :
    (s.orders.map (·.id)).Nodup ∧ (s.sagas.map (·.orderId)).Nodup ∧
    (∀ o ∈ s.orders, ∃ g ∈ s.sagas, g.orderId = o.id) ∧
    (∀ g ∈ s.sagas, ∃ o ∈ s.orders, o.id = g.orderId) ∧
    ∀ o ∈ s.orders, ∀ g ∈ s.sagas, o.id = g.orderId →
      o.userId = g.userId ∧
      (o.status = .completed ↔ g.status = .completed) ∧
      (o.status = .failed ↔ g.status = .compensationCompleted ∨ g.status = .failed) ∧
      (o.status = .failed → o.failureReason = g.errorMessage) ∧
      (g.status ≠ .completed → g.status ≠ .compensationCompleted → g.status ≠ .failed →
        o.status = .created) := by
  have hm := h.mirrored
  refine ⟨by rw [Mirrors.orderIds hm.pairs]; exact hm.orderIds, hm.orderIds, fun o ho => ?_,
    fun g hg => ?_, fun o ho g hg hid => ?_⟩
  · obtain ⟨g, hg, hog⟩ := forall₂_exists_right hm.pairs ho
    exact ⟨g, hg, hog.order.symm⟩
  · obtain ⟨o, ho, hog⟩ := forall₂_exists_left hm.pairs hg
    exact ⟨o, ho, hog.order⟩
  ·
    obtain ⟨g', hg', hog⟩ := forall₂_exists_right hm.pairs ho
    obtain rfl := hm.eq_of_orderId hg' hg (hog.order.symm.trans hid)
    obtain ⟨hcompleted, hfailed, hcreated⟩ := orderStanding_cases g'.status
    rw [hog.status]
    exact ⟨hog.user, hcompleted, hfailed, fun hf => hog.reason (hog.status.trans hf), hcreated⟩

/-- One order placed from an empty store stands created, as its saga that reserves. -/
theorem placed_order_stands_created : ∃ s : Store, Orchestrator.Reachable s ∧
    ∃ o ∈ s.orders, ∃ g ∈ s.sagas, o.id = g.orderId ∧ g.status = .reserving ∧
      o.status = .created := by
  let req : OrderRequest := { userId := 1, items := [(7, 2)] }
  let g : Saga := { req.saga "saga-1" 1 (fun _ => .sync) .zero with status := .reserving }
  obtain ⟨s, ok⟩ : ∃ s, openSaga (req.order 1 .zero) g .zero {} = .ok () s := ⟨_, rfl⟩
  have reach : Orchestrator.Reachable s := .next (.start rfl rfl) (.place rfl rfl ok)
  have mem : ({ g with createdAt := .zero, updatedAt := .zero } : Saga).stored ∈ s.sagas := by
    rw [(openSaga_ok ok).2.1]
    exact List.mem_append_right _ (List.mem_singleton_self _)
  obtain ⟨-, -, -, hsaga, hpairs⟩ := orders_mirror_sagas reach
  obtain ⟨o, ho, hid⟩ := hsaga _ mem
  exact ⟨s, reach, o, ho, _, mem, hid, rfl,
    (hpairs o ho _ mem hid).2.2.2.2 nofun nofun nofun⟩

end OrderSaga
