import OrderSaga.Proofs.Verdicts
import OrderSaga.Proofs.Redelivery

namespace OrderSaga

open Orchestrator

def OrderAt (orders : List Order) (orderId : UInt64) (status : OrderStatus) : Prop :=
  (∃ o ∈ orders, o.id = orderId) ∧ ∀ o ∈ orders, o.id = orderId → o.status = status

theorem OrderAt.getOrder {s : Store} {orderId : UInt64} {status : OrderStatus}
    (h : OrderAt s.orders orderId status) : ∃ o, s.getOrder orderId = .ok o ∧ o.status = status := by
  obtain ⟨⟨o, ho, hid⟩, hall⟩ := h
  obtain ⟨x, hx⟩ : ∃ x, s.orders.find? (·.id == orderId) = some x :=
    Option.isSome_iff_exists.mp (List.find?_isSome.mpr ⟨o, ho, by simpa using hid⟩)
  refine ⟨x, by simp [Store.getOrder, hx], hall x (List.mem_of_find?_eq_some hx) ?_⟩
  simpa using List.find?_some hx

/-! ## What the transactions write in the orders table -/

namespace Store

variable {α : Type}

theorem nextId_keeps_orders : Keeps (·.orders) nextId := by
  intro s a s' h
  cases h
  rfl

theorem numberItems_keeps_orders (orderId : UInt64) (items : List OrderItem) :
    Keeps (·.orders) (numberItems orderId items) := by
  induction items with
  | nil => exact .pure _ _
  | cons i rest ih =>
    exact .bind nextId_keeps_orders fun _ => .bind ih fun _ => .pure _ _

theorem appendOutbox_keeps_orders (e : OutboxEntry) (now : Instant) :
    Keeps (·.orders) (appendOutbox e now) :=
  .bind (.get _) fun _ => .bind (.check _ _ _) fun _ => .bind nextId_keeps_orders fun _ =>
    .bind (.modify fun _ => rfl) fun _ => .pure _ _

theorem createSaga_keeps_orders (g : Saga) (now : Instant) : Keeps (·.orders) (createSaga g now) :=
  .bind (.get _) fun _ => .bind (.check _ _ _) fun _ => .bind (.check _ _ _) fun _ =>
    .bind nextId_keeps_orders fun _ => .bind (.modify fun _ => rfl) fun _ => .pure _ _

theorem updateSaga_keeps_orders (g : Saga) (now : Instant) :
    Keeps (·.orders) (updateSaga g now) := by
  intro s g' s' h
  unfold updateSaga at h
  obtain ⟨s₀, s₁, hget, h₁⟩ := bind_ok h
  cases hget
  cases hf : s.sagas.find? (·.sagaId == g.sagaId) with
  | none =>
    rw [hf] at h₁
    cases h₁
  | some cur =>
    rw [hf] at h₁
    obtain ⟨u, s₂, hc, h₂⟩ := bind_ok h₁
    obtain ⟨-, rfl⟩ := check_ok hc
    obtain ⟨u, s₃, hset, h₃⟩ := bind_ok h₂
    cases hset
    cases h₃
    rfl

theorem createOrder_orders {o o' : Order} {now : Instant} {s s' : Store}
    (h : createOrder o now s = .ok o' s') :
    (∀ x ∈ s.orders, x.id ≠ o.id) ∧ s'.orders = s.orders ++ [o'] ∧
      o' = { o with createdAt := now, updatedAt := now, items := o'.items } := by
  unfold createOrder at h
  obtain ⟨s₀, s₁, hget, h₁⟩ := bind_ok h
  cases hget
  obtain ⟨u, s₂, hc, h₂⟩ := bind_ok h₁
  obtain ⟨hfree, hs₂⟩ := check_ok hc
  rw [hs₂] at h₂
  obtain ⟨items, s₃, hitems, h₃⟩ := bind_ok h₂
  have hs₃ : s₃.orders = s.orders := numberItems_keeps_orders _ _ _ _ _ hitems
  obtain ⟨u, s₄, hm, h₄⟩ := bind_ok h₃
  cases hm
  cases h₄
  refine ⟨fun x hx heq => ?_, by simp only [hs₃], rfl⟩
  simp only [Bool.not_eq_true', List.any_eq_false, beq_iff_eq] at hfree
  exact hfree x hx heq

theorem setOrderStatus_ok {id : UInt64} {status : OrderStatus} {reason : String}
    {now : Instant} {s s' : Store} {u : Unit} (h : setOrderStatus id status reason now s = .ok u s') :
    (∃ o ∈ s.orders, o.id = id) ∧
      s'.orders = s.orders.map fun o =>
        if o.id == id then { o with status, failureReason := reason, updatedAt := now } else o := by
  unfold setOrderStatus at h
  obtain ⟨s₀, s₁, hget, h₁⟩ := bind_ok h
  cases hget
  obtain ⟨u, s₂, hc, h₂⟩ := bind_ok h₁
  obtain ⟨hany, rfl⟩ := check_ok hc
  cases h₂
  obtain ⟨o, ho, hid⟩ := List.any_eq_true.mp hany
  exact ⟨⟨o, ho, by simpa using hid⟩, rfl⟩

theorem setOrderStatus_orderAt {id : UInt64} {status : OrderStatus} {reason : String}
    {now : Instant} {s s' : Store} {u : Unit} (h : setOrderStatus id status reason now s = .ok u s') :
    OrderAt s'.orders id status := by
  obtain ⟨⟨o, ho, hid⟩, hs'⟩ := setOrderStatus_ok h
  rw [hs']
  refine ⟨⟨_, List.mem_map_of_mem ho, by simp [hid]⟩, fun x hx hxid => ?_⟩
  obtain ⟨y, -, rfl⟩ := List.mem_map.mp hx
  by_cases hy : y.id = id
  · simp [hy]
  · simp [hy] at hxid

end Store

namespace Orchestrator

open Store

theorem appendEnvelope_keeps_orders (e : Envelope) (now : Instant) :
    Keeps (·.orders) (appendEnvelope e now) :=
  .bind (entryOf_keeps _ _ _) fun _ =>
    .bind (.withContext _ (appendOutbox_keeps_orders _ _)) fun _ => .pure _ _

theorem syncOrder_orderAt {g : Saga} {now : Instant} {s s' : Store} {u : Unit}
    {status : OrderStatus} (h : syncOrder g now s = .ok u s')
    (ho : OrderAt s.orders g.orderId status) :
    OrderAt s'.orders g.orderId ((orderStatus? g.status).getD status) := by
  unfold syncOrder at h
  cases hst : orderStatus? g.status with
  | none =>
    rw [hst] at h
    cases h
    exact ho
  | some st =>
    rw [hst] at h
    exact setOrderStatus_orderAt (withContext_ok h)

theorem syncOrder_ok {g : Saga} {now : Instant} {s s' : Store} {u : Unit}
    (h : syncOrder g now s = .ok u s') :
    orderStatus? g.status = none ∧ s' = s ∨
      ∃ st, orderStatus? g.status = some st ∧ (∃ o ∈ s.orders, o.id = g.orderId) ∧
        s'.orders = s.orders.map fun o => if o.id == g.orderId then
          { o with status := st, failureReason := g.errorMessage, updatedAt := now } else o := by
  unfold syncOrder at h
  cases hst : orderStatus? g.status with
  | none =>
    rw [hst] at h
    cases h
    exact .inl ⟨rfl, rfl⟩
  | some st =>
    rw [hst] at h
    exact .inr ⟨st, rfl, setOrderStatus_ok (withContext_ok h)⟩

theorem update_orders_eq {sagaId : String} {now : Instant} {m : Draft → Except Failure Draft}
    {s s' : Store} {g current : Saga} {d : Draft} {fx : Effects}
    (h : update sagaId now m s = .ok (g, fx) s') (hcur : s.getSaga sagaId = .ok current)
    (hd : m (.ofSaga current) = .ok d) (hchanged : d.effects.changed = true) :
    g.status = current.status ∧ s'.orders = s.orders ∨
      g.status ≠ current.status ∧ ∃ s₁ s₂ : Store, s₁.orders = s.orders ∧
        syncOrder g now s₁ = .ok () s₂ ∧ s'.orders = s₂.orders := by
  unfold update at h
  obtain ⟨s₀, s₁, hget, h₁⟩ := bind_ok (atomically_ok h)
  cases hget
  dsimp only at h₁
  rw [hcur] at h₁
  obtain ⟨current', s₂, hp, h₂⟩ := bind_ok h₁
  cases hp
  obtain ⟨d', s₃, hd', h₃⟩ := bind_ok h₂
  obtain ⟨hm, hs₃⟩ := ofExcept_ok hd'
  subst hs₃
  rw [hd, Except.ok.injEq] at hm
  subst hm
  rw [hchanged] at h₃
  obtain ⟨g', s₄, hup, h₄⟩ := bind_ok h₃
  have hs₄ := updateSaga_keeps_orders _ _ _ _ _ hup
  simp only at hs₄
  have hloop : Keeps (·.orders) (forIn d.effects.envelopes PUnit.unit fun e (_ : PUnit) => do
      appendEnvelope e now
      pure (ForInStep.yield PUnit.unit)) :=
    .forIn fun e _ => .bind (appendEnvelope_keeps_orders e now) fun _ => .pure _ _
  split at h₄
  next hne =>
    obtain ⟨_, s₅, hsync, h₅⟩ := bind_ok h₄
    obtain ⟨_, s₆, hfor, h₆⟩ := bind_ok h₅
    cases h₆
    simp only [bne_iff_ne, ne_eq] at hne
    exact .inr ⟨hne, s₄, s₅, hs₄, hsync, hloop _ _ _ hfor⟩
  next heq =>
    obtain ⟨_, s₆, hfor, h₆⟩ := bind_ok h₄
    cases h₆
    simp only [bne_iff_ne, ne_eq, Decidable.not_not] at heq
    exact .inl ⟨heq, (hloop _ _ _ hfor).trans hs₄⟩

theorem update_orders {sagaId : String} {now : Instant} {m : Draft → Except Failure Draft}
    {s s' : Store} {g current : Saga} {d : Draft} {fx : Effects} {status : OrderStatus}
    (h : update sagaId now m s = .ok (g, fx) s') (hcur : s.getSaga sagaId = .ok current)
    (hd : m (.ofSaga current) = .ok d) (hchanged : d.effects.changed = true)
    (ho : OrderAt s.orders g.orderId status) :
    OrderAt s'.orders g.orderId
      (if g.status = current.status then status else (orderStatus? g.status).getD status) := by
  rcases update_orders_eq h hcur hd hchanged with ⟨heq, hs'⟩ | ⟨hne, s₁, s₂, hs₁, hsync, hs'⟩
  · rw [if_pos heq, hs']
    exact ho
  · rw [if_neg hne, hs']
    exact syncOrder_orderAt hsync (hs₁ ▸ ho)

@[simp] theorem written_orderId (d : Draft) (now : Instant) :
    (written d now).orderId = d.saga.orderId := rfl

theorem openSaga_appends_order {o : Order} {g : Saga} {now : Instant} {s s' : Store} {u : Unit}
    (h : openSaga o g now s = .ok u s') :
    (∀ x ∈ s.orders, x.id ≠ o.id) ∧ ∃ o', s'.orders = s.orders ++ [o'] ∧
      o' = { o with createdAt := now, updatedAt := now, items := o'.items } := by
  unfold openSaga at h
  obtain ⟨o', s₁, ho, h₁⟩ := bind_ok (atomically_ok h)
  obtain ⟨hfresh, hs₁, ho'⟩ := createOrder_orders (withContext_ok ho)
  obtain ⟨g', s₂, hg, h₂⟩ := bind_ok h₁
  have hs₂ : s₂.orders = s₁.orders := createSaga_keeps_orders _ _ _ _ _ (withContext_ok hg)
  obtain ⟨_, s₃, hfor, h₃⟩ := bind_ok h₂
  cases h₃
  have hloop : s'.orders = s₂.orders := Keeps.forIn (f := (·.orders)) (fun st (_ : PUnit) =>
    Keeps.ite (.bind (.ofExcept _ _) fun e =>
      .bind (appendEnvelope_keeps_orders e now) fun _ => .pure _ _) (.pure _ _)) _ _ _ hfor
  exact ⟨hfresh, o', by rw [hloop, hs₂, hs₁], ho'⟩

theorem openSaga_orders {o : Order} {g : Saga} {now : Instant} {s s' : Store} {u : Unit}
    (h : openSaga o g now s = .ok u s') : OrderAt s'.orders o.id o.status := by
  obtain ⟨hfresh, o', hs', ho'⟩ := openSaga_appends_order h
  rw [hs']
  refine ⟨⟨o', by simp, by rw [ho']⟩, fun x hx hxid => ?_⟩
  rcases List.mem_append.mp hx with hx | hx
  · exact absurd hxid (hfresh x hx)
  · rw [List.mem_singleton.mp hx, ho']

end Orchestrator

/-! ## The saga's order stays its order -/

namespace Draft

variable {d d' : Draft}

theorem settle_owner (h : d.settle = .ok d') :
    d'.saga.orderId = d.saga.orderId ∧ d'.saga.userId = d.saga.userId := by
  unfold settle at h
  split at h
  · cases h
    exact ⟨rfl, rfl⟩
  · split at h <;> obtain ⟨-, rfl⟩ := transition_ok h <;> exact ⟨rfl, rfl⟩

theorem compensate_saga {k : String} {now : Instant} (h : d.compensate k now = .ok d') :
    d'.saga = d.saga := by
  cases hst : d.step? k with
  | none =>
    simp only [compensate, hst, Except.ok.injEq] at h
    rw [← h]
  | some st =>
    obtain ⟨es, rfl, -, -⟩ := compensate_ok hst h
    rfl

theorem Move.owner (h : Move d d') :
    d'.saga.orderId = d.saga.orderId ∧ d'.saga.userId = d.saga.userId := by
  cases h with
  | touch => exact ⟨rfl, rfl⟩
  | record => exact ⟨rfl, rfl⟩
  | setError => exact ⟨rfl, rfl⟩
  | transition _ _ ok => obtain ⟨-, rfl⟩ := transition_ok ok; exact ⟨rfl, rfl⟩
  | compensateAll _ ok => rw [(compensateAll_ok ok).1]; exact ⟨rfl, rfl⟩
  | compensate _ ok => rw [compensate_saga ok]; exact ⟨rfl, rfl⟩
  | startConfirm _ _ ok => rw [(startConfirm_ok ok).2.1]; exact ⟨rfl, rfl⟩
  | settle _ ok => exact settle_owner ok

theorem Moves.owner (h : Moves d d') :
    d'.saga.orderId = d.saga.orderId ∧ d'.saga.userId = d.saga.userId := by
  induction h with
  | refl => exact ⟨rfl, rfl⟩
  | tail _ m ih => exact ⟨m.owner.1.trans ih.1, m.owner.2.trans ih.2⟩

end Draft

theorem Answer.live_of_changed {a : Answer} {now : Instant} {g : Saga} {d : Draft}
    (hs : g.Shaped) (hd : a.apply now (.ofSaga g) = .ok d) (hc : d.effects.changed = true) :
    g.status = .reserving ∨ g.status = .confirming ∨ g.status = .compensating := by
  have hawait : a.Awaited g.stepList := by
    refine Classical.byContradiction fun hna => ?_
    rw [Draft.apply_of_not_awaited hna, Except.ok.injEq] at hd
    rw [← hd] at hc
    cases hc
  obtain ⟨st, hst, hw⟩ := Answer.waiting_of_awaited hawait
  exact Shaped.live_of_waiting hs hst hw

/-! ## Runs of answers by fixed verdicts -/

/-- A run of answers to the saga `sagaId`, from the store `s₀`, each carrying its participant's
verdict in `F`; an update may fail, and then writes nothing. -/
inductive Delivered (F : Verdicts) (sagaId : String) (s₀ : Store) : Store → Prop
  | start : Delivered F sagaId s₀ s₀
  | answer {s s' : Store} {a : Answer} {now : Instant} {r : Saga × Effects}
      (run : Delivered F sagaId s₀ s) (agrees : F.Agrees a) (forSaga : a.sagaId = sagaId)
      (ok : update a.sagaId now (a.apply now) s = .ok r s') : Delivered F sagaId s₀ s'
  | answerFailed {s s' : Store} {a : Answer} {now : Instant} {e : Failure}
      (run : Delivered F sagaId s₀ s)
      (failed : update a.sagaId now (a.apply now) s = .error e s') : Delivered F sagaId s₀ s'

def orderStanding (status : SagaStatus) : OrderStatus := (orderStatus? status).getD .created

/-- In the store `s`, the saga `sagaId` is `g`: it is the saga of the order `orderId`, it follows
the verdicts `F` of its participants `ks`, and its order stands as it does. -/
structure Standing (F : Verdicts) (ks : List String) (sagaId : String) (orderId : UInt64)
    (s : Store) (g : Saga) : Prop where
  found : s.getSaga sagaId = .ok g
  order : g.orderId = orderId
  follows : Follows F ks g.status g.stepList
  orderAt : OrderAt s.orders orderId (orderStanding g.status)

section Standing

variable {F : Verdicts} {ks : List String} {sagaId : String} {orderId : UInt64}

theorem placed_standing {req : OrderRequest} {mode : Kind → Mode} {now : Instant} {g : Saga}
    {s₀ s₁ : Store} (hv : req.validate = .ok ())
    (hg : (req.saga sagaId orderId mode now).transitionTo .reserving = .ok g)
    (ho : openSaga (req.order orderId now) g now s₀ = .ok () s₁) :
    Standing F (participants (req.steps mode now)) sagaId orderId s₁
      ({ g with createdAt := now, updatedAt := now } : Saga).stored := by
  obtain ⟨-, rfl⟩ := Saga.transitionTo_ok hg
  obtain ⟨hfresh, hsagas, -⟩ := openSaga_ok ho
  refine ⟨?_, rfl, OrderRequest.placed_follows hv F, openSaga_orders ho⟩
  have hnone : s₀.sagas.find? (·.sagaId == sagaId) = none :=
    List.find?_eq_none.mpr fun x hx => by simpa [OrderRequest.saga] using (hfresh x hx).1
  simp [Store.getSaga, hsagas, List.find?_append, hnone, Saga.stored, OrderRequest.saga]

theorem Standing.update {s s' : Store} {g : Saga} {a : Answer} {now : Instant}
    {r : Saga × Effects} (hs : Standing F ks sagaId orderId s g) (ha : F.Agrees a)
    (hid : a.sagaId = sagaId) (h : update a.sagaId now (a.apply now) s = .ok r s') :
    ∃ g', Standing F ks sagaId orderId s' g' := by
  obtain ⟨g₁, fx⟩ := r
  obtain ⟨current, d, hcur, hd, -, hcases⟩ := update_ok h
  rw [hid, hs.found, Except.ok.injEq] at hcur
  subst hcur
  have hshaped : (Draft.ofSaga g).Shaped := hs.follows.shaped
  have hans := Answer.answered hs.follows.shaped hd
  rcases hcases with ⟨-, -, rfl⟩ | ⟨hchanged, rfl, hsagas⟩
  · exact ⟨g, hs⟩
  ·
    have hlive : orderStatus? g.status = none := by
      rcases Answer.live_of_changed hs.follows.shaped hd hchanged with h' | h' | h' <;>
        rw [h'] <;> rfl
    have horder : d.saga.orderId = orderId :=
      ((Answer.apply_moves hshaped ⟨rfl, rfl⟩ hd).owner.1).trans hs.order
    have hcreated : orderStanding g.status = .created := by rw [orderStanding, hlive]; rfl
    have hords : OrderAt s'.orders (written d now).orderId
        (if (written d now).status = g.status then .created
          else (orderStatus? (written d now).status).getD .created) :=
      update_orders h (hid ▸ hs.found) hd hchanged
        (by rw [written_orderId, horder, ← hcreated]; exact hs.orderAt)
    refine ⟨written d now, ?_, horder, Answer.apply_follows hs.follows ha hd, ?_⟩
    · rw [getSaga_replaced hsagas sagaId, hs.found]
      simp [hans.sagaId, Except.map]
    · rw [written_orderId, horder] at hords
      by_cases heq : (written d now).status = g.status
      · rw [if_pos heq] at hords
        rw [orderStanding, heq, hlive]
        exact hords
      · rw [if_neg heq] at hords
        exact hords

theorem Delivered.standing {s₀ s : Store} (run : Delivered F sagaId s₀ s) {g₀ : Saga}
    (h₀ : Standing F ks sagaId orderId s₀ g₀) : ∃ g, Standing F ks sagaId orderId s g := by
  induction run with
  | start => exact ⟨g₀, h₀⟩
  | answer _ agrees forSaga ok ih =>
    obtain ⟨g, hg⟩ := ih
    exact hg.update agrees forSaga ok
  | answerFailed _ failed ih =>
    rw [update_error failed]
    exact ih

end Standing

/-- **The outcome of a saga does not depend on the order of its answers.** -/
theorem outcome_independent_of_answer_order :
    (∀ (F : Verdicts) (req : OrderRequest) (sagaId : String) (orderId : UInt64)
        (mode : Kind → Mode) (now : Instant) (g : Saga) (s₀ s₁ s : Store) (x : Saga),
      req.validate = .ok () →
      (req.saga sagaId orderId mode now).transitionTo .reserving = .ok g →
      openSaga (req.order orderId now) g now s₀ = .ok () s₁ →
      Delivered F sagaId s₁ s → s.getSaga sagaId = .ok x →
      (∀ st ∈ x.stepList, st.waiting = false) →
      x.status = F.outcome (participants (req.steps mode now)) ∧
        ∃ o, s.getOrder orderId = .ok o ∧ orderStatus? x.status = some o.status) ∧
    ∀ (F : Verdicts) (ks : List String), (F.outcome ks).isTerminal = true ∧
      (F.outcome ks = .completed ↔ ∀ k ∈ ks, F.reserve k = true ∧ F.confirm k = true) := by
  refine ⟨fun F req sagaId orderId mode now g s₀ s₁ s x hv hg ho run hx hw => ?_,
    fun F ks => ⟨F.outcome_isTerminal ks, F.outcome_eq_completed ks⟩⟩
  obtain ⟨g', hs⟩ := run.standing (placed_standing hv hg ho)
  rw [hs.found, Except.ok.injEq] at hx
  subst hx
  refine ⟨hs.follows.outcome OrderRequest.participants_catalogued hw, ?_⟩
  obtain ⟨o, hget, hstatus⟩ := hs.orderAt.getOrder
  refine ⟨o, hget, ?_⟩
  rcases hs.follows.ended hw with h | h | h <;> rw [hstatus, orderStanding, h] <;> rfl

theorem refusals_leave_nothing_waiting :
    (match openSaga
        (({ userId := 1, items := [(7, 2)], couponId := 3 } : OrderRequest).order 1 .zero)
        { (({ userId := 1, items := [(7, 2)], couponId := 3 } : OrderRequest).saga "saga-1" 1
            (fun _ => .sync) .zero) with status := .reserving } .zero {} with
      | .ok _ s₁ =>
        match update (Answer.reserved { sagaId := "saga-1", kind := "coupon", success := false }).sagaId
            .zero ((Answer.reserved { sagaId := "saga-1", kind := "coupon", success := false }).apply
              .zero) s₁ with
        | .ok _ s₂ =>
          match update (Answer.reserved { sagaId := "saga-1", kind := "stock", success := false }).sagaId
              .zero ((Answer.reserved { sagaId := "saga-1", kind := "stock", success := false }).apply
                .zero) s₂ with
          | .ok _ s => match s.getSaga "saga-1" with
            | .ok x => x.stepList.all (fun st => !st.waiting)
            | .error _ => false
          | .error _ _ => false
        | .error _ _ => false
      | .error _ _ => false) = true := by
  decide +kernel

/-- An order of a stock item with a coupon, with every participant called directly, whose
participants both refuse their holds, coupon first: once both refusals are in, the saga stands
compensated cleanly and the order failed. -/
theorem refusals_end_saga_compensated :
    ∃ (s₁ s : Store) (x : Saga),
      openSaga (({ userId := 1, items := [(7, 2)], couponId := 3 } : OrderRequest).order 1 .zero)
        { (({ userId := 1, items := [(7, 2)], couponId := 3 } : OrderRequest).saga "saga-1" 1
            (fun _ => .sync) .zero) with status := .reserving } .zero {} = .ok () s₁ ∧
      Delivered ⟨fun _ => false, fun _ => false, fun _ => true⟩ "saga-1" s₁ s ∧
      s.getSaga "saga-1" = .ok x ∧ (∀ st ∈ x.stepList, st.waiting = false) ∧
      x.status = .compensationCompleted ∧ ∃ o, s.getOrder 1 = .ok o ∧ o.status = .failed := by
  let req : OrderRequest := { userId := 1, items := [(7, 2)], couponId := 3 }
  let g : Saga := { req.saga "saga-1" 1 (fun _ => .sync) .zero with status := .reserving }
  have hrun := refusals_leave_nothing_waiting
  split at hrun
  next s₁ hopen =>
    split at hrun
    next r₁ s₂ hcoupon =>
      split at hrun
      next r₂ s hstock =>
        split at hrun
        next x hx =>
          have run : Delivered ⟨fun _ => false, fun _ => false, fun _ => true⟩ "saga-1" s₁ s :=
            (Delivered.start.answer (by rfl) (by rfl) hcoupon).answer (by rfl) (by rfl) hstock
          have hw : ∀ st ∈ x.stepList, st.waiting = false := by simpa using hrun
          obtain ⟨hstatus, o, hget, ho⟩ := outcome_independent_of_answer_order.1
            ⟨fun _ => false, fun _ => false, fun _ => true⟩ req "saga-1" 1 (fun _ => .sync) .zero g
            {} s₁ s x rfl rfl hopen run hx hw
          have hclean : x.status = .compensationCompleted := by
            rw [hstatus]
            decide
          rw [hclean] at ho
          exact ⟨s₁, s, x, hopen, run, hx, hw, hclean, o, hget, (Option.some.inj ho).symm⟩
        next => cases hrun
      next => cases hrun
    next => cases hrun
  next => cases hrun

end OrderSaga
