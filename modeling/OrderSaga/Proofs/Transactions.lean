import OrderSaga.Saga.Orchestrator

namespace OrderSaga

namespace Store

variable {α β γ : Type}

def Keeps (f : Store → γ) (m : Op α) : Prop :=
  ∀ s a s', m s = .ok a s' → f s' = f s

theorem bind_ok {ε σ : Type} {x : EStateM ε σ α} {k : α → EStateM ε σ β} {s s' : σ}
    {b : β} (h : (x >>= k) s = .ok b s') :
    ∃ a s₁, x s = .ok a s₁ ∧ k a s₁ = .ok b s' := by
  change EStateM.bind x k s = _ at h
  unfold EStateM.bind at h
  split at h
  · exact ⟨_, _, ‹_›, h⟩
  · cases h

theorem check_ok {b : Bool} {e : Failure} {s s' : Store} {u : Unit}
    (h : Store.check b e s = .ok u s') : b = true ∧ s' = s := by
  unfold Store.check at h
  split at h
  · cases h
    exact ⟨‹_›, rfl⟩
  · cases h

theorem ofExcept_ok {r : Except Failure α} {s s' : Store} {a : α}
    (h : Store.ofExcept r s = .ok a s') : r = .ok a ∧ s' = s := by
  unfold Store.ofExcept at h
  split at h
  · cases h
    exact ⟨rfl, rfl⟩
  · cases h

theorem atomically_ok {m : Op α} {s s' : Store} {a : α}
    (h : Store.atomically m s = .ok a s') : m s = .ok a s' := by
  unfold Store.atomically at h
  split at h
  · cases h
    assumption
  · cases h

theorem atomically_error_state {m : Op α} {s s' : Store} {e : Failure}
    (h : Store.atomically m s = .error e s') : s' = s := by
  unfold Store.atomically at h
  split at h <;> cases h
  rfl

theorem withContext_ok {m : Op α} {c : String} {s s' : Store} {a : α}
    (h : Store.withContext c m s = .ok a s') : m s = .ok a s' := by
  unfold Store.withContext at h
  split at h
  · cases h
    assumption
  · cases h

namespace Keeps

theorem pure (f : Store → γ) (a : α) : Keeps f (Pure.pure a : Op α) := by
  intro s a s' h
  cases h
  rfl

theorem bind {f : Store → γ} {x : Op α} {k : α → Op β} (hx : Keeps f x)
    (hk : ∀ a, Keeps f (k a)) : Keeps f (x >>= k) := by
  intro s b s' h
  obtain ⟨a, s₁, h₁, h₂⟩ := bind_ok h
  exact (hk a s₁ b s' h₂).trans (hx s a s₁ h₁)

theorem get (f : Store → γ) : Keeps f (MonadState.get : Op Store) := by
  intro s a s' h
  cases h
  rfl

theorem bind_get {f : Store → γ} {k : Store → Op α}
    (hk : ∀ s b s', k s s = .ok b s' → f s' = f s) : Keeps f (MonadState.get >>= k) := by
  intro s b s' h
  obtain ⟨a, s₁, h₁, h₂⟩ := bind_ok h
  cases h₁
  exact hk s b s' h₂

theorem throw (f : Store → γ) (e : Failure) : Keeps f (MonadExcept.throw e : Op α) := by
  intro s a s' h
  cases h

theorem modify {f : Store → γ} {g : Store → Store} (hg : ∀ s, f (g s) = f s) :
    Keeps f (modify g : Op Unit) := by
  intro s a s' h
  cases h
  exact hg s

theorem withContext {f : Store → γ} {m : Op α} (c : String) (hm : Keeps f m) :
    Keeps f (Store.withContext c m) := by
  intro s a s' h
  exact hm s a s' (withContext_ok h)

theorem check (f : Store → γ) (b : Bool) (e : Failure) : Keeps f (Store.check b e) := by
  intro s u s' h
  rw [(check_ok h).2]

theorem ofExcept (f : Store → γ) (r : Except Failure α) : Keeps f (Store.ofExcept r) := by
  intro s a s' h
  rw [(ofExcept_ok h).2]

theorem ite {f : Store → γ} {c : Prop} [Decidable c] {x y : Op α} (hx : Keeps f x)
    (hy : Keeps f y) : Keeps f (if c then x else y) := by
  split
  · exact hx
  · exact hy

theorem forIn {f : Store → γ} {xs : List α} {b : β}
    {body : α → β → Op (ForInStep β)} (hb : ∀ a b, Keeps f (body a b)) :
    Keeps f (ForIn.forIn xs b body) := by
  induction xs generalizing b with
  | nil => exact Keeps.pure f b
  | cons x xs ih =>
    rw [List.forIn_cons]
    refine Keeps.bind (hb x b) fun r => ?_
    cases r with
    | done b => exact Keeps.pure f b
    | yield b => exact ih

end Keeps

theorem nextId_keeps_sagas : Keeps (·.sagas) nextId := by
  intro s a s' h
  cases h
  rfl

theorem numberItems_keeps_sagas (orderId : UInt64) (items : List OrderItem) :
    Keeps (·.sagas) (numberItems orderId items) := by
  induction items with
  | nil => exact .pure _ _
  | cons i rest ih =>
    exact .bind nextId_keeps_sagas fun _ => .bind ih fun _ => .pure _ _

theorem createOrder_keeps_sagas (o : Order) (now : Instant) :
    Keeps (·.sagas) (createOrder o now) :=
  .bind (.get _) fun _ => .bind (.check _ _ _) fun _ =>
    .bind (numberItems_keeps_sagas _ _) fun _ => .bind (.modify fun _ => rfl) fun _ => .pure _ _

theorem appendOutbox_keeps_sagas (e : OutboxEntry) (now : Instant) :
    Keeps (·.sagas) (appendOutbox e now) :=
  .bind (.get _) fun _ => .bind (.check _ _ _) fun _ => .bind nextId_keeps_sagas fun _ =>
    .bind (.modify fun _ => rfl) fun _ => .pure _ _

theorem setOrderStatus_keeps_sagas (id : UInt64) (st : OrderStatus) (reason : String)
    (now : Instant) : Keeps (·.sagas) (setOrderStatus id st reason now) := by
  unfold setOrderStatus
  refine .bind_get fun s b s' h => ?_
  obtain ⟨u, s₁, hc, h₁⟩ := bind_ok h
  obtain ⟨-, rfl⟩ := check_ok hc
  cases h₁
  rfl

theorem entryOf_keeps (f : Store → γ) (space : String) (e : Envelope) :
    Keeps f (entryOf space e) := by
  unfold entryOf
  refine .bind (.get f) fun s => ?_
  dsimp only
  split
  · exact .pure f _
  · exact .throw f _

theorem getSaga_ok {s : Store} {sagaId : String} {g : Saga} (h : s.getSaga sagaId = .ok g) :
    g ∈ s.sagas ∧ g.sagaId = sagaId := by
  unfold getSaga at h
  split at h
  next hf =>
    cases h
    exact ⟨List.mem_of_find?_eq_some hf, by simpa using List.find?_some hf⟩
  next => cases h

theorem createSaga_ok {g g' : Saga} {now : Instant} {s s' : Store}
    (h : createSaga g now s = .ok g' s') :
    g' = { g with createdAt := now, updatedAt := now } ∧
      (∀ x ∈ s.sagas, x.sagaId ≠ g.sagaId ∧ x.orderId ≠ g.orderId) ∧
      s'.sagas = s.sagas ++ [g'.stored] := by
  unfold createSaga at h
  obtain ⟨s₀, s₁, hget, h₁⟩ := bind_ok h
  cases hget
  obtain ⟨u, s₂, hc₁, h₂⟩ := bind_ok h₁
  obtain ⟨hid, rfl⟩ := check_ok hc₁
  obtain ⟨u, s₃, hc₂, h₃⟩ := bind_ok h₂
  obtain ⟨horder, rfl⟩ := check_ok hc₂
  obtain ⟨n, s₄, hn, h₄⟩ := bind_ok h₃
  cases hn
  obtain ⟨u, s₅, hm, h₅⟩ := bind_ok h₄
  cases hm
  cases h₅
  refine ⟨rfl, fun x hx => ⟨?_, ?_⟩, rfl⟩
  · intro heq
    simp only [Bool.not_eq_true', List.any_eq_false, beq_iff_eq] at hid
    exact hid x hx heq
  · intro heq
    simp only [Bool.not_eq_true', List.any_eq_false, beq_iff_eq] at horder
    exact horder x hx heq

theorem updateSaga_ok {g g' : Saga} {now : Instant} {s s' : Store}
    (h : updateSaga g now s = .ok g' s') :
    g' = { g with version := g.version + 1, updatedAt := now } ∧
      s'.sagas = s.sagas.map fun x => if x.sagaId == g.sagaId then g'.stored else x := by
  unfold updateSaga at h
  obtain ⟨s₀, s₁, hget, h₁⟩ := bind_ok h
  cases hget
  cases hf : s.sagas.find? (·.sagaId == g.sagaId) with
  | none =>
    rw [hf] at h₁
    cases h₁
  | some cur =>
    rw [hf] at h₁
    obtain ⟨u, s₂, hc, h₂⟩ := bind_ok h₁
    obtain ⟨-, rfl⟩ := check_ok hc
    obtain ⟨u, s₃, hset, h₃⟩ := bind_ok h₂
    cases hset
    cases h₃
    exact ⟨rfl, rfl⟩

end Store

namespace Orchestrator

open Store

theorem appendEnvelope_keeps_sagas (e : Envelope) (now : Instant) :
    Keeps (·.sagas) (appendEnvelope e now) :=
  .bind (entryOf_keeps _ _ _) fun _ =>
    .bind (.withContext _ (appendOutbox_keeps_sagas _ _)) fun _ => .pure _ _

theorem syncOrder_keeps_sagas (g : Saga) (now : Instant) : Keeps (·.sagas) (syncOrder g now) := by
  unfold syncOrder
  split
  · exact .pure _ _
  · exact .withContext _ (setOrderStatus_keeps_sagas _ _ _ _)

def written (d : Draft) (now : Instant) : Saga :=
  { d.saga with steps := some d.steps, updatedAt := now, version := d.saga.version + 1 }

@[simp] theorem written_sagaId (d : Draft) (now : Instant) :
    (written d now).sagaId = d.saga.sagaId := rfl

@[simp] theorem written_status (d : Draft) (now : Instant) :
    (written d now).status = d.saga.status := rfl

@[simp] theorem written_stepList (d : Draft) (now : Instant) :
    (written d now).stepList = d.steps := rfl

theorem update_ok {sagaId : String} {now : Instant} {m : Draft → Except Failure Draft}
    {s s' : Store} {g : Saga} {fx : Effects} (h : update sagaId now m s = .ok (g, fx) s') :
    ∃ current d, s.getSaga sagaId = .ok current ∧ m (.ofSaga current) = .ok d ∧
      fx = d.effects ∧
      (d.effects.changed = false ∧ g = d.saga ∧ s' = s ∨
       d.effects.changed = true ∧ g = written d now ∧
         s'.sagas = s.sagas.map fun x => if x.sagaId == g.sagaId then g else x) := by
  unfold update at h
  obtain ⟨s₀, s₁, hget, h₁⟩ := bind_ok (atomically_ok h)
  cases hget
  dsimp only at h₁
  cases hcur : s.getSaga sagaId with
  | error e =>
    rw [hcur] at h₁
    obtain ⟨_, _, hp, -⟩ := bind_ok h₁
    cases hp
  | ok current =>
    rw [hcur] at h₁
    obtain ⟨current', s₂, hp, h₂⟩ := bind_ok h₁
    cases hp
    obtain ⟨d, s₃, hd, h₃⟩ := bind_ok h₂
    obtain ⟨hm, hs₃⟩ := ofExcept_ok hd
    subst hs₃
    refine ⟨current, d, rfl, hm, ?_⟩
    split at h₃
    next hc =>
      cases h₃
      exact ⟨rfl, .inl ⟨by simpa using hc, rfl, rfl⟩⟩
    next hc =>
      have hchanged : d.effects.changed = true := by simpa using hc
      obtain ⟨g', s₄, hup, h₄⟩ := bind_ok h₃
      obtain ⟨rfl, hsagas⟩ := updateSaga_ok hup
      have hloop : Keeps (·.sagas) (forIn d.effects.envelopes PUnit.unit fun e (_ : PUnit) => do
          appendEnvelope e now
          pure (ForInStep.yield PUnit.unit)) :=
        .forIn fun e _ => .bind (appendEnvelope_keeps_sagas e now) fun _ => .pure _ _
      split at h₄
      · obtain ⟨_, s₅, hsync, h₅⟩ := bind_ok h₄
        obtain ⟨_, s₆, hfor, h₆⟩ := bind_ok h₅
        cases h₆
        exact ⟨rfl, .inr ⟨hchanged, rfl,
          ((hloop _ _ _ hfor).trans (syncOrder_keeps_sagas _ _ _ _ _ hsync)).trans hsagas⟩⟩
      · obtain ⟨_, s₆, hfor, h₆⟩ := bind_ok h₄
        cases h₆
        exact ⟨rfl, .inr ⟨hchanged, rfl, (hloop _ _ _ hfor).trans hsagas⟩⟩

theorem update_error {sagaId : String} {now : Instant} {m : Draft → Except Failure Draft}
    {s s' : Store} {e : Failure} (h : update sagaId now m s = .error e s') : s' = s :=
  atomically_error_state h

/-- The reserve commands an opening sends: one for each pending step that runs on the bus. -/
def reserveCommands (g : Saga) (now : Instant) : Except Failure (List Envelope) :=
  (g.stepList.filter fun st => st.reserve == .pending && st.mode == .async).mapM
    (Draft.command g .reserveRequested now)

theorem forIn_commands_ok {g : Saga} {now : Instant} {xs : List SagaStep} {s s' : Store}
    {u : PUnit}
    (h : (forIn xs PUnit.unit (fun st (_ : PUnit) =>
      if (st.reserve == StepState.pending && st.mode == Mode.async) = true then do
        let e ← Store.ofExcept (Draft.command g EventType.reserveRequested now st)
        appendEnvelope e now
        pure (ForInStep.yield PUnit.unit)
      else pure (ForInStep.yield PUnit.unit)) : Store.Op PUnit) s = .ok u s') :
    ∃ es, (xs.filter fun st => st.reserve == .pending && st.mode == .async).mapM
      (Draft.command g .reserveRequested now) = .ok es := by
  induction xs generalizing s with
  | nil => exact ⟨[], rfl⟩
  | cons st rest ih =>
    rw [List.forIn_cons] at h
    obtain ⟨r, s₁, hbody, h₁⟩ := bind_ok h
    split at hbody
    next hsend =>
      obtain ⟨e, s₂, he, h₂⟩ := bind_ok hbody
      obtain ⟨hcmd, rfl⟩ := ofExcept_ok he
      obtain ⟨_, s₃, -, h₃⟩ := bind_ok h₂
      cases h₃
      obtain ⟨es, hes⟩ := ih h₁
      refine ⟨e :: es, ?_⟩
      simp only [List.filter_cons, hsend, ↓reduceIte, List.mapM_cons, hcmd, hes]
      rfl
    next hskip =>
      cases hbody
      obtain ⟨es, hes⟩ := ih h₁
      exact ⟨es, by simpa [List.filter_cons, hskip] using hes⟩

theorem openSaga_ok {o : Order} {g : Saga} {now : Instant} {s s' : Store} {u : Unit}
    (h : openSaga o g now s = .ok u s') :
    (∀ x ∈ s.sagas, x.sagaId ≠ g.sagaId ∧ x.orderId ≠ g.orderId) ∧
      s'.sagas = s.sagas ++ [({ g with createdAt := now, updatedAt := now } : Saga).stored] ∧
      ∃ es, reserveCommands { g with createdAt := now, updatedAt := now } now = .ok es := by
  unfold openSaga at h
  obtain ⟨o', s₁, ho, h₁⟩ := bind_ok (atomically_ok h)
  have hs₁ : s₁.sagas = s.sagas := createOrder_keeps_sagas o now _ _ _ (withContext_ok ho)
  obtain ⟨g', s₂, hg, h₂⟩ := bind_ok h₁
  obtain ⟨rfl, hfresh, hs₂⟩ := createSaga_ok (withContext_ok hg)
  obtain ⟨_, s₃, hfor, h₃⟩ := bind_ok h₂
  cases h₃
  have hloop : s'.sagas = s₂.sagas := Keeps.forIn (f := (·.sagas)) (fun st (_ : PUnit) =>
    Keeps.ite (.bind (.ofExcept _ _) fun e =>
      .bind (appendEnvelope_keeps_sagas e now) fun _ => .pure _ _) (.pure _ _)) _ _ _ hfor
  refine ⟨fun x hx => hfresh x (hs₁ ▸ hx), ?_, forIn_commands_ok hfor⟩
  rw [hloop, hs₂, hs₁]

theorem openSaga_error {o : Order} {g : Saga} {now : Instant} {s s' : Store} {e : Failure}
    (h : openSaga o g now s = .error e s') : s' = s :=
  atomically_error_state h

end Orchestrator

end OrderSaga
