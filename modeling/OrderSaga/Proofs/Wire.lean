import OrderSaga.Proofs.Provenance
import OrderSaga.Proofs.Compensations
import OrderSaga.Proofs.Atomicity

namespace OrderSaga

namespace Json

theorem firstField_eq_none_iff {fields : List (String × Json)} :
    refusal?.firstField fields = none ↔ ∀ p ∈ fields, p.2.refusal? = none := by
  induction fields with
  | nil => simp [refusal?.firstField]
  | cons p rest ih =>
    obtain ⟨name, v⟩ := p
    cases hv : v.refusal? <;> simp [refusal?.firstField, hv, ih, Option.orElse]

end Json

theorem Payload.timestamp_mem (p : Payload) :
    ∃ fields, p.toJson = .obj fields ∧ ("timestamp", p.timestamp.toJson) ∈ fields := by
  cases p <;> refine ⟨_, rfl, ?_⟩ <;>
    simp only [Payload.timestamp, List.mem_append, List.mem_cons, true_or, or_true]

theorem Payload.timestamp_fault?_of_refusal? {p : Payload} (h : p.toJson.refusal? = none) :
    p.timestamp.fault? = none := by
  obtain ⟨fields, hp, hmem⟩ := p.timestamp_mem
  rw [hp, Json.refusal?, Json.firstField_eq_none_iff] at h
  exact Instant.refusal?_toJson_eq_none.mp (h _ hmem)

namespace Envelope

variable {e e' : Envelope} {text : String}

theorem encode?_ok (h : e.encode? = .ok text) :
    text = Json.compact e.toJson ∧ e.occurredAt.fault? = none ∧
      e.payload.timestamp.fault? = none := by
  unfold encode? at h
  split at h
  · cases h
  · rename_i hp
    split at h
    · cases h
    · rename_i he
      cases h
      refine ⟨rfl, ?_, Payload.timestamp_fault?_of_refusal? hp⟩
      rw [← Instant.refusal?_toJson_eq_none]
      simp only [toJson, Json.refusal?, Json.firstField_eq_none_iff] at he
      exact he ("occurredAt", e.occurredAt.toJson) (by simp)

def WrittenAs (e : Envelope) (text : String) : Prop :=
  ∃ id, ({ e with eventId := id } : Envelope).encode? = .ok text

/-- An envelope whose text reads back as it: its payload has its type's shape, and both of its
instants have offsets of whole minutes, as the text of an instant writes them. -/
structure Faithful (e : Envelope) : Prop where
  shape : e.payload.shape = e.type.shape
  occurredAt : e.occurredAt.offset % 60 = 0
  timestamp : e.payload.timestamp.offset % 60 = 0

theorem WrittenAs.decode (hw : e.WrittenAs text) (hf : e.Faithful)
    (hd : Envelope.decode text = .ok e') : e'.type = e.type ∧ e'.payload = e.payload := by
  obtain ⟨id, hid⟩ := hw
  obtain ⟨rfl, ho, ht⟩ := encode?_ok hid
  rw [decode_toJson ⟨ho, hf.occurredAt⟩ ⟨ht, hf.timestamp⟩ hf.shape hd]
  exact ⟨rfl, rfl⟩

theorem SentFor.faithful {g : Saga} {now : Instant} (h : e.SentFor g now)
    (hnow : now.offset = 0) : e.Faithful :=
  ⟨h.shape, by rw [h.occurredAt, hnow]; rfl, by rw [h.timestamp, hnow]; rfl⟩

end Envelope

namespace Store

/-! ## Texts an outbox comes to hold -/

def Adds (P : String → Prop) (s s' : Store) : Prop :=
  ∀ x ∈ s'.outbox, (∃ y ∈ s.outbox, y.payload = x.payload) ∨ P x.payload

namespace Adds

variable {P Q : String → Prop} {s s₁ s' : Store}

theorem refl (s : Store) : Adds P s s := fun x hx => .inl ⟨x, hx, rfl⟩

theorem of_outbox (h : s'.outbox = s.outbox) : Adds P s s' := fun x hx => .inl ⟨x, h ▸ hx, rfl⟩

theorem trans (h₁ : Adds P s s₁) (h₂ : Adds P s₁ s') : Adds P s s' := by
  intro x hx
  rcases h₂ x hx with ⟨y, hy, hyx⟩ | hP
  · rcases h₁ y hy with ⟨z, hz, hzy⟩ | hP
    · exact .inl ⟨z, hz, hzy.trans hyx⟩
    · exact .inr (hyx ▸ hP)
  · exact .inr hP

theorem mono (h : Adds P s s') (hPQ : ∀ t, P t → Q t) : Adds Q s s' := fun x hx =>
  (h x hx).imp id (hPQ _)

theorem append {new : List OutboxEntry} (h : s'.outbox = s.outbox ++ new)
    (hnew : ∀ x ∈ new, P x.payload) : Adds P s s' := by
  intro x hx
  rw [h] at hx
  rcases List.mem_append.mp hx with hx | hx
  · exact .inl ⟨x, hx, rfl⟩
  · exact .inr (hnew x hx)

end Adds

variable {space : String} {env : Envelope} {now : Instant} {s s' : Store}

theorem writeEnvelope_adds (h : writeEnvelope space env now s = .ok () s') :
    Adds env.WrittenAs s s' := by
  obtain ⟨entry, hout, -, -, hc⟩ := writeEnvelope_carries h
  refine .append hout fun x hx => ?_
  rw [List.mem_singleton.mp hx]
  exact ⟨_, hc⟩

theorem numberItems_keeps_outbox (orderId : UInt64) (items : List OrderItem) :
    Keeps (·.outbox) (numberItems orderId items) := by
  induction items with
  | nil => exact .pure _ _
  | cons i rest ih => exact .bind (nextId_keeps fun _ => rfl) fun _ => .bind ih fun _ => .pure _ _

theorem createOrder_keeps_outbox (o : Order) (now : Instant) :
    Keeps (·.outbox) (createOrder o now) :=
  .bind (.get _) fun _ => .bind (.check _ _ _) fun _ =>
    .bind (numberItems_keeps_outbox _ _) fun _ => .bind (.modify fun _ => rfl) fun _ => .pure _ _

theorem createSaga_keeps_outbox (g : Saga) (now : Instant) : Keeps (·.outbox) (createSaga g now) :=
  .bind (.get _) fun _ => .bind (.check _ _ _) fun _ => .bind (.check _ _ _) fun _ =>
    .bind (nextId_keeps fun _ => rfl) fun _ => .bind (.modify fun _ => rfl) fun _ => .pure _ _

theorem updateSaga_keeps_outbox (g : Saga) (now : Instant) :
    Keeps (·.outbox) (updateSaga g now) := by
  intro s g' s' h
  unfold updateSaga at h
  obtain ⟨s₀, s₁, hget, h₁⟩ := bind_ok h
  cases hget
  cases hf : s.sagas.find? (·.sagaId == g.sagaId) with
  | none =>
    rw [hf] at h₁
    cases h₁
  | some cur =>
    rw [hf] at h₁
    obtain ⟨u, s₂, hc, h₂⟩ := bind_ok h₁
    obtain ⟨-, rfl⟩ := check_ok hc
    obtain ⟨u, s₃, hset, h₃⟩ := bind_ok h₂
    cases hset
    cases h₃
    rfl

theorem setOrderStatus_keeps_outbox (id : UInt64) (st : OrderStatus) (reason : String)
    (now : Instant) : Keeps (·.outbox) (setOrderStatus id st reason now) := by
  unfold setOrderStatus
  refine .bind_get fun s b s' h => ?_
  obtain ⟨u, s₁, hc, h₁⟩ := bind_ok h
  obtain ⟨-, rfl⟩ := check_ok hc
  cases h₁
  rfl

end Store

namespace Orchestrator

open Store

variable {now : Instant} {s s' : Store}

theorem syncOrder_keeps_outbox (g : Saga) (now : Instant) :
    Keeps (·.outbox) (syncOrder g now) := by
  unfold syncOrder
  split
  · exact .pure _ _
  · exact .withContext _ (setOrderStatus_keeps_outbox _ _ _ _)

theorem appendEnvelope_adds {e : Envelope} {u : Unit} (h : appendEnvelope e now s = .ok u s') :
    Adds e.WrittenAs s s' := by
  obtain ⟨entry, s₁, hentry, h₁⟩ := bind_ok h
  obtain ⟨written, s₂, happend, h₂⟩ := bind_ok h₁
  cases h₂
  obtain ⟨rfl, hc⟩ := entryOf_ok hentry
  refine .append (appendOutbox_outbox (withContext_ok happend)) fun x hx => ?_
  rw [List.mem_singleton.mp hx]
  exact ⟨_, (appendOutbox_carries (withContext_ok happend) hc).2.2⟩

theorem forIn_appendEnvelope_adds {es : List Envelope} {u : PUnit}
    (h : (forIn es PUnit.unit fun e (_ : PUnit) => do
      appendEnvelope e now
      pure (ForInStep.yield PUnit.unit) : Store.Op PUnit) s = .ok u s') :
    Adds (fun t => ∃ e ∈ es, e.WrittenAs t) s s' := by
  induction es generalizing s with
  | nil =>
    cases h
    exact .refl _
  | cons e rest ih =>
    rw [List.forIn_cons] at h
    obtain ⟨r, s₁, hbody, h₁⟩ := bind_ok h
    obtain ⟨_, s₂, happ, h₂⟩ := bind_ok hbody
    cases h₂
    refine ((appendEnvelope_adds happ).mono fun t ht => ⟨e, List.mem_cons_self, ht⟩).trans
      ((ih h₁).mono fun t ht => ?_)
    obtain ⟨e', he', hw⟩ := ht
    exact ⟨e', List.mem_cons_of_mem e he', hw⟩

theorem update_adds {sagaId : String} {m : Draft → Except Failure Draft} {g : Saga}
    {fx : Effects} (h : update sagaId now m s = .ok (g, fx) s') :
    Adds (fun t => ∃ e ∈ fx.envelopes, e.WrittenAs t) s s' := by
  unfold update at h
  obtain ⟨s₀, s₁, hget, h₁⟩ := bind_ok (atomically_ok h)
  cases hget
  dsimp only at h₁
  cases hcur : s.getSaga sagaId with
  | error e =>
    rw [hcur] at h₁
    obtain ⟨_, _, hp, -⟩ := bind_ok h₁
    cases hp
  | ok current =>
    rw [hcur] at h₁
    obtain ⟨current', s₂, hp, h₂⟩ := bind_ok h₁
    cases hp
    obtain ⟨d, s₃, hd, h₃⟩ := bind_ok h₂
    obtain ⟨-, hs₃⟩ := ofExcept_ok hd
    rw [hs₃] at h₃
    split at h₃
    ·
      cases h₃
      exact .refl s
    · obtain ⟨g', s₄, hup, h₄⟩ := bind_ok h₃
      have hs₄ : s₄.outbox = s.outbox := updateSaga_keeps_outbox _ _ _ _ _ hup
      split at h₄
      · obtain ⟨_, s₅, hsync, h₅⟩ := bind_ok h₄
        obtain ⟨_, s₆, hfor, h₆⟩ := bind_ok h₅
        cases h₆
        have hs₅ : s₅.outbox = s.outbox := (syncOrder_keeps_outbox _ _ _ _ _ hsync).trans hs₄
        exact (Adds.of_outbox hs₅).trans (forIn_appendEnvelope_adds hfor)
      · obtain ⟨_, s₆, hfor, h₆⟩ := bind_ok h₄
        cases h₆
        exact (Adds.of_outbox hs₄).trans (forIn_appendEnvelope_adds hfor)

theorem openSaga_adds {o : Order} {g : Saga} {u : Unit} (h : openSaga o g now s = .ok u s') :
    Adds (fun t => ∃ e : Envelope, e.SentFor { g with createdAt := now, updatedAt := now } now ∧
      e.WrittenAs t) s s' := by
  unfold openSaga at h
  obtain ⟨o', s₁, ho, h₁⟩ := bind_ok (atomically_ok h)
  have hs₁ : s₁.outbox = s.outbox := createOrder_keeps_outbox o now _ _ _ (withContext_ok ho)
  obtain ⟨g', s₂, hg, h₂⟩ := bind_ok h₁
  have hs₂ : s₂.outbox = s₁.outbox := createSaga_keeps_outbox g now _ _ _ (withContext_ok hg)
  obtain ⟨rfl, -, -⟩ := createSaga_ok (withContext_ok hg)
  obtain ⟨_, s₃, hfor, h₃⟩ := bind_ok h₂
  cases h₃
  refine (Adds.of_outbox (hs₂.trans hs₁)).trans ?_
  clear h₂ hg hs₂
  generalize ({ g with createdAt := now, updatedAt := now } : Saga).stepList = steps at hfor
  induction steps generalizing s₂ with
  | nil =>
    cases hfor
    exact .refl _
  | cons st rest ih =>
    rw [List.forIn_cons] at hfor
    obtain ⟨r, s₄, hbody, h₄⟩ := bind_ok hfor
    split at hbody
    · obtain ⟨e, s₅, he, h₅⟩ := bind_ok hbody
      obtain ⟨hcmd, rfl⟩ := ofExcept_ok he
      obtain ⟨_, s₆, happ, h₆⟩ := bind_ok h₅
      cases h₆
      obtain ⟨kd, -, rfl⟩ := Draft.command_ok hcmd
      exact ((appendEnvelope_adds happ).mono fun t ht =>
        ⟨_, Envelope.SentFor.commandOf rfl, ht⟩).trans (ih _ h₄)
    · cases hbody
      exact ih _ h₄

end Orchestrator

/-! ## Relaying -/

theorem List.map_modify_eq_map {α β : Type} {f : α → α} {g : α → β} (hf : ∀ x, g (f x) = g x)
    (l : List α) (i : Nat) : (l.modify i f).map g = l.map g := by
  apply List.ext_getElem?
  intro j
  simp only [List.getElem?_map, List.getElem?_modify]
  rcases l[j]? with _ | x
  · rfl
  · by_cases hij : i = j <;> simp [hij, hf]

namespace Store

def Republished (s s' : Store) : Prop :=
  s' = { s with outbox := s'.outbox } ∧ s'.outbox.map (·.payload) = s.outbox.map (·.payload)

namespace Republished

variable {s s₁ s' : Store}

theorem refl (s : Store) : Republished s s := ⟨rfl, rfl⟩

theorem trans (h₁ : Republished s s₁) (h₂ : Republished s₁ s') : Republished s s' := by
  refine ⟨?_, h₂.2.trans h₁.2⟩
  rw [h₂.1, h₁.1]

theorem payload_mem (h : Republished s s') {x : OutboxEntry} (hx : x ∈ s'.outbox) :
    ∃ y ∈ s.outbox, y.payload = x.payload := by
  have hmem : x.payload ∈ s.outbox.map (·.payload) := h.2 ▸ List.mem_map_of_mem hx
  obtain ⟨y, hy, hyx⟩ := List.mem_map.mp hmem
  exact ⟨y, hy, hyx⟩

end Republished

theorem updateEntry_republished (id : UInt64) {f : OutboxEntry → OutboxEntry}
    (hf : ∀ x, (f x).payload = x.payload) (s : Store) :
    Republished s (run (updateEntry id f) s).2 := by
  refine ⟨rfl, ?_⟩
  simp only [run, updateEntry, modify, modifyGet, MonadStateOf.modifyGet, EStateM.modifyGet]
  split
  · exact List.map_modify_eq_map hf _ _
  · rfl

theorem recordFailure_republished (id : UInt64) (reason : String) (s : Store) :
    Republished s (run (recordFailure id reason) s).2 :=
  updateEntry_republished id (fun _ => by rfl) s

theorem markPublished_republished (id : UInt64) (time : Instant) (s : Store) :
    Republished s (run (markPublished id time) s).2 :=
  updateEntry_republished id (fun _ => by rfl) s

end Store

namespace Relay

variable {σ : Type} (pub : Publisher σ) (now : Instant)

theorem publishAll_republished (es : List OutboxEntry) :
    ∀ (blocked : List String) (n : Nat) (s : Store) (b : σ),
      Store.Republished s (publishAll pub now es blocked n s b).2.1 := by
  induction es with
  | nil => exact fun _ _ s _ => .refl s
  | cons e rest ih =>
    intro blocked n s b
    unfold publishAll
    split
    · exact ih blocked n s b
    · split <;> dsimp only
      · exact (Store.recordFailure_republished _ _ s).trans (ih _ _ _ _)
      · exact (Store.markPublished_republished _ _ s).trans (ih _ _ _ _)

/-- A publisher to the bus that, publishing an entry, adds at most the entry's text under its topic
and key. -/
def Publisher.Posts (pub : Publisher Bus) : Prop :=
  ∀ b e, (pub b e).2.pending = b.pending ∨
    (pub b e).2.pending = b.pending ++ [⟨e.topic, e.key, e.payload⟩]

theorem busPublisher_posts : busPublisher.Posts := by
  intro b e
  unfold busPublisher Bus.publish
  split
  · rename_i h
    split at h
    · cases h
    · cases h
      exact .inr rfl
  · exact .inl rfl

theorem publishAll_pending {pub : Publisher Bus} (hpub : pub.Posts) (es : List OutboxEntry) :
    ∀ (blocked : List String) (n : Nat) (s : Store) (b : Bus),
      ∀ m ∈ (publishAll pub now es blocked n s b).2.2.pending,
        m ∈ b.pending ∨ ∃ x ∈ es, m.value = x.payload := by
  induction es with
  | nil => exact fun _ _ _ _ m hm => .inl hm
  | cons e rest ih =>
    intro blocked n s b m hm
    have hrest : ∀ blocked' n' s' (b' : Bus),
        (∀ m ∈ b'.pending, m ∈ b.pending ∨ m.value = e.payload) →
        m ∈ (publishAll pub now rest blocked' n' s' b').2.2.pending →
          m ∈ b.pending ∨ ∃ x ∈ e :: rest, m.value = x.payload := by
      intro blocked' n' s' b' hb' hm'
      rcases ih blocked' n' s' b' m hm' with hm' | ⟨x, hx, hv⟩
      · exact (hb' m hm').imp id fun hv => ⟨e, List.mem_cons_self, hv⟩
      · exact .inr ⟨x, List.mem_cons_of_mem e hx, hv⟩
    have hpost : ∀ m ∈ (pub b e).2.pending, m ∈ b.pending ∨ m.value = e.payload := by
      intro m hm
      rcases hpub b e with h | h <;> rw [h] at hm
      · exact .inl hm
      · rcases List.mem_append.mp hm with hm | hm
        · exact .inl hm
        · rw [List.mem_singleton.mp hm]
          exact .inr rfl
    unfold publishAll at hm
    split at hm
    · exact hrest _ _ _ _ (fun m hm => .inl hm) hm
    · split at hm
      · rename_i f b' hpb
        exact hrest _ _ _ _ (by rw [hpb] at hpost; exact hpost) hm
      · rename_i b' hpb
        exact hrest _ _ _ _ (by rw [hpb] at hpost; exact hpost) hm

end Relay

end OrderSaga
