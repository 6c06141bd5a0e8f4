import OrderSaga.Proofs.Outbox

namespace OrderSaga

open OutboxEntry

namespace Store

theorem appendOutbox_outbox {e e' : OutboxEntry} {now : Instant} {s s' : Store}
    (h : appendOutbox e now s = .ok e' s') : s'.outbox = s.outbox ++ [e'] := by
  simp only [appendOutbox, check, nextId, bind, EStateM.bind, get, getThe, MonadStateOf.get,
    EStateM.get, modify, modifyGet, MonadStateOf.modifyGet, EStateM.modifyGet, pure,
    EStateM.pure, throw, throwThe, MonadExceptOf.throw] at h
  split at h
  · rename_i hcheck
    split at hcheck
    · simp only [EStateM.pure, EStateM.Result.ok.injEq] at hcheck
      obtain ⟨-, rfl⟩ := hcheck
      simp only [EStateM.Result.ok.injEq] at h
      obtain ⟨rfl, rfl⟩ := h
      rfl
    · cases hcheck
  · cases h

end Store

namespace OutboxEntry

theorem Distinct.eq_of_id {es : List OutboxEntry} (hd : Distinct es) {x y : OutboxEntry}
    (hx : x ∈ es) (hy : y ∈ es) (h : x.id = y.id) : x = y :=
  List.inj_on_of_nodup_map hd hx hy h

theorem Earlier.congr {a a' b b' : OutboxEntry} (ha : a'.createdAt = a.createdAt ∧ a'.id = a.id)
    (hb : b'.createdAt = b.createdAt ∧ b'.id = b.id) (h : a.Earlier b) : a'.Earlier b' := by
  unfold Earlier at *
  rw [ha.1, ha.2, hb.1, hb.2]
  exact h

end OutboxEntry

namespace Relay

/-! ## What a pass leaves of each entry -/

section Settle

variable {now : Instant} {log : List (OutboxEntry × Option String)} {x : OutboxEntry}

theorem settleAll_place (now : Instant) (log : List (OutboxEntry × Option String))
    (x : OutboxEntry) :
    (settleAll now log x).id = x.id ∧ (settleAll now log x).topic = x.topic ∧
      (settleAll now log x).createdAt = x.createdAt := by
  unfold settleAll
  split
  · rename_i r _
    cases r <;> exact ⟨rfl, rfl, rfl⟩
  · exact ⟨rfl, rfl, rfl⟩

theorem settleAll_pending (h : (settleAll now log x).publishedAt = none) :
    x.publishedAt = none := by
  unfold settleAll at h
  split at h
  · rename_i r _
    cases r
    · cases h
    · exact h
  · exact h

theorem settleAll_of_mem (hlog : (log.map (·.1.id)).Nodup) {p : OutboxEntry × Option String}
    (hp : p ∈ log) : settleAll now log p.1 = p.1.settle now p.2 := by
  induction log with
  | nil => cases hp
  | cons q qs ih =>
    by_cases hq : q.1.id = p.1.id
    ·
      have hqp : q = p := by
        rcases List.mem_cons.mp hp with rfl | hp'
        · rfl
        · exact absurd (List.mem_map.mpr ⟨p, hp', hq.symm⟩) (List.nodup_cons.mp hlog).1
      subst hqp
      simp [settleAll]
    · have hp' : p ∈ qs := (List.mem_cons.mp hp).resolve_left (fun h => hq (h ▸ rfl))
      rw [← ih (List.nodup_cons.mp hlog).2 hp']
      simp [settleAll, hq]

end Settle

/-! ## Runs -/

/-- One step in the life of an outbox: a pass of the relay through any publisher, with the attempts
it makes, or an entry appended under a fresh number after every entry the outbox holds. -/
inductive Step : Store → Store → List (OutboxEntry × Option String) → Prop
  | relay {σ : Type} (pub : Publisher σ) (b : σ) (size : Nat) (now : Instant) (s : Store) :
      Step s (relayWith pub size now s b).2.1 (attempts pub now (s.fetchPending size) [] s b)
  | append {e e' : OutboxEntry} {now : Instant} {s s' : Store}
      (h : Store.appendOutbox e now s = .ok e' s')
      (later : ∀ x ∈ s.outbox, x.Earlier e') (fresh : ∀ x ∈ s.outbox, x.id ≠ e'.id) :
      Step s s' []

/-- A run from the store `s₀` to `s`, with the attempts of all its passes in order. -/
inductive Run (s₀ : Store) : Store → List (OutboxEntry × Option String) → Prop
  | start : Run s₀ s₀ []
  | step {s s' : Store} {log log' : List (OutboxEntry × Option String)} :
      Run s₀ s log → Step s s' log' → Run s₀ s' (log ++ log')

def sentOf (log : List (OutboxEntry × Option String)) (topic : String) : List OutboxEntry :=
  (log.filter (fun p => p.2.isNone && p.1.topic == topic)).map Prod.fst

/-- What a run keeps true of the store it reached and the attempts it made. -/
structure Inv (s₀ s : Store) (log : List (OutboxEntry × Option String)) : Prop where
  distinct : Distinct s.outbox
  kept : ∀ x ∈ s₀.outbox, x.publishedAt.isSome → x ∈ s.outbox
  marked : ∀ p ∈ log, p.2 = none → ∃ x ∈ s.outbox, x.id = p.1.id ∧ x.topic = p.1.topic ∧
    x.createdAt = p.1.createdAt ∧ x.publishedAt.isSome
  ahead : ∀ p ∈ log, p.2 = none → ∀ x ∈ s.outbox, x.publishedAt = none →
    x.topic = p.1.topic → p.1.Earlier x
  ordered : ∀ topic, (sentOf log topic).Pairwise Earlier
  untried : ∀ p ∈ log, ∀ x ∈ s₀.outbox, x.publishedAt.isSome → x.id ≠ p.1.id
  once : log.Pairwise (fun p q => p.2 = none → q.1.id ≠ p.1.id)

theorem Inv.start {s₀ : Store} (hd : Distinct s₀.outbox) : Inv s₀ s₀ [] where
  distinct := hd
  kept := fun _ hx _ => hx
  marked := fun _ hp => by cases hp
  ahead := fun _ hp => by cases hp
  ordered := fun _ => by simp [sentOf]
  untried := fun _ hp => by cases hp
  once := List.Pairwise.nil

theorem Inv.append {s₀ s s' : Store} {log : List (OutboxEntry × Option String)}
    {e e' : OutboxEntry} {now : Instant} (inv : Inv s₀ s log)
    (h : Store.appendOutbox e now s = .ok e' s')
    (later : ∀ x ∈ s.outbox, x.Earlier e') (fresh : ∀ x ∈ s.outbox, x.id ≠ e'.id) :
    Inv s₀ s' (log ++ []) := by
  have hout := Store.appendOutbox_outbox h
  rw [List.append_nil]
  refine ⟨?_, ?_, ?_, ?_, inv.ordered, inv.untried, inv.once⟩
  · rw [hout, Distinct, List.map_append, List.nodup_append]
    refine ⟨inv.distinct, List.nodup_singleton _, ?_⟩
    simp only [List.map_cons, List.map_nil, List.mem_singleton, List.mem_map]
    rintro _ ⟨x, hx, rfl⟩ _ rfl
    exact fresh x hx
  · exact fun x hx hp => hout ▸ List.mem_append_left _ (inv.kept x hx hp)
  · intro p hp hsent
    obtain ⟨x, hx, hplace⟩ := inv.marked p hp hsent
    exact ⟨x, hout ▸ List.mem_append_left _ hx, hplace⟩
  · intro p hp hsent x hx hpend htopic
    rw [hout, List.mem_append, List.mem_singleton] at hx
    rcases hx with hx | rfl
    · exact inv.ahead p hp hsent x hx hpend htopic
    ·
      obtain ⟨y, hy, hid, -, hcreated, -⟩ := inv.marked p hp hsent
      exact Earlier.congr ⟨hcreated.symm, hid.symm⟩ ⟨rfl, rfl⟩ (later y hy)

theorem sentOf_append (log log' : List (OutboxEntry × Option String)) (topic : String) :
    sentOf (log ++ log') topic = sentOf log topic ++ sentOf log' topic := by
  simp [sentOf]

theorem mem_sentOf {log : List (OutboxEntry × Option String)} {topic : String} {x : OutboxEntry} :
    x ∈ sentOf log topic ↔ (x, none) ∈ log ∧ x.topic = topic := by
  simp only [sentOf, List.mem_map, List.mem_filter, Bool.and_eq_true, Option.isNone_iff_eq_none,
    beq_iff_eq]
  constructor
  · rintro ⟨⟨y, r⟩, ⟨hy, rfl, rfl⟩, rfl⟩
    exact ⟨hy, rfl⟩
  · rintro ⟨hx, rfl⟩
    exact ⟨(x, none), ⟨hx, rfl, rfl⟩, rfl⟩

theorem Inv.relay {σ : Type} {s₀ s : Store} {log : List (OutboxEntry × Option String)}
    (inv : Inv s₀ s log) (pub : Publisher σ) (b : σ) (size : Nat) (now : Instant) :
    Inv s₀ (relayWith pub size now s b).2.1
      (log ++ attempts pub now (s.fetchPending size) [] s b) := by
  obtain ⟨hinorder, hstore, -⟩ := @relayWith_pass σ pub now s inv.distinct size b
  generalize hbatch : s.fetchPending size = batch at hinorder hstore
  generalize hlog' : attempts pub now batch [] s b = log' at hinorder hstore
  have hsub : List.Sublist (log'.map Prod.fst) batch := hlog' ▸ attempts_sublist batch [] s b
  have hmemb : ∀ p ∈ log', p.1 ∈ batch := fun p hp => hsub.subset (List.mem_map_of_mem hp)
  have hpend : ∀ y ∈ batch, y ∈ s.outbox ∧ y.publishedAt = none :=
    fun y hy => Store.fetchPending_pending (hbatch ▸ hy)
  have hbd : Distinct batch := hbatch ▸ Store.fetchPending_distinct inv.distinct
  have hsorted : batch.Pairwise Earlier := hbatch ▸ Store.fetchPending_earlier inv.distinct
  have hlogd : (log'.map (·.1.id)).Nodup := by
    have := List.Nodup.sublist (hsub.map OutboxEntry.id) hbd
    simpa [List.map_map, Function.comp_def] using this
  have hleft : ∀ x ∈ s.outbox, x.publishedAt.isSome → settleAll now log' x = x := by
    intro x hx hpub
    refine settleAll_of_not_mem fun p hp hid => ?_
    obtain ⟨hin, hnone⟩ := hpend p.1 (hmemb p hp)
    rw [inv.distinct.eq_of_id hin hx hid, Option.isSome_iff_ne_none] at *
    exact hpub hnone
  rw [hstore]
  refine ⟨?_, ?_, ?_, ?_, ?_, ?_, ?_⟩
  · exact Distinct.of_map _ (fun x => (settleAll_place now log' x).1) inv.distinct
  · intro x hx hpub
    exact List.mem_map.mpr ⟨x, inv.kept x hx hpub, hleft x (inv.kept x hx hpub) hpub⟩
  · intro p hp hsent
    rcases List.mem_append.mp hp with hp | hp
    · obtain ⟨x, hx, hid, htopic, hcreated, hpub⟩ := inv.marked p hp hsent
      exact ⟨x, List.mem_map.mpr ⟨x, hx, hleft x hx hpub⟩, hid, htopic, hcreated, hpub⟩
    · refine ⟨p.1.settle now p.2, List.mem_map.mpr ⟨p.1, (hpend p.1 (hmemb p hp)).1,
        settleAll_of_mem hlogd hp⟩, ?_⟩
      rw [hsent]
      exact ⟨rfl, rfl, rfl, rfl⟩
  · intro p hp hsent x' hx' hpend' htopic
    obtain ⟨x, hx, rfl⟩ := List.mem_map.mp hx'
    obtain ⟨hid, htx, hcx⟩ := settleAll_place now log' x
    have hxpend : x.publishedAt = none := settleAll_pending hpend'
    refine Earlier.congr ⟨rfl, rfl⟩ ⟨hcx, hid⟩ ?_
    rcases List.mem_append.mp hp with hp | hp
    · exact inv.ahead p hp hsent x hx hxpend (htx ▸ htopic)
    · have hxnot : (x, none) ∉ log' := fun hin => by
        rw [settleAll_of_mem hlogd hin] at hpend'
        cases hpend'
      by_cases hxb : x ∈ batch
      ·
        have htopic' : x.topic = p.1.topic := htx ▸ htopic
        exact (hinorder p.1.topic).sent_before (hsorted.filter _) p
          (List.mem_filter.mpr ⟨hp, by simp⟩) hsent x
          (List.mem_filter.mpr ⟨hxb, by simp [htopic']⟩)
          (fun hin => hxnot (List.mem_filter.mp hin).1)
      · exact Store.fetchPending_oldest inv.distinct hx hxpend (hbatch ▸ hxb) p.1
          (hbatch ▸ hmemb p hp)
  · intro topic
    rw [sentOf_append, List.pairwise_append]
    refine ⟨inv.ordered topic, ?_, ?_⟩
    · have : List.Sublist (sentOf log' topic) batch :=
        ((List.filter_sublist).map Prod.fst).trans hsub
      exact hsorted.sublist this
    · intro p hp q hq
      obtain ⟨hp, hpt⟩ := mem_sentOf.mp hp
      obtain ⟨hq, hqt⟩ := mem_sentOf.mp hq
      obtain ⟨hqin, hqpend⟩ := hpend q (hmemb _ hq)
      exact inv.ahead _ hp rfl q hqin hqpend (hqt.trans hpt.symm)
  · intro p hp x hx hpub hid
    rcases List.mem_append.mp hp with hp | hp
    · exact inv.untried p hp x hx hpub hid
    · obtain ⟨hin, hnone⟩ := hpend p.1 (hmemb p hp)
      rw [inv.distinct.eq_of_id (inv.kept x hx hpub) hin hid, Option.isSome_iff_ne_none] at hpub
      exact hpub hnone
  · rw [List.pairwise_append]
    refine ⟨inv.once, ?_, ?_⟩
    · refine (List.pairwise_map.mp hlogd).imp ?_
      intro p q hne _
      exact Ne.symm hne
    · intro p hp q hq hsent hid
      obtain ⟨x, hx, hxid, -, -, hpub⟩ := inv.marked p hp hsent
      obtain ⟨hin, hnone⟩ := hpend q.1 (hmemb q hq)
      rw [inv.distinct.eq_of_id hx hin (hxid.trans hid.symm), Option.isSome_iff_ne_none] at hpub
      exact hpub hnone

theorem Step.inv {s₀ s s' : Store} {log log' : List (OutboxEntry × Option String)}
    (inv : Inv s₀ s log) (h : Step s s' log') : Inv s₀ s' (log ++ log') := by
  cases h with
  | relay pub b size now => exact inv.relay pub b size now
  | append h later fresh => exact inv.append h later fresh

theorem Run.inv {s₀ s : Store} {log : List (OutboxEntry × Option String)}
    (hd : Distinct s₀.outbox) (h : Run s₀ s log) : Inv s₀ s log := by
  induction h with
  | start => exact Inv.start hd
  | step _ hstep ih => exact hstep.inv ih

end Relay

open Relay

/-- The outbox relay publishes each topic in order, at least once and never again once marked. -/
theorem relay_publishes_in_order (retention : Span)
    (hretention : Int64.minValue.toInt < retention.nanos.toInt) :
    (∀ (σ : Type) (pub : Publisher σ) (b : σ) (size : Nat) (now : Instant) (s : Store),
      Distinct s.outbox →
      (s.fetchPending size).Pairwise Earlier ∧
      (∀ x ∈ s.fetchPending size, x ∈ s.outbox ∧ x.publishedAt = none) ∧
      (∀ x ∈ s.outbox, x.publishedAt = none → x ∉ s.fetchPending size →
        ∀ y ∈ s.fetchPending size, y.Earlier x) ∧
      (∀ topic, InOrder ((s.fetchPending size).filter (·.topic == topic))
        ((attempts pub now (s.fetchPending size) [] s b).filter (·.1.topic == topic))) ∧
      (relayWith pub size now s b).2.1 =
        { s with outbox := s.outbox.map
                             (settleAll now (attempts pub now (s.fetchPending size) [] s b)) }) ∧
    (∀ (now : Instant) (s : Store),
      (cleanup retention now s).2 =
        { s with outbox := s.outbox.filter fun x =>
                             match x.publishedAt with
                             | some t => decide (now.nanos - retention.nanos.toInt ≤ t.nanos)
                             | none => true }) ∧
    (∀ (s₀ s : Store) (log : List (OutboxEntry × Option String)),
      Distinct s₀.outbox → Run s₀ s log →
      (∀ topic, (sentOf log topic).Pairwise Earlier) ∧
      log.Pairwise (fun p q => p.2 = none → q.1.id ≠ p.1.id) ∧
      (∀ p ∈ log, ∀ x ∈ s₀.outbox, x.publishedAt.isSome → x.id ≠ p.1.id)) := by
  refine ⟨?_, fun now s => cleanup_store retention now s hretention, ?_⟩
  · intro σ pub b size now s hd
    obtain ⟨hinorder, hstore, -⟩ := @relayWith_pass σ pub now s hd size b
    exact ⟨Store.fetchPending_earlier hd, fun x hx => Store.fetchPending_pending hx,
      fun x hx hp hout => Store.fetchPending_oldest hd hx hp hout, hinorder, hstore⟩
  · intro s₀ s log hd hrun
    have inv := hrun.inv hd
    exact ⟨inv.ordered, inv.once, inv.untried⟩

/-- A pass over an outbox of two topics, onto a bus whose first topic fails, tries each topic's
entries in order up to the first failure. -/
theorem relay_pass_on_failing_topic :
    let s : Store := { outbox := [
      { id := 1, eventId := "e1", topic := "orders", key := "1", payload := "a" },
      { id := 2, eventId := "e2", topic := "orders", key := "1", payload := "b" },
      { id := 3, eventId := "e3", topic := "sagas", key := "s", payload := "c" }] }
    let bus : Bus := { failing := ["orders"] }
    Int64.minValue.toInt < (Span.ofMillis 1000).nanos.toInt ∧ Distinct s.outbox ∧
      ∀ topic, InOrder ((s.fetchPending 10).filter (·.topic == topic))
        ((attempts busPublisher Instant.zero (s.fetchPending 10) [] s bus).filter
          (·.1.topic == topic)) := by
  intro s bus
  have hret : Int64.minValue.toInt < (Span.ofMillis 1000).nanos.toInt := by decide
  have hd : Distinct s.outbox := by decide
  have hpass := (relay_publishes_in_order (Span.ofMillis 1000) hret).1 Bus busPublisher bus 10
    Instant.zero s hd
  exact ⟨hret, hd, hpass.2.2.2.1⟩

/-- The most negative retention is its own opposite, so cleanup reaches back `2 ^ 63` ns before
`now` and keeps an entry published at `now`, which lies before `now` minus the retention. -/
theorem most_negative_retention_keeps_published :
    let now := Instant.ofUnixMillis 1735689600000
    let retention := Span.ofMillis (-144115188075855872)
    let s : Store := { outbox := [
      { id := 1, eventId := "e1", topic := "t", key := "k", payload := "p", publishedAt := some now }] }
    retention.nanos = Int64.minValue ∧
      now.nanos < now.nanos - retention.nanos.toInt ∧
      cleanup retention now s = (.ok 0, s) := by
  intro now retention s
  exact ⟨by decide, by decide, rfl⟩

end OrderSaga
