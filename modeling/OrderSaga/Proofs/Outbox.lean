import Mathlib
import OrderSaga.Relay

namespace OrderSaga

namespace OutboxEntry

def Distinct (es : List OutboxEntry) : Prop := (es.map (·.id)).Nodup

instance (es : List OutboxEntry) : Decidable (Distinct es) :=
  inferInstanceAs (Decidable (es.map (·.id)).Nodup)

/-- The entry that a publish attempt leaves: sent, it is marked published at `now`; failed, it
counts the attempt and keeps the failure's text. -/
def settle (now : Instant) (x : OutboxEntry) : Option String → OutboxEntry
  | none => { x with publishedAt := some now }
  | some m => { x with attempts := x.attempts + 1, lastError := clipError m }

@[simp] theorem settle_id (now : Instant) (x : OutboxEntry) (r : Option String) :
    (x.settle now r).id = x.id := by
  cases r <;> rfl

/-- `a` is handed out before `b`: it was created earlier, or at the same instant under a smaller
number. -/
def Earlier (a b : OutboxEntry) : Prop :=
  a.createdAt.nanos < b.createdAt.nanos ∨
    a.createdAt.nanos = b.createdAt.nanos ∧ a.id.toNat < b.id.toNat

theorem Earlier.trans {a b c : OutboxEntry} (hab : a.Earlier b) (hbc : b.Earlier c) :
    a.Earlier c := by
  unfold Earlier at *
  omega

/-- The order the outbox hands pending entries out in, as a test of two entries. -/
def handedBefore (a b : OutboxEntry) : Bool :=
  a.createdAt.nanos < b.createdAt.nanos ||
    (a.createdAt.nanos == b.createdAt.nanos && a.id ≤ b.id)

theorem handedBefore_iff {a b : OutboxEntry} :
    handedBefore a b = true ↔
      a.Earlier b ∨ a.createdAt.nanos = b.createdAt.nanos ∧ a.id.toNat = b.id.toNat := by
  simp only [handedBefore, Earlier, Bool.or_eq_true, Bool.and_eq_true, decide_eq_true_eq,
    beq_iff_eq, UInt64.le_iff_toNat_le]
  omega

theorem Distinct.of_map {es : List OutboxEntry} (f : OutboxEntry → OutboxEntry)
    (hf : ∀ x, (f x).id = x.id) (h : Distinct es) : Distinct (es.map f) := by
  simpa [Distinct, List.map_map, Function.comp_def, hf] using h

end OutboxEntry

open OutboxEntry

namespace Store

theorem modify_numbered {l : List OutboxEntry} (hd : Distinct l) (id : UInt64)
    (f : OutboxEntry → OutboxEntry) :
    (match l.findIdx? (·.id == id) with
      | some i => l.modify i f
      | none => l) = l.map (fun x => if x.id = id then f x else x) := by
  induction l with
  | nil => rfl
  | cons x xs ih =>
    have hxs : Distinct xs := (List.nodup_cons.mp hd).2
    rw [List.findIdx?_cons]
    by_cases hx : x.id = id
    ·
      have hrest : ∀ y ∈ xs, y.id ≠ id := fun y hy hyid =>
        (List.nodup_cons.mp hd).1 (List.mem_map.mpr ⟨y, hy, hyid.trans hx.symm⟩)
      simp only [hx, beq_self_eq_true, if_true, List.modify_zero_cons, List.map_cons]
      rw [List.map_congr_left (fun y hy => if_neg (hrest y hy)), List.map_id']
    · simp only [beq_iff_eq, hx, if_false, List.map_cons]
      cases hf : xs.findIdx? (·.id == id) with
      | none =>
        simp only [Option.map_none]
        rw [← ih hxs, hf]
      | some i =>
        simp only [Option.map_some, List.modify_succ_cons]
        rw [← ih hxs, hf]

theorem updateEntry_run {s : Store} (hd : Distinct s.outbox) (id : UInt64)
    (f : OutboxEntry → OutboxEntry) :
    (run (updateEntry id f) s).2 =
      { s with outbox := s.outbox.map (fun x => if x.id = id then f x else x) } := by
  simp only [run, updateEntry, modify, modifyGet, MonadStateOf.modifyGet, EStateM.modifyGet]
  congr 1
  exact modify_numbered hd id f

/-! ### The pending entries, oldest first -/

def pendingSorted (s : Store) : List OutboxEntry :=
  (s.outbox.filter (!·.isPublished)).mergeSort handedBefore

theorem fetchPending_split (s : Store) (limit : Int) :
    ∃ later, s.pendingSorted = s.fetchPending limit ++ later := by
  unfold fetchPending pendingSorted
  split
  · exact ⟨_, (List.take_append_drop _ _).symm⟩
  · exact ⟨[], (List.append_nil _).symm⟩

theorem mem_pendingSorted {s : Store} {x : OutboxEntry} :
    x ∈ s.pendingSorted ↔ x ∈ s.outbox ∧ x.publishedAt = none := by
  simp [pendingSorted, (List.mergeSort_perm _ _).mem_iff, OutboxEntry.isPublished]

theorem pendingSorted_distinct {s : Store} (hd : Distinct s.outbox) :
    Distinct s.pendingSorted :=
  ((List.mergeSort_perm _ _).map _).nodup_iff.mpr (hd.sublist (List.filter_sublist.map _))

theorem pendingSorted_earlier {s : Store} (hd : Distinct s.outbox) :
    s.pendingSorted.Pairwise Earlier := by
  have hsorted : s.pendingSorted.Pairwise (fun a b => handedBefore a b = true) :=
    List.pairwise_mergeSort
      (fun a b c hab hbc => by
        rw [handedBefore_iff] at *
        unfold Earlier at *
        omega)
      (fun a b => by
        by_cases h : handedBefore a b = true
        · simp [h]
        · have := mt handedBefore_iff.mpr h
          have : handedBefore b a = true := by
            rw [handedBefore_iff]
            unfold Earlier at *
            omega
          simp [this])
      _
  have hne : s.pendingSorted.Pairwise (fun a b => a.id ≠ b.id) :=
    List.pairwise_map.mp (pendingSorted_distinct hd)
  refine (hsorted.and hne).imp fun ⟨hab, hid⟩ => ?_
  rcases handedBefore_iff.mp hab with h | ⟨-, h⟩
  · exact h
  · exact absurd (UInt64.toNat_inj.mp h) hid

theorem fetchPending_pending {s : Store} {limit : Int} {x : OutboxEntry}
    (h : x ∈ s.fetchPending limit) : x ∈ s.outbox ∧ x.publishedAt = none := by
  obtain ⟨later, hl⟩ := fetchPending_split s limit
  exact mem_pendingSorted.mp (hl ▸ List.mem_append_left later h)

theorem fetchPending_distinct {s : Store} {limit : Int} (hd : Distinct s.outbox) :
    Distinct (s.fetchPending limit) := by
  obtain ⟨later, hl⟩ := fetchPending_split s limit
  have := pendingSorted_distinct hd
  rw [hl, Distinct, List.map_append] at this
  exact (List.nodup_append.mp this).1

theorem fetchPending_earlier {s : Store} {limit : Int} (hd : Distinct s.outbox) :
    (s.fetchPending limit).Pairwise Earlier := by
  obtain ⟨later, hl⟩ := fetchPending_split s limit
  have := pendingSorted_earlier hd
  rw [hl] at this
  exact (List.pairwise_append.mp this).1

theorem fetchPending_oldest {s : Store} {limit : Int} {x : OutboxEntry} (hd : Distinct s.outbox)
    (hx : x ∈ s.outbox) (hp : x.publishedAt = none) (hout : x ∉ s.fetchPending limit) :
    ∀ y ∈ s.fetchPending limit, y.Earlier x := by
  obtain ⟨later, hl⟩ := fetchPending_split s limit
  have hsorted := pendingSorted_earlier hd
  have hmem : x ∈ s.pendingSorted := mem_pendingSorted.mpr ⟨hx, hp⟩
  rw [hl] at hsorted hmem
  have hlater : x ∈ later := (List.mem_append.mp hmem).resolve_left hout
  exact fun y hy => (List.pairwise_append.mp hsorted).2.2 y hy x hlater

end Store

namespace Relay

variable {σ : Type} {pub : Publisher σ} {now : Instant}

/-! ## One pass, entry by entry -/

section Pass

variable {e : OutboxEntry} {rest : List OutboxEntry} {blocked : List String} {n : Nat}
  {s : Store} {b b' : σ}

theorem publishAll_blocked (h : blocked.contains e.topic = true) :
    publishAll pub now (e :: rest) blocked n s b = publishAll pub now rest blocked n s b := by
  simp only [publishAll, h, ↓reduceIte]

theorem publishAll_sent (h : blocked.contains e.topic = false) (hp : pub b e = (.ok (), b')) :
    publishAll pub now (e :: rest) blocked n s b =
      publishAll pub now rest blocked (n + 1) (Store.run (Store.markPublished e.id now) s).2 b' := by
  simp only [publishAll, h, hp, Bool.false_eq_true, ↓reduceIte]

theorem publishAll_failed {f : Failure} (h : blocked.contains e.topic = false)
    (hp : pub b e = (.error f, b')) :
    publishAll pub now (e :: rest) blocked n s b =
      publishAll pub now rest (e.topic :: blocked) n
        (Store.run (Store.recordFailure e.id f.message) s).2 b' := by
  simp only [publishAll, h, hp, Bool.false_eq_true, ↓reduceIte]

end Pass

/-- A publisher that also keeps each entry it was given, in order, with what became of it: `none`
when it went out, the failure's text when it did not. -/
def logged (pub : Publisher σ) : Publisher (σ × List (OutboxEntry × Option String)) :=
  fun (b, log) e => match pub b e with
    | (.ok (), b') => (.ok (), (b', log ++ [(e, none)]))
    | (.error f, b') => (.error f, (b', log ++ [(e, some f.message)]))

theorem logged_sent {b b' : σ} {e : OutboxEntry} (log : List (OutboxEntry × Option String))
    (hp : pub b e = (.ok (), b')) : logged pub (b, log) e = (.ok (), (b', log ++ [(e, none)])) := by
  simp [logged, hp]

theorem logged_failed {b b' : σ} {e : OutboxEntry} {f : Failure}
    (log : List (OutboxEntry × Option String)) (hp : pub b e = (.error f, b')) :
    logged pub (b, log) e = (.error f, (b', log ++ [(e, some f.message)])) := by
  simp [logged, hp]

/-- The attempts a pass over `es` makes, in order, each with what became of it. -/
def attempts (pub : Publisher σ) (now : Instant) (es : List OutboxEntry) (blocked : List String)
    (s : Store) (b : σ) : List (OutboxEntry × Option String) :=
  (publishAll (logged pub) now es blocked 0 s (b, [])).2.2.2

theorem publishAll_log (es : List OutboxEntry) (blocked : List String) (n : Nat) (s : Store)
    (b : σ) (log : List (OutboxEntry × Option String)) :
    (publishAll (logged pub) now es blocked n s (b, log)).2.2.2 =
      log ++ attempts pub now es blocked s b := by
  induction es generalizing blocked n s b log with
  | nil => simp [attempts, publishAll]
  | cons e rest ih =>
    simp only [attempts]
    cases hbl : blocked.contains e.topic
    · rcases hp : pub b e with ⟨f | ⟨⟩, b'⟩
      · rw [publishAll_failed hbl (logged_failed log hp),
          publishAll_failed hbl (logged_failed [] hp), ih, ih]
        simp
      · rw [publishAll_sent hbl (logged_sent log hp),
          publishAll_sent hbl (logged_sent [] hp), ih, ih]
        simp
    · rw [publishAll_blocked hbl, publishAll_blocked hbl, ih, ih, List.nil_append]

section Attempts

variable {e : OutboxEntry} {rest : List OutboxEntry} {blocked : List String} {s : Store}
  {b b' : σ}

@[simp] theorem attempts_nil : attempts pub now [] blocked s b = [] := rfl

theorem attempts_blocked (h : blocked.contains e.topic = true) :
    attempts pub now (e :: rest) blocked s b = attempts pub now rest blocked s b := by
  simp only [attempts, publishAll_blocked h]

theorem attempts_sent (h : blocked.contains e.topic = false) (hp : pub b e = (.ok (), b')) :
    attempts pub now (e :: rest) blocked s b =
      (e, none) :: attempts pub now rest blocked (Store.run (Store.markPublished e.id now) s).2 b' := by
  rw [attempts, publishAll_sent h (logged_sent [] hp), publishAll_log]
  rfl

theorem attempts_failed {f : Failure} (h : blocked.contains e.topic = false)
    (hp : pub b e = (.error f, b')) :
    attempts pub now (e :: rest) blocked s b =
      (e, some f.message) :: attempts pub now rest (e.topic :: blocked)
        (Store.run (Store.recordFailure e.id f.message) s).2 b' := by
  rw [attempts, publishAll_failed h (logged_failed [] hp), publishAll_log]
  rfl

end Attempts

theorem attempts_sublist (es : List OutboxEntry) (blocked : List String) (s : Store) (b : σ) :
    List.Sublist ((attempts pub now es blocked s b).map Prod.fst) es := by
  induction es generalizing blocked s b with
  | nil => simp
  | cons e rest ih =>
    cases hbl : blocked.contains e.topic
    · rcases hp : pub b e with ⟨f | ⟨⟩, b'⟩
      · rw [attempts_failed hbl hp, List.map_cons]
        exact (ih _ _ _).cons_cons e
      · rw [attempts_sent hbl hp, List.map_cons]
        exact (ih _ _ _).cons_cons e
    · rw [attempts_blocked hbl]
      exact (ih _ _ _).cons e

/-- How a pass treats the entries of one topic, in order: each goes out until one fails, and none
after that one is tried. -/
inductive InOrder : List OutboxEntry → List (OutboxEntry × Option String) → Prop
  | nil : InOrder [] []
  | sent {e : OutboxEntry} {es : List OutboxEntry} {log : List (OutboxEntry × Option String)} :
      InOrder es log → InOrder (e :: es) ((e, none) :: log)
  | failed {e : OutboxEntry} {es : List OutboxEntry} (m : String) :
      InOrder (e :: es) [(e, some m)]

theorem attempts_topic (es : List OutboxEntry) (blocked : List String) (s : Store) (b : σ)
    (topic : String) :
    (blocked.contains topic = true →
      (attempts pub now es blocked s b).filter (·.1.topic == topic) = []) ∧
    (blocked.contains topic = false →
      InOrder (es.filter (·.topic == topic))
        ((attempts pub now es blocked s b).filter (·.1.topic == topic))) := by
  induction es generalizing blocked s b with
  | nil => exact ⟨fun _ => rfl, fun _ => .nil⟩
  | cons e rest ih =>
    cases hbl : blocked.contains e.topic
    · rcases hp : pub b e with ⟨f | ⟨⟩, b'⟩
      ·
        rw [attempts_failed hbl hp]
        obtain ⟨ih1, ih2⟩ := ih (e.topic :: blocked) (Store.run (Store.recordFailure e.id f.message) s).2 b'
        by_cases he : e.topic = topic
        · subst he
          refine ⟨fun h => absurd (h.symm.trans hbl) (by decide), fun _ => ?_⟩
          rw [List.filter_cons_of_pos (by simp), List.filter_cons_of_pos (by simp),
            ih1 (by simp)]
          exact .failed _
        · have hne : (e.topic == topic) = false := by simpa using he
          simp only [List.filter_cons, hne, Bool.false_eq_true, ↓reduceIte]
          have hc : (e.topic :: blocked).contains topic = blocked.contains topic := by
            simp [Ne.symm he]
          exact ⟨fun h => ih1 (hc ▸ h), fun h => ih2 (hc ▸ h)⟩
      · rw [attempts_sent hbl hp]
        obtain ⟨ih1, ih2⟩ := ih blocked (Store.run (Store.markPublished e.id now) s).2 b'
        by_cases he : e.topic = topic
        · subst he
          refine ⟨fun h => absurd (h.symm.trans hbl) (by decide), fun h => ?_⟩
          rw [List.filter_cons_of_pos (by simp), List.filter_cons_of_pos (by simp)]
          exact .sent (ih2 h)
        · have hne : (e.topic == topic) = false := by simpa using he
          simp only [List.filter_cons, hne, Bool.false_eq_true, ↓reduceIte]
          exact ⟨ih1, ih2⟩
    ·
      rw [attempts_blocked hbl]
      obtain ⟨ih1, ih2⟩ := ih blocked s b
      refine ⟨ih1, fun h => ?_⟩
      have hne : (e.topic == topic) = false := by
        simp only [beq_eq_false_iff_ne]
        rintro rfl
        exact absurd (hbl.symm.trans h) (by decide)
      rw [List.filter_cons_of_neg (by simp [hne])]
      exact ih2 h

theorem publishAll_count (es : List OutboxEntry) (blocked : List String) (n : Nat) (s : Store)
    (b : σ) :
    (publishAll pub now es blocked n s b).1 =
      n + ((attempts pub now es blocked s b).filter (·.2.isNone)).length := by
  induction es generalizing blocked n s b with
  | nil => rfl
  | cons e rest ih =>
    cases hbl : blocked.contains e.topic
    · rcases hp : pub b e with ⟨f | ⟨⟩, b'⟩
      · rw [publishAll_failed hbl hp, attempts_failed hbl hp, ih]
        simp
      · rw [publishAll_sent hbl hp, attempts_sent hbl hp, ih]
        simp
        omega
    · rw [publishAll_blocked hbl, attempts_blocked hbl, ih]

/-- Each entry of the outbox as the attempts of a log leave it: an entry tried is settled by what
became of it, and any other is as it was. -/
def settleAll (now : Instant) (log : List (OutboxEntry × Option String)) (x : OutboxEntry) :
    OutboxEntry :=
  match log.find? (·.1.id == x.id) with
  | some (_, r) => x.settle now r
  | none => x

theorem settleAll_nil : settleAll now [] = fun x => x := rfl

theorem settleAll_of_not_mem {log : List (OutboxEntry × Option String)} {x : OutboxEntry}
    (h : ∀ p ∈ log, p.1.id ≠ x.id) : settleAll now log x = x := by
  have : log.find? (·.1.id == x.id) = none := List.find?_eq_none.mpr (by simpa using h)
  simp [settleAll, this]

theorem settleAll_cons {e : OutboxEntry} {r : Option String}
    {log : List (OutboxEntry × Option String)} (hlog : ∀ p ∈ log, p.1.id ≠ e.id)
    (x : OutboxEntry) :
    settleAll now log (if x.id = e.id then x.settle now r else x) =
      settleAll now ((e, r) :: log) x := by
  by_cases hx : x.id = e.id
  · rw [if_pos hx, settleAll_of_not_mem (by simpa [hx] using hlog)]
    simp [settleAll, hx]
  · rw [if_neg hx]
    simp [settleAll, Ne.symm hx]

theorem markPublished_run {s : Store} (hd : Distinct s.outbox) (id : UInt64) :
    (Store.run (Store.markPublished id now) s).2 =
      { s with outbox := s.outbox.map (fun x => if x.id = id then x.settle now none else x) } :=
  Store.updateEntry_run hd id _

theorem recordFailure_run {s : Store} (hd : Distinct s.outbox) (id : UInt64) (m : String)
    (t : Instant) :
    (Store.run (Store.recordFailure id m) s).2 =
      { s with outbox := s.outbox.map (fun x => if x.id = id then x.settle t (some m) else x) } :=
  Store.updateEntry_run hd id _

theorem publishAll_store (es : List OutboxEntry) (blocked : List String) (n : Nat) (s : Store)
    (b : σ) (hd : Distinct s.outbox) (hes : Distinct es) :
    (publishAll pub now es blocked n s b).2.1 =
      { s with outbox := s.outbox.map (settleAll now (attempts pub now es blocked s b)) } := by
  induction es generalizing blocked n s b with
  | nil =>
    rw [attempts_nil, settleAll_nil, List.map_id']
    rfl
  | cons e rest ih =>
    have hrest : Distinct rest := (List.nodup_cons.mp hes).2
    have hlater : ∀ (blocked : List String) (s : Store) (b : σ),
        ∀ p ∈ attempts pub now rest blocked s b, p.1.id ≠ e.id := by
      intro blocked s b p hp hid
      have hmem : p.1 ∈ rest := (attempts_sublist rest blocked s b).subset (List.mem_map_of_mem hp)
      exact (List.nodup_cons.mp hes).1 (List.mem_map.mpr ⟨p.1, hmem, hid⟩)
    cases hbl : blocked.contains e.topic
    · rcases hp : pub b e with ⟨f | ⟨⟩, b'⟩
      · rw [publishAll_failed hbl hp, attempts_failed hbl hp, recordFailure_run hd _ _ now,
          ih _ _ _ _ (Distinct.of_map _ (fun x => by split <;> simp) hd) hrest]
        simp only [List.map_map, Function.comp_def, settleAll_cons (hlater _ _ _)]
      · rw [publishAll_sent hbl hp, attempts_sent hbl hp, markPublished_run hd,
          ih _ _ _ _ (Distinct.of_map _ (fun x => by split <;> simp) hd) hrest]
        simp only [List.map_map, Function.comp_def, settleAll_cons (hlater _ _ _)]
    · rw [publishAll_blocked hbl, attempts_blocked hbl, ih _ _ _ _ hd hrest]

theorem relayWith_pass {s : Store} (hd : Distinct s.outbox) (size : Nat) (b : σ) :
    (∀ topic, InOrder ((s.fetchPending size).filter (·.topic == topic))
      ((attempts pub now (s.fetchPending size) [] s b).filter (·.1.topic == topic))) ∧
    (relayWith pub size now s b).2.1 =
      { s with outbox := s.outbox.map (settleAll now (attempts pub now (s.fetchPending size) [] s b)) } ∧
    (relayWith pub size now s b).1 =
      ((attempts pub now (s.fetchPending size) [] s b).filter (·.2.isNone)).length := by
  refine ⟨fun topic => (attempts_topic _ _ _ _ topic).2 rfl, ?_, ?_⟩
  · exact publishAll_store _ _ _ _ _ hd (Store.fetchPending_distinct hd)
  · rw [relayWith, publishAll_count, Nat.zero_add]

theorem InOrder.sent_before {R : OutboxEntry → OutboxEntry → Prop} {es : List OutboxEntry}
    {log : List (OutboxEntry × Option String)} (h : InOrder es log) (hes : es.Pairwise R) :
    ∀ p ∈ log, p.2 = none → ∀ y ∈ es, (y, none) ∉ log → R p.1 y := by
  induction h with
  | nil => intro p hp; simp at hp
  | @sent e es log _ ih =>
    intro p hp hsent y hy hnot
    have hye : y ≠ e := fun hye => hnot (hye ▸ List.mem_cons_self)
    have hy' : y ∈ es := (List.mem_cons.mp hy).resolve_left hye
    rcases List.mem_cons.mp hp with rfl | hp
    · exact (List.pairwise_cons.mp hes).1 y hy'
    · exact ih (List.pairwise_cons.mp hes).2 p hp hsent y hy'
        (fun hin => hnot (List.mem_cons_of_mem _ hin))
  | failed m =>
    intro p hp hsent
    rw [List.mem_singleton] at hp
    subst hp
    cases hsent

/-! ## Cleanup -/

theorem cutoff_nanos (retention : Span) (now : Instant)
    (h : Int64.minValue.toInt < retention.nanos.toInt) :
    (now.shift retention.neg).nanos = now.nanos - retention.nanos.toInt := by
  have hle := retention.nanos.toInt_le
  have hmin : Int64.minValue.toInt = -2 ^ 63 := by decide
  have hmax : Int64.maxValue.toInt = 2 ^ 63 - 1 := by decide
  simp only [Instant.shift, Instant.addNanos, Span.neg, Int64.toInt_neg, Int.bmod]
  split <;> omega

theorem cleanup_store (retention : Span) (now : Instant) (s : Store)
    (h : Int64.minValue.toInt < retention.nanos.toInt) :
    (cleanup retention now s).2 = { s with outbox := s.outbox.filter fun x =>
      match x.publishedAt with
      | some t => decide (now.nanos - retention.nanos.toInt ≤ t.nanos)
      | none => true } := by
  simp only [cleanup, Store.run, Store.deletePublishedBefore, bind, EStateM.bind, get, getThe,
    MonadStateOf.get, EStateM.get, set, MonadStateOf.set, EStateM.set, pure, EStateM.pure]
  congr 1
  refine List.filter_congr fun x _ => ?_
  cases x.publishedAt with
  | none => rfl
  | some t =>
    simp only [Instant.before, cutoff_nanos retention now h]
    by_cases hlt : t.nanos < now.nanos - retention.nanos.toInt
    · have hge : ¬ now.nanos - retention.nanos.toInt ≤ t.nanos := by omega
      simp [hlt, hge]
    · have hge : now.nanos - retention.nanos.toInt ≤ t.nanos := by omega
      simp [hlt, hge]

end Relay

end OrderSaga
