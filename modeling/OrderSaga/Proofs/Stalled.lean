import Mathlib
import OrderSaga.Saga.Orchestrator
import OrderSaga.Proofs.Outbox

namespace OrderSaga.Orchestrator

def byUpdate (a b : Saga) : Bool := a.updatedAt.nanos ≤ b.updatedAt.nanos

theorem byUpdate_trans (a b c : Saga) (hab : byUpdate a b = true) (hbc : byUpdate b c = true) :
    byUpdate a c = true := by
  simp only [byUpdate, decide_eq_true_eq] at *
  omega

theorem byUpdate_total (a b : Saga) : (byUpdate a b || byUpdate b a) = true := by
  simp only [byUpdate, Bool.or_eq_true, decide_eq_true_eq]
  omega

theorem takeWhile_before {l : List Saga} (hl : l.Pairwise fun a b => byUpdate a b = true)
    (cutoff : Instant) :
    l.takeWhile (·.updatedAt.before cutoff) = l.filter (·.updatedAt.before cutoff) := by
  induction l with
  | nil => rfl
  | cons a l ih =>
    obtain ⟨ha, hl⟩ := List.pairwise_cons.mp hl
    by_cases hb : a.updatedAt.before cutoff = true
    · simp only [List.takeWhile_cons, List.filter_cons, hb, ↓reduceIte, ih hl]
    ·
      simp only [List.takeWhile_cons, List.filter_cons, hb, Bool.false_eq_true, ↓reduceIte]
      rw [eq_comm, List.filter_eq_nil_iff]
      intro b hbl hbb
      have hab := ha b hbl
      simp only [Instant.before, byUpdate, decide_eq_true_eq] at hb hbb hab
      omega

def stalledSorted (s : Store) (st : SagaStatus) (cutoff : Instant) : List Saga :=
  ((s.sagas.filter (·.status == st)).mergeSort byUpdate).filter (·.updatedAt.before cutoff)

def stalledOf (s : Store) (st : SagaStatus) (cutoff : Instant) : List Saga :=
  s.sagas.filter fun g => g.status == st && g.updatedAt.before cutoff

theorem stalledSorted_perm (s : Store) (st : SagaStatus) (cutoff : Instant) :
    (stalledSorted s st cutoff).Perm (stalledOf s st cutoff) := by
  unfold stalledSorted stalledOf
  refine ((List.mergeSort_perm _ _).filter _).trans ?_
  rw [List.filter_filter]
  refine List.Perm.of_eq (List.filter_congr fun g _ => ?_)
  exact Bool.and_comm _ _

theorem stalledSorted_sorted (s : Store) (st : SagaStatus) (cutoff : Instant) :
    (stalledSorted s st cutoff).Pairwise fun a b => byUpdate a b = true :=
  (List.pairwise_mergeSort byUpdate_trans byUpdate_total _).sublist List.filter_sublist

theorem stalled_eq (s : Store) (now : Instant) (age : Span) :
    stalled s now age =
      inFlight.flatMap fun st => (stalledSorted s st (now.shift age.neg)).take 1000 := by
  unfold stalled
  refine List.flatMap_congr fun st _ => ?_
  have hsorted := List.pairwise_mergeSort byUpdate_trans byUpdate_total
    (s.sagas.filter (·.status == st))
  simp only [Store.listByStatus, show ((1000 : Int) > 0) = True by decide, ↓reduceIte,
    show (1000 : Int).toNat = 1000 by decide, ← List.take_takeWhile]
  rw [show (fun a b : Saga => decide (a.updatedAt.nanos ≤ b.updatedAt.nanos)) = byUpdate from rfl,
    takeWhile_before hsorted]
  rfl

theorem mem_stalled {s : Store} {now : Instant} {age : Span} {g : Saga}
    (h : g ∈ stalled s now age) :
    g ∈ s.sagas ∧ g.status ∈ inFlight ∧ g.updatedAt.before (now.shift age.neg) = true := by
  rw [stalled_eq] at h
  obtain ⟨st, hst, hg⟩ := List.mem_flatMap.mp h
  have hmem := (stalledSorted_perm s st _).subset (List.mem_of_mem_take hg)
  simp only [stalledOf, List.mem_filter, Bool.and_eq_true, beq_iff_eq] at hmem
  exact ⟨hmem.1, hmem.2.1 ▸ hst, hmem.2.2⟩

theorem flatMap_filter_perm {α β : Type} [DecidableEq β] (l : List α) (key : α → β)
    (ks : List β) (hks : ks.Nodup) :
    (ks.flatMap fun k => l.filter (key · == k)).Perm (l.filter (key · ∈ ks)) := by
  induction ks with
  | nil => simp
  | cons k ks ih =>
    obtain ⟨hk, hks⟩ := List.nodup_cons.mp hks
    rw [List.flatMap_cons]
    refine (List.Perm.append_left _ (ih hks)).trans ?_
    have hsplit := List.filter_append_perm (key · == k) (l.filter (key · ∈ k :: ks))
    rw [List.filter_filter, List.filter_filter] at hsplit
    refine List.Perm.trans ?_ hsplit
    refine List.Perm.of_eq (congrArg₂ (· ++ ·) (List.filter_congr fun a _ => ?_)
      (List.filter_congr fun a _ => ?_))
    · by_cases h : key a = k <;> simp [h]
    · by_cases h : key a = k
      · subst h
        simp [hk]
      · simp [h]

/-- What a scan `l` of the store `s` with cutoff `cutoff` is to give. -/
structure ScansStalled (s : Store) (cutoff : Instant) (l : List Saga) : Prop where
  oldest : ∃ blocks : SagaStatus → List Saga, l = inFlight.flatMap blocks ∧
    ∀ st, (blocks st).length = min 1000 (stalledOf s st cutoff).length ∧
      (blocks st).Pairwise (fun a b => a.updatedAt.nanos ≤ b.updatedAt.nanos) ∧
      ∃ rest, (stalledOf s st cutoff).Perm (blocks st ++ rest) ∧
        ∀ a ∈ blocks st, ∀ b ∈ rest, a.updatedAt.nanos ≤ b.updatedAt.nanos
  exact_of_few : (∀ st ∈ inFlight, (stalledOf s st cutoff).length ≤ 1000) →
    l.Perm (s.sagas.filter fun g => g.status ∈ inFlight && g.updatedAt.before cutoff)
  mem : ∀ g ∈ l, g ∈ s.sagas ∧ g.status ∈ inFlight ∧ g.updatedAt.before cutoff = true

theorem stalled_scan (s : Store) (now : Instant) (age : Span) :
    ScansStalled s (now.shift age.neg) (stalled s now age) := by
  set cutoff := now.shift age.neg
  refine ⟨⟨fun st => (stalledSorted s st cutoff).take 1000, stalled_eq s now age,
    fun st => ⟨?_, ?_, ?_⟩⟩, fun hfew => ?_, fun g hg => mem_stalled hg⟩
  · rw [List.length_take, (stalledSorted_perm s st cutoff).length_eq]
  · exact ((stalledSorted_sorted s st cutoff).sublist (List.take_sublist _ _)).imp
      fun h => by simpa [byUpdate] using h
  ·
    refine ⟨(stalledSorted s st cutoff).drop 1000, ?_, fun a ha b hb => ?_⟩
    · rw [List.take_append_drop]
      exact (stalledSorted_perm s st cutoff).symm
    · have hsorted := stalledSorted_sorted s st cutoff
      rw [← List.take_append_drop 1000 (stalledSorted s st cutoff)] at hsorted
      simpa [byUpdate] using (List.pairwise_append.mp hsorted).2.2 a ha b hb
  ·
    rw [stalled_eq]
    have hblocks : ∀ st ∈ inFlight, (stalledSorted s st cutoff).take 1000 =
        stalledSorted s st cutoff := fun st hst =>
      List.take_of_length_le (by rw [(stalledSorted_perm s st cutoff).length_eq]; exact hfew st hst)
    rw [List.flatMap_congr hblocks]
    refine (List.Perm.flatMap_left _ fun st _ => stalledSorted_perm s st cutoff).trans ?_
    have hkeys := flatMap_filter_perm (s.sagas.filter (·.updatedAt.before cutoff)) Saga.status
      inFlight (by decide)
    simp only [List.filter_filter] at hkeys
    exact hkeys

theorem shift_neg_eq (now : Instant) (age : Span) (h : age.nanos ≠ Int64.minValue) :
    now.shift age.neg = now.addNanos (-age.nanos.toInt) := by
  have hlt : Int64.minValue.toInt < age.nanos.toInt :=
    lt_of_le_of_ne age.nanos.minValue_le_toInt fun e => h (Int64.toInt_inj.mp e.symm)
  have hnanos := Relay.cutoff_nanos age now hlt
  simp only [Instant.shift, Instant.addNanos] at hnanos ⊢
  rw [hnanos, sub_eq_add_neg]

/-- For every age but the most negative span, the stalled-saga scan lists the oldest in-flight sagas
last updated before `age` ago, and nothing else. -/
theorem stalled_scan_before_age (s : Store) (now : Instant) (age : Span)
    (h : age.nanos ≠ Int64.minValue) :
    ScansStalled s (now.addNanos (-age.nanos.toInt)) (stalled s now age) := by
  rw [← shift_neg_eq now age h]
  exact stalled_scan s now age

/-- A saga of order 1001 reserving since the first moment of 2025, in a store of its own. -/
def reservingSince2025 : Store :=
  { sagas := [{ sagaId := "saga-1001", orderId := 1001, userId := 42, status := .reserving,
                updatedAt := Instant.ofUnixMillis 1735689600000 }] }

/-- Two minutes on, the scan for sagas a minute old gives what a scan with the cutoff a minute
before is to give. -/
theorem stalled_two_minutes_on :
    (Span.ofMillis 60000).nanos ≠ Int64.minValue ∧
      ScansStalled reservingSince2025 (Instant.ofUnixMillis 1735689660000)
        (stalled reservingSince2025 (Instant.ofUnixMillis 1735689720000)
          (Span.ofMillis 60000)) := by
  have h : (Span.ofMillis 60000).nanos ≠ Int64.minValue := by decide
  have hscan := stalled_scan_before_age reservingSince2025 (Instant.ofUnixMillis 1735689720000)
    (Span.ofMillis 60000) h
  have hcutoff :
      (Instant.ofUnixMillis 1735689720000).addNanos (-(Span.ofMillis 60000).nanos.toInt) =
        Instant.ofUnixMillis 1735689660000 := by decide
  rw [hcutoff] at hscan
  exact ⟨h, hscan⟩

/-- At the most negative age, `-2 ^ 63` ns, the scan misses a saga in flight: the opposite of that
span wraps around to itself. -/
theorem most_negative_age_misses_saga :
    (Span.ofMillis (-144115188075855872)).nanos = Int64.minValue ∧
      stalled reservingSince2025 (Instant.ofUnixMillis 1735689600000)
        (Span.ofMillis (-144115188075855872)) = [] ∧
      ¬ ScansStalled reservingSince2025 ((Instant.ofUnixMillis 1735689600000).addNanos
          (-(Span.ofMillis (-144115188075855872)).nanos.toInt))
        (stalled reservingSince2025 (Instant.ofUnixMillis 1735689600000)
          (Span.ofMillis (-144115188075855872))) := by
  have hempty : stalled reservingSince2025 (Instant.ofUnixMillis 1735689600000)
      (Span.ofMillis (-144115188075855872)) = [] := by cbv
  refine ⟨by decide, hempty, fun hscan => ?_⟩
  have hall := hscan.exact_of_few (by decide +kernel)
  rw [hempty] at hall
  exact absurd hall.length_eq (by decide +kernel)

end OrderSaga.Orchestrator
