import Mathlib
import OrderSaga.Proofs.IdLayout

namespace OrderSaga.Snowflake

def Fits (r : Int64) : Prop := epoch.toInt ≤ r.toInt ∧ r.toInt < epoch.toInt + 2 ^ 41

instance : DecidablePred Fits := fun _ => inferInstanceAs (Decidable (_ ∧ _))

theorem Fits.ne_minValue {r : Int64} (h : Fits r) : r ≠ Int64.minValue := by
  intro hr
  have := h.1
  rw [hr, Int64.toInt_minValue, toInt_epoch] at this
  omega

/-! ## Clocks read on -/

namespace Clock

def After (c c' : Clock) : Prop :=
  c.reads ≤ c'.reads ∧ ∀ j, c'.upcoming j = c.upcoming (j + (c'.reads - c.reads))

theorem After.refl (c : Clock) : c.After c := ⟨Nat.le_refl _, fun j => by simp⟩

theorem After.trans {c c' c'' : Clock} (h₁ : c.After c') (h₂ : c'.After c'') : c.After c'' := by
  refine ⟨Nat.le_trans h₁.1 h₂.1, fun j => ?_⟩
  rw [h₂.2, h₁.2]
  congr 1
  have := h₁.1
  have := h₂.1
  omega

theorem Took.after {c c' : Clock} {r : Int64} (h : c.Took c' r) : c.After c' := by
  obtain ⟨k, -, hreads, hnext⟩ := h
  refine ⟨by omega, fun j => ?_⟩
  rw [hnext, hreads]
  congr 1
  omega

def FitsUntil (c c' : Clock) : Prop := ∀ j < c'.reads - c.reads, Fits (c.upcoming j)

theorem FitsUntil.of_after {c c₁ c₂ c₃ : Clock} (h : c.FitsUntil c₃) (h₁ : c.After c₁)
    (h₂ : c₁.After c₂) (h₃ : c₂.reads ≤ c₃.reads) : c₁.FitsUntil c₂ := by
  intro j hj
  rw [h₁.2]
  apply h
  have := h₁.1
  have := h₂.1
  omega

end Clock

/-! ## One call -/

theorem next_took (g : Generator) (c : Clock) : ∃ r, c.Took (g.next c).2.2 r := by
  rcases next_cases g c with ⟨-, hnext⟩ | ⟨-, now, step, c', took, hnext, -⟩
  · exact ⟨c.read.1, by rw [hnext]; exact c.read_took⟩
  · exact ⟨now, by rw [hnext]; exact took⟩

def Generator.mark (g : Generator) : Int :=
  ((g.timestamp.toInt - epoch.toInt) * 1024 + g.node.toInt) * 4096 + g.step.toInt

/-- What every generator of a run keeps: a node and a step within their masks, and a millisecond the
layout can hold, or none yet. -/
structure Generator.Sound (g : Generator) : Prop where
  node_nonneg : 0 ≤ g.node
  node_le : g.node ≤ maxNode
  step_nonneg : 0 ≤ g.step
  step_le : g.step ≤ stepMask
  timestamp : g.timestamp = 0 ∨ Fits g.timestamp

theorem Generator.Sound.bounds {g : Generator} (h : g.Sound) :
    0 ≤ g.node.toInt ∧ g.node.toInt ≤ 1023 ∧ 0 ≤ g.step.toInt ∧ g.step.toInt ≤ 4095 := by
  have := Int64.le_iff_toInt_le.mp h.node_nonneg
  have := Int64.le_iff_toInt_le.mp h.node_le
  have := Int64.le_iff_toInt_le.mp h.step_nonneg
  have := Int64.le_iff_toInt_le.mp h.step_le
  simp only [Int64.toInt_zero, toInt_maxNode, toInt_stepMask] at *
  exact ⟨by omega, by omega, by omega, by omega⟩

theorem Generator.create_sound {node : Int64} {g : Generator} (h : Generator.create node = .ok g) :
    g.Sound ∧ g.node = node := by
  unfold Generator.create at h
  split at h
  · cases h
  · rename_i hbad
    cases h
    simp only [Bool.or_eq_true, decide_eq_true_eq, not_or] at hbad
    exact ⟨⟨Int64.not_lt.mp hbad.1, Int64.not_lt.mp hbad.2, Int64.le_refl 0,
      show (0 : Int64) ≤ stepMask by decide, .inl rfl⟩, rfl⟩

theorem toInt_next_step {s : Int64} (h₀ : 0 ≤ s) (h₁ : s ≤ stepMask)
    (hz : (s + 1) &&& stepMask ≠ 0) : ((s + 1) &&& stepMask).toInt = s.toInt + 1 := by
  have hs := Int64.le_iff_toInt_le.mp h₀
  have hs' := Int64.le_iff_toInt_le.mp h₁
  rw [Int64.toInt_zero, toInt_stepMask] at *
  have hsucc : (s + 1).toInt = s.toInt + 1 := by
    rw [Int64.toInt_add, show (1 : Int64).toInt = 1 by decide,
      Int.bmod_eq_of_le (by omega) (by omega)]
  have hnn : (0 : Int64) ≤ s + 1 := by
    rw [Int64.le_iff_toInt_le, hsucc, Int64.toInt_zero]
    omega
  have hmask := toInt_and_mask hnn stepMask 12 (by decide) (by omega)
  have hne : ((s + 1) &&& stepMask).toInt ≠ 0 := fun h =>
    hz (Int64.toInt_inj.mp (h.trans Int64.toInt_zero.symm))
  rw [hmask, hsucc] at hne ⊢
  omega

theorem next_error {g : Generator} {c : Clock} {f : Failure} (h : (g.next c).1 = .error f) :
    g.tooFarBehind (c.upcoming 0) ∧ f = clockBackwards (g.timestamp - c.upcoming 0) ∧
      (g.next c).2.1 = g := by
  rcases next_cases g c with ⟨hback, hnext⟩ | ⟨-, now, step, c', -, hnext, -⟩
  · rw [hnext] at h ⊢
    cases h
    rw [c.read_fst] at hback ⊢
    exact ⟨hback, rfl, rfl⟩
  · rw [hnext] at h
    cases h

theorem tooFarBehind_iff {g : Generator} {r : Int64} (hg : g.Sound) (hr : Fits r) :
    g.tooFarBehind r ↔ r.toInt + 5 < g.timestamp.toInt := by
  have e := toInt_epoch
  obtain ⟨hr₀, hr₁⟩ := hr
  unfold Generator.tooFarBehind
  rcases hg.timestamp with hts | ⟨ht₀, ht₁⟩
  · rw [hts, Int64.lt_iff_toInt_lt, Int64.toInt_zero]
    constructor
    · rintro ⟨h, -⟩
      omega
    · intro h
      omega
  · have hsub : (g.timestamp - r).toInt = g.timestamp.toInt - r.toInt := by
      rw [Int64.toInt_sub, Int.bmod_eq_of_le (by omega) (by omega)]
    have hmul : ((g.timestamp - r) * 1000000).toInt = (g.timestamp.toInt - r.toInt) * 1000000 := by
      rw [Int64.toInt_mul, hsub, show (1000000 : Int64).toInt = 1000000 by decide,
        Int.bmod_eq_of_le (by omega) (by omega)]
    rw [gt_iff_lt, Int64.lt_iff_toInt_lt, Int64.lt_iff_toInt_lt, hmul,
      show (5000000 : Int64).toInt = 5000000 by decide]
    omega

theorem next_error_iff {g : Generator} {c : Clock} (hg : g.Sound) (hc : Fits (c.upcoming 0)) :
    (∃ f, (g.next c).1 = .error f) ↔ (c.upcoming 0).toInt + 5 < g.timestamp.toInt := by
  rw [← tooFarBehind_iff hg hc]
  constructor
  · rintro ⟨f, hf⟩
    exact (next_error hf).1
  · intro hback
    rcases next_cases g c with ⟨-, hnext⟩ | ⟨hnot, -⟩
    · exact ⟨_, by rw [hnext]⟩
    · rw [← c.read_fst] at hback
      exact absurd hback hnot

theorem next_ok_mark {g : Generator} {c : Clock} {id : UInt64} (hg : g.Sound)
    (hc : c.FitsUntil (g.next c).2.2) (h : (g.next c).1 = .ok id) :
    (id.toNat : Int) = (g.next c).2.1.mark ∧ g.mark < (g.next c).2.1.mark ∧
      (g.next c).2.1.Sound ∧ (g.next c).2.1.node = g.node := by
  obtain ⟨-, -, hs, hs'⟩ := next_ok h
  rcases next_cases g c with ⟨-, hnext⟩ | ⟨-, now, step, c', took, hnext, hstep⟩
  · rw [hnext] at h
    cases h
  rw [hnext] at h hs hs' ⊢
  cases h
  have hnow : Fits now := by
    have hc' : c.FitsUntil c' := by rw [hnext] at hc; exact hc
    obtain ⟨k, rfl, hreads, -⟩ := took
    exact hc' k (by omega)
  have hsub := toInt_sub_epoch hnow.1
  have hrange := InRange.of_reading hnow.1 hnow.2 hg.node_nonneg hg.node_le hs hs'
  have hid : ((((now - epoch) <<< 22) ||| (g.node <<< 12) ||| step).toUInt64.toNat : Int) =
      (((now - epoch).toInt) * 1024 + g.node.toInt) * 4096 + step.toInt := by
    rw [← toInt_packed hrange, toInt_eq_toNat (packed_nonneg hrange)]
    rfl
  have hsound : Generator.Sound { g with timestamp := now, step } :=
    ⟨hg.node_nonneg, hg.node_le, hs, hs', .inr hnow⟩
  refine ⟨by rw [hid, hsub]; rfl, ?_, hsound, rfl⟩
  have hstep₀ := Int64.le_iff_toInt_le.mp hg.step_le
  rw [toInt_stepMask] at hstep₀
  simp only [Generator.mark]
  rcases hstep with ⟨rfl, hlater⟩ | ⟨rfl, hz, hts⟩
  · have := Int64.lt_iff_toInt_lt.mp (hlater hnow.ne_minValue)
    rw [Int64.toInt_zero]
    nlinarith
  · rw [toInt_next_step hg.step_nonneg hg.step_le hz, hts]
    omega

/-! ## Runs -/

section Runs

variable {g : Generator} {c : Clock} {n : Nat}

theorem run_zero : g.run c 0 = ([], g, c) := rfl

theorem run_succ : g.run c (n + 1) =
    ((g.run c n).1 ++ [((g.run c n).2.1.next (g.run c n).2.2).1],
      ((g.run c n).2.1.next (g.run c n).2.2).2) := rfl

theorem run_after (g : Generator) (c : Clock) (n : Nat) : c.After (g.run c n).2.2 := by
  induction n with
  | zero => exact Clock.After.refl c
  | succ n ih =>
    obtain ⟨r, took⟩ := next_took (g.run c n).2.1 (g.run c n).2.2
    rw [run_succ]
    exact ih.trans took.after

theorem run_reads_mono (g : Generator) (c : Clock) {m n : Nat} (h : m ≤ n) :
    (g.run c m).2.2.reads ≤ (g.run c n).2.2.reads := by
  induction n, h using Nat.le_induction with
  | base => exact Nat.le_refl _
  | succ n _ ih =>
    obtain ⟨r, took⟩ := next_took (g.run c n).2.1 (g.run c n).2.2
    rw [run_succ]
    exact Nat.le_trans ih took.after.1

end Runs

/-- What a run keeps, of the ids answered so far and the generator left: the generator is sound with
node `node`, and the ids ascend, each packs that node, and none is above the generator's mark. -/
structure Issued (node : Int64) (ids : List UInt64) (g : Generator) : Prop where
  sound : g.Sound
  node_eq : g.node = node
  ascending : ids.Pairwise (· < ·)
  packs : ∀ id ∈ ids, (id.toNat : Int) / 4096 % 1024 = node.toInt
  le_mark : ∀ id ∈ ids, (id.toNat : Int) ≤ g.mark

theorem Issued.next {node : Int64} {ids : List UInt64} {g : Generator} {c : Clock}
    (h : Issued node ids g) (hc : c.FitsUntil (g.next c).2.2) :
    Issued node (ids ++ [(g.next c).1].filterMap Except.toOption) (g.next c).2.1 := by
  cases hr : (g.next c).1 with
  | error f =>
    have hnone : [(Except.error f : Except Failure UInt64)].filterMap Except.toOption = [] := rfl
    rw [hnone, List.append_nil, (next_error hr).2.2]
    exact h
  | ok id =>
    obtain ⟨hid, hlt, hsound, hnode⟩ := next_ok_mark h.sound hc hr
    obtain ⟨hn₀, hn, -, -⟩ := h.sound.bounds
    obtain ⟨-, -, hs₀, hs⟩ := hsound.bounds
    have hsome : [(Except.ok id : Except Failure UInt64)].filterMap Except.toOption = [id] := rfl
    rw [hsome]
    refine ⟨hsound, hnode.trans h.node_eq, ?_, ?_, ?_⟩
    ·
      refine List.pairwise_append.mpr ⟨h.ascending, List.pairwise_singleton _ _, ?_⟩
      intro a ha b hb
      rw [List.mem_singleton] at hb
      subst hb
      have := h.le_mark a ha
      rw [UInt64.lt_iff_toNat_lt]
      omega
    · intro a ha
      rcases List.mem_append.mp ha with ha | ha
      · exact h.packs a ha
      · rw [List.mem_singleton] at ha
        subst ha
        rw [hid, Generator.mark, hnode, ← h.node_eq]
        omega
    · intro a ha
      rcases List.mem_append.mp ha with ha | ha
      · exact (h.le_mark a ha).trans hlt.le
      · rw [List.mem_singleton] at ha
        subst ha
        exact hid.le

theorem toNat_shiftRight_22 (a : UInt64) : (a >>> 22).toNat = a.toNat / 4194304 := by
  rw [UInt64.toNat_shiftRight, show (22 : UInt64).toNat % 64 = 22 by decide,
    Nat.shiftRight_eq_div_pow]

theorem length_le_of_millisecond {node : Int64} {ids L : List UInt64}
    (hasc : ids.Pairwise (· < ·)) (hpack : ∀ id ∈ ids, (id.toNat : Int) / 4096 % 1024 = node.toInt)
    (hL : L.Sublist ids) (T : Nat) (hT : ∀ a ∈ L, a.toNat / 4194304 = T) : L.length ≤ 4096 := by
  have hnodup : L.Nodup := (hasc.sublist hL).imp fun hab => UInt64.ne_of_lt hab
  let step : UInt64 → Fin 4096 := fun a => ⟨a.toNat % 4096, Nat.mod_lt _ (by decide)⟩
  have hinj : ∀ a ∈ L, ∀ b ∈ L, step a = step b → a = b := by
    intro a ha b hb hab
    have hna := hpack a (hL.subset ha)
    have hnb := hpack b (hL.subset hb)
    have hta := hT a ha
    have htb := hT b hb
    have hs : a.toNat % 4096 = b.toNat % 4096 := Fin.val_eq_of_eq hab
    apply UInt64.toNat_inj.mp
    omega
  calc L.length = (L.map step).length := (List.length_map _).symm
    _ ≤ Fintype.card (Fin 4096) := (hnodup.map_on hinj).length_le_card
    _ = 4096 := Fintype.card_fin 4096

theorem run_issued {node : Int64} {g : Generator} (hg : Generator.create node = .ok g)
    (c : Clock) (n : Nat) (hc : c.FitsUntil (g.run c n).2.2) :
    Issued node ((g.run c n).1.filterMap Except.toOption) (g.run c n).2.1 := by
  induction n with
  | zero =>
    obtain ⟨hsound, hnode⟩ := Generator.create_sound hg
    exact ⟨hsound, hnode, List.Pairwise.nil, by simp [run_zero], by simp [run_zero]⟩
  | succ n ih =>
    have hle := run_reads_mono g c (Nat.le_add_right n 1)
    have := (run_after g c n).1
    have hprev : c.FitsUntil (g.run c n).2.2 := fun j hj => hc j (by omega)
    rw [run_succ] at hc ⊢
    rw [List.filterMap_append]
    exact (ih hprev).next (hc.of_after (run_after g c n)
      (next_took _ _).choose_spec.after (Nat.le_refl _))

/-- The ids of a generator strictly increase. -/
theorem ids_strictly_increase (node : Int64) (g : Generator) (hg : Generator.create node = .ok g)
    (c : Clock) (n : Nat) (hc : ∀ j < (g.run c n).2.2.reads - c.reads, Fits (c.upcoming j)) :
    ((g.run c n).1.filterMap Except.toOption).Pairwise (· < ·) ∧
    (∀ t : UInt64,
      (((g.run c n).1.filterMap Except.toOption).filter (· >>> (22 : UInt64) == t)).length ≤
        4096) ∧
    ∀ m < n,
      ((∃ f, ((g.run c m).2.1.next (g.run c m).2.2).1 = .error f) ↔
        ((g.run c m).2.2.upcoming 0).toInt + 5 < (g.run c m).2.1.timestamp.toInt) ∧
      ∀ f, ((g.run c m).2.1.next (g.run c m).2.2).1 = .error f →
        f = clockBackwards ((g.run c m).2.1.timestamp - (g.run c m).2.2.upcoming 0) ∧
        ((g.run c m).2.1.next (g.run c m).2.2).2.1 = (g.run c m).2.1 := by
  have hrun := run_issued hg c n hc
  refine ⟨hrun.ascending, fun t => length_le_of_millisecond hrun.ascending hrun.packs
    List.filter_sublist t.toNat fun a ha => ?_, ?_⟩
  · rw [← toNat_shiftRight_22, beq_iff_eq.mp (List.mem_filter.mp ha).2]
  intro m hm
  have hle : (g.run c (m + 1)).2.2.reads ≤ (g.run c n).2.2.reads := run_reads_mono g c hm
  have hcm : c.FitsUntil (g.run c m).2.2 :=
    fun j hj => hc j (by have := run_reads_mono g c hm.le; omega)
  have hfirst : Fits ((g.run c m).2.2.upcoming 0) := by
    obtain ⟨r, k, -, hreads, -⟩ := next_took (g.run c m).2.1 (g.run c m).2.2
    have hnext : (g.run c (m + 1)).2.2.reads =
        ((g.run c m).2.1.next (g.run c m).2.2).2.2.reads := rfl
    have hafter := run_after g c m
    rw [hafter.2, Nat.zero_add]
    apply hc
    have := hafter.1
    omega
  have hsound := (run_issued hg c m hcm).sound
  refine ⟨next_error_iff hsound hfirst, fun f hf => ?_⟩
  obtain ⟨-, hf', hsame⟩ := next_error hf
  exact ⟨hf', hsame⟩

/-- Node 7 on a clock that reads 10 ms past the epoch twice and then 7 ms less: the first two calls
answer ids in order, and the third fails. -/
theorem ids_increase_on_a_clock_stepping_back :
    let g : Generator := { node := 7 }
    let c := Clock.ofReadings [epoch + 10, epoch + 10, epoch + 3]
    Generator.create 7 = .ok g ∧ (∀ j < (g.run c 3).2.2.reads - c.reads, Fits (c.upcoming j)) ∧
      ((g.run c 3).1.filterMap Except.toOption).Pairwise (· < ·) :=
  ⟨rfl, by decide, (ids_strictly_increase 7 _ rfl _ 3 (by decide)).1⟩

end OrderSaga.Snowflake
