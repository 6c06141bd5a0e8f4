import Mathlib
import OrderSaga.Snowflake

namespace OrderSaga.Snowflake

/-! ## The layout's constants -/

theorem toInt_epoch : epoch.toInt = 1704067200000 := by decide

theorem toInt_maxNode : maxNode.toInt = 1023 := by decide

theorem toInt_stepMask : stepMask.toInt = 4095 := by decide

/-! ## Words as numbers -/

theorem toInt_eq_toNat_of_lt {x : Int64} (h : x.toBitVec.toNat < 2 ^ 63) :
    x.toInt = x.toBitVec.toNat := by
  rw [← Int64.toInt_toBitVec]
  exact BitVec.toInt_eq_toNat_of_msb (BitVec.msb_eq_false_iff_two_mul_lt.mpr (by omega))

theorem msb_of_nonneg {x : Int64} (h : 0 ≤ x) : x.toBitVec.msb = false := by
  rw [Int64.le_iff_toInt_le] at h
  simpa [BitVec.msb_eq_toInt] using h

theorem toInt_eq_toNat {x : Int64} (h : 0 ≤ x) : x.toInt = x.toBitVec.toNat := by
  rw [← Int64.toInt_toBitVec]
  exact BitVec.toInt_eq_toNat_of_msb (msb_of_nonneg h)

theorem toInt_and_mask {v : Int64} (h : 0 ≤ v) (m : Int64) (k : Nat)
    (hm : m.toBitVec.toNat = 2 ^ k - 1) (hk : k < 63) : (v &&& m).toInt = v.toInt % 2 ^ k := by
  have hn : (v &&& m).toBitVec.toNat = v.toBitVec.toNat % 2 ^ k := by
    rw [Int64.toBitVec_and, BitVec.toNat_and, hm, Nat.and_two_pow_sub_one_eq_mod]
  have hlt : v.toBitVec.toNat % 2 ^ k < 2 ^ 63 :=
    lt_of_lt_of_le (Nat.mod_lt _ (Nat.two_pow_pos k)) (Nat.pow_le_pow_right (by omega) hk.le)
  rw [toInt_eq_toNat_of_lt (hn ▸ hlt), hn, toInt_eq_toNat h]
  push_cast
  rfl

theorem toInt_shiftRight {v : Int64} (h : 0 ≤ v) (s : Int64) (k : Nat)
    (hs : (s.toBitVec.smod 64).toNat = k) : (v >>> s).toInt = v.toInt / 2 ^ k := by
  have hn : (v >>> s).toBitVec.toNat = v.toBitVec.toNat / 2 ^ k := by
    rw [Int64.toBitVec_shiftRight, BitVec.sshiftRight', hs,
      BitVec.sshiftRight_eq_of_msb_false (msb_of_nonneg h), BitVec.toNat_ushiftRight,
      Nat.shiftRight_eq_div_pow]
  have hlt : v.toBitVec.toNat / 2 ^ k < 2 ^ 63 := by
    have := BitVec.msb_eq_false_iff_two_mul_lt.mp (msb_of_nonneg h)
    have := Nat.div_le_self v.toBitVec.toNat (2 ^ k)
    omega
  rw [toInt_eq_toNat_of_lt (hn ▸ hlt), hn, toInt_eq_toNat h]
  push_cast
  rfl

theorem or_packed (T N S : Nat) (hN : N < 2 ^ 10) (hS : S < 2 ^ 12) :
    T <<< 22 ||| N <<< 12 ||| S = (T * 1024 + N) * 4096 + S := by
  have h22 : T <<< 22 = (T <<< 10) <<< 12 := by simp only [Nat.shiftLeft_eq]; ring
  rw [h22, ← Nat.shiftLeft_or_distrib, ← Nat.shiftLeft_add_eq_or_of_lt hN,
    ← Nat.shiftLeft_add_eq_or_of_lt hS]
  simp only [Nat.shiftLeft_eq]

/-! ## Packing and unpacking -/

section Fields

variable {t node step : Int64}

/-- Fields in range, packed: the time below `2 ^ 41` ms, the node and the step within their masks. -/
structure InRange (t node step : Int64) : Prop where
  time_nonneg : 0 ≤ t
  time_lt : t.toInt < 2 ^ 41
  node_nonneg : 0 ≤ node
  node_le : node ≤ maxNode
  step_nonneg : 0 ≤ step
  step_le : step ≤ stepMask

theorem InRange.bounds (h : InRange t node step) :
    0 ≤ t.toInt ∧ t.toInt < 2 ^ 41 ∧ 0 ≤ node.toInt ∧ node.toInt ≤ 1023 ∧
      0 ≤ step.toInt ∧ step.toInt ≤ 4095 := by
  have := Int64.le_iff_toInt_le.mp h.time_nonneg
  have := Int64.le_iff_toInt_le.mp h.node_nonneg
  have := Int64.le_iff_toInt_le.mp h.node_le
  have := Int64.le_iff_toInt_le.mp h.step_nonneg
  have := Int64.le_iff_toInt_le.mp h.step_le
  simp only [Int64.toInt_zero, toInt_maxNode, toInt_stepMask] at *
  exact ⟨by omega, h.time_lt, by omega, by omega, by omega, by omega⟩

theorem toInt_packed (h : InRange t node step) :
    ((t <<< 22) ||| (node <<< 12) ||| step).toInt =
      (t.toInt * 1024 + node.toInt) * 4096 + step.toInt := by
  obtain ⟨-, ht, -, hn, -, hs⟩ := h.bounds
  rw [toInt_eq_toNat h.time_nonneg] at ht
  rw [toInt_eq_toNat h.node_nonneg] at hn
  rw [toInt_eq_toNat h.step_nonneg] at hs
  have hT : t.toBitVec.toNat <<< 22 < 2 ^ 64 := by rw [Nat.shiftLeft_eq]; omega
  have hN : node.toBitVec.toNat <<< 12 < 2 ^ 64 := by rw [Nat.shiftLeft_eq]; omega
  have s22 : ((22 : Int64).toBitVec.smod 64).toNat = 22 := by decide
  have s12 : ((12 : Int64).toBitVec.smod 64).toNat = 12 := by decide
  have hv : ((t <<< 22) ||| (node <<< 12) ||| step).toBitVec.toNat =
      (t.toBitVec.toNat * 1024 + node.toBitVec.toNat) * 4096 + step.toBitVec.toNat := by
    simp only [Int64.toBitVec_or, Int64.toBitVec_shiftLeft, BitVec.toNat_or,
      BitVec.shiftLeft_eq', BitVec.toNat_shiftLeft, s22, s12, Nat.mod_eq_of_lt hT,
      Nat.mod_eq_of_lt hN]
    exact or_packed _ _ _ (by omega) (by omega)
  rw [toInt_eq_toNat_of_lt (by omega), hv, toInt_eq_toNat h.time_nonneg,
    toInt_eq_toNat h.node_nonneg, toInt_eq_toNat h.step_nonneg]
  push_cast
  ring

theorem packed_nonneg (h : InRange t node step) :
    (0 : Int64) ≤ (t <<< 22) ||| (node <<< 12) ||| step := by
  obtain ⟨ht, -, hn, -, hs, -⟩ := h.bounds
  rw [Int64.le_iff_toInt_le, toInt_packed h, Int64.toInt_zero]
  positivity

theorem parts_packed (h : InRange t node step) :
    parts ((t <<< 22) ||| (node <<< 12) ||| step).toUInt64 =
      (Instant.ofUnixMillis (epoch.toInt + t.toInt), node, step) := by
  obtain ⟨ht, ht', hn, hn', hs, hs'⟩ := h.bounds
  have hv := toInt_packed h
  have h0 := packed_nonneg h
  set v := (t <<< 22) ||| (node <<< 12) ||| step
  have hstep : (v &&& stepMask).toInt = step.toInt := by
    rw [toInt_and_mask h0 stepMask 12 (by decide) (by omega), hv]
    omega
  have hshift : (v >>> 12).toInt = t.toInt * 1024 + node.toInt := by
    rw [toInt_shiftRight h0 12 12 (by decide), hv]
    omega
  have hnode : ((v >>> 12) &&& maxNode).toInt = node.toInt := by
    have h12 : (0 : Int64) ≤ v >>> 12 := by
      rw [Int64.le_iff_toInt_le, hshift, Int64.toInt_zero]
      omega
    rw [toInt_and_mask h12 maxNode 10 (by decide) (by omega), hshift]
    omega
  have htime : ((v >>> 22) + epoch).toInt = epoch.toInt + t.toInt := by
    rw [Int64.toInt_add, toInt_shiftRight h0 22 22 (by decide), hv, toInt_epoch, Int.bmod_def]
    split <;> omega
  simp only [parts, Int64.toInt64_toUInt64, Int64.toInt_inj.mp hstep, Int64.toInt_inj.mp hnode,
    htime]

end Fields

/-! ## Clock readings -/

namespace Clock

def upcoming (c : Clock) (i : Nat) : Int64 :=
  c.readings.getD i (c.last + c.extra + Int64.ofNat (i - c.readings.length + 1))

/-- From `c` to `c'` the clock was read `k + 1` times for some `k`, and its last reading was `r`:
`c'` gives what `c` gives after those reads. -/
def Took (c c' : Clock) (r : Int64) : Prop :=
  ∃ k, r = c.upcoming k ∧ c'.reads = c.reads + (k + 1) ∧
    ∀ j, c'.upcoming j = c.upcoming (j + (k + 1))

theorem Took.trans {c c' c'' : Clock} {r' r : Int64} (h₁ : c.Took c' r') (h₂ : c'.Took c'' r) :
    c.Took c'' r := by
  obtain ⟨k₁, -, hreads₁, hnext₁⟩ := h₁
  obtain ⟨k₂, rfl, hreads₂, hnext₂⟩ := h₂
  refine ⟨k₂ + (k₁ + 1), hnext₁ k₂, by omega, fun j => ?_⟩
  rw [hnext₂, hnext₁]
  congr 1
  omega

theorem took_tail {c : Clock} {r : Int64} {rs : List Int64} (h : c.readings = r :: rs) :
    c.Took { c with readings := rs, reads := c.reads + 1 } r := by
  refine ⟨0, by simp [upcoming, h], rfl, fun j => ?_⟩
  simp [upcoming, h]

theorem read_fst (c : Clock) : c.read.1 = c.upcoming 0 := by
  rcases c with ⟨_ | ⟨r, rs⟩, last, extra, reads⟩ <;> simp [read, upcoming]

theorem read_took (c : Clock) : c.Took c.read.2 c.read.1 := by
  obtain ⟨_ | ⟨r, rs⟩, last, extra, reads⟩ := c
  · refine ⟨0, by simp [read, upcoming], rfl, fun j => ?_⟩
    simp only [read, upcoming, List.getD_nil, List.length_nil, Nat.sub_zero, Int64.ofNat_add]
    grind
  · exact took_tail rfl

theorem ofInt_eq_ofNat_pred {j : Int} (hj : 1 ≤ j) :
    Int64.ofInt j = Int64.ofNat (j.toNat - 1) + 1 := by
  obtain ⟨n, rfl⟩ : ∃ n : Nat, j = n + 1 := ⟨j.toNat - 1, by omega⟩
  have hn : ((n : Int) + 1).toNat - 1 = n := by omega
  rw [hn, show (n : Int) + 1 = ((n + 1 : Nat) : Int) by push_cast; rfl, Int64.ofInt_eq_ofNat,
    Int64.ofNat_add]
  rfl

theorem readUntil_took (b : Int64) (s : Bool) (c : Clock) :
    c.Took (c.readUntil b s).2 (c.readUntil b s).1 := by
  fun_induction readUntil b s c with
  | case1 c r rs hc => exact took_tail hc
  | case2 c r rs hc _ ih => exact (took_tail hc).trans ih
  | case3 c hc base need j =>
    have hj : 1 ≤ j := by grind
    refine ⟨j.toNat - 1, ?_, by simp only; omega, fun i => ?_⟩
    · simp [upcoming, hc, ofInt_eq_ofNat_pred hj]
    · simp only [upcoming, hc, List.getD_nil, List.length_nil, Nat.sub_zero, Int64.ofNat_add,
        ofInt_eq_ofNat_pred hj]
      grind

theorem readUntil_reaches (b : Int64) (s : Bool) (c : Clock) :
    (c.readUntil b s).1 ≠ Int64.minValue →
      if s then b < (c.readUntil b s).1 else b ≤ (c.readUntil b s).1 := by
  fun_induction readUntil b s c with
  | case1 c r rs hc hr => intro _; simpa using hr
  | case2 c r rs hc _ ih => exact ih
  | case3 c hc base need j =>
    intro hmin
    have hr : (c.last + c.extra + Int64.ofInt j).toInt = (base + j).bmod (2 ^ 64) := by
      rw [Int64.toInt_add, Int64.toInt_ofInt, show Int64.size = 2 ^ 64 from rfl,
        Int.add_bmod_bmod]
    have hne : (c.last + c.extra + Int64.ofInt j).toInt ≠ -2 ^ 63 := by
      rw [← Int64.toInt_minValue]
      exact fun h => hmin (Int64.toInt_inj.mp h)
    have := Int64.toInt_lt b
    have := Int64.le_toInt b
    have : -2 ^ 63 ≤ base := Int64.le_toInt _
    have : base < 2 ^ 63 := Int64.toInt_lt _
    have hneed : need = b.toInt - base + if s then 1 else 0 := by simp [need]
    have hj : j = if need < 1 then 1 else need := by simp [j]
    rw [Int.bmod_def] at hr
    cases s
    · simp only [Bool.false_eq_true, ↓reduceIte, Int64.le_iff_toInt_le] at hneed ⊢
      split at hj <;> split at hr <;> omega
    · simp only [↓reduceIte, Int64.lt_iff_toInt_lt] at hneed ⊢
      split at hj <;> split at hr <;> omega

end Clock

/-! ## One call -/

def Generator.tooFarBehind (g : Generator) (now : Int64) : Prop :=
  now < g.timestamp ∧ (g.timestamp - now) * 1000000 > 5000000

theorem next_cases (g : Generator) (c : Clock) :
    (g.tooFarBehind c.read.1 ∧
      g.next c = (.error (clockBackwards (g.timestamp - c.read.1)), g, c.read.2)) ∨
    (¬g.tooFarBehind c.read.1 ∧
      ∃ now step c', c.Took c' now ∧
        g.next c = (.ok (((now - epoch) <<< 22) ||| (g.node <<< 12) ||| step).toUInt64,
          { g with timestamp := now, step }, c') ∧
        ((step = 0 ∧ (now ≠ Int64.minValue → g.timestamp < now)) ∨
          (step = (g.step + 1) &&& stepMask ∧ step ≠ 0 ∧ g.timestamp = now))) := by
  rcases hread : c.read with ⟨r₀, c₀⟩
  have took₀ : c.Took c₀ r₀ := by simpa [hread] using c.read_took
  by_cases hback : g.tooFarBehind r₀
  · left
    refine ⟨hback, ?_⟩
    obtain ⟨hlt, hfar⟩ := hback
    simp [Generator.next, hread, hlt, hfar]
  · right
    refine ⟨hback, ?_⟩
    obtain ⟨now₁, c₁, hwait, took₁, reach₁⟩ : ∃ now₁ c₁,
        (if r₀ < g.timestamp then c₀.readUntil g.timestamp false else (r₀, c₀)) = (now₁, c₁) ∧
        c.Took c₁ now₁ ∧ (now₁ ≠ Int64.minValue → g.timestamp ≤ now₁) := by
      by_cases hlt : r₀ < g.timestamp
      · refine ⟨(c₀.readUntil g.timestamp false).1, (c₀.readUntil g.timestamp false).2,
          by simp [hlt], took₀.trans (c₀.readUntil_took _ _), fun h => ?_⟩
        simpa using c₀.readUntil_reaches g.timestamp false h
      · exact ⟨r₀, c₀, by simp [hlt], took₀, fun _ => by simpa using hlt⟩
    have hwaited : (if r₀ < g.timestamp then
        if (g.timestamp - r₀) * 1000000 > 5000000 then
          (Except.error (clockBackwards (g.timestamp - r₀)) : Except Failure (Int64 × Clock))
        else .ok (c₀.readUntil g.timestamp false)
      else .ok (r₀, c₀)) = .ok (now₁, c₁) := by
      rw [← hwait]
      by_cases hlt : r₀ < g.timestamp
      · simp [hlt, show ¬(g.timestamp - r₀) * 1000000 > 5000000 from fun h => hback ⟨hlt, h⟩]
      · simp [hlt]
    simp only [Generator.next, hread, hwaited]
    by_cases heq : now₁ = g.timestamp
    · by_cases hz : (g.step + 1 &&& stepMask) = 0
      · refine ⟨(c₁.readUntil g.timestamp true).1, _, (c₁.readUntil g.timestamp true).2,
          took₁.trans (c₁.readUntil_took _ _), by simp [heq, hz], .inl ⟨hz, fun h => ?_⟩⟩
        simpa using c₁.readUntil_reaches g.timestamp true h
      · exact ⟨now₁, _, c₁, took₁, by simp [heq, hz], .inr ⟨rfl, hz, heq.symm⟩⟩
    · refine ⟨now₁, 0, c₁, took₁, by simp [heq], .inl ⟨rfl, fun h => ?_⟩⟩
      exact Int64.lt_of_le_of_ne (reach₁ h) (Ne.symm heq)

theorem toInt_sub_epoch {now : Int64} (h : epoch.toInt ≤ now.toInt) :
    (now - epoch).toInt = now.toInt - epoch.toInt := by
  rw [toInt_epoch] at h
  have := Int64.toInt_lt now
  rw [Int64.toInt_sub, toInt_epoch, Int.bmod_eq_of_le (by omega) (by omega)]

theorem InRange.of_reading {now node step : Int64} (hlo : epoch.toInt ≤ now.toInt)
    (hhi : now.toInt < epoch.toInt + 2 ^ 41) (hn : 0 ≤ node) (hn' : node ≤ maxNode)
    (hs : 0 ≤ step) (hs' : step ≤ stepMask) : InRange (now - epoch) node step := by
  have hsub := toInt_sub_epoch hlo
  refine ⟨?_, by omega, hn, hn', hs, hs'⟩
  rw [Int64.le_iff_toInt_le, hsub, Int64.toInt_zero]
  omega

theorem and_stepMask_bounds (x : Int64) : 0 ≤ x &&& stepMask ∧ x &&& stepMask ≤ stepMask := by
  have hn : (x &&& stepMask).toBitVec.toNat ≤ 4095 := by
    rw [Int64.toBitVec_and, BitVec.toNat_and]
    exact Nat.and_le_right
  have hi := toInt_eq_toNat_of_lt (x := x &&& stepMask) (by omega)
  refine ⟨?_, ?_⟩
  · rw [Int64.le_iff_toInt_le, hi, Int64.toInt_zero]
    omega
  · rw [Int64.le_iff_toInt_le, hi, toInt_stepMask]
    omega

theorem next_ok {g : Generator} {c : Clock} {id : UInt64} (h : (g.next c).1 = .ok id) :
    id = ((((g.next c).2.1.timestamp - epoch) <<< 22) ||| (g.node <<< 12) |||
      (g.next c).2.1.step).toUInt64 ∧ (g.next c).2.1.node = g.node ∧
      0 ≤ (g.next c).2.1.step ∧ (g.next c).2.1.step ≤ stepMask := by
  rcases next_cases g c with ⟨-, hnext⟩ | ⟨-, now, step, c', -, hnext, hstep⟩
  · rw [hnext] at h
    cases h
  · rw [hnext] at h ⊢
    cases h
    refine ⟨rfl, rfl, ?_⟩
    rcases hstep with ⟨rfl, -⟩ | ⟨rfl, -, -⟩
    · exact ⟨Int64.le_refl 0, show (0 : Int64) ≤ stepMask by decide⟩
    · exact and_stepMask_bounds _

/-! ## Decoding inverts the layout -/

/-- Unpacking a word of a time below `2 ^ 41` ms, a node and a step, each in range, gives back the
UTC instant the time counts from the epoch, the node and the step. -/
theorem parts_inverts_layout :
    (∀ t node step : Int64, 0 ≤ t → t.toInt < 2 ^ 41 → 0 ≤ node → node ≤ maxNode →
      0 ≤ step → step ≤ stepMask →
      parts ((t <<< 22) ||| (node <<< 12) ||| step).toUInt64 =
        (Instant.ofUnixMillis (epoch.toInt + t.toInt), node, step)) ∧
    (∀ (g : Generator) (c : Clock) (id : UInt64), 0 ≤ g.node → g.node ≤ maxNode →
      (g.next c).1 = .ok id →
      epoch.toInt ≤ (g.next c).2.1.timestamp.toInt →
      (g.next c).2.1.timestamp.toInt < epoch.toInt + 2 ^ 41 →
      parts id = (Instant.ofUnixMillis (g.next c).2.1.timestamp.toInt, g.node,
        (g.next c).2.1.step) ∧
        0 ≤ (g.next c).2.1.step.toInt ∧ (g.next c).2.1.step.toInt < 4096) := by
  refine ⟨fun t node step h₁ h₂ h₃ h₄ h₅ h₆ => parts_packed ⟨h₁, h₂, h₃, h₄, h₅, h₆⟩, ?_⟩
  intro g c id hn hn' hok hlo hhi
  obtain ⟨rfl, -, hs, hs'⟩ := next_ok hok
  have hsub := toInt_sub_epoch hlo
  have hrange := InRange.of_reading hlo hhi hn hn' hs hs'
  obtain ⟨-, -, -, -, hlo', hhi'⟩ := hrange.bounds
  refine ⟨?_, hlo', by omega⟩
  rw [parts_packed hrange, hsub]
  simp

/-- Node 5 at step 7, a second after the epoch, unpacks to itself. -/
theorem parts_second_after_epoch :
    parts (((1000 : Int64) <<< 22) ||| ((5 : Int64) <<< 12) ||| (7 : Int64)).toUInt64 =
      (Instant.ofUnixMillis (epoch.toInt + 1000), 5, 7) :=
  parts_inverts_layout.1 1000 5 7 (by decide) (by decide) (by decide) (by decide) (by decide)
    (by decide)

end OrderSaga.Snowflake
