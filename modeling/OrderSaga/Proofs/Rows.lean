import Mathlib
import OrderSaga.Store.Ledger

namespace OrderSaga

namespace LedgerEntry

def sameKey (a b : LedgerEntry) : Bool :=
  a.orderId == b.orderId && a.userId == b.userId && a.resource == b.resource

@[simp] theorem sameKey_iff {a b : LedgerEntry} :
    a.sameKey b = true ↔
      a.orderId = b.orderId ∧ a.userId = b.userId ∧ a.resource = b.resource := by
  simp [sameKey, and_assoc]

theorem sameKey_comm (a b : LedgerEntry) : a.sameKey b = b.sameKey a := by
  refine Bool.eq_iff_iff.mpr ⟨fun h => ?_, fun h => ?_⟩ <;>
    obtain ⟨h₁, h₂, h₃⟩ := sameKey_iff.mp h <;>
    exact sameKey_iff.mpr ⟨h₁.symm, h₂.symm, h₃.symm⟩

theorem sameKey_trans {a b c : LedgerEntry} (h₁ : a.sameKey b = true)
    (h₂ : b.sameKey c = true) :
    a.sameKey c = true := by
  simp only [sameKey_iff] at *
  exact ⟨h₁.1.trans h₂.1, h₁.2.1.trans h₂.2.1, h₁.2.2.trans h₂.2.2⟩

@[simp] theorem sameKey_ofLine (g : String) (o u : UInt64) (l : Line) (t : EntryType)
    (now : Instant) (e : LedgerEntry) :
    (ofLine g o u l t now).sameKey e =
      (o == e.orderId && u == e.userId && l.resource == e.resource) :=
  rfl

end LedgerEntry

def closes (rows : List LedgerEntry) (e : LedgerEntry) : Bool :=
  rows.any fun f => f.sameKey e && f.stage == 2

def openRows (rows : List LedgerEntry) : List LedgerEntry :=
  rows.filter fun e => e.type == .reserve && !closes rows e

/-- The total amount of the rows that satisfy `p`. -/
def amountOf (p : LedgerEntry → Bool) : List LedgerEntry → Int
  | [] => 0
  | e :: rest => (if p e then e.amount.toInt else 0) + amountOf p rest

theorem Store.hasStage_eq (s : Store) (kind : String) (e : LedgerEntry) (stage : Nat) :
    s.hasStage kind e.orderId e.userId e.resource stage =
      (s.ledgers kind).any fun x => x.sameKey e && x.stage == stage := by
  apply Bool.eq_iff_iff.mpr
  rw [Store.hasStage_iff, List.any_eq_true]
  simp [LedgerEntry.key, and_assoc]

/-! ## Totals -/

section Totals

variable {p q : LedgerEntry → Bool} {rows : List LedgerEntry}

@[simp] theorem amountOf_nil : amountOf p [] = 0 := rfl

@[simp] theorem amountOf_append (xs ys : List LedgerEntry) :
    amountOf p (xs ++ ys) = amountOf p xs + amountOf p ys := by
  induction xs with
  | nil => simp [amountOf]
  | cons x xs ih => simp only [List.cons_append, amountOf, ih]; omega

@[simp] theorem amountOf_singleton (e : LedgerEntry) :
    amountOf p [e] = if p e then e.amount.toInt else 0 := by
  simp [amountOf]

theorem amountOf_congr (h : ∀ e ∈ rows, p e = q e) : amountOf p rows = amountOf q rows := by
  induction rows with
  | nil => rfl
  | cons x xs ih =>
    simp only [amountOf, h x List.mem_cons_self,
      ih fun e he => h e (List.mem_cons_of_mem x he)]

theorem amountOf_eq_zero (h : ∀ e ∈ rows, p e = false) : amountOf p rows = 0 := by
  rw [amountOf_congr (q := fun _ => false) h]
  induction rows with
  | nil => rfl
  | cons x xs ih => simp [amountOf, ih fun e he => h e (List.mem_cons_of_mem x he)]

theorem amountOf_filter_not (p q : LedgerEntry → Bool) (rows : List LedgerEntry) :
    amountOf p (rows.filter fun e => !q e) =
      amountOf p rows - amountOf (fun e => p e && q e) rows := by
  induction rows with
  | nil => rfl
  | cons x xs ih =>
    rw [List.filter_cons]
    cases hq : q x <;> cases hp : p x <;> simp [amountOf, hq, hp, ih]; omega

theorem amount_if_nonneg {e : LedgerEntry} (hpos : p e = true → 0 < e.amount.toInt) :
    0 ≤ if p e then e.amount.toInt else 0 := by
  split
  next hp => exact Int.le_of_lt (hpos hp)
  next => exact Int.le_refl 0

theorem amountOf_nonneg (hpos : ∀ e ∈ rows, p e = true → 0 < e.amount.toInt) :
    0 ≤ amountOf p rows := by
  induction rows with
  | nil => exact Int.le_refl 0
  | cons x xs ih =>
    have hx := amount_if_nonneg (hpos x List.mem_cons_self)
    have hxs := ih fun e he => hpos e (List.mem_cons_of_mem x he)
    simp only [amountOf]
    omega

theorem le_amountOf (hpos : ∀ e ∈ rows, p e = true → 0 < e.amount.toInt) {r : LedgerEntry}
    (hr : r ∈ rows) (hp : p r = true) : r.amount.toInt ≤ amountOf p rows := by
  induction rows with
  | nil => cases hr
  | cons x xs ih =>
    have hxs := fun e he => hpos e (List.mem_cons_of_mem x he)
    rcases List.mem_cons.mp hr with rfl | hr
    · have := amountOf_nonneg hxs
      simp only [amountOf, hp, if_true]
      omega
    · have := ih hxs hr
      have hx := amount_if_nonneg (hpos x List.mem_cons_self)
      simp only [amountOf]
      omega

theorem amountOf_eq_single (hone : rows.Pairwise fun a b => ¬(p a = true ∧ p b = true))
    {r : LedgerEntry} (hr : r ∈ rows) (hp : p r = true) : amountOf p rows = r.amount.toInt := by
  induction rows with
  | nil => cases hr
  | cons x xs ih =>
    obtain ⟨hx, hxs⟩ := List.pairwise_cons.mp hone
    rcases List.mem_cons.mp hr with rfl | hr
    ·
      have hzero : amountOf p xs = 0 :=
        amountOf_eq_zero fun e he => by
          cases hpe : p e
          · rfl
          · exact absurd ⟨hp, hpe⟩ (hx e he)
      simp [amountOf, hp, hzero]
    · have hpx : p x = false := by
        cases hpx : p x
        · rfl
        · exact absurd ⟨hpx, hp⟩ (hx r hr)
      simp [amountOf, hpx, ih hxs hr]

theorem countP_le_one (hone : rows.Pairwise fun a b => ¬(p a = true ∧ p b = true)) :
    rows.countP p ≤ 1 := by
  induction rows with
  | nil => simp
  | cons x xs ih =>
    obtain ⟨hx, hxs⟩ := List.pairwise_cons.mp hone
    rw [List.countP_cons]
    cases hpx : p x
    · simpa using ih hxs
    · have hzero : xs.countP p = 0 :=
        List.countP_eq_zero.mpr fun e he hpe => hx e he ⟨hpx, hpe⟩
      simp [hzero]

end Totals

/-! ## Keyed ledgers -/

/-- A ledger as the reservation protocol writes it. -/
structure Keyed (rows : List LedgerEntry) : Prop where
  types : ∀ e ∈ rows, e.type = .reserve ∨ e.type = .confirm ∨ e.type = .cancel
  unique : rows.Pairwise fun a b => a.sameKey b = true → a.stage ≠ b.stage
  matched : ∀ f ∈ rows, f.stage = 2 →
    ∃ r ∈ rows, r.type = .reserve ∧ r.sameKey f = true ∧ r.amount = f.amount
  positive : ∀ e ∈ rows, 0 < e.amount.toInt

namespace Keyed

variable {rows : List LedgerEntry}

theorem nil : Keyed [] :=
  ⟨by simp, .nil, by simp, by simp⟩

theorem stage_eq_one {e : LedgerEntry} (h : e.type = .reserve) : e.stage = 1 := by
  simp [LedgerEntry.stage, h, EntryType.stage]

theorem stage_eq_two {e : LedgerEntry} (h : e.type ≠ .reserve) : e.stage = 2 := by
  unfold LedgerEntry.stage EntryType.stage
  split
  · exact absurd ‹_› h
  · rfl

theorem ne_reserve_of_isFinalization {t : EntryType} (h : t.isFinalization = true) :
    t ≠ .reserve := by
  rintro rfl
  cases h

theorem mem_openRows {e : LedgerEntry} :
    e ∈ openRows rows ↔ e ∈ rows ∧ e.type = .reserve ∧ closes rows e = false := by
  simp [openRows]

theorem closes_append (more : List LedgerEntry) (e : LedgerEntry) :
    closes (rows ++ more) e = (closes rows e || closes more e) := by
  simp [closes, List.any_append]

theorem pairwise_open (hk : Keyed rows) (f : LedgerEntry) (p : LedgerEntry → Bool) :
    (openRows rows).Pairwise fun a b =>
      ¬((p a && f.sameKey a) = true ∧ (p b && f.sameKey b) = true) := by
  refine (hk.unique.filter _).imp_of_mem fun {a b} ha hb hab => ?_
  rintro ⟨hpa, hpb⟩
  simp only [Bool.and_eq_true] at hpa hpb
  have hsame : a.sameKey b = true :=
    LedgerEntry.sameKey_trans (by rw [LedgerEntry.sameKey_comm]; exact hpa.2) hpb.2
  exact hab hsame ((stage_eq_one (mem_openRows.mp ha).2.1).trans
    (stage_eq_one (mem_openRows.mp hb).2.1).symm)

theorem fresh_of_free (hk : Keyed rows) {e : LedgerEntry}
    (hfree : (rows.any fun x => x.sameKey e && x.stage == 1) = false) :
    ∀ x ∈ rows, x.sameKey e = false := by
  intro x hx
  cases hxe : x.sameKey e
  · rfl
  ·
    exfalso
    cases ht : x.type with
    | reserve =>
      have := List.any_eq_false.mp hfree x hx
      simp [hxe, stage_eq_one ht] at this
    | _ =>
      obtain ⟨r, hr, hrt, hrx, -⟩ := hk.matched x hx (stage_eq_two (by simp [ht]))
      have := List.any_eq_false.mp hfree r hr
      simp [LedgerEntry.sameKey_trans hrx hxe, stage_eq_one hrt] at this

theorem append_open (hk : Keyed rows) {e : LedgerEntry} (ht : e.type = .reserve)
    (hpos : 0 < e.amount.toInt) (hfree : (rows.any fun x => x.sameKey e && x.stage == 1) = false) :
    Keyed (rows ++ [e]) ∧ openRows (rows ++ [e]) = openRows rows ++ [e] := by
  have hfresh := hk.fresh_of_free hfree
  have he1 : e.stage = 1 := stage_eq_one ht
  refine ⟨⟨fun x hx => ?_, ?_, fun f hf h2 => ?_, fun x hx => ?_⟩, ?_⟩
  · rcases List.mem_append.mp hx with hx | hx
    · exact hk.types x hx
    · rw [List.mem_singleton.mp hx]
      exact .inl ht
  · refine List.pairwise_append.mpr
      ⟨hk.unique, List.pairwise_singleton _ _, fun a ha b hb hab => ?_⟩
    rw [List.mem_singleton.mp hb, hfresh a ha] at hab
    cases hab
  · rcases List.mem_append.mp hf with hf | hf
    · obtain ⟨r, hr, hrt⟩ := hk.matched f hf h2
      exact ⟨r, List.mem_append_left _ hr, hrt⟩
    · rw [List.mem_singleton.mp hf, he1] at h2
      cases h2
  · rcases List.mem_append.mp hx with hx | hx
    · exact hk.positive x hx
    · rw [List.mem_singleton.mp hx]
      exact hpos
  ·
    have hclose : ∀ x, closes [e] x = false := fun x => by simp [closes, he1]
    have hopen : closes rows e = false :=
      List.any_eq_false.mpr fun x hx => by simp [hfresh x hx]
    simp only [openRows, List.filter_append, closes_append, hclose, Bool.or_false]
    simp [ht, hopen]

theorem append_close (hk : Keyed rows) {r f : LedgerEntry} (hr : r ∈ rows)
    (hrt : r.type = .reserve) (hft : f.type = .confirm ∨ f.type = .cancel)
    (hkey : r.sameKey f = true) (hamt : f.amount = r.amount)
    (hfree : (rows.any fun x => x.sameKey f && x.stage == 2) = false) :
    Keyed (rows ++ [f]) ∧
      openRows (rows ++ [f]) = (openRows rows).filter fun x => !f.sameKey x := by
  have hf2 : f.stage = 2 := stage_eq_two (by rcases hft with h | h <;> simp [h])
  refine ⟨⟨fun x hx => ?_, ?_, fun g hg h2 => ?_, fun x hx => ?_⟩, ?_⟩
  · rcases List.mem_append.mp hx with hx | hx
    · exact hk.types x hx
    · rw [List.mem_singleton.mp hx]
      exact .inr hft
  · refine List.pairwise_append.mpr
      ⟨hk.unique, List.pairwise_singleton _ _, fun a ha b hb hab => ?_⟩
    rw [List.mem_singleton.mp hb] at hab ⊢
    have := List.any_eq_false.mp hfree a ha
    simp only [hab, Bool.true_and, beq_iff_eq] at this
    rw [hf2]
    exact this
  · rcases List.mem_append.mp hg with hg | hg
    · obtain ⟨r', hr', hrt'⟩ := hk.matched g hg h2
      exact ⟨r', List.mem_append_left _ hr', hrt'⟩
    · rw [List.mem_singleton.mp hg]
      exact ⟨r, List.mem_append_left _ hr, hrt, hkey, hamt.symm⟩
  · rcases List.mem_append.mp hx with hx | hx
    · exact hk.positive x hx
    · rw [List.mem_singleton.mp hx, hamt]
      exact hk.positive r hr
  ·
    have hnot : (f.type == .reserve) = false := by rcases hft with h | h <;> simp [h]
    unfold openRows
    rw [List.filter_append, List.filter_filter]
    have hdrop : [f].filter (fun e => e.type == .reserve && !closes (rows ++ [f]) e) = [] := by
      simp [hnot]
    rw [hdrop, List.append_nil]
    refine List.filter_congr fun x _ => ?_
    have hc : closes [f] x = f.sameKey x := by simp [closes, hf2]
    rw [closes_append, hc]
    cases f.sameKey x <;> simp

theorem open_of_free {r f : LedgerEntry} (hr : r ∈ rows)
    (hrt : r.type = .reserve) (hkey : r.sameKey f = true)
    (hfree : (rows.any fun x => x.sameKey f && x.stage == 2) = false) : r ∈ openRows rows := by
  refine mem_openRows.mpr ⟨hr, hrt, List.any_eq_false.mpr fun x hx => ?_⟩
  have := List.any_eq_false.mp hfree x hx
  cases hxr : x.sameKey r
  · simp
  · simpa [LedgerEntry.sameKey_trans hxr hkey] using this

theorem amountOf_close (hk : Keyed rows) {r f : LedgerEntry} (hr : r ∈ rows)
    (hrt : r.type = .reserve) (hft : f.type = .confirm ∨ f.type = .cancel)
    (hkey : r.sameKey f = true) (hamt : f.amount = r.amount)
    (hfree : (rows.any fun x => x.sameKey f && x.stage == 2) = false)
    {p : LedgerEntry → Bool} (hp : ∀ a b, a.sameKey b = true → p a = p b) :
    amountOf p (openRows (rows ++ [f])) =
      amountOf p (openRows rows) - if p r then r.amount.toInt else 0 := by
  rw [(hk.append_close hr hrt hft hkey hamt hfree).2, amountOf_filter_not]
  congr 1
  have hopen := open_of_free hr hrt hkey hfree
  have hfr : f.sameKey r = true := by rw [LedgerEntry.sameKey_comm]; exact hkey
  split
  next hpr => exact amountOf_eq_single (hk.pairwise_open f p) hopen (by simp [hpr, hfr])
  next hpr =>
    refine amountOf_eq_zero fun x _ => ?_
    cases hfx : f.sameKey x
    · simp
    · have : p x = p r := hp x r (LedgerEntry.sameKey_trans (by
        rw [LedgerEntry.sameKey_comm]; exact hfx) hfr)
      simp [this, hpr]

theorem le_amountOf_open (hk : Keyed rows) {r : LedgerEntry} (hr : r ∈ openRows rows)
    {p : LedgerEntry → Bool} (hp : p r = true) : r.amount.toInt ≤ amountOf p (openRows rows) :=
  le_amountOf (fun e he _ => hk.positive e (mem_openRows.mp he).1) hr hp

theorem reserves_le_one (hk : Keyed rows) (o u res : UInt64) :
    rows.countP (fun e => e.orderId == o && e.userId == u && e.resource == res &&
      e.type == .reserve) ≤ 1 := by
  refine countP_le_one (hk.unique.imp_of_mem fun {a b} ha hb hab => ?_)
  rintro ⟨hpa, hpb⟩
  simp only [Bool.and_eq_true, beq_iff_eq] at hpa hpb
  refine hab ?_ ((stage_eq_one hpa.2).trans (stage_eq_one hpb.2).symm)
  exact LedgerEntry.sameKey_iff.mpr ⟨hpa.1.1.1.trans hpb.1.1.1.symm,
    hpa.1.1.2.trans hpb.1.1.2.symm, hpa.1.2.trans hpb.1.2.symm⟩

theorem closings_le_one (hk : Keyed rows) (o u res : UInt64) :
    rows.countP (fun e => e.orderId == o && e.userId == u && e.resource == res &&
      e.type.isFinalization) ≤ 1 := by
  refine countP_le_one (hk.unique.imp_of_mem fun {a b} ha hb hab => ?_)
  rintro ⟨hpa, hpb⟩
  simp only [Bool.and_eq_true, beq_iff_eq] at hpa hpb
  refine hab ?_ ((stage_eq_two (ne_reserve_of_isFinalization hpa.2)).trans
    (stage_eq_two (ne_reserve_of_isFinalization hpb.2)).symm)
  exact LedgerEntry.sameKey_iff.mpr ⟨hpa.1.1.1.trans hpb.1.1.1.symm,
    hpa.1.1.2.trans hpb.1.1.2.symm, hpa.1.2.trans hpb.1.2.symm⟩

theorem closing_matched (hk : Keyed rows) {f : LedgerEntry} (hf : f ∈ rows)
    (hfin : f.type.isFinalization = true) :
    ∃ r ∈ rows, r.type = .reserve ∧ r.orderId = f.orderId ∧ r.userId = f.userId ∧
      r.resource = f.resource ∧ r.amount = f.amount := by
  obtain ⟨r, hr, hrt, hkey, hamt⟩ :=
    hk.matched f hf (stage_eq_two (ne_reserve_of_isFinalization hfin))
  obtain ⟨ho, hu, hres⟩ := LedgerEntry.sameKey_iff.1 hkey
  exact ⟨r, hr, hrt, ho, hu, hres, hamt⟩

end Keyed

end OrderSaga
