import Mathlib
import OrderSaga.Lock.Local

namespace OrderSaga.Lock

/-! ## The order keys are taken in -/

theorem pairwise_lt_eraseDups (l : List String) (h : l.Pairwise (· ≤ ·)) :
    l.eraseDups.Pairwise (· < ·) :=
  match l, h with
  | [], _ => by simp
  | a :: as, h => by
    obtain ⟨ha, has⟩ := List.pairwise_cons.mp h
    rw [List.eraseDups_cons, List.pairwise_cons]
    refine ⟨fun x hx => ?_,
      pairwise_lt_eraseDups (as.filter fun b => !b == a) (has.sublist List.filter_sublist)⟩
    rw [List.mem_eraseDups, List.mem_filter] at hx
    have hne : x ≠ a := by simpa using hx.2
    exact lt_of_le_of_ne (ha x hx.1) (Ne.symm hne)
termination_by l.length
decreasing_by exact Nat.lt_succ_of_le (List.length_filter_le _ _)

theorem order_sorted (keys : List String) : (order keys).Pairwise (· < ·) := by
  have hle : ∀ a b : String, (!decide (b < a)) = true ↔ a ≤ b := fun a b => by
    simp only [Bool.not_eq_true', decide_eq_false_iff_not, not_lt]
  refine pairwise_lt_eraseDups _ ?_
  have h := @List.pairwise_mergeSort String (fun a b => !(b < a))
    (fun a b c hab hbc => (hle a c).mpr (le_trans ((hle a b).mp hab) ((hle b c).mp hbc)))
    (fun a b => Bool.or_eq_true_iff.mpr ((le_total a b).imp (hle a b).mpr (hle b a).mpr)) keys
  exact h.imp (hle _ _).mp

theorem mem_order {keys : List String} {k : String} : k ∈ order keys ↔ k ∈ keys := by
  simp [order, List.mem_eraseDups, List.mem_mergeSort]

theorem lt_of_mem_take {ks : List String} (hks : ks.Pairwise (· < ·)) {m : Nat} {k x : String}
    (hk : ks[m]? = some k) (hx : x ∈ ks.take m) : x < k := by
  rw [← List.take_append_drop m ks, List.pairwise_append] at hks
  have hfirst : (ks.drop m)[0]? = some k := by rw [List.getElem?_drop, Nat.add_zero]; exact hk
  exact hks.2.2 x hx k (List.mem_of_getElem? hfirst)

/-! ## Stages -/

namespace Stage

/-- A stage lies within an order of `len` keys: a caller never took or holds more. -/
def Within (st : Stage) (len : Nat) : Prop :=
  match st with
  | .taking m => m ≤ len
  | .releasing m => m ≤ len
  | _ => True

theorem lt_of_held {st : Stage} {ks : List String} (hks : ks.Pairwise (· < ·)) {k x : String}
    (hw : st.wanted ks = some k) (hx : x ∈ st.held ks) : x < k := by
  cases st with
  | taking m => exact lt_of_mem_take hks hw hx
  | running | releasing _ | done => cases hw

end Stage

/-! ## Sound tables -/

namespace Table

variable {n : Nat} {keys : Fin n → List String} {t : Table n} {i j : Fin n} {st : Stage}
  {f : String → Bool} {k : String}

@[simp] theorem move_stage_self : (t.move i st f).stage i = st := by simp [move]

theorem move_stage_of_ne (h : j ≠ i) : (t.move i st f).stage j = t.stage j := by
  simp [move, h]

@[simp] theorem move_full : (t.move i st f).full = f := rfl

theorem heldBy_move : (t.move i st f).heldBy keys j =
    if j = i then st.held (order (keys i)) else t.heldBy keys j := by
  by_cases h : j = i
  · subst h
    simp [heldBy]
  · simp [heldBy, move_stage_of_ne h, h]

@[simp] theorem fill_self {b : Bool} : t.fill k b k = b := by simp [fill]

theorem fill_of_ne {b : Bool} {k' : String} (h : k' ≠ k) : t.fill k b k' = t.full k' := by
  simp [fill, h]

/-- What every reachable table keeps: each caller's stage lies within its order, a slot is full
exactly when some caller holds its key, and no two callers hold one key. -/
structure Sound (keys : Fin n → List String) (t : Table n) : Prop where
  within : ∀ i, (t.stage i).Within (order (keys i)).length
  slots : ∀ k, t.full k = true ↔ ∃ i, k ∈ t.heldBy keys i
  exclusive : ∀ i j k, k ∈ t.heldBy keys i → k ∈ t.heldBy keys j → i = j

namespace Sound

theorem within_move (hs : t.Sound keys) (hst : st.Within (order (keys i)).length) (j : Fin n) :
    ((t.move i st f).stage j).Within (order (keys j)).length := by
  by_cases h : j = i
  · subst h
    simpa using hst
  · rw [move_stage_of_ne h]
    exact hs.within j

theorem same (hs : t.Sound keys) (hheld : st.held (order (keys i)) = t.heldBy keys i)
    (hst : st.Within (order (keys i)).length) : (t.move i st t.full).Sound keys := by
  have hall : (t.move i st t.full).heldBy keys = t.heldBy keys := by
    funext j
    rw [heldBy_move]
    split
    · subst j
      exact hheld
    · rfl
  exact ⟨hs.within_move hst, by rw [hall]; exact hs.slots, by rw [hall]; exact hs.exclusive⟩

theorem grab (hs : t.Sound keys) (hheld : st.held (order (keys i)) = t.heldBy keys i ++ [k])
    (hfree : t.full k = false) (hst : st.Within (order (keys i)).length) :
    (t.move i st (t.fill k true)).Sound keys := by
  have hmem : ∀ j k', k' ∈ (t.move i st (t.fill k true)).heldBy keys j ↔
      k' ∈ t.heldBy keys j ∨ j = i ∧ k' = k := by
    intro j k'
    rw [heldBy_move]
    split
    · subst j
      simp [hheld]
    · simp [*]
  have hnone : ∀ j, k ∉ t.heldBy keys j := fun j hj => by
    have := (hs.slots k).mpr ⟨j, hj⟩
    rw [hfree] at this
    cases this
  refine ⟨hs.within_move hst, fun k' => ?_, fun j₁ j₂ k' h₁ h₂ => ?_⟩
  · by_cases hk : k' = k
    · subst hk
      simp only [move_full, fill_self, true_iff]
      exact ⟨i, (hmem i k').mpr (.inr ⟨rfl, rfl⟩)⟩
    · simp only [move_full, fill_of_ne hk, hmem, hk, and_false, or_false]
      exact hs.slots k'
  · rw [hmem] at h₁ h₂
    rcases h₁ with h₁ | ⟨rfl, rfl⟩ <;> rcases h₂ with h₂ | ⟨rfl, h⟩
    · exact hs.exclusive j₁ j₂ k' h₁ h₂
    · exact absurd (h ▸ h₁) (hnone j₁)
    · exact absurd h₂ (hnone j₂)
    · rfl

theorem drop (hs : t.Sound keys) (hheld : t.heldBy keys i = st.held (order (keys i)) ++ [k])
    (hnot : k ∉ st.held (order (keys i))) (hst : st.Within (order (keys i)).length) :
    (t.move i st (t.fill k false)).Sound keys := by
  have hmem : ∀ j k', k' ∈ (t.move i st (t.fill k false)).heldBy keys j ↔
      k' ∈ t.heldBy keys j ∧ ¬ (j = i ∧ k' = k) := by
    intro j k'
    rw [heldBy_move]
    split
    next hj =>
      subst hj
      rw [hheld]
      constructor
      · intro h
        exact ⟨List.mem_append_left _ h, fun hk => hnot (hk.2 ▸ h)⟩
      · rintro ⟨h, hne⟩
        rcases List.mem_append.mp h with h | h
        · exact h
        · exact absurd ⟨rfl, List.mem_singleton.mp h⟩ hne
    next hj => simp [hj]
  refine ⟨hs.within_move hst, fun k' => ?_, fun j₁ j₂ k' h₁ h₂ => ?_⟩
  · by_cases hk : k' = k
    · subst hk
      simp only [move_full, fill_self, Bool.false_eq_true, false_iff, not_exists]
      intro j hj
      obtain ⟨hj, hne⟩ := (hmem j k').mp hj
      have hji : j = i := hs.exclusive j i k' hj (by rw [hheld]; simp)
      exact hne ⟨hji, rfl⟩
    · simp only [move_full, fill_of_ne hk, hmem, hk, and_false, not_false_eq_true, and_true]
      exact hs.slots k'
  · exact hs.exclusive j₁ j₂ k' ((hmem j₁ k').mp h₁).1 ((hmem j₂ k').mp h₂).1

end Sound

theorem start_sound (keys : Fin n → List String) : (Table.start n).Sound keys := by
  refine ⟨fun i => Nat.zero_le _, fun k => ?_, fun i j k hi => ?_⟩
  · simp [start, heldBy, Stage.held]
  · simp [start, heldBy, Stage.held] at hi

end Table

open Table

variable {n : Nat} {keys : Fin n → List String} {t t' : Table n}

theorem Proceeds.sound (h : Proceeds keys t t') (hs : t.Sound keys) : t'.Sound keys := by
  cases h with
  | @take i m k taking next free =>
    have hlt : m < (order (keys i)).length := (List.getElem?_eq_some_iff.mp next).1
    exact hs.grab (by simp [heldBy, taking, Stage.held, List.take_add_one, next]) free hlt
  | @enter i m taking all =>
    exact hs.same (by simp [heldBy, taking, Stage.held, all]) trivial
  | leave running => exact hs.same (by simp [heldBy, running, Stage.held]) (le_refl _)
  | @unlock i m k releasing last =>
    have hlt : m < (order (keys i)).length := (List.getElem?_eq_some_iff.mp last).1
    refine hs.drop (by simp [heldBy, releasing, Stage.held, List.take_add_one, last])
      (fun hk => lt_irrefl k (lt_of_mem_take (order_sorted _) last hk)) hlt.le
  | finish released => exact hs.same (by simp [heldBy, released, Stage.held]) trivial

theorem Step.sound (h : Step keys t t') (hs : t.Sound keys) : t'.Sound keys := by
  cases h with
  | proceed h => exact h.sound hs
  | giveUp taking short => exact hs.same (by simp [heldBy, taking, Stage.held]) short.le

/-- The tables the callers reach from the start, in any interleaving of their steps. -/
inductive Reachable (keys : Fin n → List String) : Table n → Prop
  | start : Reachable keys (Table.start n)
  | next {t t' : Table n} : Reachable keys t → Step keys t t' → Reachable keys t'

theorem Reachable.sound (h : Reachable keys t) : t.Sound keys := by
  induction h with
  | start => exact Table.start_sound keys
  | next _ step ih => exact step.sound ih

/-! ## Waiting callers -/

namespace Table

theorem lt_of_waits {i j : Fin n} {k k' : String} (hw : t.Waits keys i j)
    (hi : t.wantedBy keys i = some k) (hj : t.wantedBy keys j = some k') : k < k' := by
  obtain ⟨k₀, hk₀, hheld⟩ := hw
  rw [hi, Option.some.injEq] at hk₀
  subst hk₀
  exact Stage.lt_of_held (order_sorted _) hj hheld

theorem chain_wanted_lt {i : Fin n} {c : List (Fin n)} (hc : c ≠ [])
    (h : List.IsChain (t.Waits keys) (i :: c)) :
    ∃ k, t.wantedBy keys i = some k ∧
      ∀ k', t.wantedBy keys (c.getLast hc) = some k' → k < k' := by
  induction c generalizing i with
  | nil => exact absurd rfl hc
  | cons j c ih =>
    obtain ⟨⟨k, hk, hkj⟩, hrest⟩ := List.isChain_cons_cons.mp h
    refine ⟨k, hk, fun k' hk' => ?_⟩
    cases c with
    | nil => exact lt_of_waits ⟨k, hk, hkj⟩ hk hk'
    | cons x c =>
      obtain ⟨kj, hwj, hlast⟩ := ih (List.cons_ne_nil x c) hrest
      exact lt_trans (lt_of_waits ⟨k, hk, hkj⟩ hk hwj)
        (hlast k' (by rwa [List.getLast_cons] at hk'))

theorem no_waiting_cycle (i : Fin n) (c : List (Fin n)) :
    ¬ List.IsChain (t.Waits keys) (i :: (c ++ [i])) := by
  intro h
  obtain ⟨k, hk, hlt⟩ := chain_wanted_lt (by simp) h
  exact lt_irrefl k (hlt k (by rwa [List.getLast_append_singleton]))

theorem Sound.proceeds_or_waits (hs : t.Sound keys) {i : Fin n} (hi : t.stage i ≠ .done) :
    (∃ t', Proceeds keys t t') ∨ ∃ j, t.Waits keys i j ∧ t.stage j ≠ .done := by
  have hwithin := hs.within i
  cases hst : t.stage i with
  | done => exact absurd hst hi
  | running => exact .inl ⟨_, .leave hst⟩
  | releasing m =>
    cases m with
    | zero => exact .inl ⟨_, .finish hst⟩
    | succ m =>
      rw [hst] at hwithin
      have hlt : m < (order (keys i)).length := by simp only [Stage.Within] at hwithin; omega
      exact .inl ⟨_, .unlock hst (List.getElem?_eq_getElem hlt)⟩
  | taking m =>
    rw [hst] at hwithin
    rcases Nat.lt_or_eq_of_le hwithin with hlt | heq
    ·
      cases hfull : t.full (order (keys i))[m] with
      | false => exact .inl ⟨_, .take hst (List.getElem?_eq_getElem hlt) hfull⟩
      | true =>
        obtain ⟨j, hj⟩ := (hs.slots _).mp hfull
        refine .inr ⟨j, ⟨_, by simp [wantedBy, hst, Stage.wanted, hlt], hj⟩,
          fun hdone => ?_⟩
        simp [heldBy, hdone, Stage.held] at hj
    · exact .inl ⟨_, .enter hst heq⟩

theorem Sound.progress (hs : t.Sound keys) (hlive : ∃ i, t.stage i ≠ .done) :
    ∃ t', Proceeds keys t t' := by
  by_contra hstuck
  have hwait : ∀ i, t.stage i ≠ .done → ∃ j, t.Waits keys i j ∧ t.stage j ≠ .done :=
    fun i hi => (hs.proceeds_or_waits hi).resolve_left hstuck
  obtain ⟨i₀, hi₀⟩ := hlive
  obtain ⟨i, hi, hmax⟩ := (Finset.univ.filter fun i => t.stage i ≠ .done).exists_max_image
    (fun i => (t.wantedBy keys i).getD "") ⟨i₀, by simpa using hi₀⟩
  obtain ⟨j, ⟨ki, hki, hheld⟩, hj⟩ := hwait i (by simpa using hi)
  obtain ⟨-, ⟨kj, hkj, -⟩, -⟩ := hwait j hj
  have hlt := lt_of_waits ⟨ki, hki, hheld⟩ hki hkj
  have hle := hmax j (by simpa using hj)
  rw [hki, hkj, Option.getD_some, Option.getD_some] at hle
  exact absurd hle (not_le.mpr hlt)

end Table

/-- **Ordered locking cannot deadlock.** -/
theorem ordered_locking_never_deadlocks {n : Nat} {keys : Fin n → List String} {t : Table n}
    (h : Reachable keys t) :
    ((∃ i, t.stage i ≠ .done) → ∃ t', Proceeds keys t t') ∧
    (∀ i c, ¬ List.IsChain (t.Waits keys) (i :: (c ++ [i]))) ∧
    (∀ i, (order (keys i)).Pairwise (· < ·) ∧ ∀ k, k ∈ order (keys i) ↔ k ∈ keys i) ∧
    (∀ i k, t.wantedBy keys i = some k → ∀ x ∈ t.heldBy keys i, x < k) ∧
    (∀ k, t.full k = true ↔ ∃ i, k ∈ t.heldBy keys i) ∧
    (∀ i j k, k ∈ t.heldBy keys i → k ∈ t.heldBy keys j → i = j) := by
  have hs := h.sound
  exact ⟨hs.progress, no_waiting_cycle, fun i => ⟨order_sorted _, fun _ => mem_order⟩,
    fun i k hk x hx => Stage.lt_of_held (order_sorted _) hk hx, hs.slots, hs.exclusive⟩

def sharedKeys : Fin 2 → List String := fun i => if i = 0 then ["b", "a"] else ["a", "c"]

/-- Two callers sharing a key: once the first took it, the second waits for the first, and yet some
caller can proceed. -/
theorem sharing_callers_proceed : ∃ t : Table 2, Reachable sharedKeys t ∧
    t.Waits sharedKeys 1 0 ∧ ∃ t', Proceeds sharedKeys t t' := by
  have hnext : (order (sharedKeys 0))[0]? = some "a" := by cbv
  have reach : Reachable sharedKeys
      ((Table.start 2).move 0 (.taking 1) ((Table.start 2).fill "a" true)) :=
    .next .start (.proceed (.take rfl hnext rfl))
  refine ⟨_, reach, ⟨"a", by cbv, by cbv; exact .head _⟩,
    (ordered_locking_never_deadlocks reach).1 ⟨0, by decide⟩⟩

end OrderSaga.Lock
