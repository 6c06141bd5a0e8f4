import Mathlib
import OrderSaga.Proofs.Replays

namespace OrderSaga

namespace Line

/-! ## Exact totals -/

def totalOf (r : UInt64) (ls : List Line) : Int :=
  ((ls.filter (·.resource == r)).map (·.amount.toInt)).sum

def total (ls : List Line) : Int := (ls.map (·.amount.toInt)).sum

variable {r : UInt64} {ls ls' : List Line}

@[simp] theorem totalOf_nil (r : UInt64) : totalOf r [] = 0 := rfl

@[simp] theorem total_nil : total [] = 0 := rfl

theorem totalOf_append (r : UInt64) (ls ls' : List Line) :
    totalOf r (ls ++ ls') = totalOf r ls + totalOf r ls' := by
  simp [totalOf, List.filter_append]

theorem total_append (ls ls' : List Line) : total (ls ++ ls') = total ls + total ls' := by
  simp [total]

theorem totalOf_single (r : UInt64) (l : Line) :
    totalOf r [l] = if l.resource = r then l.amount.toInt else 0 := by
  by_cases h : l.resource = r <;> simp [totalOf, h]

theorem totalOf_eq_zero (h : r ∉ ls.map (·.resource)) : totalOf r ls = 0 := by
  have hnone : ls.filter (·.resource == r) = [] :=
    List.filter_eq_nil_iff.mpr fun l hl hr => h (List.mem_map.mpr ⟨l, hl, by simpa using hr⟩)
  simp [totalOf, hnone]

theorem totalOf_nonneg (hpos : ∀ l ∈ ls, 0 < l.amount.toInt) (r : UInt64) :
    0 ≤ totalOf r ls :=
  List.sum_nonneg fun a ha => by
    obtain ⟨l, hl, rfl⟩ := List.mem_map.mp ha
    exact (hpos l (List.mem_filter.mp hl).1).le

theorem total_nonneg (hpos : ∀ l ∈ ls, 0 < l.amount.toInt) : 0 ≤ total ls :=
  List.sum_nonneg fun a ha => by
    obtain ⟨l, hl, rfl⟩ := List.mem_map.mp ha
    exact (hpos l hl).le

theorem totalOf_perm (h : ls.Perm ls') (r : UInt64) : totalOf r ls = totalOf r ls' :=
  ((h.filter _).map _).sum_eq

theorem total_perm (h : ls.Perm ls') : total ls = total ls' := (h.map _).sum_eq

end Line

namespace Kind

/-! ## Admitted lines and their normal form -/

/-- The lines a participant of kind `k` admits: each asks a positive amount, of a named resource
unless it asks points, and the exact totals fit an amount: of each resource for stock, of all lines
for points. -/
def Admits : Kind → List Line → Prop
  | .stock, ls => (∀ l ∈ ls, l.resource ≠ 0 ∧ 0 < l.amount.toInt) ∧
      ∀ r, Line.totalOf r ls ≤ 2 ^ 63 - 1
  | .coupon, ls => ∀ l ∈ ls, l.resource ≠ 0 ∧ 0 < l.amount.toInt
  | .point, ls => (∀ l ∈ ls, 0 < l.amount.toInt) ∧ Line.total ls ≤ 2 ^ 63 - 1

/-- What a participant of kind `k` says of the line it refuses. -/
def complaint (k : Kind) (l : Line) : String :=
  match k with
  | .point => if l.amount ≤ 0 then "point amount must be positive" else "amount overflows"
  | .stock | .coupon =>
    if l.resource = 0 then "resource id is required"
    else if l.amount ≤ 0 then
      "resource " ++ toString l.resource.toNat ++ " amount must be positive"
    else "amount overflows: resource " ++ toString l.resource.toNat

/-- `out` has one line for each resource that `ls` names, carrying `amount` of its resource. -/
structure PerResource (amount : UInt64 → Int) (ls out : List Line) : Prop where
  nodup : (out.map (·.resource)).Nodup
  mem_iff : ∀ r, r ∈ out.map (·.resource) ↔ r ∈ ls.map (·.resource)
  amount_eq : ∀ x ∈ out, x.amount.toInt = amount x.resource

/-- The normal form of admitted lines: one line per resource, ascending by resource, carrying the
resource's exact total, or one for a coupon; for points the one line of resource 0 carrying the
exact total. -/
def NormalForm : Kind → List Line → List Line → Prop
  | .stock, ls, out =>
    PerResource (Line.totalOf · ls) ls out ∧ out.Pairwise (·.resource < ·.resource)
  | .coupon, ls, out => PerResource (fun _ => 1) ls out ∧ out.Pairwise (·.resource < ·.resource)
  | .point, ls, out => ∃ a : Int64, out = [⟨0, a⟩] ∧ a.toInt = Line.total ls

variable {k : Kind} {ls ls' out out' : List Line}

theorem Admits.of_append (h : k.Admits (ls ++ ls')) : k.Admits ls := by
  cases k with
  | stock =>
    obtain ⟨hl, ht⟩ := h
    refine ⟨fun l hl' => hl l (List.mem_append_left _ hl'), fun r => ?_⟩
    have hmore := Line.totalOf_nonneg (fun l hl' => (hl l (List.mem_append_right _ hl')).2) r
    have := ht r
    rw [Line.totalOf_append] at this
    omega
  | coupon => exact fun l hl' => h l (List.mem_append_left _ hl')
  | point =>
    obtain ⟨hl, ht⟩ := h
    refine ⟨fun l hl' => hl l (List.mem_append_left _ hl'), ?_⟩
    have hmore := Line.total_nonneg fun l hl' => hl l (List.mem_append_right ls hl')
    rw [Line.total_append] at ht
    omega

theorem Admits.take (h : k.Admits ls) (i : Nat) : k.Admits (ls.take i) :=
  Admits.of_append (show k.Admits (ls.take i ++ ls.drop i) by rwa [List.take_append_drop])

theorem Admits.perm (hp : ls.Perm ls') (h : k.Admits ls) : k.Admits ls' := by
  cases k with
  | stock =>
    exact ⟨fun l hl => h.1 l (hp.mem_iff.mpr hl), fun r => Line.totalOf_perm hp r ▸ h.2 r⟩
  | coupon => exact fun l hl => h l (hp.mem_iff.mpr hl)
  | point => exact ⟨fun l hl => h.1 l (hp.mem_iff.mpr hl), Line.total_perm hp ▸ h.2⟩

theorem PerResource.perm_lines {f : UInt64 → Int} (hp : ls.Perm ls') (h : PerResource f ls out) :
    PerResource f ls' out :=
  ⟨h.nodup, fun r => (h.mem_iff r).trans (hp.map _).mem_iff, h.amount_eq⟩

theorem PerResource.perm_out {f : UInt64 → Int} (hp : out.Perm out') (h : PerResource f ls out) :
    PerResource f ls out' :=
  ⟨(hp.map _).nodup_iff.mp h.nodup, fun r => ((hp.map _).mem_iff.symm).trans (h.mem_iff r),
    fun x hx => h.amount_eq x (hp.mem_iff.mpr hx)⟩

theorem NormalForm.perm (hp : ls.Perm ls') (h : k.NormalForm ls out) : k.NormalForm ls' out := by
  cases k with
  | stock =>
    have hf : (Line.totalOf · ls) = (Line.totalOf · ls') := funext (Line.totalOf_perm hp)
    exact ⟨hf ▸ h.1.perm_lines hp, h.2⟩
  | coupon => exact ⟨h.1.perm_lines hp, h.2⟩
  | point =>
    obtain ⟨a, rfl, ha⟩ := h
    exact ⟨a, rfl, ha.trans (Line.total_perm hp)⟩

theorem PerResource.unique {f : UInt64 → Int} (h : PerResource f ls out)
    (h' : PerResource f ls out') (hs : out.Pairwise (·.resource < ·.resource))
    (hs' : out'.Pairwise (·.resource < ·.resource)) : out = out' := by
  have hmem : ∀ {o o' : List Line}, PerResource f ls o → PerResource f ls o' →
      ∀ x ∈ o, x ∈ o' := by
    intro o o' ho ho' x hx
    have hr : x.resource ∈ o'.map (·.resource) :=
      (ho'.mem_iff _).mpr ((ho.mem_iff _).mp (List.mem_map.mpr ⟨x, hx, rfl⟩))
    obtain ⟨y, hy, hyx⟩ := List.mem_map.mp hr
    have hamount : y.amount = x.amount :=
      Int64.toInt_inj.mp (by rw [ho'.amount_eq y hy, ho.amount_eq x hx, hyx])
    have hyx' : y = x := by
      cases x
      cases y
      simp_all
    exact hyx' ▸ hy
  have hperm : out.Perm out' :=
    (List.perm_ext_iff_of_nodup (List.Nodup.of_map _ h.nodup) (List.Nodup.of_map _ h'.nodup)).mpr
      fun x => ⟨hmem h h' x, hmem h' h x⟩
  exact @List.Perm.eq_of_pairwise _ (fun a b : Line => a.resource < b.resource) _ _
    (fun _ _ _ _ hab hba => absurd hba (UInt64.lt_asymm hab)) hs hs' hperm

theorem NormalForm.unique (h : k.NormalForm ls out) (h' : k.NormalForm ls out') : out = out' := by
  cases k with
  | stock => exact h.1.unique h'.1 h.2 h'.2
  | coupon => exact h.1.unique h'.1 h.2 h'.2
  | point =>
    obtain ⟨a, rfl, ha⟩ := h
    obtain ⟨a', rfl, ha'⟩ := h'
    rw [Int64.toInt_inj.mp (ha.trans ha'.symm)]

/-! ## Merging one line -/

theorem resources_replace (merged : List Line) (r : UInt64) (t : Int64) :
    (merged.map fun x => if x.resource == r then (⟨x.resource, t⟩ : Line) else x).map
      (·.resource) = merged.map (·.resource) := by
  simp only [List.map_map]
  exact List.map_congr_left fun x _ => by by_cases h : x.resource = r <;> simp [h]

theorem PerResource.add_new {f g : UInt64 → Int} {seen merged : List Line} {l : Line}
    {t : Int64} (hm : PerResource f seen merged) (hnew : l.resource ∉ merged.map (·.resource))
    (ht : g l.resource = t.toInt) (hg : ∀ r, r ≠ l.resource → g r = f r) :
    PerResource g (seen ++ [l]) (merged ++ [⟨l.resource, t⟩]) where
  nodup := by
    rw [List.map_append, List.nodup_append]
    refine ⟨hm.nodup, by simp, fun a ha b hb hab => hnew ?_⟩
    rw [List.mem_singleton.mp hb] at hab
    exact (show a = l.resource from hab) ▸ ha
  mem_iff r := by
    simp only [List.map_append, List.mem_append, List.map_cons, List.map_nil,
      List.mem_singleton, hm.mem_iff r]
  amount_eq x hx := by
    rcases List.mem_append.mp hx with hx | hx
    · have hne : x.resource ≠ l.resource := fun h => hnew (h ▸ List.mem_map.mpr ⟨x, hx, rfl⟩)
      rw [hg _ hne, hm.amount_eq x hx]
    · rw [List.mem_singleton.mp hx]
      exact ht.symm

theorem PerResource.add_known {f g : UInt64 → Int} {seen merged : List Line} {l : Line}
    {t : Int64} (hm : PerResource f seen merged) (hknown : l.resource ∈ merged.map (·.resource))
    (ht : g l.resource = t.toInt) (hg : ∀ r, r ≠ l.resource → g r = f r) :
    PerResource g (seen ++ [l])
      (merged.map fun x => if x.resource == l.resource then ⟨x.resource, t⟩ else x) where
  nodup := by
    rw [resources_replace]
    exact hm.nodup
  mem_iff r := by
    rw [resources_replace, hm.mem_iff r]
    simp only [List.map_append, List.mem_append, List.map_cons, List.map_nil,
      List.mem_singleton]
    refine ⟨.inl, fun h => h.elim id fun hr => ?_⟩
    rw [hr, ← hm.mem_iff]
    exact hknown
  amount_eq x hx := by
    obtain ⟨y, hy, rfl⟩ := List.mem_map.mp hx
    by_cases hyl : y.resource = l.resource
    · simpa [hyl] using ht.symm
    · simpa [hyl, hg _ hyl] using hm.amount_eq y hy

theorem not_mem_of_find?_none {merged : List Line} {r : UInt64}
    (h : merged.find? (·.resource == r) = none) : r ∉ merged.map (·.resource) := fun hin => by
  obtain ⟨x, hx, hxr⟩ := List.mem_map.mp hin
  simpa [hxr] using List.find?_eq_none.mp h x hx

theorem mem_of_find?_some {merged : List Line} {r : UInt64} {m : Line}
    (h : merged.find? (·.resource == r) = some m) : r ∈ merged.map (·.resource) :=
  List.mem_map.mpr ⟨m, List.mem_of_find?_eq_some h, by simpa using List.find?_some h⟩

theorem mergeInto_invalid (fixed : Option Int64) (merged : List Line) {l : Line}
    (h : l.resource = 0 ∨ l.amount ≤ 0) :
    mergeInto fixed merged l = .error (Condition.fail .invalidRequest (complaint .stock l)) := by
  unfold mergeInto complaint
  by_cases h0 : l.resource = 0
  · simp [h0]
  · have ha : l.amount ≤ 0 := h.resolve_left h0
    simp [h0, ha]

theorem not_pos_of_le {a : Int64} (h : a ≤ 0) : ¬ 0 < a.toInt := by
  rw [Int64.le_iff_toInt_le] at h
  simp at h
  omega

theorem not_admits_invalid {l : Line} (h : l.resource = 0 ∨ l.amount ≤ 0) :
    ¬ (l.resource ≠ 0 ∧ 0 < l.amount.toInt) := by
  rintro ⟨hr, hpos⟩
  rcases h with h | h
  · exact hr h
  · exact not_pos_of_le h hpos

theorem mergeInto_stock {seen merged : List Line}
    (hm : PerResource (Line.totalOf · seen) seen merged) (ha : Admits .stock seen) (l : Line) :
    (∀ merged', mergeInto none merged l = .ok merged' → Admits .stock (seen ++ [l]) ∧
      PerResource (Line.totalOf · (seen ++ [l])) (seen ++ [l]) merged') ∧
    (∀ e, mergeInto none merged l = .error e →
      ¬ Admits .stock (seen ++ [l]) ∧ e = Condition.fail .invalidRequest (complaint .stock l)) := by
  by_cases hv : l.resource = 0 ∨ l.amount ≤ 0
  ·
    rw [mergeInto_invalid none merged hv]
    refine ⟨fun _ h => (by cases h), fun e h => ⟨fun hadm => ?_, by cases h; rfl⟩⟩
    exact not_admits_invalid hv (hadm.1 l (by simp))
  obtain ⟨hr, hamt⟩ := not_or.mp hv
  have hpos := pos_of_not_le hamt
  have htot : ∀ r, Line.totalOf r (seen ++ [l]) =
      Line.totalOf r seen + if l.resource = r then l.amount.toInt else 0 := fun r => by
    rw [Line.totalOf_append, Line.totalOf_single]
  have hother : ∀ r, r ≠ l.resource → Line.totalOf r (seen ++ [l]) = Line.totalOf r seen :=
    fun r hne => by simp [htot, Ne.symm hne]
  have hlines : ∀ x ∈ seen ++ [l], x.resource ≠ 0 ∧ 0 < x.amount.toInt := fun x hx => by
    rcases List.mem_append.mp hx with hx | hx
    · exact ha.1 x hx
    · rw [List.mem_singleton.mp hx]
      exact ⟨hr, hpos⟩
  have hadmits : Line.totalOf l.resource (seen ++ [l]) ≤ 2 ^ 63 - 1 →
      Admits .stock (seen ++ [l]) := fun hle => ⟨hlines, fun r => by
    by_cases hrl : r = l.resource
    · exact hrl ▸ hle
    · rw [hother r hrl]
      exact ha.2 r⟩
  unfold mergeInto
  rw [if_neg (by simpa using hr), if_neg hamt]
  cases hfind : merged.find? (·.resource == l.resource) with
  | none =>
    have hnew := not_mem_of_find?_none hfind
    have hzero : Line.totalOf l.resource seen = 0 :=
      Line.totalOf_eq_zero fun hin => hnew ((hm.mem_iff _).mpr hin)
    have hsum : Line.totalOf l.resource (seen ++ [l]) = l.amount.toInt := by simp [htot, hzero]
    refine ⟨fun merged' h => ?_, fun e h => (by cases h)⟩
    cases h
    have hmax := Int64.toInt_lt l.amount
    exact ⟨hadmits (by omega), hm.add_new hnew hsum hother⟩
  | some m =>
    have hknown := mem_of_find?_some hfind
    obtain ⟨hmr, hm'⟩ : m.resource = l.resource ∧ m ∈ merged :=
      ⟨by simpa using List.find?_some hfind, List.mem_of_find?_eq_some hfind⟩
    have hmtot : m.amount.toInt = Line.totalOf l.resource seen := hmr ▸ hm.amount_eq m hm'
    have hmpos : 0 ≤ m.amount.toInt := hmtot ▸ Line.totalOf_nonneg (fun x hx => (ha.1 x hx).2) _
    have hsum : Line.totalOf l.resource (seen ++ [l]) = m.amount.toInt + l.amount.toInt := by
      simp [htot, hmtot]
    unfold addAmount
    by_cases hover : l.amount.toInt > 9223372036854775807 - m.amount.toInt
    · simp only [if_pos hover, bind, Except.bind]
      refine ⟨fun _ h => (by cases h), fun e h => ⟨fun hadm => ?_, ?_⟩⟩
      · have := hadm.2 l.resource
        omega
      · cases h
        simp [complaint, Condition.fail, Failure.detail, hr, hamt]
        simp only [← String.append_assoc]
        rfl
    · simp only [if_neg hover, bind, Except.bind, pure, Except.pure]
      refine ⟨fun merged' h => ?_, fun e h => (by cases h)⟩
      cases h
      have hexact : (m.amount + l.amount).toInt = m.amount.toInt + l.amount.toInt :=
        toInt_add_exact (by omega) (by omega)
      exact ⟨hadmits (by omega), hm.add_known hknown (hsum.trans hexact.symm) hother⟩

theorem mergeInto_coupon {seen merged : List Line} (hm : PerResource (fun _ => 1) seen merged)
    (ha : Admits .coupon seen) (l : Line) :
    (∀ merged', mergeInto (some 1) merged l = .ok merged' → Admits .coupon (seen ++ [l]) ∧
      PerResource (fun _ => 1) (seen ++ [l]) merged') ∧
    (∀ e, mergeInto (some 1) merged l = .error e → ¬ Admits .coupon (seen ++ [l]) ∧
      e = Condition.fail .invalidRequest (complaint .coupon l)) := by
  by_cases hv : l.resource = 0 ∨ l.amount ≤ 0
  ·
    rw [mergeInto_invalid (some 1) merged hv]
    refine ⟨fun _ h => (by cases h), fun e h => ⟨fun hadm => ?_, by cases h; rfl⟩⟩
    exact not_admits_invalid hv (hadm l (by simp))
  obtain ⟨hr, hamt⟩ := not_or.mp hv
  have hadm : Admits .coupon (seen ++ [l]) := fun x hx => by
    rcases List.mem_append.mp hx with hx | hx
    · exact ha x hx
    · rw [List.mem_singleton.mp hx]
      exact ⟨hr, pos_of_not_le hamt⟩
  unfold mergeInto
  rw [if_neg (by simpa using hr), if_neg hamt]
  cases hfind : merged.find? (·.resource == l.resource) with
  | none =>
    refine ⟨fun merged' h => ?_, fun e h => (by cases h)⟩
    cases h
    exact ⟨hadm, hm.add_new (not_mem_of_find?_none hfind) (by simp) fun _ _ => rfl⟩
  | some m =>
    refine ⟨fun merged' h => ?_, fun e h => (by cases h)⟩
    cases h
    exact ⟨hadm, hm.add_known (mem_of_find?_some hfind) (by simp) fun _ _ => rfl⟩

theorem addPoints_step {seen : List Line} {t : Int64} (ht : t.toInt = Line.total seen)
    (ha : Admits .point seen) (l : Line) :
    (∀ t', (if l.amount ≤ 0 then
        (throw (Condition.fail .invalidRequest "point amount must be positive") : Except Failure Int64)
        else addAmount t l.amount) = .ok t' →
      Admits .point (seen ++ [l]) ∧ t'.toInt = Line.total (seen ++ [l])) ∧
    (∀ e, (if l.amount ≤ 0 then
        (throw (Condition.fail .invalidRequest "point amount must be positive") : Except Failure Int64)
        else addAmount t l.amount) = .error e →
      ¬ Admits .point (seen ++ [l]) ∧ e = Condition.fail .invalidRequest (complaint .point l)) := by
  by_cases hamt : l.amount ≤ 0
  ·
    rw [if_pos hamt]
    refine ⟨fun _ h => (by cases h), fun e h => ⟨fun hadm => ?_, ?_⟩⟩
    · exact not_pos_of_le hamt (hadm.1 l (by simp))
    · cases h
      simp [complaint, hamt]
  rw [if_neg hamt]
  have hpos := pos_of_not_le hamt
  have htpos : 0 ≤ t.toInt := ht ▸ Line.total_nonneg ha.1
  have hsum : Line.total (seen ++ [l]) = t.toInt + l.amount.toInt := by
    simp [ht, Line.total]
  have hlines : ∀ x ∈ seen ++ [l], 0 < x.amount.toInt := fun x hx => by
    rcases List.mem_append.mp hx with hx | hx
    · exact ha.1 x hx
    · rw [List.mem_singleton.mp hx]
      exact hpos
  unfold addAmount
  by_cases hover : l.amount.toInt > 9223372036854775807 - t.toInt
  ·
    rw [if_pos hover]
    refine ⟨fun _ h => (by cases h), fun e h => ⟨fun hadm => ?_, ?_⟩⟩
    · have := hadm.2
      omega
    · cases h
      simp [complaint, hamt]
  · rw [if_neg hover]
    refine ⟨fun t' h => ?_, fun e h => (by cases h)⟩
    cases h
    have hexact : (t + l.amount).toInt = t.toInt + l.amount.toInt :=
      toInt_add_exact (by omega) (by omega)
    exact ⟨⟨hlines, by omega⟩, by omega⟩

/-! ## The first line refused -/

theorem foldlM_first_refusal {β : Type} {f : β → Line → Except Failure β}
    (Inv : List Line → β → Prop) (A : List Line → Prop) (refuse : Line → Failure)
    (hstep : ∀ seen b l, Inv seen b → A seen →
      (∀ b', f b l = .ok b' → A (seen ++ [l]) ∧ Inv (seen ++ [l]) b') ∧
      (∀ e, f b l = .error e → ¬ A (seen ++ [l]) ∧ e = refuse l)) :
    ∀ (rest seen : List Line) (b : β), Inv seen b → A seen →
      (∀ out, rest.foldlM f b = .ok out → A (seen ++ rest) ∧ Inv (seen ++ rest) out) ∧
      (∀ e, rest.foldlM f b = .error e → ∃ i, ∃ hi : i < rest.length,
        A (seen ++ rest.take i) ∧ ¬ A (seen ++ rest.take (i + 1)) ∧ e = refuse rest[i])
  | [], seen, b, hinv, hA => by
    refine ⟨fun out h => ?_, fun e h => ?_⟩
    · cases h
      simpa using ⟨hA, hinv⟩
    · cases h
  | l :: rest, seen, b, hinv, hA => by
    obtain ⟨hok, herr⟩ := hstep seen b l hinv hA
    rw [List.foldlM_cons]
    cases hb : f b l with
    | error e₀ =>
      obtain ⟨hnot, rfl⟩ := herr e₀ hb
      dsimp only [bind, Except.bind]
      refine ⟨fun out h => (by cases h), fun e h => ?_⟩
      cases h
      exact ⟨0, by simp, by simpa using hA, by simpa using hnot, rfl⟩
    | ok b' =>
      obtain ⟨hA', hinv'⟩ := hok b' hb
      dsimp only [bind, Except.bind]
      obtain ⟨ihok, iherr⟩ := foldlM_first_refusal Inv A refuse hstep rest (seen ++ [l]) b'
        hinv' hA'
      refine ⟨fun out h => by simpa using ihok out h, fun e h => ?_⟩
      obtain ⟨i, hi, hAi, hnot, he⟩ := iherr e h
      exact ⟨i + 1, by simpa using hi, by simpa using hAi, by simpa using hnot, he⟩

theorem admits_nil (k : Kind) : k.Admits [] := by
  cases k with
  | stock => exact ⟨by simp, fun r => by simp⟩
  | coupon => simp [Admits]
  | point => exact ⟨by simp, by simp⟩

theorem ascending_mergeSort {merged : List Line} (hnd : (merged.map (·.resource)).Nodup) :
    (merged.mergeSort fun a b => a.resource ≤ b.resource).Pairwise (·.resource < ·.resource) := by
  have hsorted := List.pairwise_mergeSort
    (fun a b c (hab : decide (a.resource ≤ b.resource) = true) hbc => by
      simp only [decide_eq_true_eq] at hab hbc ⊢
      exact UInt64.le_trans hab hbc)
    (fun a b => by simpa using UInt64.le_total a.resource b.resource) merged
  have hdistinct : (merged.mergeSort fun a b => a.resource ≤ b.resource).Pairwise
      (·.resource ≠ ·.resource) :=
    List.pairwise_map.mp (((List.mergeSort_perm merged _).map _).nodup_iff.mpr hnd)
  exact (hsorted.and hdistinct).imp fun ⟨hle, hne⟩ => UInt64.lt_of_le_of_ne (by simpa using hle) hne

theorem mergeLines_spec {fixed : Option Int64} {amount : List Line → UInt64 → Int}
    {A : List Line → Prop} {refuse : Line → Failure} (hA : A [])
    (hstep : ∀ seen merged l, PerResource (amount seen) seen merged → A seen →
      (∀ merged', mergeInto fixed merged l = .ok merged' → A (seen ++ [l]) ∧
        PerResource (amount (seen ++ [l])) (seen ++ [l]) merged') ∧
      (∀ e, mergeInto fixed merged l = .error e → ¬ A (seen ++ [l]) ∧ e = refuse l))
    (ls : List Line) :
    (∀ out, mergeLines fixed ls = .ok out → ls ≠ [] ∧ A ls ∧
      PerResource (amount ls) ls out ∧ out.Pairwise (·.resource < ·.resource)) ∧
    (∀ e, mergeLines fixed ls = .error e →
      ls = [] ∧ e = Condition.fail .invalidRequest "no lines" ∨
      ∃ i, ∃ hi : i < ls.length, A (ls.take i) ∧ ¬ A (ls.take (i + 1)) ∧ e = refuse ls[i]) := by
  obtain ⟨hok, herr⟩ := foldlM_first_refusal (fun seen merged => PerResource (amount seen) seen merged)
    A refuse hstep ls [] [] ⟨List.nodup_nil, by simp, by simp⟩ hA
  unfold mergeLines
  by_cases hne : ls = []
  · subst hne
    exact ⟨fun out h => (by cases h), fun e h => .inl ⟨rfl, by cases h; rfl⟩⟩
  have hnil : ls.isEmpty = false := by simpa using hne
  simp only [hnil, Bool.false_eq_true, if_false, bind, Except.bind, pure, Except.pure]
  cases hm : ls.foldlM (mergeInto fixed) [] with
  | error e₀ =>
    obtain ⟨i, hi, hAi, hnot, he⟩ := herr e₀ hm
    refine ⟨fun out h => (by cases h), fun e h => .inr ⟨i, hi, by simpa using hAi,
      by simpa using hnot, by cases h; exact he⟩⟩
  | ok merged =>
    obtain ⟨hAls, hper⟩ := hok merged hm
    simp only [List.nil_append] at hAls hper
    refine ⟨fun out h => ?_, fun e h => (by cases h)⟩
    cases h
    exact ⟨hne, hAls, hper.perm_out (List.mergeSort_perm merged _).symm,
      ascending_mergeSort hper.nodup⟩

theorem normalize_cases (k : Kind) (ls : List Line) :
    (∀ out, k.normalize ls = .ok out → ls ≠ [] ∧ k.Admits ls ∧ k.NormalForm ls out) ∧
    (∀ e, k.normalize ls = .error e →
      ls = [] ∧ e = Condition.fail .invalidRequest "no lines" ∨
      ∃ i, ∃ hi : i < ls.length, k.Admits (ls.take i) ∧ ¬ k.Admits (ls.take (i + 1)) ∧
        e = Condition.fail .invalidRequest (k.complaint ls[i])) := by
  cases k with
  | stock =>
    obtain ⟨hok, herr⟩ := mergeLines_spec (admits_nil .stock)
      (fun seen merged l hm ha => mergeInto_stock hm ha l) ls
    exact ⟨fun out h => by obtain ⟨hne, ha, hp, hs⟩ := hok out h; exact ⟨hne, ha, hp, hs⟩, herr⟩
  | coupon =>
    obtain ⟨hok, herr⟩ := mergeLines_spec (admits_nil .coupon)
      (fun seen merged l hm ha => mergeInto_coupon hm ha l) ls
    exact ⟨fun out h => by obtain ⟨hne, ha, hp, hs⟩ := hok out h; exact ⟨hne, ha, hp, hs⟩, herr⟩
  | point =>
    obtain ⟨hok, herr⟩ := foldlM_first_refusal (fun seen (t : Int64) => t.toInt = Line.total seen)
      (Admits .point) (fun l => Condition.fail .invalidRequest (complaint .point l))
      (fun seen t l ht ha => addPoints_step ht ha l) ls [] 0 (by decide) (admits_nil .point)
    unfold normalize
    by_cases hne : ls = []
    · subst hne
      exact ⟨fun out h => (by cases h), fun e h => .inl ⟨rfl, by cases h; rfl⟩⟩
    have hnil : ls.isEmpty = false := by simpa using hne
    simp only [hnil, Bool.false_eq_true, if_false, bind, Except.bind, pure, Except.pure]
    split
    next e₀ hm =>
      obtain ⟨i, hi, hAi, hnot, he⟩ := herr e₀ hm
      refine ⟨fun out h => (by cases h), fun e h => .inr ⟨i, hi, by simpa using hAi,
        by simpa using hnot, by cases h; exact he⟩⟩
    next total hm =>
      obtain ⟨hAls, htotal⟩ := hok total hm
      simp only [List.nil_append] at hAls htotal
      refine ⟨fun out h => ?_, fun e h => (by cases h)⟩
      cases h
      exact ⟨hne, hAls, total, rfl, htotal⟩

theorem normalize_admitted {k : Kind} {ls : List Line} (hne : ls ≠ []) (ha : k.Admits ls) :
    ∃ out, k.normalize ls = .ok out := by
  cases h : k.normalize ls with
  | ok out => exact ⟨out, rfl⟩
  | error e =>
    rcases (normalize_cases k ls).2 e h with ⟨hnil, -⟩ | ⟨i, -, -, hnot, -⟩
    · exact absurd hnil hne
    · exact absurd (ha.take (i + 1)) hnot

/-- **Request lines are normalized exactly.** -/
theorem normalize_exact (k : Kind) (ls : List Line) :
    ((∃ out, k.normalize ls = .ok out) ↔ ls ≠ [] ∧ k.Admits ls) ∧
    (∀ out, k.normalize ls = .ok out → k.NormalForm ls out) ∧
    (∀ e, k.normalize ls = .error e →
      ls = [] ∧ e = Condition.fail .invalidRequest "no lines" ∨
      ∃ i, ∃ hi : i < ls.length, k.Admits (ls.take i) ∧ ¬ k.Admits (ls.take (i + 1)) ∧
        e = Condition.fail .invalidRequest (k.complaint ls[i])) ∧
    ∀ ls' out, ls.Perm ls' → k.normalize ls = .ok out → k.normalize ls' = .ok out := by
  obtain ⟨hok, herr⟩ := normalize_cases k ls
  refine ⟨⟨fun ⟨out, h⟩ => ⟨(hok out h).1, (hok out h).2.1⟩,
    fun ⟨hne, ha⟩ => normalize_admitted hne ha⟩, fun out h => (hok out h).2.2, herr,
    fun ls' out hp h => ?_⟩
  obtain ⟨hne, ha, hnf⟩ := hok out h
  obtain ⟨out', h'⟩ := normalize_admitted (fun hnil => hne (hnil ▸ hp).eq_nil) (ha.perm hp)
  have hnf' := ((normalize_cases k ls').1 out' h').2.2
  rw [h', hnf'.unique (hnf.perm hp)]

/- A failure names the first line refused: the same lines in another order overflow first. -/
example : Kind.normalize .stock [⟨1, 9223372036854775807⟩, ⟨0, 1⟩, ⟨1, 1⟩] =
    .error (Condition.fail .invalidRequest "resource id is required") := by decide

example : Kind.normalize .stock [⟨1, 9223372036854775807⟩, ⟨1, 1⟩, ⟨0, 1⟩] =
    .error (Condition.fail .invalidRequest "amount overflows: resource 1") := by decide

end Kind

end OrderSaga
