import Mathlib
import OrderSaga.Proofs.Holds

namespace OrderSaga

open Store

/-! ## Lookups after a write -/

section Lookups

variable {s s' : Store}

theorem getOption_of_options (h : s'.options = s.options) (k : UInt64) :
    s'.getOption k = s.getOption k := by
  simp only [Store.getOption, h]

theorem getCoupon_of_coupons (h : s'.coupons = s.coupons) (k : UInt64) :
    s'.getCoupon k = s.getCoupon k := by
  simp only [Store.getCoupon, h]

theorem getPoints_of_points (h : s'.points = s.points) (k : UInt64) :
    s'.getPoints k = s.getPoints k := by
  simp only [Store.getPoints, h]

theorem getOption_after {p' : ProductOption} (h : s'.options = upsert (·.id) p' s.options)
    (k : UInt64) : s'.getOption k = if k = p'.id then .ok p' else s.getOption k := by
  rw [getOption_of_options (s := { s with options := upsert (·.id) p' s.options }) h,
    getOption_upsert]
  by_cases hk : k = p'.id
  · simp [hk]
  · simp [hk, Ne.symm hk]

theorem getCoupon_after {c' : Coupon} (h : s'.coupons = upsert (·.id) c' s.coupons)
    (k : UInt64) : s'.getCoupon k = if k = c'.id then .ok c' else s.getCoupon k := by
  rw [getCoupon_of_coupons (s := { s with coupons := upsert (·.id) c' s.coupons }) h,
    getCoupon_upsert]
  by_cases hk : k = c'.id
  · simp [hk]
  · simp [hk, Ne.symm hk]

theorem getPoints_after {p' : PointBalance} (h : s'.points = upsert (·.userId) p' s.points)
    (k : UInt64) : s'.getPoints k = if k = p'.userId then .ok p' else s.getPoints k := by
  rw [getPoints_of_points (s := { s with points := upsert (·.userId) p' s.points }) h,
    getPoints_upsert]
  by_cases hk : k = p'.userId
  · simp [hk]
  · simp [hk, Ne.symm hk]

end Lookups

/-- The pools of a participant, read by key. -/
structure PoolTable (α : Type) where
  lookup : Store → UInt64 → Except Failure α
  total : α → Int64
  reserved : α → Int64
  onKey : UInt64 → LedgerEntry → Bool

/-- Product options by id; a stock row holds from the option it names. -/
def optionPools : PoolTable ProductOption where
  lookup := Store.getOption
  total := (·.stock)
  reserved := (·.reserved)
  onKey id e := e.resource == id

/-- Point balances by user; a point row holds from its user's balance, under resource 0. -/
def pointPools : PoolTable PointBalance where
  lookup := Store.getPoints
  total := (·.balance)
  reserved := (·.reserved)
  onKey u e := e.userId == u && e.resource == 0

def takenOn (onKey : LedgerEntry → Bool) (rows : List LedgerEntry) : Int :=
  amountOf (fun e => e.type == .confirm && onKey e) rows

variable {α : Type}

/-- Every pool of a table against the store the participant started from. -/
structure PoolsKept (t : PoolTable α) (s₀ s : Store) (rows : List LedgerEntry) : Prop where
  present : ∀ key, (∃ a, t.lookup s key = .ok a) ↔ ∃ a₀, t.lookup s₀ key = .ok a₀
  pools : ∀ key a₀ a, t.lookup s₀ key = .ok a₀ → t.lookup s key = .ok a →
    Pool (t.total a₀) (t.reserved a₀) (t.total a) (t.reserved a)
      (amountOf (t.onKey key) (openRows rows)) (takenOn (t.onKey key) rows)

namespace PoolsKept

variable {t : PoolTable α} {s₀ s s' : Store} {rows rows' : List LedgerEntry}

theorem of_same (hk : PoolsKept t s₀ s rows) (hl : ∀ key, t.lookup s' key = t.lookup s key) :
    PoolsKept t s₀ s' rows :=
  ⟨fun key => by rw [hl]; exact hk.present key,
    fun key a₀ a h₀ h => hk.pools key a₀ a h₀ (by rw [← hl]; exact h)⟩

theorem update (hk : PoolsKept t s₀ s rows) {key : UInt64} {a a' : α}
    (hlook : t.lookup s key = .ok a)
    (hnew : ∀ k, t.lookup s' k = if k = key then .ok a' else t.lookup s k) {dh dt : Int}
    (hheld : ∀ k, amountOf (t.onKey k) (openRows rows') =
      amountOf (t.onKey k) (openRows rows) + if k = key then dh else 0)
    (htaken : ∀ k, takenOn (t.onKey k) rows' =
      takenOn (t.onKey k) rows + if k = key then dt else 0)
    (hpool : ∀ a₀, t.lookup s₀ key = .ok a₀ →
      Pool (t.total a₀) (t.reserved a₀) (t.total a) (t.reserved a)
        (amountOf (t.onKey key) (openRows rows)) (takenOn (t.onKey key) rows) →
      Pool (t.total a₀) (t.reserved a₀) (t.total a') (t.reserved a')
        (amountOf (t.onKey key) (openRows rows) + dh) (takenOn (t.onKey key) rows + dt)) :
    PoolsKept t s₀ s' rows' := by
  refine ⟨fun k => ?_, fun k a₀ b h₀ h => ?_⟩
  · rw [hnew]
    split
    next hkey =>
      subst hkey
      exact ⟨fun _ => (hk.present k).mp ⟨a, hlook⟩, fun _ => ⟨a', rfl⟩⟩
    next => exact hk.present k
  · rw [hnew] at h
    rw [hheld, htaken]
    split at h
    next hkey =>
      subst hkey
      cases h
      simpa using hpool a₀ h₀ (hk.pools k a₀ a h₀ hlook)
    next hkey => simpa [hkey] using hk.pools k a₀ b h₀ h

theorem hold_row (hk : PoolsKept t s₀ s rows) {key : UInt64} {a a' : α} {e : LedgerEntry}
    (hlook : t.lookup s key = .ok a)
    (hnew : ∀ k, t.lookup s' k = if k = key then .ok a' else t.lookup s k)
    (hrows : rows' = rows ++ [e]) (hopen : openRows rows' = openRows rows ++ [e])
    (ht : e.type = .reserve) (hon : ∀ k, t.onKey k e = decide (k = key))
    (hpos : 0 < e.amount.toInt) (havail : ¬ t.total a - t.reserved a < e.amount)
    (htotal : t.total a' = t.total a) (hres : t.reserved a' = t.reserved a + e.amount) :
    PoolsKept t s₀ s' rows' := by
  have hheld : ∀ k, amountOf (t.onKey k) (openRows rows') =
      amountOf (t.onKey k) (openRows rows) + if k = key then e.amount.toInt else 0 := by
    intro k
    rw [hopen, amountOf_append, amountOf_singleton, hon k]
    by_cases h : k = key <;> simp [h]
  have htaken : ∀ k, takenOn (t.onKey k) rows' =
      takenOn (t.onKey k) rows + if k = key then 0 else 0 := by
    intro k
    simp [takenOn, hrows, ht]
  refine hk.update hlook hnew hheld htaken fun a₀ _ hp => ?_
  rw [htotal, hres, Int.add_zero]
  exact hp.hold hpos havail

theorem held_close (hkeyed : Keyed rows) {key : UInt64} {r f : LedgerEntry} (hr : r ∈ rows)
    (hrt : r.type = .reserve) (hft : f.type = .confirm ∨ f.type = .cancel)
    (hkey : r.sameKey f = true) (hamt : f.amount = r.amount)
    (hfree : (rows.any fun x => x.sameKey f && x.stage == 2) = false)
    (hrows : rows' = rows ++ [f]) (hon : ∀ k, t.onKey k r = decide (k = key))
    (hbykey : ∀ k x y, x.sameKey y = true → t.onKey k x = t.onKey k y) (k : UInt64) :
    amountOf (t.onKey k) (openRows rows') =
      amountOf (t.onKey k) (openRows rows) + if k = key then -r.amount.toInt else 0 := by
  rw [hrows, hkeyed.amountOf_close hr hrt hft hkey hamt hfree (hbykey k), hon k]
  by_cases h : k = key <;> simp [h, Int.sub_eq_add_neg]

theorem le_held (hkeyed : Keyed rows) {key : UInt64} {r f : LedgerEntry} (hr : r ∈ rows)
    (hrt : r.type = .reserve) (hkey : r.sameKey f = true)
    (hfree : (rows.any fun x => x.sameKey f && x.stage == 2) = false)
    (hon : ∀ k, t.onKey k r = decide (k = key)) :
    r.amount.toInt ≤ amountOf (t.onKey key) (openRows rows) :=
  hkeyed.le_amountOf_open (Keyed.open_of_free hr hrt hkey hfree) (by simp [hon])

theorem release_row (hk : PoolsKept t s₀ s rows) (hkeyed : Keyed rows) {key : UInt64}
    {a a' : α} {r f : LedgerEntry} (hlook : t.lookup s key = .ok a)
    (hnew : ∀ k, t.lookup s' k = if k = key then .ok a' else t.lookup s k)
    (hr : r ∈ rows) (hrt : r.type = .reserve) (hft : f.type = .cancel)
    (hkey : r.sameKey f = true) (hamt : f.amount = r.amount)
    (hfree : (rows.any fun x => x.sameKey f && x.stage == 2) = false)
    (hrows : rows' = rows ++ [f]) (hon : ∀ k, t.onKey k r = decide (k = key))
    (hbykey : ∀ k x y, x.sameKey y = true → t.onKey k x = t.onKey k y)
    (htotal : t.total a' = t.total a)
    (hres : t.reserved a' = Kind.lessReserved (t.reserved a) r.amount) :
    PoolsKept t s₀ s' rows' := by
  have htaken : ∀ k, takenOn (t.onKey k) rows' =
      takenOn (t.onKey k) rows + if k = key then 0 else 0 := by
    intro k
    simp [takenOn, hrows, hft]
  refine hk.update hlook hnew
    (held_close hkeyed hr hrt (.inr hft) hkey hamt hfree hrows hon hbykey) htaken
    fun a₀ _ hp => ?_
  rw [htotal, hres, Int.add_zero, ← Int.sub_eq_add_neg]
  exact hp.release (hkeyed.positive r hr) (le_held hkeyed hr hrt hkey hfree hon)

theorem commit_row (hk : PoolsKept t s₀ s rows) (hkeyed : Keyed rows) {key : UInt64}
    {a a' : α} {r f : LedgerEntry} (hlook : t.lookup s key = .ok a)
    (hnew : ∀ k, t.lookup s' k = if k = key then .ok a' else t.lookup s k)
    (hr : r ∈ rows) (hrt : r.type = .reserve) (hft : f.type = .confirm)
    (hkey : r.sameKey f = true) (hamt : f.amount = r.amount)
    (hfree : (rows.any fun x => x.sameKey f && x.stage == 2) = false)
    (hrows : rows' = rows ++ [f]) (hon : ∀ k, t.onKey k r = decide (k = key))
    (hbykey : ∀ k x y, x.sameKey y = true → t.onKey k x = t.onKey k y)
    (htotal : t.total a' = t.total a - r.amount)
    (hres : t.reserved a' = Kind.lessReserved (t.reserved a) r.amount) :
    PoolsKept t s₀ s' rows' := by
  have htaken : ∀ k, takenOn (t.onKey k) rows' =
      takenOn (t.onKey k) rows + if k = key then r.amount.toInt else 0 := by
    intro k
    unfold takenOn
    rw [hrows, amountOf_append, amountOf_singleton, ← hbykey k r f hkey, hon k, hamt]
    by_cases h : k = key <;> simp [h, hft]
  refine hk.update hlook hnew
    (held_close hkeyed hr hrt (.inl hft) hkey hamt hfree hrows hon hbykey) htaken
    fun a₀ _ hp => ?_
  rw [htotal, hres, ← Int.sub_eq_add_neg]
  exact hp.commit (hkeyed.positive r hr) (le_held hkeyed hr hrt hkey hfree hon)

end PoolsKept

/-- A coupon against its ledger and the coupon it was at the start. -/
structure CouponHeld (rows : List LedgerEntry) (c₀ c : Coupon) : Prop where
  owner : c.userId = c₀.userId
  status : c.status = .available ∧ c.reservedBy = 0 ∨ c.status = .reserved ∨ c.status = .used
  holder : ∀ r ∈ openRows rows, r.resource = c.id →
    c.status = .reserved ∧ c.reservedBy = r.orderId ∧ r.userId = c.userId
  held : c.status = .reserved → ∃ r ∈ openRows rows, r.resource = c.id
  used : c.status = .used ↔
    c₀.status = .used ∨ ∃ f ∈ rows, f.type = .confirm ∧ f.resource = c.id
  once : rows.countP (fun f => f.type == .confirm && f.resource == c.id) +
    (if c₀.status = .used then 1 else 0) ≤ 1

namespace CouponHeld

variable {rows rows' : List LedgerEntry} {c₀ c c' : Coupon}

theorem append_other (hc : CouponHeld rows c₀ c) {x : LedgerEntry} (hx : x.resource ≠ c.id)
    (hopen : ∀ r, r.resource = c.id → (r ∈ openRows (rows ++ [x]) ↔ r ∈ openRows rows)) :
    CouponHeld (rows ++ [x]) c₀ c := by
  refine ⟨hc.owner, hc.status, fun r hr hrc => hc.holder r ((hopen r hrc).mp hr) hrc,
    fun hst => ?_, ?_, ?_⟩
  · obtain ⟨r, hr, hrc⟩ := hc.held hst
    exact ⟨r, (hopen r hrc).mpr hr, hrc⟩
  · rw [hc.used]
    constructor
    · rintro (h | ⟨f, hf, hft, hfc⟩)
      · exact .inl h
      · exact .inr ⟨f, List.mem_append_left _ hf, hft, hfc⟩
    · rintro (h | ⟨f, hf, hft, hfc⟩)
      · exact .inl h
      · rcases List.mem_append.mp hf with hf | hf
        · exact .inr ⟨f, hf, hft, hfc⟩
        · rw [List.mem_singleton.mp hf] at hfc
          exact absurd hfc hx
  · have hzero : [x].countP (fun f => f.type == .confirm && f.resource == c.id) = 0 := by
      simp [hx]
    rw [List.countP_append, hzero, Nat.add_zero]
    exact hc.once

theorem unconfirmed (hc : CouponHeld rows c₀ c) (hst : c.status ≠ .used) :
    c₀.status ≠ .used ∧
      rows.countP (fun f => f.type == .confirm && f.resource == c.id) = 0 := by
  have hnot := fun h => hst (hc.used.mpr h)
  refine ⟨fun h => hnot (.inl h), List.countP_eq_zero.mpr fun f hf hfc => ?_⟩
  simp only [Bool.and_eq_true, beq_iff_eq] at hfc
  exact hnot (.inr ⟨f, hf, hfc.1, hfc.2⟩)

theorem none_open_after (hc : CouponHeld rows c₀ c) {r f : LedgerEntry}
    (hr : r ∈ openRows rows) (hres : r.resource = c.id) (hkey : r.sameKey f = true) :
    ∀ x ∈ (openRows rows).filter (fun x => !f.sameKey x), x.resource ≠ c.id := by
  intro x hx hxc
  obtain ⟨hxo, hxf⟩ := List.mem_filter.mp hx
  obtain ⟨-, hby, hru⟩ := hc.holder r hr hres
  obtain ⟨-, hby', hxu⟩ := hc.holder x hxo hxc
  have hfx : f.sameKey x = true := by
    rw [LedgerEntry.sameKey_comm] at hkey
    refine LedgerEntry.sameKey_trans hkey (LedgerEntry.sameKey_iff.mpr ⟨?_, ?_, ?_⟩)
    · exact hby.symm.trans hby'
    · exact hru.trans hxu.symm
    · exact hres.trans hxc.symm
  simp [hfx] at hxf

theorem hold (hc : CouponHeld rows c₀ c) {e : LedgerEntry}
    (hrows : rows' = rows ++ [e]) (hopen : openRows rows' = openRows rows ++ [e])
    (ht : e.type = .reserve) (hres : e.resource = c.id) (huser : e.userId = c.userId)
    (hfree : c.status = .available) (hid : c'.id = c.id) (howner : c'.userId = c.userId)
    (hst : c'.status = .reserved) (hby : c'.reservedBy = e.orderId) :
    CouponHeld rows' c₀ c' := by
  have hnot := hc.unconfirmed (by rw [hfree]; decide)
  refine ⟨howner.trans hc.owner, .inr (.inl hst), fun r hr hrc => ?_, fun _ => ?_, ?_, ?_⟩
  · rw [hopen] at hr
    rcases List.mem_append.mp hr with hr | hr
    ·
      have := (hc.holder r hr (hrc.trans hid)).1
      rw [hfree] at this
      cases this
    · rw [List.mem_singleton.mp hr]
      exact ⟨hst, hby, huser.trans howner.symm⟩
  · exact ⟨e, by rw [hopen]; exact List.mem_append_right _ (List.mem_singleton_self e),
      hres.trans hid.symm⟩
  · rw [hst, hrows, hid]
    constructor
    · intro h
      cases h
    · rintro (h | ⟨f, hf, hft, hfc⟩)
      · exact absurd h hnot.1
      · rcases List.mem_append.mp hf with hf | hf
        · have hpos : 0 < rows.countP (fun f => f.type == .confirm && f.resource == c.id) :=
            List.countP_pos_iff.mpr ⟨f, hf, by simp [hft, hfc]⟩
          rw [hnot.2] at hpos
          cases hpos
        · rw [List.mem_singleton.mp hf, ht] at hft
          cases hft
  · rw [hrows, hid, List.countP_append]
    simp [ht, hnot.2, hnot.1]

theorem commit (hc : CouponHeld rows c₀ c) {r f : LedgerEntry} (hr : r ∈ openRows rows)
    (hres : r.resource = c.id) (hkey : r.sameKey f = true) (hft : f.type = .confirm)
    (hrows : rows' = rows ++ [f])
    (hopen : openRows rows' = (openRows rows).filter fun x => !f.sameKey x)
    (hheld : c.status = .reserved) (hid : c'.id = c.id) (howner : c'.userId = c.userId)
    (hst : c'.status = .used) :
    CouponHeld rows' c₀ c' := by
  have hnot := hc.unconfirmed (by rw [hheld]; decide)
  have hfc : f.resource = c.id := ((LedgerEntry.sameKey_iff.mp hkey).2.2).symm.trans hres
  refine ⟨howner.trans hc.owner, .inr (.inr hst), fun x hx hxc => ?_, fun h => ?_, ?_, ?_⟩
  · rw [hopen] at hx
    exact absurd (hxc.trans hid) (hc.none_open_after hr hres hkey x hx)
  · rw [hst] at h
    cases h
  · rw [hst, hid]
    have hf : f ∈ rows' := by
      rw [hrows]
      exact List.mem_append_right _ (List.mem_singleton_self f)
    exact ⟨fun _ => .inr ⟨f, hf, hft, hfc⟩, fun _ => rfl⟩
  · rw [hrows, hid, List.countP_append]
    simp [hft, hfc, hnot.2, hnot.1]

theorem release (hc : CouponHeld rows c₀ c) {r f : LedgerEntry} (hr : r ∈ openRows rows)
    (hres : r.resource = c.id) (hkey : r.sameKey f = true) (hft : f.type = .cancel)
    (hrows : rows' = rows ++ [f])
    (hopen : openRows rows' = (openRows rows).filter fun x => !f.sameKey x)
    (hheld : c.status = .reserved) (hid : c'.id = c.id) (howner : c'.userId = c.userId)
    (hst : c'.status = .available) (hby : c'.reservedBy = 0) :
    CouponHeld rows' c₀ c' := by
  have hnot := hc.unconfirmed (by rw [hheld]; decide)
  refine ⟨howner.trans hc.owner, .inl ⟨hst, hby⟩, fun x hx hxc => ?_, fun h => ?_, ?_, ?_⟩
  · rw [hopen] at hx
    exact absurd (hxc.trans hid) (hc.none_open_after hr hres hkey x hx)
  · rw [hst] at h
    cases h
  · rw [hst, hrows, hid]
    constructor
    · intro h
      cases h
    · rintro (h | ⟨g, hg, hgt, hgc⟩)
      · exact absurd h hnot.1
      · rcases List.mem_append.mp hg with hg | hg
        · have hpos : 0 < rows.countP (fun f => f.type == .confirm && f.resource == c.id) :=
            List.countP_pos_iff.mpr ⟨g, hg, by simp [hgt, hgc]⟩
          rw [hnot.2] at hpos
          cases hpos
        · rw [List.mem_singleton.mp hg, hft] at hgt
          cases hgt
  · rw [hrows, hid, List.countP_append]
    simp [hft, hnot.2, hnot.1]

theorem open_le_one (hc : CouponHeld rows c₀ c) (hk : Keyed rows) :
    (openRows rows).countP (fun r => r.resource == c.id) ≤ 1 := by
  refine countP_le_one ((hk.unique.filter _).imp_of_mem fun {a b} ha hb hab => ?_)
  rintro ⟨hpa, hpb⟩
  have hra : a.resource = c.id := by simpa using hpa
  have hrb : b.resource = c.id := by simpa using hpb
  obtain ⟨-, hoa, hua⟩ := hc.holder a ha hra
  obtain ⟨-, hob, hub⟩ := hc.holder b hb hrb
  have hkey : a.sameKey b = true :=
    LedgerEntry.sameKey_iff.2 ⟨hoa.symm.trans hob, hua.trans hub.symm, hra.trans hrb.symm⟩
  exact hab hkey ((Keyed.stage_eq_one (Keyed.mem_openRows.1 ha).2.1).trans
    (Keyed.stage_eq_one (Keyed.mem_openRows.1 hb).2.1).symm)

end CouponHeld

/-- Every coupon against the store the participant started from. -/
structure CouponsKept (s₀ s : Store) (rows : List LedgerEntry) : Prop where
  present : ∀ id, (∃ c, s.getCoupon id = .ok c) ↔ ∃ c₀, s₀.getCoupon id = .ok c₀
  coupons : ∀ id c₀ c, s₀.getCoupon id = .ok c₀ → s.getCoupon id = .ok c →
    CouponHeld rows c₀ c

namespace CouponsKept

variable {s₀ s s' : Store} {rows rows' : List LedgerEntry}

theorem update (hk : CouponsKept s₀ s rows) {key : UInt64} {c c' : Coupon}
    (hlook : s.getCoupon key = .ok c)
    (hnew : ∀ k, s'.getCoupon k = if k = key then .ok c' else s.getCoupon k)
    (hself : ∀ c₀, s₀.getCoupon key = .ok c₀ → CouponHeld rows c₀ c →
      CouponHeld rows' c₀ c')
    (hother : ∀ k c₀ d, k ≠ key → s.getCoupon k = .ok d → CouponHeld rows c₀ d →
      CouponHeld rows' c₀ d) :
    CouponsKept s₀ s' rows' := by
  refine ⟨fun k => ?_, fun k c₀ d h₀ h => ?_⟩
  · rw [hnew]
    split
    next hkey =>
      subst hkey
      exact ⟨fun _ => (hk.present k).mp ⟨c, hlook⟩, fun _ => ⟨c', rfl⟩⟩
    next => exact hk.present k
  · rw [hnew] at h
    split at h
    next hkey =>
      subst hkey
      cases h
      exact hself c₀ h₀ (hk.coupons k c₀ c h₀ hlook)
    next hkey => exact hother k c₀ d hkey h (hk.coupons k c₀ d h₀ h)

theorem other_of_open {e : LedgerEntry} (hrows : rows' = rows ++ [e])
    (hopen : openRows rows' = openRows rows ++ [e]) :
    ∀ k c₀ d, k ≠ e.resource → s.getCoupon k = .ok d → CouponHeld rows c₀ d →
      CouponHeld rows' c₀ d := by
  intro k c₀ d hne hd hc
  have hid : d.id = k := (getCoupon_ok hd).1
  have hx : e.resource ≠ d.id := fun h => hne (hid ▸ h.symm)
  rw [hrows]
  refine hc.append_other hx fun r hr => ?_
  rw [← hrows, hopen]
  constructor
  · intro h
    rcases List.mem_append.mp h with h | h
    · exact h
    · rw [List.mem_singleton.mp h] at hr
      exact absurd hr hx
  · exact fun h => List.mem_append_left _ h

theorem other_of_close {f : LedgerEntry} (hrows : rows' = rows ++ [f])
    (hopen : openRows rows' = (openRows rows).filter fun x => !f.sameKey x) :
    ∀ k c₀ d, k ≠ f.resource → s.getCoupon k = .ok d → CouponHeld rows c₀ d →
      CouponHeld rows' c₀ d := by
  intro k c₀ d hne hd hc
  have hid : d.id = k := (getCoupon_ok hd).1
  have hx : f.resource ≠ d.id := fun h => hne (hid ▸ h.symm)
  rw [hrows]
  refine hc.append_other hx fun r hr => ?_
  rw [← hrows, hopen, List.mem_filter]
  have hfr : f.sameKey r = false := by
    cases h : f.sameKey r
    · rfl
    · exact absurd ((LedgerEntry.sameKey_iff.mp h).2.2.trans hr) hx
  simp [hfr]

end CouponsKept

/-- What a participant of kind `k` keeps against the store it started from: its ledger is keyed, and
the capacity of its kind is kept against the ledger. -/
structure Kept (k : Kind) (s₀ s : Store) : Prop where
  keyed : Keyed (s.ledgers k.name)
  options : k = .stock → PoolsKept optionPools s₀ s (s.ledgers k.name)
  coupons : k = .coupon → CouponsKept s₀ s (s.ledgers k.name)
  points : k = .point → PoolsKept pointPools s₀ s (s.ledgers k.name) ∧
    ∀ e ∈ s.ledgers k.name, e.resource = 0

/-- One move of a participant on what it holds: leave it alone, open a reservation by holding a line
and writing its opening row, or close an opening row by committing or releasing its line and writing
the closing row. -/
inductive Step (k : Kind) : Store → Store → Prop
  | keep {s s' : Store} (ledgers : s'.ledgers = s.ledgers) (options : s'.options = s.options)
      (coupons : s'.coupons = s.coupons) (points : s'.points = s.points) : Step k s s'
  | hold {s s₁ s₂ : Store} {o u id : UInt64} {l : Line} {g : String} {now : Instant}
      (pos : 0 < l.amount.toInt) (point : k = .point → l.resource = 0)
      (held : k.hold o u l now s = .ok () s₁)
      (write : appendLedger k.name (.ofLine g o u l .reserve now) s₁ = .ok id s₂) :
      Step k s s₂
  | commit {s s₁ s₂ : Store} {r : LedgerEntry} {id : UInt64} {g : String} {now : Instant}
      (row : r ∈ s.ledgers k.name) (opening : r.type.isFinalization = false)
      (done : k.commit r.orderId r.userId r.line now s = .ok () s₁)
      (write : appendLedger k.name (.ofLine g r.orderId r.userId r.line .confirm now) s₁ =
        .ok id s₂) : Step k s s₂
  | release {s s₁ s₂ : Store} {r : LedgerEntry} {id : UInt64} {g : String} {now : Instant}
      (row : r ∈ s.ledgers k.name) (opening : r.type.isFinalization = false)
      (done : k.release r.orderId r.userId r.line now s = .ok () s₁)
      (write : appendLedger k.name (.ofLine g r.orderId r.userId r.line .cancel now) s₁ =
        .ok id s₂) : Step k s s₂

/-! ## The ledger writes of a move -/

theorem write_open {kind : String} {s₁ s₂ : Store} {e : LedgerEntry} {id : UInt64}
    (h : appendLedger kind e s₁ = .ok id s₂) (hk : Keyed (s₁.ledgers kind))
    (ht : e.type = .reserve) (hpos : 0 < e.amount.toInt) :
    Keyed (s₂.ledgers kind) ∧ s₂.ledgers kind = s₁.ledgers kind ++ [{ e with id }] ∧
      openRows (s₂.ledgers kind) = openRows (s₁.ledgers kind) ++ [{ e with id }] ∧
      s₂.options = s₁.options ∧ s₂.coupons = s₁.coupons ∧
      s₂.points = s₁.points := by
  obtain ⟨hfree, hrows, -, ho, hc, hp⟩ := appendLedger_ok h
  rw [Keyed.stage_eq_one ht] at hfree
  obtain ⟨hkeyed, hopen⟩ := hk.append_open (e := { e with id }) ht hpos hfree
  rw [hrows]
  exact ⟨hkeyed, rfl, hopen, ho, hc, hp⟩

theorem write_close {kind : String} {s₁ s₂ : Store} {r : LedgerEntry} {g : String}
    {t : EntryType} {now : Instant} {id : UInt64}
    (h : appendLedger kind (.ofLine g r.orderId r.userId r.line t now) s₁ = .ok id s₂)
    (hk : Keyed (s₁.ledgers kind)) (hr : r ∈ s₁.ledgers kind) (hrt : r.type = .reserve)
    (ht : t = .confirm ∨ t = .cancel) :
    ∃ f : LedgerEntry, f.type = t ∧ f.amount = r.amount ∧ r.sameKey f = true ∧
      ((s₁.ledgers kind).any fun x => x.sameKey f && x.stage == 2) = false ∧
      Keyed (s₂.ledgers kind) ∧ s₂.ledgers kind = s₁.ledgers kind ++ [f] ∧
      openRows (s₂.ledgers kind) =
        (openRows (s₁.ledgers kind)).filter (fun x => !f.sameKey x) ∧
      s₂.options = s₁.options ∧ s₂.coupons = s₁.coupons ∧
      s₂.points = s₁.points := by
  obtain ⟨hfree, hrows, -, ho, hc, hp⟩ := appendLedger_ok h
  have hstage : (LedgerEntry.ofLine g r.orderId r.userId r.line t now).stage = 2 :=
    Keyed.stage_eq_two (by rcases ht with rfl | rfl <;> simp [LedgerEntry.ofLine])
  rw [hstage] at hfree
  have hkey :
      r.sameKey { LedgerEntry.ofLine g r.orderId r.userId r.line t now with id } = true := by
    simp [LedgerEntry.ofLine, LedgerEntry.line]
  have hft : ({ LedgerEntry.ofLine g r.orderId r.userId r.line t now with id } : LedgerEntry).type
      = t := rfl
  obtain ⟨hkeyed, hopen⟩ := hk.append_close hr hrt (by rw [hft]; exact ht) hkey rfl hfree
  rw [hrows]
  exact ⟨_, hft, rfl, hkey, hfree, hkeyed, rfl, hopen, ho, hc, hp⟩

theorem Keyed.reserve_of_opening {rows : List LedgerEntry} (hk : Keyed rows) {r : LedgerEntry}
    (hr : r ∈ rows) (hrt : r.type.isFinalization = false) : r.type = .reserve := by
  rcases hk.types r hr with h | h | h
  · exact h
  · rw [h] at hrt
    cases hrt
  · rw [h] at hrt
    cases hrt

theorem beq_eq_decide_symm (a b : UInt64) : (a == b) = decide (b = a) := by
  by_cases h : b = a
  · subst h
    simp
  · simp [h, Ne.symm h]

theorem optionPools_onKey {x y : LedgerEntry} (h : x.sameKey y = true) (k : UInt64) :
    optionPools.onKey k x = optionPools.onKey k y := by
  simp only [optionPools, (LedgerEntry.sameKey_iff.mp h).2.2]

theorem pointPools_onKey {x y : LedgerEntry} (h : x.sameKey y = true) (k : UInt64) :
    pointPools.onKey k x = pointPools.onKey k y := by
  obtain ⟨-, hu, hr⟩ := LedgerEntry.sameKey_iff.mp h
  simp only [pointPools, hu, hr]

/-! ## Every move keeps the invariant -/

/-- A participant's store as it starts: its ledger is empty, every pool holds no more than it has,
and every coupon is free or used. -/
structure Stocked (k : Kind) (s : Store) : Prop where
  empty : s.ledgers k.name = []
  options : ∀ p ∈ s.options, 0 ≤ p.reserved.toInt ∧ p.reserved.toInt ≤ p.stock.toInt
  coupons : ∀ c ∈ s.coupons, c.status = .available ∧ c.reservedBy = 0 ∨ c.status = .used
  points : ∀ p ∈ s.points, 0 ≤ p.reserved.toInt ∧ p.reserved.toInt ≤ p.balance.toInt

namespace Kept

variable {k : Kind} {s₀ s s₁ s₂ : Store} {o u id : UInt64} {l : Line} {g : String}
  {now : Instant} {r : LedgerEntry}

theorem init (h : Stocked k s₀) : Kept k s₀ s₀ := by
  have hpools : ∀ {α : Type} (t : PoolTable α), (∀ key a, t.lookup s₀ key = .ok a →
      0 ≤ (t.reserved a).toInt ∧ (t.reserved a).toInt ≤ (t.total a).toInt) →
      PoolsKept t s₀ s₀ (s₀.ledgers k.name) := by
    intro α t hb
    refine ⟨fun _ => Iff.rfl, fun key a₀ a h₀ ha => ?_⟩
    rw [h₀] at ha
    cases ha
    rw [h.empty]
    exact Pool.init (hb key a₀ h₀).1 (hb key a₀ h₀).2
  refine ⟨h.empty ▸ Keyed.nil,
    fun _ => hpools optionPools fun _ a ha => h.options a (getOption_ok ha).2,
    fun _ => ⟨fun _ => Iff.rfl, fun key c₀ c h₀ hc => ?_⟩,
    fun _ => ⟨hpools pointPools fun _ a ha => h.points a (getPoints_ok ha).2,
      by simp [h.empty]⟩⟩
  rw [h₀] at hc
  cases hc
  have hst := h.coupons c₀ (getCoupon_ok h₀).2
  rw [h.empty]
  refine ⟨rfl, ?_, by simp [openRows], fun hr => ?_, by simp, ?_⟩
  · rcases hst with hst | hst
    · exact .inl hst
    · exact .inr (.inr hst)
  · rcases hst with ⟨hst, -⟩ | hst <;> rw [hst] at hr <;> cases hr
  · simp only [List.countP_nil, Nat.zero_add]
    split <;> omega

theorem keep (hk : Kept k s₀ s) (hl : s₁.ledgers = s.ledgers) (ho : s₁.options = s.options)
    (hc : s₁.coupons = s.coupons) (hp : s₁.points = s.points) : Kept k s₀ s₁ := by
  have hrows : s₁.ledgers k.name = s.ledgers k.name := by rw [hl]
  refine ⟨by rw [hrows]; exact hk.keyed, fun hs => ?_, fun hs => ?_, fun hs => ?_⟩
  · rw [hrows]
    exact (hk.options hs).of_same (getOption_of_options ho)
  · have hck := hk.coupons hs
    rw [hrows]
    exact ⟨fun id => by rw [getCoupon_of_coupons hc]; exact hck.present id,
      fun id c₀ c h₀ h =>
        hck.coupons id c₀ c h₀ (by rw [← getCoupon_of_coupons hc]; exact h)⟩
  · rw [hrows]
    exact ⟨(hk.points hs).1.of_same (getPoints_of_points hp), (hk.points hs).2⟩

theorem hold (hk : Kept k s₀ s) (pos : 0 < l.amount.toInt) (point : k = .point → l.resource = 0)
    (held : k.hold o u l now s = .ok () s₁)
    (write : appendLedger k.name (.ofLine g o u l .reserve now) s₁ = .ok id s₂) :
    Kept k s₀ s₂ := by
  cases k with
  | stock =>
    obtain ⟨p, p', hp, havail, hid, hst, hres, rfl⟩ := Kind.hold_stock_ok held
    obtain ⟨hkeyed, hrows, hopen, ho, -, -⟩ := write_open write hk.keyed rfl pos
    refine ⟨hkeyed, fun _ => ?_, nofun, nofun⟩
    have hkey : p'.id = l.resource := hid.trans (getOption_ok hp).1
    exact (hk.options rfl).hold_row hp (fun k => by rw [← hkey]; exact getOption_after ho k)
      hrows hopen rfl (fun k => beq_eq_decide_symm _ k) pos havail
      hst hres
  | coupon =>
    obtain ⟨c, c', hc, howner, hfree, hid, huser, hst, hby, rfl⟩ := Kind.hold_coupon_ok held
    obtain ⟨hkeyed, hrows, hopen, -, hco, -⟩ := write_open write hk.keyed rfl pos
    refine ⟨hkeyed, nofun, fun _ => ?_, nofun⟩
    have hcid : c.id = l.resource := (getCoupon_ok hc).1
    exact (hk.coupons rfl).update hc
      (fun k => by rw [← hcid, ← hid]; exact getCoupon_after hco k)
      (fun c₀ _ hheld => hheld.hold hrows hopen rfl hcid.symm howner.symm hfree hid huser hst hby)
      (CouponsKept.other_of_open hrows hopen)
  | point =>
    obtain ⟨p, p', hp, havail, hid, hbal, hres, rfl⟩ := Kind.hold_point_ok held
    obtain ⟨hkeyed, hrows, hopen, -, -, hpt⟩ := write_open write hk.keyed rfl pos
    have hzero : l.resource = 0 := point rfl
    refine ⟨hkeyed, nofun, nofun, fun _ => ⟨?_, ?_⟩⟩
    · have hkey : p'.userId = u := hid.trans (getPoints_ok hp).1
      exact (hk.points rfl).1.hold_row hp (fun k => by rw [← hkey]; exact getPoints_after hpt k)
        hrows hopen rfl (fun k => by
          simp only [pointPools, LedgerEntry.ofLine, hzero, beq_self_eq_true, Bool.and_true]
          exact beq_eq_decide_symm _ k) pos
        havail hbal hres
    · rw [hrows]
      intro e he
      rcases List.mem_append.mp he with he | he
      · exact (hk.points rfl).2 e he
      · rw [List.mem_singleton.mp he]
        exact hzero

theorem commit (hk : Kept k s₀ s) (row : r ∈ s.ledgers k.name)
    (opening : r.type.isFinalization = false)
    (done : k.commit r.orderId r.userId r.line now s = .ok () s₁)
    (write : appendLedger k.name (.ofLine g r.orderId r.userId r.line .confirm now) s₁ =
      .ok id s₂) :
    Kept k s₀ s₂ := by
  have hrt := hk.keyed.reserve_of_opening row opening
  cases k with
  | stock =>
    obtain ⟨p, p', hp, hid, hst, hres, rfl⟩ := Kind.commit_stock_ok done
    obtain ⟨f, hft, hamt, hkey, hfree, hkeyed, hrows, hopen, ho, -, -⟩ :=
      write_close write hk.keyed row hrt (.inl rfl)
    refine ⟨hkeyed, fun _ => ?_, nofun, nofun⟩
    have hpid : p'.id = r.line.resource := hid.trans (getOption_ok hp).1
    exact (hk.options rfl).commit_row hk.keyed hp
      (fun k => by rw [← hpid]; exact getOption_after ho k) row hrt hft hkey hamt hfree hrows
      (fun k => beq_eq_decide_symm _ k)
      (fun k x y h => optionPools_onKey h k) hst hres
  | coupon =>
    obtain ⟨c, c', hc, hheld, -, hid, howner, hst, -, rfl⟩ := Kind.commit_coupon_ok done
    obtain ⟨f, hft, -, hkey, hfree, hkeyed, hrows, hopen, -, hco, -⟩ :=
      write_close write hk.keyed row hrt (.inl rfl)
    refine ⟨hkeyed, nofun, fun _ => ?_, nofun⟩
    have hcid : c.id = r.line.resource := (getCoupon_ok hc).1
    have hfres : f.resource = r.resource := ((LedgerEntry.sameKey_iff.mp hkey).2.2).symm
    exact (hk.coupons rfl).update hc
      (fun k => by rw [← hcid, ← hid]; exact getCoupon_after hco k)
      (fun c₀ _ held => held.commit (Keyed.open_of_free row hrt hkey hfree) hcid.symm hkey hft
        hrows hopen hheld hid howner hst)
      (fun k c₀ d hne =>
        CouponsKept.other_of_close hrows hopen k c₀ d (by rw [hfres]; exact hne))
  | point =>
    obtain ⟨p, p', hp, hid, hbal, hres, rfl⟩ := Kind.commit_point_ok done
    obtain ⟨f, hft, hamt, hkey, hfree, hkeyed, hrows, hopen, -, -, hpt⟩ :=
      write_close write hk.keyed row hrt (.inl rfl)
    have hzero : r.resource = 0 := (hk.points rfl).2 r row
    have hfres : f.resource = r.resource := ((LedgerEntry.sameKey_iff.mp hkey).2.2).symm
    refine ⟨hkeyed, nofun, nofun, fun _ => ⟨?_, ?_⟩⟩
    · have hkey' : p'.userId = r.userId := hid.trans (getPoints_ok hp).1
      exact (hk.points rfl).1.commit_row hk.keyed hp
        (fun k => by rw [← hkey']; exact getPoints_after hpt k) row hrt hft hkey hamt hfree hrows
        (fun k => by
          simp only [pointPools, hzero, beq_self_eq_true, Bool.and_true]
          exact beq_eq_decide_symm _ k) (fun k x y h => pointPools_onKey h k) hbal
        hres
    · rw [hrows]
      intro e he
      rcases List.mem_append.mp he with he | he
      · exact (hk.points rfl).2 e he
      · rw [List.mem_singleton.mp he, hfres]
        exact hzero

theorem release (hk : Kept k s₀ s) (row : r ∈ s.ledgers k.name)
    (opening : r.type.isFinalization = false)
    (done : k.release r.orderId r.userId r.line now s = .ok () s₁)
    (write : appendLedger k.name (.ofLine g r.orderId r.userId r.line .cancel now) s₁ =
      .ok id s₂) :
    Kept k s₀ s₂ := by
  have hrt := hk.keyed.reserve_of_opening row opening
  cases k with
  | stock =>
    obtain ⟨p, p', hp, hid, hst, hres, rfl⟩ := Kind.release_stock_ok done
    obtain ⟨f, hft, hamt, hkey, hfree, hkeyed, hrows, hopen, ho, -, -⟩ :=
      write_close write hk.keyed row hrt (.inr rfl)
    refine ⟨hkeyed, fun _ => ?_, nofun, nofun⟩
    have hpid : p'.id = r.line.resource := hid.trans (getOption_ok hp).1
    exact (hk.options rfl).release_row hk.keyed hp
      (fun k => by rw [← hpid]; exact getOption_after ho k) row hrt hft hkey hamt hfree hrows
      (fun k => beq_eq_decide_symm _ k)
      (fun k x y h => optionPools_onKey h k) hst hres
  | coupon =>
    obtain ⟨c, hc, hrel⟩ := Kind.release_coupon_ok done
    have hcid : c.id = r.line.resource := (getCoupon_ok hc).1
    obtain ⟨c₀, h₀⟩ := ((hk.coupons rfl).present _).mp ⟨c, hc⟩
    have hheld := (hk.coupons rfl).coupons _ c₀ c h₀ hc
    rcases hrel with ⟨hst₀, -, c', hid, howner, hst, hby, rfl⟩ | ⟨hnot, rfl⟩
    · obtain ⟨f, hft, -, hkey, hfree, hkeyed, hrows, hopen, -, hco, -⟩ :=
        write_close write hk.keyed row hrt (.inr rfl)
      have hfres : f.resource = r.resource := ((LedgerEntry.sameKey_iff.mp hkey).2.2).symm
      refine ⟨hkeyed, nofun, fun _ => ?_, nofun⟩
      exact (hk.coupons rfl).update hc
        (fun k => by rw [← hcid, ← hid]; exact getCoupon_after hco k)
        (fun c₀ _ held => held.release (Keyed.open_of_free row hrt hkey hfree) hcid.symm hkey hft
          hrows hopen hst₀ hid howner hst hby)
        (fun k c₀ d hne =>
          CouponsKept.other_of_close hrows hopen k c₀ d (by rw [hfres]; exact hne))
    ·
      obtain ⟨f, -, -, hkey, hfree, -⟩ := write_close write hk.keyed row hrt (.inr rfl)
      obtain ⟨hst, hby, -⟩ := hheld.holder r (Keyed.open_of_free row hrt hkey hfree) hcid.symm
      exact absurd ⟨hst, hby⟩ hnot
  | point =>
    obtain ⟨p, p', hp, hid, hbal, hres, rfl⟩ := Kind.release_point_ok done
    obtain ⟨f, hft, hamt, hkey, hfree, hkeyed, hrows, hopen, -, -, hpt⟩ :=
      write_close write hk.keyed row hrt (.inr rfl)
    have hzero : r.resource = 0 := (hk.points rfl).2 r row
    have hfres : f.resource = r.resource := ((LedgerEntry.sameKey_iff.mp hkey).2.2).symm
    refine ⟨hkeyed, nofun, nofun, fun _ => ⟨?_, ?_⟩⟩
    · have hkey' : p'.userId = r.userId := hid.trans (getPoints_ok hp).1
      exact (hk.points rfl).1.release_row hk.keyed hp
        (fun k => by rw [← hkey']; exact getPoints_after hpt k) row hrt hft hkey hamt hfree hrows
        (fun k => by
          simp only [pointPools, hzero, beq_self_eq_true, Bool.and_true]
          exact beq_eq_decide_symm _ k) (fun k x y h => pointPools_onKey h k) hbal
        hres
    · rw [hrows]
      intro e he
      rcases List.mem_append.mp he with he | he
      · exact (hk.points rfl).2 e he
      · rw [List.mem_singleton.mp he, hfres]
        exact hzero

theorem step (hk : Kept k s₀ s) (h : Step k s s₁) : Kept k s₀ s₁ := by
  cases h with
  | keep ledgers options coupons points => exact hk.keep ledgers options coupons points
  | hold pos point held write => exact hk.hold pos point held write
  | commit row opening done write => exact hk.commit row opening done write
  | release row opening done write => exact hk.release row opening done write

theorem moves (hk : Kept k s₀ s) (h : Relation.ReflTransGen (Step k) s s₁) :
    Kept k s₀ s₁ := by
  induction h with
  | refl => exact hk
  | tail _ step ih => exact ih.step step

end Kept

end OrderSaga
