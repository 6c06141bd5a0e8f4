import Mathlib
import OrderSaga.Proofs.Rows
import OrderSaga.Proofs.Transactions
import OrderSaga.Reservation.Capacity

namespace OrderSaga

namespace Store

/-! ## Tables keyed by id -/

section Upsert

variable {α : Type} (key : α → UInt64) (row : α)

theorem find?_upsert (l : List α) (k : UInt64) :
    (upsert key row l).find? (fun x => key x == k) =
      if key row == k then some row else l.find? (fun x => key x == k) := by
  induction l with
  | nil => simp [upsert]
  | cons r rest ih =>
    unfold upsert
    by_cases hr : key r = key row
    · by_cases hk : key row = k
      · simp [hr, hk]
      · simp [hr, hk]
    · by_cases hk : key r = k
      · have hrow : key row ≠ k := fun h => hr (hk.trans h.symm)
        simp [hk, Ne.symm hrow, hrow]
      · simp [hr, hk, ih]

end Upsert

variable {s s' : Store}

theorem getOption_upsert (o : ProductOption) (id : UInt64) :
    getOption { s with options := upsert (·.id) o s.options } id =
      if o.id == id then .ok o else s.getOption id := by
  unfold getOption
  rw [find?_upsert]
  by_cases h : o.id = id <;> simp [h]

theorem getCoupon_upsert (c : Coupon) (id : UInt64) :
    getCoupon { s with coupons := upsert (·.id) c s.coupons } id =
      if c.id == id then .ok c else s.getCoupon id := by
  unfold getCoupon
  rw [find?_upsert]
  by_cases h : c.id = id <;> simp [h]

theorem getPoints_upsert (p : PointBalance) (userId : UInt64) :
    getPoints { s with points := upsert (·.userId) p s.points } userId =
      if p.userId == userId then .ok p else s.getPoints userId := by
  unfold getPoints
  rw [find?_upsert]
  by_cases h : p.userId = userId <;> simp [h]

theorem getOption_ok {id : UInt64} {o : ProductOption} (h : s.getOption id = .ok o) :
    o.id = id ∧ o ∈ s.options := by
  unfold getOption at h
  split at h
  next hf =>
    cases h
    have hid : o.id = id := by simpa using List.find?_some hf
    exact ⟨hid, List.mem_of_find?_eq_some hf⟩
  next => cases h

theorem getCoupon_ok {id : UInt64} {c : Coupon} (h : s.getCoupon id = .ok c) :
    c.id = id ∧ c ∈ s.coupons := by
  unfold getCoupon at h
  split at h
  next hf =>
    cases h
    have hid : c.id = id := by simpa using List.find?_some hf
    exact ⟨hid, List.mem_of_find?_eq_some hf⟩
  next => cases h

theorem getPoints_ok {userId : UInt64} {p : PointBalance} (h : s.getPoints userId = .ok p) :
    p.userId = userId ∧ p ∈ s.points := by
  unfold getPoints at h
  split at h
  next hf =>
    cases h
    have hid : p.userId = userId := by simpa using List.find?_some hf
    exact ⟨hid, List.mem_of_find?_eq_some hf⟩
  next => cases h

/-! ## Writes -/

theorem updateOption_ok {o o' : ProductOption} {now : Instant}
    (h : updateOption o now s = .ok o' s') :
    o.id ∈ s.options.map (·.id) ∧
      o' = { o with version := o.version + 1, updatedAt := now } ∧
      s' = { s with options := upsert (·.id) o' s.options } := by
  unfold updateOption at h
  obtain ⟨s₀, s₁, hget, h⟩ := bind_ok h
  cases hget
  cases hf : s.options.find? (·.id == o.id) with
  | none =>
    rw [hf] at h
    cases h
  | some cur =>
    rw [hf] at h
    obtain ⟨u, s₂, hc, h⟩ := bind_ok h
    obtain ⟨-, rfl⟩ := check_ok hc
    obtain ⟨u, s₃, hset, h⟩ := bind_ok h
    cases hset
    cases h
    have hid : cur.id = o.id := by simpa using List.find?_some hf
    exact ⟨List.mem_map.mpr ⟨cur, List.mem_of_find?_eq_some hf, hid⟩, rfl, rfl⟩

theorem updateCoupon_ok {c c' : Coupon} {now : Instant} (h : updateCoupon c now s = .ok c' s') :
    c.id ∈ s.coupons.map (·.id) ∧
      c' = { c with version := c.version + 1, updatedAt := now } ∧
      s' = { s with coupons := upsert (·.id) c' s.coupons } := by
  unfold updateCoupon at h
  obtain ⟨s₀, s₁, hget, h⟩ := bind_ok h
  cases hget
  cases hf : s.coupons.find? (·.id == c.id) with
  | none =>
    rw [hf] at h
    cases h
  | some cur =>
    rw [hf] at h
    obtain ⟨u, s₂, hc, h⟩ := bind_ok h
    obtain ⟨-, rfl⟩ := check_ok hc
    obtain ⟨u, s₃, hset, h⟩ := bind_ok h
    cases hset
    cases h
    have hid : cur.id = c.id := by simpa using List.find?_some hf
    exact ⟨List.mem_map.mpr ⟨cur, List.mem_of_find?_eq_some hf, hid⟩, rfl, rfl⟩

theorem updatePoints_ok {p p' : PointBalance} {now : Instant}
    (h : updatePoints p now s = .ok p' s') :
    p.userId ∈ s.points.map (·.userId) ∧
      p' = { p with version := p.version + 1, updatedAt := now } ∧
      s' = { s with points := upsert (·.userId) p' s.points } := by
  unfold updatePoints at h
  obtain ⟨s₀, s₁, hget, h⟩ := bind_ok h
  cases hget
  cases hf : s.points.find? (·.userId == p.userId) with
  | none =>
    rw [hf] at h
    cases h
  | some cur =>
    rw [hf] at h
    obtain ⟨u, s₂, hc, h⟩ := bind_ok h
    obtain ⟨-, rfl⟩ := check_ok hc
    obtain ⟨u, s₃, hset, h⟩ := bind_ok h
    cases hset
    cases h
    have hid : cur.userId = p.userId := by simpa using List.find?_some hf
    exact ⟨List.mem_map.mpr ⟨cur, List.mem_of_find?_eq_some hf, hid⟩, rfl, rfl⟩

theorem appendLedger_ok {kind : String} {e : LedgerEntry} {id : UInt64}
    (h : appendLedger kind e s = .ok id s') :
    ((s.ledgers kind).any fun x => x.sameKey e && x.stage == e.stage) = false ∧
      s'.ledgers kind = s.ledgers kind ++ [{ e with id }] ∧
      (∀ k, k ≠ kind → s'.ledgers k = s.ledgers k) ∧
      s'.options = s.options ∧ s'.coupons = s.coupons ∧ s'.points = s.points := by
  unfold appendLedger at h
  obtain ⟨s₀, s₁, hget, h₁⟩ := bind_ok h
  cases hget
  obtain ⟨u, s₂, hc, h₂⟩ := bind_ok h₁
  obtain ⟨hfree, rfl⟩ := check_ok hc
  obtain ⟨n, s₃, hn, h₃⟩ := bind_ok h₂
  cases hn
  obtain ⟨u, s₄, hm, h₄⟩ := bind_ok h₃
  cases hm
  cases h₄
  refine ⟨by simpa [Store.hasStage_eq] using hfree, by simp [withRow],
    fun k hk => by simp [withRow, hk], rfl, rfl, rfl⟩

end Store

/-! ## Pools -/

theorem toInt_add_exact {a b : Int64} (h₁ : -2 ^ 63 ≤ a.toInt + b.toInt)
    (h₂ : a.toInt + b.toInt < 2 ^ 63) : (a + b).toInt = a.toInt + b.toInt := by
  rw [Int64.toInt_add]
  exact Int.bmod_eq_of_le (by omega) (by omega)

theorem toInt_sub_exact {a b : Int64} (h₁ : -2 ^ 63 ≤ a.toInt - b.toInt)
    (h₂ : a.toInt - b.toInt < 2 ^ 63) : (a - b).toInt = a.toInt - b.toInt := by
  rw [Int64.toInt_sub]
  exact Int.bmod_eq_of_le (by omega) (by omega)

theorem lessReserved_toInt {r a : Int64} (ha : 0 < a.toInt) (h : a.toInt ≤ r.toInt) :
    (Kind.lessReserved r a).toInt = r.toInt - a.toInt := by
  have hr := Int64.toInt_lt r
  have hsub : (r - a).toInt = r.toInt - a.toInt := toInt_sub_exact (by omega) (by omega)
  unfold Kind.lessReserved
  rw [if_neg (by rw [Int64.lt_iff_toInt_lt, hsub]; simp; omega)]
  exact hsub

/-- A pool of capacity against the pool it was at the start: it holds what open reservations hold
and has lost what confirmations took. -/
structure Pool (total₀ reserved₀ total reserved : Int64) (held taken : Int) : Prop where
  start : 0 ≤ reserved₀.toInt
  reserved_eq : reserved.toInt = reserved₀.toInt + held
  total_eq : total.toInt = total₀.toInt - taken
  nonneg : 0 ≤ reserved.toInt
  le_total : reserved.toInt ≤ total.toInt

namespace Pool

variable {total₀ reserved₀ total reserved a : Int64} {held taken : Int}

theorem init (h₀ : 0 ≤ reserved₀.toInt) (h₁ : reserved₀.toInt ≤ total₀.toInt) :
    Pool total₀ reserved₀ total₀ reserved₀ 0 0 :=
  ⟨h₀, by omega, by omega, h₀, h₁⟩

theorem hold (hp : Pool total₀ reserved₀ total reserved held taken) (ha : 0 < a.toInt)
    (havail : ¬ total - reserved < a) :
    Pool total₀ reserved₀ total (reserved + a) (held + a.toInt) taken := by
  have ht := Int64.toInt_lt total
  have h₀ := hp.nonneg
  have h₁ := hp.le_total
  have hfree : (total - reserved).toInt = total.toInt - reserved.toInt :=
    toInt_sub_exact (by omega) (by omega)
  have hle : a.toInt ≤ total.toInt - reserved.toInt := by
    rw [Int64.lt_iff_toInt_lt, hfree] at havail
    omega
  have hsum : (reserved + a).toInt = reserved.toInt + a.toInt :=
    toInt_add_exact (by omega) (by omega)
  exact ⟨hp.start, by rw [hsum, hp.reserved_eq]; omega, hp.total_eq, by rw [hsum]; omega,
    by rw [hsum]; omega⟩

theorem release (hp : Pool total₀ reserved₀ total reserved held taken) (ha : 0 < a.toInt)
    (hheld : a.toInt ≤ held) :
    Pool total₀ reserved₀ total (Kind.lessReserved reserved a) (held - a.toInt) taken := by
  have h₀ := hp.start
  have hle : a.toInt ≤ reserved.toInt := by
    rw [hp.reserved_eq]
    omega
  have hless := lessReserved_toInt ha hle
  exact ⟨h₀, by rw [hless, hp.reserved_eq]; omega, hp.total_eq,
    by rw [hless, hp.reserved_eq]; omega, by rw [hless]; have := hp.le_total; omega⟩

theorem commit (hp : Pool total₀ reserved₀ total reserved held taken) (ha : 0 < a.toInt)
    (hheld : a.toInt ≤ held) :
    Pool total₀ reserved₀ (total - a) (Kind.lessReserved reserved a) (held - a.toInt)
      (taken + a.toInt) := by
  have h₀ := hp.start
  have hres : a.toInt ≤ reserved.toInt := by rw [hp.reserved_eq]; omega
  have hless := lessReserved_toInt ha hres
  have ht := Int64.toInt_lt total
  have hsub : (total - a).toInt = total.toInt - a.toInt :=
    toInt_sub_exact (by have := hp.le_total; omega) (by omega)
  exact ⟨h₀, by rw [hless, hp.reserved_eq]; omega, by rw [hsub, hp.total_eq]; omega,
    by rw [hless]; omega, by rw [hless, hsub]; have := hp.le_total; omega⟩

end Pool

/-! ## The capacity adapters -/

namespace Kind

open Store

variable {s s' : Store} {o u : UInt64} {l : Line} {now : Instant}

theorem loadOption_ok {id : UInt64} {p : ProductOption} (h : loadOption id s = .ok p s') :
    s.getOption id = .ok p ∧ s' = s := by
  unfold loadOption at h
  obtain ⟨s₀, s₁, hget, h₁⟩ := bind_ok h
  cases hget
  cases hg : s.getOption id with
  | error e =>
    rw [hg] at h₁
    cases h₁
  | ok p' =>
    rw [hg] at h₁
    cases h₁
    exact ⟨rfl, rfl⟩

theorem loadCoupon_ok {id : UInt64} {c : Coupon} (h : loadCoupon id s = .ok c s') :
    s.getCoupon id = .ok c ∧ s' = s := by
  unfold loadCoupon at h
  obtain ⟨s₀, s₁, hget, h₁⟩ := bind_ok h
  cases hget
  cases hg : s.getCoupon id with
  | error e =>
    rw [hg] at h₁
    cases h₁
  | ok c' =>
    rw [hg] at h₁
    cases h₁
    exact ⟨rfl, rfl⟩

theorem loadPoints_ok {userId : UInt64} {p : PointBalance} (h : loadPoints userId s = .ok p s') :
    s.getPoints userId = .ok p ∧ s' = s := by
  unfold loadPoints at h
  obtain ⟨s₀, s₁, hget, h₁⟩ := bind_ok h
  cases hget
  cases hg : s.getPoints userId with
  | error e =>
    rw [hg] at h₁
    cases h₁
  | ok p' =>
    rw [hg] at h₁
    cases h₁
    exact ⟨rfl, rfl⟩

theorem hold_stock_ok (h : hold .stock o u l now s = .ok () s') :
    ∃ p p' : ProductOption, s.getOption l.resource = .ok p ∧ ¬ p.available < l.amount ∧
      p'.id = p.id ∧ p'.stock = p.stock ∧ p'.reserved = p.reserved + l.amount ∧
      s' = { s with options := upsert (·.id) p' s.options } := by
  simp only [hold] at h
  obtain ⟨p, s₁, hload, h₁⟩ := bind_ok h
  obtain ⟨hp, rfl⟩ := loadOption_ok hload
  split at h₁
  · obtain ⟨_, _, hthrow, -⟩ := bind_ok h₁
    cases hthrow
  · obtain ⟨p', s₂, hupd, h₂⟩ := bind_ok h₁
    cases h₂
    obtain ⟨-, hp', rfl⟩ := updateOption_ok hupd
    exact ⟨p, p', hp, ‹_›, by rw [hp'], by rw [hp'], by rw [hp'], rfl⟩

theorem release_stock_ok (h : release .stock o u l now s = .ok () s') :
    ∃ p p' : ProductOption, s.getOption l.resource = .ok p ∧
      p'.id = p.id ∧ p'.stock = p.stock ∧ p'.reserved = lessReserved p.reserved l.amount ∧
      s' = { s with options := upsert (·.id) p' s.options } := by
  simp only [release] at h
  obtain ⟨p, s₁, hload, h₁⟩ := bind_ok h
  obtain ⟨hp, rfl⟩ := loadOption_ok hload
  obtain ⟨p', s₂, hupd, h₂⟩ := bind_ok h₁
  cases h₂
  obtain ⟨-, hp', rfl⟩ := updateOption_ok hupd
  exact ⟨p, p', hp, by rw [hp'], by rw [hp'], by rw [hp'], rfl⟩

theorem commit_stock_ok (h : commit .stock o u l now s = .ok () s') :
    ∃ p p' : ProductOption, s.getOption l.resource = .ok p ∧
      p'.id = p.id ∧ p'.stock = p.stock - l.amount ∧
      p'.reserved = lessReserved p.reserved l.amount ∧
      s' = { s with options := upsert (·.id) p' s.options } := by
  simp only [commit] at h
  obtain ⟨p, s₁, hload, h₁⟩ := bind_ok h
  obtain ⟨hp, rfl⟩ := loadOption_ok hload
  obtain ⟨p', s₂, hupd, h₂⟩ := bind_ok h₁
  cases h₂
  obtain ⟨-, hp', rfl⟩ := updateOption_ok hupd
  exact ⟨p, p', hp, by rw [hp'], by rw [hp'], by rw [hp'], rfl⟩

theorem hold_point_ok (h : hold .point o u l now s = .ok () s') :
    ∃ p p' : PointBalance, s.getPoints u = .ok p ∧ ¬ p.available < l.amount ∧
      p'.userId = p.userId ∧ p'.balance = p.balance ∧ p'.reserved = p.reserved + l.amount ∧
      s' = { s with points := upsert (·.userId) p' s.points } := by
  simp only [hold] at h
  obtain ⟨p, s₁, hload, h₁⟩ := bind_ok h
  obtain ⟨hp, rfl⟩ := loadPoints_ok hload
  split at h₁
  · obtain ⟨_, _, hthrow, -⟩ := bind_ok h₁
    cases hthrow
  · obtain ⟨p', s₂, hupd, h₂⟩ := bind_ok h₁
    cases h₂
    obtain ⟨-, hp', rfl⟩ := updatePoints_ok hupd
    exact ⟨p, p', hp, ‹_›, by rw [hp'], by rw [hp'], by rw [hp'], rfl⟩

theorem release_point_ok (h : release .point o u l now s = .ok () s') :
    ∃ p p' : PointBalance, s.getPoints u = .ok p ∧
      p'.userId = p.userId ∧ p'.balance = p.balance ∧
      p'.reserved = lessReserved p.reserved l.amount ∧
      s' = { s with points := upsert (·.userId) p' s.points } := by
  simp only [release] at h
  obtain ⟨p, s₁, hload, h₁⟩ := bind_ok h
  obtain ⟨hp, rfl⟩ := loadPoints_ok hload
  obtain ⟨p', s₂, hupd, h₂⟩ := bind_ok h₁
  cases h₂
  obtain ⟨-, hp', rfl⟩ := updatePoints_ok hupd
  exact ⟨p, p', hp, by rw [hp'], by rw [hp'], by rw [hp'], rfl⟩

theorem commit_point_ok (h : commit .point o u l now s = .ok () s') :
    ∃ p p' : PointBalance, s.getPoints u = .ok p ∧
      p'.userId = p.userId ∧ p'.balance = p.balance - l.amount ∧
      p'.reserved = lessReserved p.reserved l.amount ∧
      s' = { s with points := upsert (·.userId) p' s.points } := by
  simp only [commit] at h
  obtain ⟨p, s₁, hload, h₁⟩ := bind_ok h
  obtain ⟨hp, rfl⟩ := loadPoints_ok hload
  obtain ⟨p', s₂, hupd, h₂⟩ := bind_ok h₁
  cases h₂
  obtain ⟨-, hp', rfl⟩ := updatePoints_ok hupd
  exact ⟨p, p', hp, by rw [hp'], by rw [hp'], by rw [hp'], rfl⟩

theorem hold_coupon_ok (h : hold .coupon o u l now s = .ok () s') :
    ∃ c c' : Coupon, s.getCoupon l.resource = .ok c ∧ c.userId = u ∧ c.status = .available ∧
      c'.id = c.id ∧ c'.userId = c.userId ∧ c'.status = .reserved ∧ c'.reservedBy = o ∧
      s' = { s with coupons := upsert (·.id) c' s.coupons } := by
  simp only [hold] at h
  obtain ⟨c, s₁, hload, h₁⟩ := bind_ok h
  obtain ⟨hc, rfl⟩ := loadCoupon_ok hload
  split at h₁
  · obtain ⟨_, _, hthrow, -⟩ := bind_ok h₁
    cases hthrow
  next howner =>
    split at h₁
    · obtain ⟨_, _, hthrow, -⟩ := bind_ok h₁
      cases hthrow
    split at h₁
    · obtain ⟨_, _, hthrow, -⟩ := bind_ok h₁
      cases hthrow
    next havail =>
      obtain ⟨c', s₂, hupd, h₂⟩ := bind_ok h₁
      cases h₂
      obtain ⟨-, hc', rfl⟩ := updateCoupon_ok hupd
      exact ⟨c, c', hc, by simpa using howner, by simpa using havail, by rw [hc'], by rw [hc'],
        by rw [hc'], by rw [hc'], rfl⟩

theorem release_coupon_ok (h : release .coupon o u l now s = .ok () s') :
    ∃ c : Coupon, s.getCoupon l.resource = .ok c ∧
      ((c.status = .reserved ∧ c.reservedBy = o ∧
        ∃ c' : Coupon, c'.id = c.id ∧ c'.userId = c.userId ∧ c'.status = .available ∧
          c'.reservedBy = 0 ∧ s' = { s with coupons := upsert (·.id) c' s.coupons }) ∨
       ¬(c.status = .reserved ∧ c.reservedBy = o) ∧ s' = s) := by
  simp only [release] at h
  obtain ⟨c, s₁, hload, h₁⟩ := bind_ok h
  obtain ⟨hc, rfl⟩ := loadCoupon_ok hload
  split at h₁
  next hheld =>
    obtain ⟨c', s₂, hupd, h₂⟩ := bind_ok h₁
    cases h₂
    obtain ⟨-, hc', rfl⟩ := updateCoupon_ok hupd
    simp only [Bool.and_eq_true, beq_iff_eq] at hheld
    exact ⟨c, hc, .inl ⟨hheld.1, hheld.2, c', by rw [hc'], by rw [hc'], by rw [hc'],
      by rw [hc'], rfl⟩⟩
  next hheld =>
    cases h₁
    simp only [Bool.and_eq_true, beq_iff_eq] at hheld
    exact ⟨c, hc, .inr ⟨hheld, rfl⟩⟩

theorem commit_coupon_ok (h : commit .coupon o u l now s = .ok () s') :
    ∃ c c' : Coupon, s.getCoupon l.resource = .ok c ∧ c.status = .reserved ∧
      c.reservedBy = o ∧ c'.id = c.id ∧ c'.userId = c.userId ∧ c'.status = .used ∧
      c'.reservedBy = c.reservedBy ∧
      s' = { s with coupons := upsert (·.id) c' s.coupons } := by
  simp only [commit] at h
  obtain ⟨c, s₁, hload, h₁⟩ := bind_ok h
  obtain ⟨hc, rfl⟩ := loadCoupon_ok hload
  split at h₁
  · obtain ⟨_, _, hthrow, -⟩ := bind_ok h₁
    cases hthrow
  next hheld =>
    obtain ⟨c', s₂, hupd, h₂⟩ := bind_ok h₁
    cases h₂
    obtain ⟨-, hc', rfl⟩ := updateCoupon_ok hupd
    simp only [Bool.or_eq_true, bne_iff_ne, ne_eq, not_or, Decidable.not_not] at hheld
    exact ⟨c, c', hc, hheld.1, hheld.2, by rw [hc'], by rw [hc'], by rw [hc'], by rw [hc'], rfl⟩

end Kind

end OrderSaga
