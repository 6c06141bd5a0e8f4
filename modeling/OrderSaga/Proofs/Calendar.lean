import OrderSaga.Time.Instant

namespace OrderSaga.Instant

def startOfYear (yoe : Int) : Int := 365 * yoe + yoe / 4 - yoe / 100

def yearOfEra (doe : Int) : Int := (doe - doe / 1460 + doe / 36524 - doe / 146096) / 365

def DayOfYear (yoe doy : Int) : Prop :=
  0 ≤ yoe ∧ yoe < 400 ∧ 0 ≤ doy ∧ (doy < 365 ∨ doy = 365 ∧ isLeap (yoe + 1) = true)

def ValidDate (y : Int) (m d : Nat) : Prop := 1 ≤ m ∧ m ≤ 12 ∧ 1 ≤ d ∧ d ≤ daysIn m y

/-- The date of day `doy` of year `yoe` of era `era`. -/
def civilOfYearDay (era yoe doy : Int) : Int × Nat × Nat :=
  let mp := (5 * doy + 2) / 153
  let d := doy - (153 * mp + 2) / 5 + 1
  let m := if mp < 10 then mp + 3 else mp - 9
  (if m ≤ 2 then yoe + era * 400 + 1 else yoe + era * 400, m.toNat, d.toNat)

theorem isLeap_iff (y : Int) : isLeap y = true ↔ y % 4 = 0 ∧ (y % 100 ≠ 0 ∨ y % 400 = 0) := by
  simp [isLeap]

theorem isLeap_add_era (y era : Int) : isLeap (y + era * 400) = isLeap y := by
  apply Bool.eq_iff_iff.mpr
  rw [isLeap_iff, isLeap_iff]
  omega

theorem civilFromDays_eq (z : Int) :
    civilFromDays z = civilOfYearDay ((z + 719468) / 146097)
      (yearOfEra ((z + 719468) - (z + 719468) / 146097 * 146097))
      ((z + 719468) - (z + 719468) / 146097 * 146097 -
        startOfYear (yearOfEra ((z + 719468) - (z + 719468) / 146097 * 146097))) := rfl

/-! ## Years of an era -/

theorem yearOfEra_split (c q b k : Int) (hc : 0 ≤ c ∧ c ≤ 3) (hq : 0 ≤ q ∧ q ≤ 24)
    (hb : 0 ≤ b ∧ b ≤ 3) (hk : 0 ≤ k ∧ (k ≤ 364 ∨ k = 365 ∧ b = 3 ∧ (q < 24 ∨ c = 3))) :
    yearOfEra (36524 * c + 1461 * q + 365 * b + k) = 100 * c + 4 * q + b := by
  unfold yearOfEra
  by_cases hlast : c = 3 ∧ q = 24 ∧ b = 3 ∧ k = 365
  ·
    obtain ⟨rfl, rfl, rfl, rfl⟩ := hlast
    decide
  · have h400 : (36524 * c + 1461 * q + 365 * b + k) / 146096 = 0 := by omega
    have h100 : (36524 * c + 1461 * q + 365 * b + k) / 36524 = c := by omega
    have h4 : (36524 * c + 1461 * q + 365 * b + k) / 1460 =
        25 * c + q + (24 * c + q + 365 * b + k) / 1460 := by omega
    have hlow : (24 * c + q + 365 * b + k) / 1460 ≤ 1 := by omega
    rw [h400, h100, h4]
    by_cases he : (24 * c + q + 365 * b + k) / 1460 = 0
    · rw [he]; omega
    · have he1 : (24 * c + q + 365 * b + k) / 1460 = 1 := by omega
      rw [he1]; omega

theorem isLeap_next_split (c q b : Int) (hc : 0 ≤ c ∧ c ≤ 3) (hq : 0 ≤ q ∧ q ≤ 24)
    (hb : 0 ≤ b ∧ b ≤ 3) :
    isLeap (100 * c + 4 * q + b + 1) = true ↔ b = 3 ∧ (q < 24 ∨ c = 3) := by
  rw [isLeap_iff]
  omega

theorem year_split {yoe : Int} (h0 : 0 ≤ yoe) (h1 : yoe < 400) :
    yoe = 100 * (yoe / 100) + 4 * (yoe % 100 / 4) + yoe % 4 ∧
      startOfYear yoe = 36524 * (yoe / 100) + 1461 * (yoe % 100 / 4) + 365 * (yoe % 4) ∧
      (isLeap (yoe + 1) = true ↔ yoe % 4 = 3 ∧ (yoe % 100 / 4 < 24 ∨ yoe / 100 = 3)) := by
  have hyoe : yoe = 100 * (yoe / 100) + 4 * (yoe % 100 / 4) + yoe % 4 := by omega
  refine ⟨hyoe, by unfold startOfYear; omega, ?_⟩
  have hsplit := isLeap_next_split (yoe / 100) (yoe % 100 / 4) (yoe % 4) (by omega) (by omega)
    (by omega)
  rwa [← hyoe] at hsplit

theorem yearOfEra_start {yoe doy : Int} (h : DayOfYear yoe doy) :
    yearOfEra (startOfYear yoe + doy) = yoe := by
  obtain ⟨h0, h1, hd, hleap⟩ := h
  obtain ⟨hyoe, hstart, hsplit⟩ := year_split h0 h1
  rw [hsplit] at hleap
  rw [hstart, yearOfEra_split _ _ _ _ (by omega) (by omega) (by omega) (by omega), ← hyoe]

theorem startOfYear_bounds {yoe doy : Int} (h : DayOfYear yoe doy) :
    0 ≤ startOfYear yoe + doy ∧ startOfYear yoe + doy < 146097 := by
  obtain ⟨h0, h1, hd, hleap⟩ := h
  obtain ⟨hyoe, hstart, hsplit⟩ := year_split h0 h1
  rw [hsplit] at hleap
  omega

theorem dayOfYear_of_dayOfEra {doe : Int} (h0 : 0 ≤ doe) (h1 : doe < 146097) :
    DayOfYear (yearOfEra doe) (doe - startOfYear (yearOfEra doe)) := by
  obtain ⟨c, q, b, k, hc, hq, hb, hk, hdoe⟩ : ∃ c q b k : Int,
      (0 ≤ c ∧ c ≤ 3) ∧ (0 ≤ q ∧ q ≤ 24) ∧ (0 ≤ b ∧ b ≤ 3) ∧
        (0 ≤ k ∧ (k ≤ 364 ∨ k = 365 ∧ b = 3 ∧ (q < 24 ∨ c = 3))) ∧
        doe = 36524 * c + 1461 * q + 365 * b + k := by
    refine ⟨min (doe / 36524) 3, (doe - 36524 * min (doe / 36524) 3) / 1461,
      min ((doe - 36524 * min (doe / 36524) 3) % 1461 / 365) 3,
      (doe - 36524 * min (doe / 36524) 3) % 1461 -
        365 * min ((doe - 36524 * min (doe / 36524) 3) % 1461 / 365) 3, ?_⟩
    omega
  have hyear : yearOfEra doe = 100 * c + 4 * q + b := by
    rw [hdoe]; exact yearOfEra_split c q b k hc hq hb hk
  have hstart : startOfYear (100 * c + 4 * q + b) = 36524 * c + 1461 * q + 365 * b := by
    unfold startOfYear; omega
  rw [hyear, hstart]
  refine ⟨by omega, by omega, by omega, ?_⟩
  rw [isLeap_next_split c q b hc hq hb]
  omega

/-! ## Months of a year -/

theorem month_bounds {doy : Int} (h0 : 0 ≤ doy) (h1 : doy ≤ 365) :
    0 ≤ (5 * doy + 2) / 153 ∧ (5 * doy + 2) / 153 ≤ 11 ∧
      (153 * ((5 * doy + 2) / 153) + 2) / 5 ≤ doy ∧
      doy < (153 * ((5 * doy + 2) / 153 + 1) + 2) / 5 := by
  omega

theorem month_of_day {mp d : Int} (hd : 1 ≤ d)
    (hd' : d ≤ (153 * (mp + 1) + 2) / 5 - (153 * mp + 2) / 5) :
    (5 * ((153 * mp + 2) / 5 + d - 1) + 2) / 153 = mp := by
  omega

theorem daysIn_of_month (mp y : Int) (h0 : 0 ≤ mp) (h1 : mp ≤ 10) :
    (daysIn (if mp < 10 then mp + 3 else mp - 9).toNat y : Int) =
      (153 * (mp + 1) + 2) / 5 - (153 * mp + 2) / 5 := by
  have hmp : mp = 0 ∨ mp = 1 ∨ mp = 2 ∨ mp = 3 ∨ mp = 4 ∨ mp = 5 ∨ mp = 6 ∨ mp = 7 ∨
      mp = 8 ∨ mp = 9 ∨ mp = 10 := by omega
  rcases hmp with rfl | rfl | rfl | rfl | rfl | rfl | rfl | rfl | rfl | rfl | rfl <;>
    simp [daysIn]

/-! ## Dates -/

theorem civilOfYearDay_valid {era yoe doy y : Int} {m d : Nat} (h : DayOfYear yoe doy)
    (hc : civilOfYearDay era yoe doy = (y, m, d)) :
    ValidDate y m d ∧ daysFromCivil y m d = era * 146097 + startOfYear yoe + doy - 719468 := by
  obtain ⟨h0, h1, hd, hleap⟩ := h
  have hdoy : doy ≤ 365 := by omega
  obtain ⟨hmp0, hmp1, hlo, hhi⟩ := month_bounds hd hdoy
  unfold civilOfYearDay at hc
  simp only [Prod.mk.injEq] at hc
  obtain ⟨rfl, rfl, rfl⟩ := hc
  generalize (5 * doy + 2) / 153 = mp at *
  have hcount : ∀ (y : Int) (m : Nat), (y - if m ≤ 2 then 1 else 0) = yoe + era * 400 →
      ((if m > 2 then (m : Int) - 3 else (m : Int) + 9) = mp) →
      daysFromCivil y m (doy - (153 * mp + 2) / 5 + 1).toNat =
        era * 146097 + startOfYear yoe + doy - 719468 := by
    intro y m hy hm
    have hy' : (if m ≤ 2 then y - 1 else y) = yoe + era * 400 := by
      by_cases hm2 : m ≤ 2
      · simp only [hm2, ↓reduceIte] at hy ⊢
        omega
      · simp only [hm2, ↓reduceIte] at hy ⊢
        omega
    have hera : (yoe + era * 400) / 400 = era := by omega
    simp only [daysFromCivil, startOfYear, hy', hm, hera]
    omega
  by_cases hm : mp < 10
  ·
    have hlen := daysIn_of_month mp (yoe + era * 400) hmp0 (by omega)
    simp only [hm, if_true, show ¬ mp + 3 ≤ 2 by omega, if_false] at hlen ⊢
    refine ⟨⟨by omega, by omega, by omega, by omega⟩, hcount _ _ (by simp; omega) (by simp; omega)⟩
  ·
    simp only [hm, if_false, show mp - 9 ≤ 2 by omega, if_true]
    refine ⟨⟨by omega, by omega, by omega, ?_⟩, hcount _ _ (by simp; omega) (by simp; omega)⟩
    by_cases hjan : mp = 10
    · subst hjan
      have hlen := daysIn_of_month 10 (yoe + era * 400 + 1) (by omega) (by omega)
      simp only [show ¬ (10 : Int) < 10 by omega, if_false] at hlen
      omega
    · have hfeb : mp = 11 := by omega
      subst hfeb
      have hyear : yoe + era * 400 + 1 = yoe + 1 + era * 400 := by omega
      have hleap' : doy = 365 → isLeap (yoe + era * 400 + 1) = true := by
        intro h365
        rw [hyear, isLeap_add_era]
        rcases hleap with hlt | ⟨-, hl⟩
        · omega
        · exact hl
      have hfebLen : daysIn (11 - 9 : Int).toNat (yoe + era * 400 + 1) =
          if isLeap (yoe + era * 400 + 1) then 29 else 28 := rfl
      rw [hfebLen]
      split
      · omega
      · have : doy ≠ 365 := fun h365 => by simp_all
        omega

theorem civilOfYearDay_of_valid {y : Int} {m d : Nat} (h : ValidDate y m d) :
    ∃ era yoe doy, DayOfYear yoe doy ∧
      daysFromCivil y m d = era * 146097 + startOfYear yoe + doy - 719468 ∧
      civilOfYearDay era yoe doy = (y, m, d) := by
  obtain ⟨hm1, hm12, hd1, hdm⟩ := h
  obtain ⟨mp, hmp, hmpm⟩ : ∃ mp : Int, mp = (if m > 2 then (m : Int) - 3 else (m : Int) + 9) ∧
      (if mp < 10 then mp + 3 else mp - 9).toNat = m := by
    refine ⟨_, rfl, ?_⟩
    split <;> split <;> omega
  obtain ⟨y', hy'⟩ : ∃ y', y' = if m ≤ 2 then y - 1 else y := ⟨_, rfl⟩
  have hmp0 : 0 ≤ mp ∧ mp ≤ 11 := by rw [hmp]; split <;> omega
  have hlen : (d : Int) ≤ (153 * (mp + 1) + 2) / 5 - (153 * mp + 2) / 5 ∧
      (153 * mp + 2) / 5 + d - 1 ≤ 365 ∧
      ((153 * mp + 2) / 5 + d - 1 = 365 → isLeap (y' % 400 + 1) = true) := by
    by_cases hfeb : m = 2
    · subst hfeb
      have hmp11 : mp = 11 := by simp [hmp]
      have hyear : y = y' % 400 + 1 + y' / 400 * 400 := by simp [hy']; omega
      have hfebLen : daysIn 2 y = if isLeap y then 29 else 28 := rfl
      rw [hfebLen, hyear, isLeap_add_era] at hdm
      subst hmp11
      split at hdm
      · exact ⟨by omega, by omega, fun _ => by assumption⟩
      · exact ⟨by omega, by omega, fun _ => by omega⟩
    · have hmp10 : mp ≤ 10 := by rw [hmp]; split <;> omega
      have hmonth := daysIn_of_month mp y hmp0.1 hmp10
      rw [hmpm] at hmonth
      have hshort : (153 * mp + 2) / 5 + d - 1 < 365 := by
        clear hmp hmpm hy'
        omega
      exact ⟨by omega, by omega, fun h365 => absurd h365 (by omega)⟩
  have hday : DayOfYear (y' % 400) ((153 * mp + 2) / 5 + d - 1) := by
    refine ⟨by omega, by omega, by omega, ?_⟩
    by_cases h365 : (153 * mp + 2) / 5 + d - 1 = 365
    · exact .inr ⟨h365, hlen.2.2 h365⟩
    · omega
  refine ⟨y' / 400, y' % 400, (153 * mp + 2) / 5 + d - 1, hday, ?_, ?_⟩
  · have hera : y' - y' / 400 * 400 = y' % 400 := by omega
    simp only [daysFromCivil, startOfYear, ← hy', ← hmp, hera]
    omega
  · simp only [civilOfYearDay]
    rw [month_of_day (by omega) hlen.1, hmpm]
    simp only [Prod.mk.injEq]
    refine ⟨?_, trivial, by omega⟩
    by_cases hm2 : m ≤ 2
    ·
      have hmp' : mp = m + 9 := by simp [hmp]; omega
      have hy'' : y' = y - 1 := by simp [hy', hm2]
      rw [if_neg (show ¬ mp < 10 by omega), if_pos (show mp - 9 ≤ 2 by omega)]
      omega
    · have hmp' : mp = m - 3 := by simp [hmp]; omega
      have hy'' : y' = y := by simp [hy', hm2]
      rw [if_pos (show mp < 10 by omega), if_neg (show ¬ mp + 3 ≤ 2 by omega)]
      omega

theorem civilFromDays_valid {z y : Int} {m d : Nat} (h : civilFromDays z = (y, m, d)) :
    ValidDate y m d ∧ daysFromCivil y m d = z := by
  rw [civilFromDays_eq] at h
  generalize hera : (z + 719468) / 146097 = era at h
  generalize hdoe : z + 719468 - era * 146097 = doe at h
  obtain ⟨hv, hc⟩ := civilOfYearDay_valid (dayOfYear_of_dayOfEra (by omega) (by omega)) h
  refine ⟨hv, ?_⟩
  rw [hc]
  omega

theorem civilFromDays_daysFromCivil {y : Int} {m d : Nat} (h : ValidDate y m d) :
    civilFromDays (daysFromCivil y m d) = (y, m, d) := by
  obtain ⟨era, yoe, doy, hyd, hcount, hciv⟩ := civilOfYearDay_of_valid h
  obtain ⟨h0, h1⟩ := startOfYear_bounds hyd
  have hera : (era * 146097 + startOfYear yoe + doy - 719468 + 719468) / 146097 = era := by
    omega
  have hdoe : era * 146097 + startOfYear yoe + doy - 719468 + 719468 - era * 146097 =
      startOfYear yoe + doy := by omega
  have hdoy : startOfYear yoe + doy - startOfYear yoe = doy := by omega
  rw [hcount, civilFromDays_eq, hera, hdoe, yearOfEra_start hyd, hdoy]
  exact hciv

end OrderSaga.Instant
