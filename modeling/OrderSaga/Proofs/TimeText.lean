import Mathlib
import OrderSaga.Proofs.Calendar
import OrderSaga.Time.Rfc3339

namespace OrderSaga.Instant

theorem some_bind {α β : Type} (a : α) (f : α → Option β) : (some a >>= f) = f a := rfl

/-! ## Digits -/

theorem padded_toList (w n : Nat) :
    (padded w n).toList =
      List.replicate (w - (Nat.toDigits 10 n).length) '0' ++ Nat.toDigits 10 n := by
  have hlen : n.repr.length = (Nat.toDigits 10 n).length := by
    rw [← String.length_toList, Nat.toList_repr]
  simp [padded, hlen]

theorem padded_length (w n : Nat) (hw : 0 < w) (hn : n < 10 ^ w) :
    (padded w n).toList.length = w := by
  have hlen := (Nat.length_toDigits_le_iff (by decide) hw).mpr hn
  simp only [padded_toList, List.length_append, List.length_replicate]
  omega

theorem padded_digits (w n : Nat) : ∀ c ∈ (padded w n).toList, c.isDigit = true := by
  intro c hc
  rw [padded_toList] at hc
  rcases List.mem_append.mp hc with h | h
  · rw [List.eq_of_mem_replicate h]
    rfl
  · exact Nat.isDigit_of_mem_toDigits (by decide) (by decide) h

theorem ofDigitChars_padded (w n : Nat) : Nat.ofDigitChars 10 (padded w n).toList 0 = n := by
  rw [padded_toList, Nat.ofDigitChars_append]
  simp

theorem digitsValue?_of_digits {cs : List Char} (hne : cs ≠ [])
    (hd : ∀ c ∈ cs, c.isDigit = true) : digitsValue? cs = some (Nat.ofDigitChars 10 cs 0) := by
  simp [digitsValue?, hne, List.all_eq_true.mpr hd, Nat.ofDigitChars]

theorem fixedField_padded (w lo hi n : Nat) (rest : List Char) (hw : 0 < w)
    (hn : n < 10 ^ w) (hlo : lo ≤ n) (hhi : n ≤ hi) :
    fixedField w lo hi ((padded w n).toList ++ rest) = some (n, rest) := by
  have hlen := padded_length w n hw hn
  have hne : (padded w n).toList ≠ [] := by
    intro h
    rw [h] at hlen
    simp at hlen
    omega
  have htake : ((padded w n).toList ++ rest).take w = (padded w n).toList := by
    rw [List.take_append_of_le_length (by omega), List.take_of_length_le (by omega)]
  have hdrop : ((padded w n).toList ++ rest).drop w = rest := by
    rw [List.drop_append_of_le_length (by omega), List.drop_of_length_le (by omega),
      List.nil_append]
  simp only [fixedField, htake, hdrop, digitsValue?_of_digits hne (padded_digits w n),
    ofDigitChars_padded, List.length_append]
  simp [Option.bind]
  omega

/-! ## The fraction of a second -/

def fractionDigits (nanos : Nat) : List Char :=
  ((padded 9 nanos).toList.reverse.dropWhile (· == '0')).reverse

theorem fractionText_toList {nanos : Nat} (h : nanos ≠ 0) :
    (fractionText nanos).toList = '.' :: fractionDigits nanos := by
  simp [fractionText, h, fractionDigits]

theorem fractionDigits_append {nanos : Nat} (hn : nanos < 10 ^ 9) :
    fractionDigits nanos ++ List.replicate (9 - (fractionDigits nanos).length) '0' =
      (padded 9 nanos).toList := by
  have hzeros : ((padded 9 nanos).toList.reverse.takeWhile (· == '0')) =
      List.replicate ((padded 9 nanos).toList.reverse.takeWhile (· == '0')).length '0' :=
    List.eq_replicate_iff.mpr ⟨rfl, fun x hx => by simpa using List.all_eq_true.mp List.all_takeWhile x hx⟩
  have hsplit := congrArg List.reverse
    (@List.takeWhile_append_dropWhile _ (· == '0') (padded 9 nanos).toList.reverse)
  rw [List.reverse_reverse, List.reverse_append, hzeros, List.reverse_replicate] at hsplit
  have hlen := congrArg List.length hsplit
  rw [List.length_append, List.length_replicate, padded_length 9 nanos (by decide) hn] at hlen
  unfold fractionDigits
  rw [show 9 - ((padded 9 nanos).toList.reverse.dropWhile (· == '0')).reverse.length =
    ((padded 9 nanos).toList.reverse.takeWhile (· == '0')).length by omega]
  exact hsplit

theorem fractionDigits_digits (nanos : Nat) : ∀ c ∈ fractionDigits nanos, c.isDigit = true := by
  intro c hc
  unfold fractionDigits at hc
  rw [List.mem_reverse] at hc
  exact padded_digits 9 nanos c (List.mem_reverse.mp ((List.dropWhile_sublist _).subset hc))

theorem fractionDigits_length {nanos : Nat} (hn : nanos < 10 ^ 9) :
    (fractionDigits nanos).length ≤ 9 := by
  have hlen := congrArg List.length (fractionDigits_append hn)
  rw [List.length_append, padded_length 9 nanos (by decide) hn] at hlen
  omega

theorem fractionNanos_digits {nanos : Nat} (hn : nanos < 10 ^ 9) (h0 : nanos ≠ 0) :
    fractionNanos (fractionDigits nanos) = nanos ∧ fractionDigits nanos ≠ [] := by
  have hval := ofDigitChars_padded 9 nanos
  rw [← fractionDigits_append hn, Nat.ofDigitChars_append, Nat.ofDigitChars_replicate_zero]
    at hval
  have hne : fractionDigits nanos ≠ [] := by
    intro h
    rw [h] at hval
    simp at hval
    exact h0 hval.symm
  refine ⟨?_, hne⟩
  have hlen := fractionDigits_length hn
  simp only [fractionNanos, List.take_of_length_le hlen,
    digitsValue?_of_digits hne (fractionDigits_digits nanos), Option.getD_some, Nat.pow_eq]
  rw [Nat.mul_comm]
  exact hval

theorem takeDigits_append {ds rest : List Char} (hd : ∀ c ∈ ds, c.isDigit = true)
    (hr : ∀ c ∈ rest.head?, c.isDigit = false) : takeDigits (ds ++ rest) = (ds, rest) := by
  simp only [takeDigits, List.takeWhile_append_of_pos hd, List.dropWhile_append_of_pos hd]
  cases rest with
  | nil => simp
  | cons c rest =>
    have hc : c.isDigit = false := hr c rfl
    simp [hc]

/-! ## The offset -/

theorem padded_two (n : Nat) (hn : n < 100) (lo hi : Nat) (hlo : lo ≤ n) (hhi : n ≤ hi) :
    ∃ a b, (padded 2 n).toList = [a, b] ∧ fixedField 2 lo hi [a, b] = some (n, []) := by
  obtain ⟨a, b, hab⟩ := List.length_eq_two.mp (padded_length 2 n (by decide) hn)
  refine ⟨a, b, hab, ?_⟩
  have h := fixedField_padded 2 lo hi n [] (by decide) hn hlo hhi
  rwa [hab, List.append_nil] at h

theorem offsetText_toList {off : Int} (h0 : off ≠ 0) (hday : off.natAbs / 3600 < 24) :
    ∃ h1 h2 m1 m2, (offsetText off).toList = [if off < 0 then '-' else '+', h1, h2, ':', m1, m2] ∧
      fixedField 2 0 23 [h1, h2] = some (off.natAbs / 60 / 60, []) ∧
      fixedField 2 0 59 [m1, m2] = some (off.natAbs / 60 % 60, []) := by
  obtain ⟨h1, h2, hh, hhf⟩ := padded_two (off.natAbs / 60 / 60) (by omega) 0 23 (by omega)
    (by omega)
  obtain ⟨m1, m2, hm, hmf⟩ := padded_two (off.natAbs / 60 % 60) (by omega) 0 59 (by omega)
    (by omega)
  refine ⟨h1, h2, m1, m2, ?_, hhf, hmf⟩
  simp only [offsetText, h0, if_false, String.toList_append, hh, hm]
  split <;> rfl

theorem offsetText_cases {off : Int} (h60 : off % 60 = 0) (hday : off.natAbs / 3600 < 24) :
    (off = 0 ∧ (offsetText off).toList = ['Z']) ∨
    ∃ sign h1 h2 m1 m2 oh om, (offsetText off).toList = [sign, h1, h2, ':', m1, m2] ∧
      fixedField 2 0 23 [h1, h2] = some (oh, []) ∧ fixedField 2 0 59 [m1, m2] = some (om, []) ∧
      (sign = '+' ∧ off = (oh * 60 + om) * 60 ∨ sign = '-' ∧ off = -((oh * 60 + om) * 60)) := by
  by_cases h0 : off = 0
  · exact .inl ⟨h0, by simp [offsetText, h0]⟩
  · obtain ⟨h1, h2, m1, m2, hchars, hh, hm⟩ := offsetText_toList h0 hday
    refine .inr ⟨_, h1, h2, m1, m2, _, _, hchars, hh, hm, ?_⟩
    by_cases hneg : off < 0
    · exact .inr ⟨by simp [hneg], by omega⟩
    · exact .inl ⟨by simp [hneg], by omega⟩

theorem fractionText_cases {nanos : Nat} (hn : nanos < 10 ^ 9) :
    (nanos = 0 ∧ (fractionText nanos).toList = []) ∨
    ∃ c ds, (fractionText nanos).toList = '.' :: c :: ds ∧ (∀ x ∈ c :: ds, x.isDigit = true) ∧
      fractionNanos (c :: ds) = nanos := by
  by_cases h0 : nanos = 0
  · exact .inl ⟨h0, by simp [fractionText, h0]⟩
  · obtain ⟨hval, hne⟩ := fractionNanos_digits hn h0
    obtain ⟨c, ds, hcds⟩ := List.exists_cons_of_ne_nil hne
    refine .inr ⟨c, ds, by rw [fractionText_toList h0, hcds], ?_, by rw [← hcds, hval]⟩
    rw [← hcds]
    exact fractionDigits_digits nanos

/-! ## Instants -/

def wallSeconds (t : Instant) : Int := (t.nanos + t.offset * nanosPerSecond) / nanosPerSecond

def secondOfDay (t : Instant) : Nat := (t.wallSeconds % 86400).toNat

def fraction (t : Instant) : Nat :=
  ((t.nanos + t.offset * nanosPerSecond) % nanosPerSecond).toNat

theorem year_eq (t : Instant) : t.year = (civilFromDays (t.wallSeconds / 86400)).1 := rfl

section Render

variable {t : Instant} {y : Int} {m d : Nat}

theorem text_toList (hc : civilFromDays (t.wallSeconds / 86400) = (y, m, d)) (hy : 0 ≤ y) :
    t.text.toList = (padded 4 y.toNat).toList ++ '-' :: ((padded 2 m).toList ++ '-' ::
      ((padded 2 d).toList ++ 'T' :: ((padded 2 (t.secondOfDay / 3600)).toList ++ ':' ::
      ((padded 2 (t.secondOfDay / 60 % 60)).toList ++ ':' ::
      ((padded 2 (t.secondOfDay % 60)).toList ++
      (fractionText t.fraction).toList ++ (offsetText t.offset).toList))))) := by
  simp only [wallSeconds] at hc
  simp only [text, render, hc, show ¬ y < 0 by omega, if_false, String.toList_append]
  simp [secondOfDay, wallSeconds, fraction]

theorem ofCivil_shown (hd : daysFromCivil y m d = t.wallSeconds / 86400) :
    ofCivil y m d (t.secondOfDay / 3600) (t.secondOfDay / 60 % 60) (t.secondOfDay % 60)
      t.fraction t.offset = t := by
  obtain ⟨nanos, off⟩ := t
  simp only [wallSeconds, nanosPerSecond] at hd
  simp only [ofCivil, hd, secondOfDay, wallSeconds, fraction, nanosPerSecond, Instant.mk.injEq,
    and_true]
  omega

theorem parseStrict_text (hf : t.fault? = none) (h60 : t.offset % 60 = 0) :
    parseStrict t.text.toList = some t := by
  obtain ⟨⟨y, m, d⟩, hc⟩ : ∃ c, civilFromDays (t.wallSeconds / 86400) = c := ⟨_, rfl⟩
  obtain ⟨⟨hm1, hm12, hd1, hdm⟩, hdays⟩ := civilFromDays_valid hc
  have hyear : t.year = y := by rw [year_eq, hc]
  have hy : 0 ≤ y ∧ y ≤ 9999 ∧ t.offset.natAbs / 3600 < 24 := by
    simp only [fault?, hyear, Bool.or_eq_true, decide_eq_true_eq] at hf
    split_ifs at hf with h1 h2
    omega
  have hdaysIn : daysIn m y ≤ 31 := by unfold daysIn; split <;> (try split) <;> omega
  have hsod : t.secondOfDay < 86400 := by simp only [secondOfDay]; omega
  rw [text_toList hc hy.1]
  have hlen : ¬ ((padded 4 y.toNat).toList ++ '-' :: ((padded 2 m).toList ++ '-' ::
      ((padded 2 d).toList ++ 'T' :: ((padded 2 (t.secondOfDay / 3600)).toList ++ ':' ::
      ((padded 2 (t.secondOfDay / 60 % 60)).toList ++ ':' ::
      ((padded 2 (t.secondOfDay % 60)).toList ++
      (fractionText t.fraction).toList ++ (offsetText t.offset).toList)))))).length < 19 := by
    simp only [List.length_append, List.length_cons,
      padded_length 4 y.toNat (by decide) (by omega), padded_length 2 m (by decide) (by omega),
      padded_length 2 d (by decide) (by omega),
      padded_length 2 (t.secondOfDay / 3600) (by decide) (by omega),
      padded_length 2 (t.secondOfDay / 60 % 60) (by decide) (by omega),
      padded_length 2 (t.secondOfDay % 60) (by decide) (by omega)]
    omega
  simp only [parseStrict, hlen, if_false]
  have hyy : ((y.toNat : Nat) : Int) = y := Int.toNat_of_nonneg hy.1
  simp only [fixedField_padded 4 0 9999 y.toNat _ (by decide) (by omega) (by omega) (by omega),
    some_bind, expect, beq_self_eq_true, if_true, List.append_assoc,
    fixedField_padded 2 1 12 m _ (by decide) (by omega) hm1 hm12, hyy,
    fixedField_padded 2 1 (daysIn m y) d _ (by decide) (by omega) hd1 hdm,
    fixedField_padded 2 0 23 (t.secondOfDay / 3600) _ (by decide) (by omega) (by omega) (by omega),
    fixedField_padded 2 0 59 (t.secondOfDay / 60 % 60) _ (by decide) (by omega) (by omega)
      (by omega),
    fixedField_padded 2 0 59 (t.secondOfDay % 60) _ (by decide) (by omega) (by omega) (by omega)]
  have hshown := ofCivil_shown hdays
  have hfrac : t.fraction < 10 ^ 9 := by simp only [fraction, nanosPerSecond]; omega
  rcases fractionText_cases hfrac with ⟨hf0, hF⟩ | ⟨c, ds, hF, hds, hval⟩ <;>
    rcases offsetText_cases h60 hy.2.2 with ⟨ho0, hO⟩ |
      ⟨sign, h1, h2, m1, m2, oh, om, hO, hh, hm, ⟨rfl, hoff⟩ | ⟨rfl, hoff⟩⟩ <;>
    rw [hF, hO]
  · rw [hf0, ho0] at hshown
    simp [-Option.bind_eq_bind, hshown]
  · rw [hf0, hoff] at hshown
    simp [-Option.bind_eq_bind, some_bind, hh, hm, hshown]
  · rw [hf0, hoff] at hshown
    simp [-Option.bind_eq_bind, some_bind, hh, hm, hshown]
  · have htd : takeDigits (c :: (ds ++ ['Z'])) = (c :: ds, ['Z']) :=
      takeDigits_append hds (by simp)
    rw [← hval, ho0] at hshown
    simp [-Option.bind_eq_bind, hds c List.mem_cons_self, htd, hshown]
  · have htd : takeDigits (c :: (ds ++ ['+', h1, h2, ':', m1, m2])) =
        (c :: ds, ['+', h1, h2, ':', m1, m2]) := takeDigits_append hds (by simp)
    rw [← hval, hoff] at hshown
    simp [-Option.bind_eq_bind, some_bind, hds c List.mem_cons_self, htd, hh, hm, hshown]
  · have htd : takeDigits (c :: (ds ++ ['-', h1, h2, ':', m1, m2])) =
        (c :: ds, ['-', h1, h2, ':', m1, m2]) := takeDigits_append hds (by simp)
    rw [← hval, hoff] at hshown
    simp [-Option.bind_eq_bind, some_bind, hds c List.mem_cons_self, htd, hh, hm, hshown]

end Render

def Writable (t : Instant) : Prop := t.fault? = none ∧ t.offset % 60 = 0

theorem parse?_text {t : Instant} (h : t.Writable) : parse? t.text = some t := by
  simp [parse?, parseStrict_text h.1 h.2]

/-! ## What a text can name -/

theorem isDigit_toNat {c : Char} (h : c.isDigit = true) : 48 ≤ c.toNat ∧ c.toNat ≤ 57 := by
  simp only [Char.isDigit, Bool.and_eq_true, decide_eq_true_eq, UInt32.le_iff_toNat_le] at h
  exact h

theorem fixedField_bounds {w lo hi n : Nat} {cs r : List Char}
    (h : fixedField w lo hi cs = some (n, r)) : lo ≤ n ∧ n ≤ hi := by
  unfold fixedField at h
  cases hv : digitsValue? (cs.take w) with
  | none => simp [hv] at h
  | some v =>
    simp only [hv, Option.bind_eq_bind, Option.bind_some] at h
    split at h
    · cases h
    · rename_i hc
      simp only [Bool.or_eq_true, decide_eq_true_eq, not_or, Nat.not_lt] at hc
      simp only [Option.some.injEq, Prod.mk.injEq] at h
      omega

theorem ofDigitChars_lt {cs : List Char} (hd : ∀ c ∈ cs, c.isDigit = true) (init : Nat) :
    Nat.ofDigitChars 10 cs init < 10 ^ cs.length * (init + 1) := by
  induction cs generalizing init with
  | nil => simp
  | cons c cs ih =>
    have hc := isDigit_toNat (hd c List.mem_cons_self)
    have hrest := ih (fun x hx => hd x (List.mem_cons_of_mem c hx)) (10 * init + (c.toNat - 48))
    rw [Nat.ofDigitChars_cons, List.length_cons, Nat.pow_succ]
    calc Nat.ofDigitChars 10 cs (10 * init + (c.toNat - '0'.toNat))
        < 10 ^ cs.length * (10 * init + (c.toNat - 48) + 1) := hrest
      _ ≤ 10 ^ cs.length * (10 * (init + 1)) := Nat.mul_le_mul_left _ (by omega)
      _ = 10 ^ cs.length * 10 * (init + 1) := by rw [Nat.mul_assoc]

theorem digitsValue?_lt {cs : List Char} {v : Nat} (h : digitsValue? cs = some v) :
    v < 10 ^ cs.length := by
  unfold digitsValue? at h
  split at h
  · cases h
  · rename_i hdig
    simp only [Bool.or_eq_true, Bool.not_eq_eq_eq_not, Bool.not_true, not_or,
      Bool.not_eq_false] at hdig
    simp only [Option.some.injEq] at h
    have hlt := ofDigitChars_lt (List.all_eq_true.mp hdig.2) 0
    rw [← h]
    simp only [Nat.mul_one, Nat.zero_add] at hlt
    exact hlt

theorem fractionNanos_lt (ds : List Char) : fractionNanos ds < 10 ^ 9 := by
  simp only [fractionNanos, Nat.pow_eq]
  have hlen : (ds.take 9).length ≤ 9 := by simp only [List.length_take]; omega
  cases hv : digitsValue? (ds.take 9) with
  | none => simp
  | some v =>
    simp only [Option.getD_some]
    calc v * 10 ^ (9 - (ds.take 9).length)
        < 10 ^ (ds.take 9).length * 10 ^ (9 - (ds.take 9).length) :=
          Nat.mul_lt_mul_of_pos_right (digitsValue?_lt hv) (Nat.pow_pos (by decide))
      _ = 10 ^ 9 := by rw [← Nat.pow_add]; congr 1; omega

theorem ofCivil_year {y : Int} {mo d h mi s nanos : Nat} (off : Int) (hv : ValidDate y mo d)
    (hh : h < 24) (hmi : mi < 60) (hs : s < 60) (hn : nanos < 10 ^ 9) :
    (ofCivil y mo d h mi s nanos off).year = y := by
  have hwall : (ofCivil y mo d h mi s nanos off).wallSeconds / 86400 = daysFromCivil y mo d := by
    simp only [wallSeconds, ofCivil, nanosPerSecond]
    omega
  rw [year_eq, hwall, civilFromDays_daysFromCivil hv]

def Textual (t : Instant) : Prop := 0 ≤ t.year ∧ t.year ≤ 9999 ∧ t.offset % 60 = 0

theorem ofCivil_textual {y mo d h mi s nanos : Nat} {off : Int} (hy : y ≤ 9999)
    (hv : ValidDate y mo d) (hh : h < 24) (hmi : mi < 60) (hs : s < 60) (hn : nanos < 10 ^ 9)
    (h60 : off % 60 = 0) : (ofCivil y mo d h mi s nanos off).Textual := by
  refine ⟨?_, ?_, h60⟩ <;> rw [ofCivil_year off hv hh hmi hs hn] <;> omega

theorem fault?_eq_none {t : Instant} (h : t.Textual) :
    t.fault? = none ↔ t.offset.natAbs < 86400 := by
  obtain ⟨h0, h1, -⟩ := h
  simp only [fault?, Bool.or_eq_true, decide_eq_true_eq]
  split_ifs <;> simp <;> omega

theorem parseStrict_textual {cs : List Char} {t : Instant} (h : parseStrict cs = some t) :
    t.Textual := by
  simp only [parseStrict] at h
  split at h
  · cases h
  rename_i h
  obtain ⟨⟨y, r⟩, hy, h⟩ := Option.bind_eq_some_iff.mp h
  obtain ⟨r, -, h⟩ := Option.bind_eq_some_iff.mp h
  obtain ⟨⟨mo, r⟩, hmo, h⟩ := Option.bind_eq_some_iff.mp h
  obtain ⟨r, -, h⟩ := Option.bind_eq_some_iff.mp h
  obtain ⟨⟨d, r⟩, hd, h⟩ := Option.bind_eq_some_iff.mp h
  dsimp only at hd
  obtain ⟨r, -, h⟩ := Option.bind_eq_some_iff.mp h
  obtain ⟨⟨hh, r⟩, hhh, h⟩ := Option.bind_eq_some_iff.mp h
  obtain ⟨r, -, h⟩ := Option.bind_eq_some_iff.mp h
  obtain ⟨⟨mi, r⟩, hmi, h⟩ := Option.bind_eq_some_iff.mp h
  obtain ⟨r, -, h⟩ := Option.bind_eq_some_iff.mp h
  obtain ⟨⟨s, r⟩, hs, h⟩ := Option.bind_eq_some_iff.mp h
  have := fixedField_bounds hy
  have := fixedField_bounds hmo
  have := fixedField_bounds hd
  have := fixedField_bounds hhh
  have := fixedField_bounds hmi
  have := fixedField_bounds hs
  dsimp only at h
  have hval : ValidDate (y : Int) mo d := ⟨by omega, by omega, by omega, by omega⟩
  split at h
  · rw [← Option.some.inj h]
    refine ofCivil_textual (by omega) hval (by omega) (by omega) (by omega) ?_ (by decide)
    split <;> (try split) <;> first | exact fractionNanos_lt _ | simp
  · obtain ⟨⟨oh, _⟩, -, h⟩ := Option.bind_eq_some_iff.mp h
    obtain ⟨⟨om, _⟩, -, h⟩ := Option.bind_eq_some_iff.mp h
    split at h
    · rw [← Option.some.inj h]
      refine ofCivil_textual (by omega) hval (by omega) (by omega) (by omega) ?_ (by omega)
      split <;> (try split) <;> first | exact fractionNanos_lt _ | simp
    · split at h
      · rw [← Option.some.inj h]
        refine ofCivil_textual (by omega) hval (by omega) (by omega) (by omega) ?_ (by omega)
        split <;> (try split) <;> first | exact fractionNanos_lt _ | simp
      · cases h
  · cases h

theorem looseHour_lt {cs r : List Char} {h : Nat} (hl : looseHour cs = some (h, r)) : h < 24 := by
  simp only [looseHour] at hl
  split at hl
  · rename_i a b rest
    split at hl
    · cases hl
    · rename_i ha
      split at hl
      · split at hl
        · simp only [Option.some.injEq, Prod.mk.injEq] at hl
          omega
        · cases hl
      · simp only [Bool.not_eq_eq_eq_not, Bool.not_true, Bool.not_eq_false] at ha
        simp only [Option.some.injEq, Prod.mk.injEq] at hl
        have := isDigit_toNat ha
        omega
  · rename_i a
    split at hl
    · rename_i ha
      simp only [Option.some.injEq, Prod.mk.injEq] at hl
      have := isDigit_toNat ha
      omega
    · cases hl
  · cases hl

theorem parseLoose_textual {cs : List Char} {t : Instant} (h : parseLoose cs = some t) :
    t.Textual := by
  simp only [parseLoose] at h
  obtain ⟨⟨y, r⟩, hy, h⟩ := Option.bind_eq_some_iff.mp h
  obtain ⟨r, -, h⟩ := Option.bind_eq_some_iff.mp h
  obtain ⟨⟨mo, r⟩, hmo, h⟩ := Option.bind_eq_some_iff.mp h
  obtain ⟨r, -, h⟩ := Option.bind_eq_some_iff.mp h
  obtain ⟨⟨d, r⟩, hd, h⟩ := Option.bind_eq_some_iff.mp h
  obtain ⟨r, -, h⟩ := Option.bind_eq_some_iff.mp h
  obtain ⟨⟨hh, r⟩, hhh, h⟩ := Option.bind_eq_some_iff.mp h
  obtain ⟨r, -, h⟩ := Option.bind_eq_some_iff.mp h
  obtain ⟨⟨mi, r⟩, hmi, h⟩ := Option.bind_eq_some_iff.mp h
  obtain ⟨r, -, h⟩ := Option.bind_eq_some_iff.mp h
  obtain ⟨⟨s, r⟩, hs, h⟩ := Option.bind_eq_some_iff.mp h
  have := fixedField_bounds hy
  have := fixedField_bounds hmo
  have := fixedField_bounds hd
  have := looseHour_lt hhh
  have := fixedField_bounds hmi
  have := fixedField_bounds hs
  dsimp only at h hd
  have hfinish : ∀ off : Int, off % 60 = 0 → ¬ d > daysIn mo y →
      ∀ nanos, nanos < 10 ^ 9 → ofCivil y mo d hh mi s nanos off = t → t.Textual :=
    fun off h60 hdays nanos hn ht => ht ▸ ofCivil_textual (by omega)
      ⟨by omega, by omega, by omega, by omega⟩ (by omega) (by omega) (by omega) hn h60
  split at h
  · simp only [some_bind] at h
    split at h
    · simp at h
    · rename_i hdays
      refine hfinish 0 (by decide) hdays _ ?_ (Option.some.inj h)
      split <;> (try split) <;> first | exact fractionNanos_lt _ | simp
  · obtain ⟨⟨oh, _⟩, -, h⟩ := Option.bind_eq_some_iff.mp h
    obtain ⟨⟨om, _⟩, -, h⟩ := Option.bind_eq_some_iff.mp h
    split at h
    · simp only [some_bind] at h
      split at h
      · simp at h
      · rename_i hdays
        refine hfinish _ (by omega) hdays _ ?_ (Option.some.inj h)
        split <;> (try split) <;> first | exact fractionNanos_lt _ | simp
    · split at h
      · simp only [some_bind] at h
        split at h
        · simp at h
        · rename_i hdays
          refine hfinish _ (by omega) hdays _ ?_ (Option.some.inj h)
          split <;> (try split) <;> first | exact fractionNanos_lt _ | simp
      · cases h
  · cases h

theorem parse?_textual {text : String} {t : Instant} (h : parse? text = some t) : t.Textual := by
  simp only [parse?] at h
  split at h
  · rename_i hs
    rw [← Option.some.inj h]
    exact parseStrict_textual hs
  · exact parseLoose_textual h

theorem writable_of_textual {t : Instant} (h : t.Textual) (hday : t.offset.natAbs < 86400) :
    t.Writable :=
  ⟨(fault?_eq_none h).mpr hday, h.2.2⟩

theorem zero_textual : Instant.zero.Textual := by
  unfold Textual
  decide

end OrderSaga.Instant
