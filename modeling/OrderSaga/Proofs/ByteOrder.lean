import Mathlib

namespace OrderSaga.Text

/-! ## Bytes as numbers -/

/-- The number a list of bytes writes, most significant byte first. -/
def bigEndian : List UInt8 → Nat
  | [] => 0
  | b :: bs => b.toNat * 256 ^ bs.length + bigEndian bs

theorem bigEndian_lt_pow (bs : List UInt8) : bigEndian bs < 256 ^ bs.length := by
  induction bs with
  | nil => simp [bigEndian]
  | cons b bs ih =>
    have hb : b.toNat + 1 ≤ 256 := b.toNat_lt
    calc bigEndian (b :: bs) < (b.toNat + 1) * 256 ^ bs.length := by
          rw [bigEndian, Nat.succ_mul]
          omega
      _ ≤ 256 * 256 ^ bs.length := Nat.mul_le_mul_right _ hb
      _ = 256 ^ (b :: bs).length := by rw [List.length_cons, Nat.pow_succ, Nat.mul_comm]

theorem append_lt_append_of_bigEndian_lt {xs ys : List UInt8} (hlen : xs.length = ys.length)
    (h : bigEndian xs < bigEndian ys) (s t : List UInt8) : xs ++ s < ys ++ t := by
  induction xs generalizing ys with
  | nil =>
    cases ys with
    | nil => exact absurd h (Nat.lt_irrefl _)
    | cons => simp at hlen
  | cons x xs ih =>
    cases ys with
    | nil => simp at hlen
    | cons y ys =>
      have hlen' : xs.length = ys.length := by simpa using hlen
      have hx := bigEndian_lt_pow xs
      have hy := bigEndian_lt_pow ys
      rw [bigEndian, bigEndian, hlen'] at h
      rw [hlen'] at hx
      rw [List.cons_append, List.cons_append, List.cons_lt_cons_iff]
      rcases Nat.lt_trichotomy x.toNat y.toNat with hlt | heq | hgt
      · exact .inl (UInt8.lt_iff_toNat_lt.mpr hlt)
      · rw [heq] at h
        exact .inr ⟨UInt8.toNat_inj.mp heq, ih hlen' (by omega)⟩
      · have hmul := Nat.mul_le_mul_right (256 ^ ys.length) hgt
        rw [Nat.succ_mul] at hmul
        omega

/-! ## The form of one character -/

theorem toNat_ofNat_of_lt {n : Nat} (h : n < 256) : (UInt8.ofNat n).toNat = n := by
  rw [UInt8.toNat_ofNat', Nat.mod_eq_of_lt h]

theorem code_lt (c : Char) : c.val.toNat < 0x110000 := by
  have hvalid := c.valid
  simp only [UInt32.isValidChar, Nat.isValidChar] at hvalid
  omega

def leadByte (c : Char) : Nat := ((String.utf8EncodeChar c).headD 0).toNat

theorem length_utf8EncodeChar_eq (c : Char) : (String.utf8EncodeChar c).length =
    if c.val.toNat ≤ 127 then 1 else if c.val.toNat ≤ 2047 then 2
    else if c.val.toNat ≤ 65535 then 3 else 4 := by
  simp only [String.utf8EncodeChar]
  split_ifs <;> rfl

theorem leadByte_eq (c : Char) : leadByte c =
    if c.val.toNat ≤ 127 then c.val.toNat
    else if c.val.toNat ≤ 2047 then 192 + c.val.toNat / 64
    else if c.val.toNat ≤ 65535 then 224 + c.val.toNat / 4096
    else 240 + c.val.toNat / 262144 := by
  have hc := code_lt c
  simp only [leadByte, String.utf8EncodeChar]
  split_ifs <;> simp (disch := omega) only [List.headD_cons, toNat_ofNat_of_lt] <;> omega

theorem bigEndian_utf8EncodeChar (c : Char) : bigEndian (String.utf8EncodeChar c) =
    if c.val.toNat ≤ 127 then c.val.toNat
    else if c.val.toNat ≤ 2047 then 49280 + c.val.toNat + 192 * (c.val.toNat / 64)
    else if c.val.toNat ≤ 65535 then
      14712960 + c.val.toNat + 192 * (c.val.toNat / 64) + 49152 * (c.val.toNat / 4096)
    else 4034953344 + c.val.toNat + 192 * (c.val.toNat / 64) + 49152 * (c.val.toNat / 4096) +
      12582912 * (c.val.toNat / 262144) := by
  have hc := code_lt c
  simp only [String.utf8EncodeChar]
  split_ifs <;> simp (disch := omega) only [bigEndian, toNat_ofNat_of_lt, List.length_cons,
    List.length_nil, Nat.reducePow, Nat.mod_def, Nat.div_div_eq_div_mul, Nat.reduceMul] <;> omega

theorem leadByte_le {c d : Char} (h : c.val.toNat ≤ d.val.toNat) : leadByte c ≤ leadByte d := by
  rw [leadByte_eq, leadByte_eq]
  split_ifs <;> omega

theorem length_eq_of_leadByte_eq {c d : Char} (h : leadByte c = leadByte d) :
    (String.utf8EncodeChar c).length = (String.utf8EncodeChar d).length := by
  have hc := code_lt c
  have hd := code_lt d
  rw [leadByte_eq, leadByte_eq] at h
  rw [length_utf8EncodeChar_eq, length_utf8EncodeChar_eq]
  split_ifs at h ⊢ <;> omega

theorem bigEndian_lt_of_lt {c d : Char} (h : c.val.toNat < d.val.toNat) :
    bigEndian (String.utf8EncodeChar c) < bigEndian (String.utf8EncodeChar d) := by
  rw [bigEndian_utf8EncodeChar, bigEndian_utf8EncodeChar]
  split_ifs <;> omega

theorem utf8EncodeChar_append_lt {c d : Char} (h : c < d) (s t : List UInt8) :
    String.utf8EncodeChar c ++ s < String.utf8EncodeChar d ++ t := by
  have hcode : c.val.toNat < d.val.toNat := UInt32.lt_iff_toNat_lt.mp (Char.lt_def.mp h)
  rcases Nat.lt_or_eq_of_le (leadByte_le hcode.le) with hlt | heq
  ·
    obtain ⟨x, xs, hx⟩ := List.exists_cons_of_ne_nil (String.utf8EncodeChar_ne_nil (c := c))
    obtain ⟨y, ys, hy⟩ := List.exists_cons_of_ne_nil (String.utf8EncodeChar_ne_nil (c := d))
    simp only [leadByte, hx, hy, List.headD_cons] at hlt
    rw [hx, hy, List.cons_append, List.cons_append, List.cons_lt_cons_iff]
    exact .inl (UInt8.lt_iff_toNat_lt.mpr hlt)
  · exact append_lt_append_of_bigEndian_lt (length_eq_of_leadByte_eq heq) (bigEndian_lt_of_lt hcode)
      s t

/-! ## Strings -/

theorem flatMap_utf8EncodeChar_lt {l₁ l₂ : List Char} (h : l₁ < l₂) :
    l₁.flatMap String.utf8EncodeChar < l₂.flatMap String.utf8EncodeChar := by
  induction l₁ generalizing l₂ with
  | nil =>
    cases l₂ with
    | nil => exact absurd h (List.not_lt_nil _)
    | cons d l₂ =>
      obtain ⟨y, ys, hy⟩ := List.exists_cons_of_ne_nil (String.utf8EncodeChar_ne_nil (c := d))
      rw [List.flatMap_nil, List.flatMap_cons, hy, List.cons_append]
      exact List.nil_lt_cons _ _
  | cons c l₁ ih =>
    cases l₂ with
    | nil => exact absurd h (List.not_lt_nil _)
    | cons d l₂ =>
      rw [List.flatMap_cons, List.flatMap_cons]
      rcases List.cons_lt_cons_iff.mp h with hcd | ⟨rfl, hl⟩
      · exact utf8EncodeChar_append_lt hcd _ _
      · exact List.append_left_lt (ih hl)

theorem bytes_eq (s : String) : s.toUTF8.data.toList = s.toList.flatMap String.utf8EncodeChar := by
  conv => lhs; rw [← String.ofList_toList (s := s)]
  rw [String.toUTF8_eq_toByteArray, String.toByteArray_ofList, List.utf8Encode,
    List.toList_data_toByteArray]

theorem lt_iff_bytes_lt {a b : String} : a < b ↔ a.toUTF8.data.toList < b.toUTF8.data.toList := by
  rw [bytes_eq, bytes_eq]
  refine ⟨flatMap_utf8EncodeChar_lt, fun h => ?_⟩
  by_contra hab
  by_cases hba : b < a
  · exact List.lt_asymm h (flatMap_utf8EncodeChar_lt hba)
  · rw [String.le_antisymm hba hab] at h
    exact List.lt_irrefl _ h

end OrderSaga.Text
