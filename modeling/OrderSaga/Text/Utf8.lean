
namespace OrderSaga.Utf8

/-- How many bytes the unit at offset `i` of `s` takes. -/
def widthAt (s : ByteArray) (i : Nat) : Nat :=
  match s.utf8DecodeChar? i with
  | some c => c.utf8Size
  | none => 1

theorem widthAt_pos (s : ByteArray) (i : Nat) : 0 < widthAt s i := by
  unfold widthAt
  split
  · exact Char.utf8Size_pos _
  · exact Nat.one_pos

/-- Go's `strings.ToValidUTF8 s replacement`: the characters of `s` in order, with each maximal run
of bytes that start no encoding replaced by `replacement`. -/
def toValidUTF8 (s : ByteArray) (replacement : String) : String :=
  go 0 false ""
where
  go (i : Nat) (afterInvalid : Bool) (out : String) : String :=
    if i < s.size then
      match s.utf8DecodeChar? i with
      | some c => go (i + c.utf8Size) false (out.push c)
      | none => go (i + 1) true (if afterInvalid then out else out ++ replacement)
    else out
  termination_by s.size - i
  decreasing_by
    · have := Char.utf8Size_pos ‹Char›
      omega
    · omega

/-- Go's loop `n := 0; for i := range s { if n == limit { return s[:i] }; n++ }; return s`: the
bytes of `s` before its unit number `limit`, or all of `s` when it has no more units than that. -/
def cutUnits (limit : Nat) (s : ByteArray) : ByteArray :=
  go 0 0
where
  go (i n : Nat) : ByteArray :=
    if i < s.size then
      if n = limit then s.extract 0 i else go (i + widthAt s i) (n + 1)
    else s
  termination_by s.size - i
  decreasing_by have := widthAt_pos s i; omega

/-! ## Well-formed text -/

theorem size_utf8Encode_singleton (c : Char) : [c].utf8Encode.size = c.utf8Size := by
  rw [List.utf8Encode_singleton, List.size_toByteArray, String.length_utf8EncodeChar]

theorem size_utf8Encode_take_succ {cs : List Char} {n : Nat} (h : n < cs.length) :
    (cs.take (n + 1)).utf8Encode.size = (cs.take n).utf8Encode.size + cs[n].utf8Size := by
  rw [List.take_succ_eq_append_getElem h, List.utf8Encode_append, ByteArray.size_append,
    size_utf8Encode_singleton]

theorem utf8Encode_split {cs : List Char} {n : Nat} (h : n < cs.length) :
    cs.utf8Encode = (cs.take n).utf8Encode ++ (cs[n] :: cs.drop (n + 1)).utf8Encode := by
  rw [← List.drop_eq_getElem_cons h, ← List.utf8Encode_append, List.take_append_drop]

theorem decode_at_take {cs : List Char} {n : Nat} (h : n < cs.length) :
    cs.utf8Encode.utf8DecodeChar? (cs.take n).utf8Encode.size = some cs[n] := by
  rw [ByteArray.utf8DecodeChar?_eq_utf8DecodeChar?_extract, utf8Encode_split h,
    ByteArray.extract_append_eq_right rfl ByteArray.size_append,
    List.utf8DecodeChar?_utf8Encode_cons]

theorem widthAt_take {cs : List Char} {n : Nat} (h : n < cs.length) :
    widthAt cs.utf8Encode (cs.take n).utf8Encode.size = cs[n].utf8Size := by
  rw [widthAt, decode_at_take h]

theorem lt_size_of_lt_length {cs : List Char} {n : Nat} (h : n < cs.length) :
    (cs.take n).utf8Encode.size < cs.utf8Encode.size := by
  rw [utf8Encode_split h, ByteArray.size_append, List.utf8Encode_cons, ByteArray.size_append,
    size_utf8Encode_singleton]
  have := cs[n].utf8Size_pos
  omega

theorem cutUnits_go_utf8Encode (limit : Nat) (cs : List Char) :
    ∀ n, n ≤ limit → n ≤ cs.length →
      cutUnits.go limit cs.utf8Encode (cs.take n).utf8Encode.size n =
        (cs.take limit).utf8Encode := by
  suffices ∀ m n, cs.length - n = m → n ≤ limit → n ≤ cs.length →
      cutUnits.go limit cs.utf8Encode (cs.take n).utf8Encode.size n =
        (cs.take limit).utf8Encode from fun n => this _ n rfl
  intro m
  induction m with
  | zero =>
    intro n hm hn hlen
    have hend : n = cs.length := by omega
    subst hend
    rw [cutUnits.go, List.take_length, if_neg (Nat.lt_irrefl _),
      List.take_of_length_le (by omega)]
  | succ m ih =>
    intro n hm hn hlen
    have hlt : n < cs.length := by omega
    rw [cutUnits.go, if_pos (lt_size_of_lt_length hlt)]
    by_cases hstop : n = limit
    · subst hstop
      rw [if_pos rfl, utf8Encode_split hlt, ByteArray.extract_append_eq_left rfl]
    · rw [if_neg hstop, widthAt_take hlt, ← size_utf8Encode_take_succ hlt]
      exact ih (n + 1) (by omega) (by omega) (by omega)

theorem cutUnits_utf8Encode (limit : Nat) (cs : List Char) :
    cutUnits limit cs.utf8Encode = (cs.take limit).utf8Encode := by
  simpa [cutUnits] using cutUnits_go_utf8Encode limit cs 0 (Nat.zero_le _) (Nat.zero_le _)

theorem ofList_take_succ {cs : List Char} {n : Nat} (h : n < cs.length) :
    String.ofList (cs.take (n + 1)) = (String.ofList (cs.take n)).push cs[n] := by
  rw [List.take_succ_eq_append_getElem h, String.ofList_append, String.push_eq_append,
    String.singleton_eq_ofList]

theorem toValidUTF8_go_utf8Encode (replacement : String) (cs : List Char) :
    ∀ n, n ≤ cs.length →
      toValidUTF8.go cs.utf8Encode replacement (cs.take n).utf8Encode.size false
        (String.ofList (cs.take n)) = String.ofList cs := by
  suffices ∀ m n, cs.length - n = m → n ≤ cs.length →
      toValidUTF8.go cs.utf8Encode replacement (cs.take n).utf8Encode.size false
        (String.ofList (cs.take n)) = String.ofList cs from fun n => this _ n rfl
  intro m
  induction m with
  | zero =>
    intro n hm hlen
    have hend : n = cs.length := by omega
    subst hend
    rw [toValidUTF8.go, List.take_length, if_neg (Nat.lt_irrefl _)]
  | succ m ih =>
    intro n hm hlen
    have hlt : n < cs.length := by omega
    rw [toValidUTF8.go, if_pos (lt_size_of_lt_length hlt), decode_at_take hlt]
    simp only
    rw [← size_utf8Encode_take_succ hlt, ← ofList_take_succ hlt]
    exact ih (n + 1) (by omega) (by omega)

theorem toValidUTF8_utf8Encode (cs : List Char) (replacement : String) :
    toValidUTF8 cs.utf8Encode replacement = String.ofList cs := by
  simpa [toValidUTF8] using toValidUTF8_go_utf8Encode replacement cs 0 (Nat.zero_le _)

end OrderSaga.Utf8
