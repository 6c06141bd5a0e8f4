import Mathlib
import OrderSaga.Json.Read
import OrderSaga.Json.Write

namespace OrderSaga.Json

/-! ## Strings -/

theorem hexValue_digit {d : Nat} (hd : d < 16) :
    hexValue (if d < 10 then Char.ofNat (48 + d) else Char.ofNat (87 + d)) = some d := by
  revert d
  decide

theorem hex4_read {n : Nat} (hn : n < 65536) :
    ∃ a b c d, hex4 n = [a, b, c, d] ∧ hexUnit a b c d = some n := by
  refine ⟨_, _, _, _, rfl, ?_⟩
  simp only [hexUnit, hexValue_digit (Nat.mod_lt _ (by omega : 16 > 0))]
  simp only [Option.bind_eq_bind, Option.bind_some, Option.pure_def, Option.some.injEq]
  omega

theorem readString_unit {n : Nat} (acc more : List Char) (hn : n < 0xD800) :
    readString acc ('\\' :: 'u' :: (hex4 n ++ more)) = readString (Char.ofNat n :: acc) more := by
  obtain ⟨a, b, c, d, h4, hu⟩ := hex4_read (n := n) (by omega)
  have hs : isSurrogate n = false := by simp [isSurrogate]; omega
  rw [h4]
  simp only [List.cons_append, List.nil_append]
  rw [readString]
  simp [hu, hs]

theorem readString_raw {c : Char} (acc more : List Char) (hq : c ≠ '"') (hb : c ≠ '\\')
    (hc : 32 ≤ c.toNat) : readString acc (c :: more) = readString (c :: acc) more := by
  rw [readString] <;> simp_all

theorem readString_escapeChar (c : Char) (acc more : List Char) :
    readString acc (escapeChar c ++ more) = readString (c :: acc) more := by
  unfold escapeChar
  split
  · subst_vars; rw [List.cons_append, List.cons_append, List.nil_append, readString]
  split
  · subst_vars; rw [List.cons_append, List.cons_append, List.nil_append, readString]
  split
  · subst_vars; rw [List.cons_append, List.cons_append, List.nil_append, readString]
  split
  · subst_vars; rw [List.cons_append, List.cons_append, List.nil_append, readString]
  split
  · subst_vars; rw [List.cons_append, List.cons_append, List.nil_append, readString]
  split
  · rename_i h
    rw [List.cons_append, List.cons_append, List.nil_append, readString, ← h, Char.ofNat_toNat]
  split
  · rename_i h
    rw [List.cons_append, List.cons_append, List.nil_append, readString, ← h, Char.ofNat_toNat]
  split
  · rename_i h
    have hlt : c.toNat < 0xD800 := by
      simp only [Bool.or_eq_true, decide_eq_true_eq] at h
      rcases h with ((((h | rfl) | rfl) | rfl) | h) | h
      · omega
      · decide
      · decide
      · decide
      · omega
      · omega
    rw [List.cons_append, List.cons_append, readString_unit acc more hlt, Char.ofNat_toNat]
  · rename_i hq hb _ _ _ _ _ h
    simp only [Bool.or_eq_true, decide_eq_true_eq, not_or] at h
    rw [List.cons_append, List.nil_append, readString_raw acc more hq hb (by omega)]

theorem readString_escaped (cs acc more : List Char) :
    readString acc (cs.flatMap escapeChar ++ '"' :: more) =
      some (String.ofList (acc.reverse ++ cs), more) := by
  induction cs generalizing acc with
  | nil => rw [List.flatMap_nil, List.nil_append, readString]; simp
  | cons c cs ih => rw [List.flatMap_cons, List.append_assoc, readString_escapeChar, ih]; simp

theorem quote_toList (s : String) :
    (quote s).toList = '"' :: (s.toList.flatMap escapeChar ++ ['"']) := by
  simp [quote]

theorem readString_quote (s : String) (more : List Char) :
    readString [] (s.toList.flatMap escapeChar ++ '"' :: more) = some (s, more) := by
  simp [readString_escaped]

/-! ## Number literals -/

def HeadIn (cs rest : List Char) : Prop := ∀ c ∈ rest.head?, c ∈ cs

theorem headIn_cons {cs rest : List Char} {c : Char} (h : c ∈ cs) : HeadIn cs (c :: rest) := by
  simpa [HeadIn] using h

theorem HeadIn.mono {cs ds rest : List Char} (h : HeadIn cs rest) (hsub : cs ⊆ ds) :
    HeadIn ds rest := fun c hc => hsub (h c hc)

theorem spanDigits_append {ds rest : List Char} (hd : ∀ c ∈ ds, c.isDigit)
    (hr : HeadIn cs rest) (hcs : ∀ c ∈ cs, c.isDigit = false) :
    spanDigits (ds ++ rest) = (ds, rest) := by
  induction ds with
  | nil =>
    cases rest with
    | nil => rfl
    | cons c r => simp [spanDigits, hcs c (hr c rfl)]
  | cons c ds ih => simp_all [spanDigits]

def IsWhole (w : List Char) : Prop :=
  w = ['0'] ∨ ∃ c ds, w = c :: ds ∧ '1' ≤ c ∧ c ≤ '9' ∧ ∀ d ∈ ds, d.isDigit

def IsFraction (f : List Char) : Prop :=
  f = [] ∨ ∃ ds, f = '.' :: ds ∧ ds ≠ [] ∧ ∀ d ∈ ds, d.isDigit

/-- The exponent of a number literal: nothing, or `e` or `E`, an optional sign and at least one
digit. -/
def IsExponent (x : List Char) : Prop :=
  x = [] ∨ ∃ e sign ds, x = e :: sign ++ ds ∧ (e = 'e' ∨ e = 'E') ∧
    (sign = [] ∨ sign = ['+'] ∨ sign = ['-']) ∧ ds ≠ [] ∧ ∀ d ∈ ds, d.isDigit

/-- The grammar of a number literal. -/
def IsNumber (t : List Char) : Prop :=
  ∃ sign whole fraction exponent, t = sign ++ whole ++ fraction ++ exponent ∧
    (sign = [] ∨ sign = ['-']) ∧ IsWhole whole ∧ IsFraction fraction ∧ IsExponent exponent

theorem readWhole_whole {w rest : List Char} (hw : IsWhole w)
    (hr : HeadIn ['.', 'e', 'E', ',', ']', '}'] rest) : readWhole (w ++ rest) = some (w, rest) := by
  rcases hw with rfl | ⟨c, ds, rfl, h1, h9, hds⟩
  · rfl
  · have hc0 : c ≠ '0' := by rintro rfl; exact absurd h1 (by decide)
    rw [List.cons_append, readWhole.eq_2 _ _ hc0]
    simp [h1, h9, spanDigits_append hds hr (by simp)]

theorem readFraction_fraction {f rest : List Char} (hf : IsFraction f)
    (hr : HeadIn ['e', 'E', ',', ']', '}'] rest) :
    readFraction (f ++ rest) = some (f, rest) := by
  rcases hf with rfl | ⟨ds, rfl, hne, hds⟩
  · cases rest with
    | nil => rfl
    | cons c r =>
      have hc : c ≠ '.' := by rintro rfl; simpa using hr '.' rfl
      rw [List.nil_append, readFraction.eq_2 _ (by simpa using hc)]
  · simp [readFraction, spanDigits_append hds hr (by simp), hne]

theorem readExponentSign_sign {sign ds : List Char}
    (hsign : sign = [] ∨ sign = ['+'] ∨ sign = ['-'])
    (hd : ∀ d ∈ ds.head?, d.isDigit) : readExponentSign (sign ++ ds) = (sign, ds) := by
  rcases hsign with rfl | rfl | rfl
  · cases ds with
    | nil => rfl
    | cons d t =>
      have hd : d.isDigit := hd d rfl
      rw [List.nil_append, readExponentSign] <;> rintro _ ⟨⟩ <;> simp at hd
  · rfl
  · rfl

theorem readExponent_exponent {x rest : List Char} (hx : IsExponent x)
    (hr : HeadIn [',', ']', '}'] rest) :
    readExponent (x ++ rest) = some (x, rest) := by
  rcases hx with rfl | ⟨e, sign, ds, rfl, he, hsign, hne, hds⟩
  · cases rest with
    | nil => rfl
    | cons c r =>
      have hc : (c == 'e' || c == 'E') = false := by
        have h := hr c rfl
        simp only [List.mem_cons, List.not_mem_nil, or_false] at h
        rcases h with rfl | rfl | rfl <;> rfl
      simp [readExponent, hc]
  · have he : (e == 'e' || e == 'E') = true := by rcases he with rfl | rfl <;> rfl
    have hs : readExponentSign (sign ++ (ds ++ rest)) = (sign, ds ++ rest) := by
      obtain ⟨d, ds', rfl⟩ := List.exists_cons_of_ne_nil hne
      exact readExponentSign_sign hsign (fun c hc => hds c (by simp_all))
    simp [readExponent, he, hs, spanDigits_append hds hr (by simp), hne]

theorem IsExponent.headIn {x rest : List Char} (hx : IsExponent x)
    (hr : HeadIn [',', ']', '}'] rest) : HeadIn ['e', 'E', ',', ']', '}'] (x ++ rest) := by
  rcases hx with rfl | ⟨e, sign, ds, rfl, he, -⟩
  · exact hr.mono (by simp)
  · rcases he with rfl | rfl <;> exact headIn_cons (by simp)

theorem IsFraction.headIn {f rest : List Char} (hf : IsFraction f)
    (hr : HeadIn ['e', 'E', ',', ']', '}'] rest) :
    HeadIn ['.', 'e', 'E', ',', ']', '}'] (f ++ rest) := by
  rcases hf with rfl | ⟨ds, rfl, -⟩
  · exact hr.mono (by simp)
  · exact headIn_cons (by simp)

theorem readSign_sign {sign w rest : List Char} (hs : sign = [] ∨ sign = ['-'])
    (hw : IsWhole w) : readSign (sign ++ (w ++ rest)) = (sign, w ++ rest) := by
  rcases hs with rfl | rfl
  · rcases hw with rfl | ⟨c, ds, rfl, h1, h9, -⟩
    · rfl
    · have hc : c ≠ '-' := by rintro rfl; exact absurd h1 (by decide)
      rw [List.nil_append, List.cons_append, readSign.eq_2 _ (by simpa using hc)]
  · rfl

theorem readNumber_number {t rest : List Char} (ht : IsNumber t)
    (hr : HeadIn [',', ']', '}'] rest) : readNumber (t ++ rest) = some (String.ofList t, rest) := by
  obtain ⟨s, w, f, x, rfl, hs, hw, hf, hx⟩ := ht
  have hx' := readExponent_exponent hx hr
  have hf' := readFraction_fraction hf (hx.headIn hr)
  have hw' := readWhole_whole hw (hf.headIn (hx.headIn hr))
  have hs' : readSign (s ++ (w ++ (f ++ (x ++ rest)))) = (s, w ++ (f ++ (x ++ rest))) :=
    readSign_sign hs hw
  simp [readNumber, List.append_assoc, hs', hw', hf', hx']

theorem toDigits_leading {n : Nat} (hn : 0 < n) :
    ∃ c ds, Nat.toDigits 10 n = c :: ds ∧ '1' ≤ c ∧ c ≤ '9' := by
  induction n using Nat.strong_induction_on with
  | _ n ih =>
    rw [Nat.toDigits_eq_if (by omega)]
    split
    · rename_i hlt
      refine ⟨_, [], rfl, ?_⟩
      interval_cases n <;> decide
    · obtain ⟨c, ds, h, hc⟩ := ih (n / 10) (by omega) (by omega)
      exact ⟨c, ds ++ _, by rw [h, List.cons_append], hc⟩

theorem isWhole_toDigits (n : Nat) : IsWhole (Nat.toDigits 10 n) := by
  rcases Nat.eq_zero_or_pos n with rfl | hn
  · exact .inl (Nat.toDigits_zero 10)
  · obtain ⟨c, ds, h, hc⟩ := toDigits_leading hn
    refine .inr ⟨c, ds, h, hc.1, hc.2, fun d hd => ?_⟩
    exact Nat.isDigit_of_mem_toDigits (b := 10) (by omega) (by omega) (by rw [h]; exact .tail _ hd)

theorem isNumber_nat (n : Nat) : IsNumber (toString n).toList :=
  ⟨[], _, [], [], by simp, .inl rfl, isWhole_toDigits n,
    .inl rfl, .inl rfl⟩

theorem isNumber_int (i : Int) : IsNumber (toString i).toList := by
  cases i with
  | ofNat n => exact isNumber_nat n
  | negSucc n =>
    refine ⟨['-'], _, [], [], ?_, .inr rfl, isWhole_toDigits (n + 1), .inl rfl, .inl rfl⟩
    show (Int.repr (Int.negSucc n)).toList = _
    simp [Int.repr, Nat.toList_repr]

/-! ## Values -/

mutual
/-- A value that its compact text gives back: nothing in it is refused and each of its numbers is a
number literal. -/
def Readable : Json → Prop
  | .num text => IsNumber text.toList
  | .arr items => ReadableItems items
  | .obj fields => ReadableFields fields
  | .refused _ => False
  | _ => True

def ReadableItems : List Json → Prop
  | [] => True
  | j :: rest => Readable j ∧ ReadableItems rest

def ReadableFields : List (String × Json) → Prop
  | [] => True
  | (_, v) :: rest => Readable v ∧ ReadableFields rest
end

mutual
/-- How deep arrays and objects nest in a value. -/
def nesting : Json → Nat
  | .arr items => itemsNesting items + 1
  | .obj fields => fieldsNesting fields + 1
  | _ => 0

def itemsNesting : List Json → Nat
  | [] => 0
  | j :: rest => max (nesting j) (itemsNesting rest)

def fieldsNesting : List (String × Json) → Nat
  | [] => 0
  | (_, v) :: rest => max (nesting v) (fieldsNesting rest)
end

mutual
/-- The fuel the reader spends on a value: one for it and one for each item and member. -/
def weight : Json → Nat
  | .arr items => itemsWeight items + 1
  | .obj fields => fieldsWeight fields + 1
  | _ => 1

def itemsWeight : List Json → Nat
  | [] => 0
  | j :: rest => weight j + itemsWeight rest + 1

def fieldsWeight : List (String × Json) → Nat
  | [] => 0
  | (_, v) :: rest => weight v + fieldsWeight rest + 1
end

theorem IsNumber.head {t : List Char} (ht : IsNumber t) :
    ∃ c u, t = c :: u ∧ (c = '-' ∨ c.isDigit) := by
  obtain ⟨s, w, f, x, rfl, hs, hw, -⟩ := ht
  rcases hs with rfl | rfl
  · rcases hw with rfl | ⟨c, ds, rfl, h1, h9, -⟩
    · exact ⟨'0', _, rfl, .inr rfl⟩
    · refine ⟨c, _, rfl, .inr ?_⟩
      simp only [Char.isDigit, Bool.and_eq_true, decide_eq_true_eq]
      exact ⟨Char.le_trans (by decide) h1, h9⟩
  · exact ⟨'-', _, rfl, .inl rfl⟩

theorem skipBlanks_cons {c : Char} (t : List Char) (hc : isBlank c = false) :
    skipBlanks (c :: t) = c :: t := by
  simp [skipBlanks, hc]

theorem isBlank_eq_false {c : Char} (h : c ∉ [' ', '\t', '\n', '\r']) : isBlank c = false := by
  simp_all [isBlank]

theorem IsNumber.head_not_mem {t : List Char} (ht : IsNumber t) :
    ∃ c u, t = c :: u ∧
      c ∉ [' ', '\t', '\n', '\r', '{', '[', '"', 't', 'f', 'n', ']', '}'] := by
  obtain ⟨c, u, rfl, hc⟩ := ht.head
  refine ⟨c, u, rfl, ?_⟩
  rcases hc with rfl | hd
  · decide
  · intro hm
    have hL : ∀ d ∈ [' ', '\t', '\n', '\r', '{', '[', '"', 't', 'f', 'n', ']', '}'],
        d.isDigit = false := by simp
    simp [hL c hm] at hd

theorem readValue_other {c : Char} (t : List Char) (fuel depth : Nat) (hb : isBlank c = false)
    (hc : c ∉ ['{', '[', '"', 't', 'f', 'n']) :
    readValue (fuel + 1) depth (c :: t) = (readNumber (c :: t)).map fun (n, r) => (.num n, r) := by
  rw [readValue, skipBlanks_cons _ hb]
  split <;> simp_all

theorem readValue_number {t rest : List Char} (ht : IsNumber t)
    (hr : HeadIn [',', ']', '}'] rest) (fuel depth : Nat) :
    readValue (fuel + 1) depth (t ++ rest) = some (.num (String.ofList t), rest) := by
  obtain ⟨c, u, rfl, hc⟩ := ht.head_not_mem
  have hb : isBlank c = false := isBlank_eq_false (by simp_all)
  rw [List.cons_append, readValue_other _ _ _ hb (by simp_all), ← List.cons_append,
    readNumber_number ht hr]
  rfl

theorem weight_pos (j : Json) : 0 < weight j := by
  cases j <;> simp [weight]

theorem compact_head {j : Json} (hj : Readable j) :
    ∃ c t, (compact j).toList = c :: t ∧ c ∉ [' ', '\t', '\n', '\r', ']', '}'] := by
  cases j with
  | null => exact ⟨'n', ['u', 'l', 'l'], by simp [compact], by decide⟩
  | bool b =>
    cases b
    · exact ⟨'f', ['a', 'l', 's', 'e'], by simp [compact], by decide⟩
    · exact ⟨'t', ['r', 'u', 'e'], by simp [compact], by decide⟩
  | num text =>
    obtain ⟨c, u, h, hc⟩ := IsNumber.head_not_mem hj
    exact ⟨c, u, by simpa [compact] using h, by simp_all⟩
  | str s => exact ⟨'"', _, by rw [compact, quote_toList], by decide⟩
  | arr items => exact ⟨'[', (compactItems items).toList ++ [']'], by simp [compact], by decide⟩
  | obj fields =>
    exact ⟨'{', (compactFields fields).toList ++ ['}'], by simp [compact], by decide⟩
  | refused r => exact absurd hj (by simp [Readable])

theorem compactItems_head {j : Json} (items : List Json) (hj : Readable j) :
    ∃ c t, (compactItems (j :: items)).toList = c :: t ∧
      c ∉ [' ', '\t', '\n', '\r', ']', '}'] := by
  obtain ⟨c, t, h, hc⟩ := compact_head hj
  cases items with
  | nil => exact ⟨c, t, by simpa [compactItems] using h, hc⟩
  | cons k items =>
    exact ⟨c, t ++ ',' :: (compactItems (k :: items)).toList, by simp [compactItems, h], hc⟩

theorem readValue_array {c : Char} (t : List Char) (fuel depth : Nat)
    (hd : depth + 1 ≤ maxDepth) (hc : c ∉ [' ', '\t', '\n', '\r', ']', '}']) :
    readValue (fuel + 1) depth ('[' :: c :: t) =
      (readItems fuel (depth + 1) [] (c :: t)).map fun (js, r) => (.arr js, r) := by
  rw [readValue, skipBlanks_cons _ rfl]
  simp only
  rw [if_neg (by omega), skipBlanks_cons _ (isBlank_eq_false (by simp_all))]
  split <;> simp_all

theorem readValue_object {c : Char} (t : List Char) (fuel depth : Nat)
    (hd : depth + 1 ≤ maxDepth) (hc : c ∉ [' ', '\t', '\n', '\r', ']', '}']) :
    readValue (fuel + 1) depth ('{' :: c :: t) =
      (readMembers fuel (depth + 1) [] (c :: t)).map fun (fs, r) => (.obj fs, r) := by
  rw [readValue, skipBlanks_cons _ rfl]
  simp only
  rw [if_neg (by omega), skipBlanks_cons _ (isBlank_eq_false (by simp_all))]
  split <;> simp_all

mutual
theorem readValue_compact : ∀ (j : Json) (fuel depth : Nat) (rest : List Char), Readable j →
    depth + nesting j ≤ maxDepth → weight j ≤ fuel → HeadIn [',', ']', '}'] rest →
    readValue fuel depth ((compact j).toList ++ rest) = some (j, rest)
  | j, 0, _, _, _, _, hf, _ => absurd hf (by have := weight_pos j; omega)
  | .null, fuel + 1, depth, rest, _, _, _, _ => by
    simp [compact, readValue, skipBlanks, isBlank, readWord]
  | .bool true, fuel + 1, depth, rest, _, _, _, _ => by
    simp [compact, readValue, skipBlanks, isBlank, readWord]
  | .bool false, fuel + 1, depth, rest, _, _, _, _ => by
    simp [compact, readValue, skipBlanks, isBlank, readWord]
  | .num text, fuel + 1, depth, rest, hj, _, _, hr => by
    simpa [compact] using readValue_number hj hr fuel depth
  | .str s, fuel + 1, depth, rest, _, _, _, _ => by
    rw [compact, quote_toList]
    simp [readValue, skipBlanks, isBlank, readString_quote]
  | .arr [], fuel + 1, depth, rest, _, hd, _, _ => by
    simp only [nesting, itemsNesting] at hd
    simp [compact, compactItems, readValue, skipBlanks, isBlank]
    omega
  | .arr (j :: items), fuel + 1, depth, rest, hj, hd, hf, _ => by
    simp only [nesting] at hd
    simp only [weight] at hf
    obtain ⟨c, t, ht, hc⟩ := compactItems_head items hj.1
    have hitems := readItems_compact (j :: items) fuel (depth + 1) [] rest
      (List.cons_ne_nil _ _) hj (by omega) (by omega)
    rw [ht] at hitems
    have htext : (compact (.arr (j :: items))).toList ++ rest = '[' :: c :: (t ++ ']' :: rest) := by
      simp [compact, ht]
    rw [htext, readValue_array _ _ _ (by omega) hc, ← List.cons_append, hitems]
    rfl
  | .obj [], fuel + 1, depth, rest, _, hd, _, _ => by
    simp only [nesting, fieldsNesting] at hd
    simp [compact, compactFields, readValue, skipBlanks, isBlank]
    omega
  | .obj ((k, v) :: fields), fuel + 1, depth, rest, hj, hd, hf, _ => by
    simp only [nesting] at hd
    simp only [weight] at hf
    have hfields := readMembers_compact ((k, v) :: fields) fuel (depth + 1) [] rest
      (List.cons_ne_nil _ _) hj (by omega) (by omega)
    obtain ⟨t, ht⟩ : ∃ t, (compactFields ((k, v) :: fields)).toList = '"' :: t := by
      cases fields <;> simp [compactFields, quote_toList]
    rw [ht] at hfields
    have htext : (compact (.obj ((k, v) :: fields))).toList ++ rest =
        '{' :: '"' :: (t ++ '}' :: rest) := by
      simp [compact, ht]
    rw [htext, readValue_object _ _ _ (by omega) (by decide), ← List.cons_append, hfields]
    rfl
  | .refused _, fuel + 1, _, _, hj, _, _, _ => absurd hj (by simp [Readable])

theorem readItems_compact : ∀ (items : List Json) (fuel depth : Nat) (acc : List Json)
    (rest : List Char), items ≠ [] → ReadableItems items →
    depth + itemsNesting items ≤ maxDepth → itemsWeight items ≤ fuel →
    readItems fuel depth acc ((compactItems items).toList ++ ']' :: rest) =
      some (acc.reverse ++ items, rest)
  | [], _, _, _, _, h, _, _, _ => absurd rfl h
  | _ :: _, 0, _, _, _, _, _, _, hf => by simp [itemsWeight] at hf
  | [j], fuel + 1, depth, acc, rest, _, hj, hd, hf => by
    simp only [itemsNesting] at hd
    simp only [itemsWeight] at hf
    have hv := readValue_compact j fuel depth (']' :: rest) hj.1 (by omega) (by omega)
      (headIn_cons (by simp))
    rw [compactItems, readItems, hv]
    simp [skipBlanks, isBlank]
  | j :: k :: items, fuel + 1, depth, acc, rest, _, hj, hd, hf => by
    simp only [itemsNesting] at hd
    simp only [itemsWeight] at hf
    have hv := readValue_compact j fuel depth
      (',' :: ((compactItems (k :: items)).toList ++ ']' :: rest)) hj.1 (by omega) (by omega)
      (headIn_cons (by simp))
    have hi := readItems_compact (k :: items) fuel depth (j :: acc) rest (List.cons_ne_nil _ _)
      hj.2 (by simp only [itemsNesting] at hd ⊢; omega)
      (by simp only [itemsWeight] at hf ⊢; omega)
    have htext : (compactItems (j :: k :: items)).toList ++ ']' :: rest =
        (compact j).toList ++ ',' :: ((compactItems (k :: items)).toList ++ ']' :: rest) := by
      simp [compactItems]
    rw [htext, readItems, hv]
    simp [skipBlanks, isBlank, hi]

theorem readMembers_compact : ∀ (fields : List (String × Json)) (fuel depth : Nat)
    (acc : List (String × Json)) (rest : List Char), fields ≠ [] → ReadableFields fields →
    depth + fieldsNesting fields ≤ maxDepth → fieldsWeight fields ≤ fuel →
    readMembers fuel depth acc ((compactFields fields).toList ++ '}' :: rest) =
      some (acc.reverse ++ fields, rest)
  | [], _, _, _, _, h, _, _, _ => absurd rfl h
  | _ :: _, 0, _, _, _, _, _, _, hf => by simp [fieldsWeight] at hf
  | [(k, v)], fuel + 1, depth, acc, rest, _, hj, hd, hf => by
    simp only [fieldsNesting] at hd
    simp only [fieldsWeight] at hf
    have hv := readValue_compact v fuel depth ('}' :: rest) hj.1 (by omega) (by omega)
      (headIn_cons (by simp))
    have htext : (compactFields [(k, v)]).toList ++ '}' :: rest =
        '"' :: (k.toList.flatMap escapeChar ++
          '"' :: ':' :: ((compact v).toList ++ '}' :: rest)) := by
      simp [compactFields, quote_toList]
    rw [htext, readMembers]
    simp [skipBlanks, isBlank, readString_quote, hv]
  | (k, v) :: (k', v') :: fields, fuel + 1, depth, acc, rest, _, hj, hd, hf => by
    simp only [fieldsNesting] at hd
    simp only [fieldsWeight] at hf
    have hv := readValue_compact v fuel depth
      (',' :: ((compactFields ((k', v') :: fields)).toList ++ '}' :: rest)) hj.1 (by omega)
      (by omega) (headIn_cons (by simp))
    have hi := readMembers_compact ((k', v') :: fields) fuel depth ((k, v) :: acc) rest
      (List.cons_ne_nil _ _) hj.2 (by simp only [fieldsNesting] at hd ⊢; omega)
      (by simp only [fieldsWeight] at hf ⊢; omega)
    have htext : (compactFields ((k, v) :: (k', v') :: fields)).toList ++ '}' :: rest =
        '"' :: (k.toList.flatMap escapeChar ++ '"' :: ':' :: ((compact v).toList ++
          ',' :: ((compactFields ((k', v') :: fields)).toList ++ '}' :: rest))) := by
      simp [compactFields, quote_toList]
    rw [htext, readMembers]
    simp [skipBlanks, isBlank, readString_quote, hv, hi]
end

mutual
theorem weight_le_length : ∀ j : Json, weight j ≤ 2 * (compact j).toList.length + 1
  | .arr items => by
    have := itemsWeight_le_length items
    simp [weight, compact]
    omega
  | .obj fields => by
    have := fieldsWeight_le_length fields
    simp [weight, compact]
    omega
  | .null | .bool _ | .num _ | .str _ | .refused _ => by simp [weight]

theorem itemsWeight_le_length : ∀ items : List Json,
    itemsWeight items ≤ 2 * (compactItems items).toList.length + 2
  | [] => by simp [itemsWeight]
  | [j] => by
    have := weight_le_length j
    simp [itemsWeight, compactItems]
    omega
  | j :: k :: items => by
    have := weight_le_length j
    have := itemsWeight_le_length (k :: items)
    simp only [itemsWeight] at *
    simp [compactItems]
    omega

theorem fieldsWeight_le_length : ∀ fields : List (String × Json),
    fieldsWeight fields ≤ 2 * (compactFields fields).toList.length + 2
  | [] => by simp [fieldsWeight]
  | [(k, v)] => by
    have := weight_le_length v
    simp [fieldsWeight, compactFields]
    omega
  | (k, v) :: (k', v') :: fields => by
    have := weight_le_length v
    have := fieldsWeight_le_length ((k', v') :: fields)
    simp only [fieldsWeight] at *
    simp [compactFields]
    omega
end

theorem parse_compact {j : Json} (hj : Readable j) (hd : nesting j ≤ maxDepth) :
    parse (compact j) = some j := by
  have hv := readValue_compact j (2 * (compact j).toList.length + 2) 0 [] hj (by omega)
    (by have := weight_le_length j; omega) (by simp [HeadIn])
  simp only [List.append_nil] at hv
  simp [parse, hv, skipBlanks]

end OrderSaga.Json
