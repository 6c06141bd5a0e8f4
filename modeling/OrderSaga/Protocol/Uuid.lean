import OrderSaga.Ident

namespace OrderSaga.Ident

/-- One round of a 64-bit finalizing mix. -/
def mix (z : UInt64) : UInt64 :=
  let z := (z ^^^ (z >>> 30)) * 0xbf58476d1ce4e5b9
  let z := (z ^^^ (z >>> 27)) * 0x94d049bb133111eb
  z ^^^ (z >>> 31)

def digest (s : String) : UInt64 :=
  s.foldl (fun h c => mix (h + c.toNat.toUInt64 + 0x9e3779b97f4a7c15)) 0x51a6a

/-- The sixteen lowercase hexadecimal digits of a word. -/
def hex16 (w : UInt64) : List Char :=
  let ds := Nat.toDigits 16 w.toNat
  List.replicate (16 - ds.length) '0' ++ ds

/-- Variant `k` of the identifier numbered `n` in namespace `space`: its last four digits are moved
on by `k`, modulo `0x10000`. -/
def variant (space : String) (n k : Nat) : String :=
  let a := mix (digest space + n.toUInt64 * 0x9e3779b97f4a7c15)
  let b := mix (a + 0x632be59bd9b4e019)
  let b := (b &&& ~~~0xffff) ||| ((b + k.toUInt64) &&& 0xffff)
  let ds := hex16 a ++ hex16 b
  String.ofList (ds.take 8 ++ ['-'] ++ (ds.drop 8).take 4 ++ ['-'] ++ ['4'] ++ (ds.drop 13).take 3
    ++ ['-'] ++ ['a'] ++ (ds.drop 17).take 3 ++ ['-'] ++ (ds.drop 20).take 12)

def uuid (space : String) (n : Nat) : String := variant space n 0

/-- The identifier numbered `n` in namespace `space` that `taken` does not hold: the first variant
not taken among as many variants as `taken` has entries, and one more. -/
def fresh (taken : List String) (space : String) (n : Nat) : String :=
  ((List.range (taken.length + 1)).map (variant space n)).find? (!taken.contains ·)
    |>.getD (uuid space n)

theorem variant_ne_empty (space : String) (n k : Nat) : variant space n k ≠ "" := by
  unfold variant
  intro h
  rw [String.ofList_eq_empty_iff] at h
  simp only [List.append_eq_nil_iff, List.cons_ne_nil, and_false, false_and] at h

theorem fresh_ne_empty (taken : List String) (space : String) (n : Nat) :
    fresh taken space n ≠ "" := by
  unfold fresh
  cases h : ((List.range (taken.length + 1)).map (variant space n)).find?
      (!taken.contains ·) with
  | none => exact variant_ne_empty space n 0
  | some v =>
    obtain ⟨k, -, rfl⟩ := List.mem_map.mp (List.mem_of_find?_eq_some h)
    exact variant_ne_empty space n k

def source (taken : List String) : IdSource := ⟨fresh taken, fresh_ne_empty taken⟩

end OrderSaga.Ident
