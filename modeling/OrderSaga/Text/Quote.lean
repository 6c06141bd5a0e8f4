import OrderSaga.Text.Printable

namespace OrderSaga.Text

/-- Lowercase hexadecimal digits of `n`, padded with zeros to `width`. -/
def hexDigits (width n : Nat) : List Char :=
  let ds := Nat.toDigits 16 n
  List.replicate (width - ds.length) '0' ++ ds

/-- The written form of one character inside quotes. -/
def escaped (c : Char) : List Char :=
  if c = '"' then ['\\', '"']
  else if c = '\\' then ['\\', '\\']
  else if printable c then [c]
  else if c = '\x07' then ['\\', 'a']
  else if c = '\x08' then ['\\', 'b']
  else if c = '\x0c' then ['\\', 'f']
  else if c = '\n' then ['\\', 'n']
  else if c = '\r' then ['\\', 'r']
  else if c = '\t' then ['\\', 't']
  else if c = '\x0b' then ['\\', 'v']
  else if c.toNat < 0x80 then ['\\', 'x'] ++ hexDigits 2 c.toNat
  else if c.toNat < 0x10000 then ['\\', 'u'] ++ hexDigits 4 c.toNat
  else ['\\', 'U'] ++ hexDigits 8 c.toNat

theorem escaped_eq_self_iff (c : Char) :
    escaped c = [c] ↔ printable c = true ∧ c ≠ '"' ∧ c ≠ '\\' := by
  by_cases hq : c = '"'
  · subst hq
    simp [escaped]
  by_cases hb : c = '\\'
  · subst hb
    simp [escaped]
  by_cases hp : printable c = true
  · simp [escaped, hq, hb, hp]
  · simp only [escaped, hq, hb, hp, if_false, Bool.false_eq_true, false_and, iff_false]
    repeat' split
    all_goals simp

example : escaped ' ' = [' '] ∧ escaped 'é' = ['é'] ∧ escaped '\u20c1' = ['\u20c1'] ∧
    escaped '\x7f' = ['\\', 'x', '7', 'f'] ∧ escaped '\u0378' = ['\\', 'u', '0', '3', '7', '8'] ∧
    escaped '\u0600' = ['\\', 'u', '0', '6', '0', '0'] := by
  decide +kernel

def quoted (s : String) : String :=
  String.ofList ('"' :: (s.toList.flatMap escaped ++ ['"']))

end OrderSaga.Text
