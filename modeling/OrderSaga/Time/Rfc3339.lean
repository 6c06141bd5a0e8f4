import OrderSaga.Time.Instant

namespace OrderSaga.Instant

/-- The number written by a run of decimal digits, if every character is one. -/
def digitsValue? (cs : List Char) : Option Nat :=
  if cs.isEmpty || !cs.all Char.isDigit then none
  else some (cs.foldl (fun n c => 10 * n + (c.toNat - 48)) 0)

/-- A number of exactly `width` digits at the front that lies in `lo..hi`, and the rest. -/
def fixedField (width lo hi : Nat) (cs : List Char) : Option (Nat × List Char) := do
  let n ← digitsValue? (cs.take width)
  if cs.length < width || n < lo || hi < n then none else some (n, cs.drop width)

/-- Nanoseconds written by the digits of a fraction: the first nine, padded on the right. -/
def fractionNanos (ds : List Char) : Nat :=
  let nine := ds.take 9
  (digitsValue? nine).getD 0 * Nat.pow 10 (9 - nine.length)

def takeDigits (cs : List Char) : List Char × List Char :=
  (cs.takeWhile Char.isDigit, cs.dropWhile Char.isDigit)

/-- The instant of a civil date and time of day shown at `offset` seconds east of UTC. -/
def ofCivil (y : Int) (mo d h mi s nanos : Nat) (offset : Int) : Instant :=
  let secs := daysFromCivil y mo d * 86400 + h * 3600 + mi * 60 + s - offset
  ⟨secs * nanosPerSecond + nanos, offset⟩

def expect (c : Char) : List Char → Option (List Char)
  | x :: rest => if x == c then some rest else none
  | [] => none

/-- The strict RFC 3339 reading. -/
def parseStrict (cs : List Char) : Option Instant := do
  if cs.length < 19 then none
  let (y, r) ← fixedField 4 0 9999 cs
  let r ← expect '-' r
  let (mo, r) ← fixedField 2 1 12 r
  let r ← expect '-' r
  let (d, r) ← fixedField 2 1 (daysIn mo y) r
  let r ← expect 'T' r
  let (h, r) ← fixedField 2 0 23 r
  let r ← expect ':' r
  let (mi, r) ← fixedField 2 0 59 r
  let r ← expect ':' r
  let (s, r) ← fixedField 2 0 59 r
  let (nanos, r) := match r with
    | '.' :: c :: rest =>
      if c.isDigit then
        let (ds, rest') := takeDigits (c :: rest)
        (fractionNanos ds, rest')
      else (0, r)
    | _ => (0, r)
  match r with
  | ['Z'] => pure (ofCivil y mo d h mi s nanos 0)
  | [sign, h1, h2, ':', m1, m2] =>
    let (oh, _) ← fixedField 2 0 23 [h1, h2]
    let (om, _) ← fixedField 2 0 59 [m1, m2]
    let mag : Int := (oh * 60 + om) * 60
    if sign == '+' then pure (ofCivil y mo d h mi s nanos mag)
    else if sign == '-' then pure (ofCivil y mo d h mi s nanos (-mag))
    else none
  | _ => none

/-- The hour by the looser rule: one or two digits, below 24. -/
def looseHour (cs : List Char) : Option (Nat × List Char) :=
  match cs with
  | a :: b :: rest =>
    if !a.isDigit then none
    else if b.isDigit then
      let h := (a.toNat - 48) * 10 + (b.toNat - 48)
      if h < 24 then some (h, rest) else none
    else some (a.toNat - 48, b :: rest)
  | [a] => if a.isDigit then some (a.toNat - 48, []) else none
  | [] => none

/-- The looser reading. -/
def parseLoose (cs : List Char) : Option Instant := do
  let (y, r) ← fixedField 4 0 9999 cs
  let r ← expect '-' r
  let (mo, r) ← fixedField 2 1 12 r
  let r ← expect '-' r
  let (d, r) ← fixedField 2 1 31 r
  let r ← expect 'T' r
  let (h, r) ← looseHour r
  let r ← expect ':' r
  let (mi, r) ← fixedField 2 0 59 r
  let r ← expect ':' r
  let (s, r) ← fixedField 2 0 59 r
  let (nanos, r) := match r with
    | p :: c :: rest =>
      if (p == '.' || p == ',') && c.isDigit then
        let (ds, rest') := takeDigits (c :: rest)
        (fractionNanos ds, rest')
      else (0, r)
    | _ => (0, r)
  let offset ← match r with
    | ['Z'] => some (0 : Int)
    | [sign, h1, h2, ':', m1, m2] => do
      let (oh, _) ← fixedField 2 0 24 [h1, h2]
      let (om, _) ← fixedField 2 0 60 [m1, m2]
      let mag : Int := (oh * 60 + om) * 60
      if sign == '+' then some mag else if sign == '-' then some (-mag) else none
    | _ => none
  if d > daysIn mo y then none
  pure (ofCivil y mo d h mi s nanos offset)

/-- The instant an RFC 3339 text names, if it names one. -/
def parse? (text : String) : Option Instant :=
  let cs := text.toList
  match parseStrict cs with
  | some t => some t
  | none => parseLoose cs

end OrderSaga.Instant
