import OrderSaga.Time.Instant

namespace OrderSaga

/-- A JSON document. -/
inductive Json where
  | null
  | bool (b : Bool)
  | num (text : String)
  | str (s : String)
  | arr (items : List Json)
  | obj (fields : List (String × Json))
  | refused (reason : String)
  deriving Inhabited, Repr

namespace Json

def ofNat (n : Nat) : Json := .num (toString n)

def ofInt (n : Int) : Json := .num (toString n)

def ofUInt64 (n : UInt64) : Json := ofNat n.toNat

def ofInt64 (n : Int64) : Json := ofInt n.toInt

/-- A string member that is `null` when absent. -/
def ofOption (o : Option String) : Json :=
  match o with
  | some s => .str s
  | none => .null

/-- The last member of that name, as a decoder of records with unique keys reads it. -/
def get? (j : Json) (name : String) : Option Json :=
  match j with
  | .obj fields => (fields.reverse.find? (·.1 == name)).map (·.2)
  | _ => none

def field (j : Json) (name : String) : Json := (j.get? name).getD .null

def has (j : Json) (name : String) : Bool := (j.get? name).isSome

def isNull : Json → Bool
  | .null => true
  | _ => false

/-- The text of a string value. -/
def str? : Json → Option String
  | .str s => some s
  | _ => none

def bool? : Json → Option Bool
  | .bool b => some b
  | _ => none

def arr? : Json → Option (List Json)
  | .arr items => some items
  | _ => none

/-- Digits of an integer literal: an optional minus, then decimal digits only. -/
def intText? (text : String) : Option Int :=
  match text.toList with
  | '-' :: ds => if ds.isEmpty || !ds.all Char.isDigit then none
      else some (-(Int.ofNat (digitsValue ds)))
  | ds => if ds.isEmpty || !ds.all Char.isDigit then none else some (Int.ofNat (digitsValue ds))
where
  digitsValue (ds : List Char) : Nat := ds.foldl (fun n c => 10 * n + (c.toNat - '0'.toNat)) 0

/-- An integer value; a number written with a fraction or exponent is not one. -/
def int? : Json → Option Int
  | .num text => intText? text
  | _ => none

def nat? (j : Json) : Option Nat :=
  match j.int? with
  | some n => if 0 ≤ n then some n.toNat else none
  | none => none

/-- Members of an object with the given name, in written order. -/
def members (j : Json) : List (String × Json) :=
  match j with
  | .obj fields => fields
  | _ => []

/-- The decimal digits of a number literal as a mantissa and a power of ten: the literal is
`mantissa * 10 ^ exponent`, with its sign apart. -/
def decimalParts (text : String) : Option (Bool × Nat × Int) :=
  let (neg, cs) := match text.toList with
    | '-' :: rest => (true, rest)
    | cs => (false, cs)
  let whole := cs.takeWhile Char.isDigit
  let rest := cs.dropWhile Char.isDigit
  let (frac, rest) := match rest with
    | '.' :: r => (r.takeWhile Char.isDigit, r.dropWhile Char.isDigit)
    | r => ([], r)
  let expo : Option Int := match rest with
    | [] => some 0
    | c :: r =>
      if c == 'e' || c == 'E' then
        match r with
        | '-' :: ds => (intText? (String.ofList ds)).map (- ·)
        | '+' :: ds => intText? (String.ofList ds)
        | ds => intText? (String.ofList ds)
      else none
  if whole.isEmpty then none else
  expo.map fun e =>
    let digits := whole ++ frac
    (neg, digits.foldl (fun n c => 10 * n + (c.toNat - '0'.toNat)) 0, e - frac.length)

/-- The double nearest to a number literal. -/
def float? : Json → Option Float
  | .num text => (decimalParts text).map fun (neg, m, e) =>
    let x := if e < 0 then Float.ofScientific m true e.natAbs
      else Float.ofScientific m false e.toNat
    if neg then -x else x
  | _ => none

/-- The reason of the first value in written order that has no JSON text, if there is one. -/
def refusal? : Json → Option String
  | .refused r => some r
  | .arr items => firstItem items
  | .obj fields => firstField fields
  | _ => none
where
  firstItem : List Json → Option String
    | [] => none
    | j :: rest => (refusal? j).orElse fun _ => firstItem rest
  firstField : List (String × Json) → Option String
    | [] => none
    | (_, v) :: rest => (refusal? v).orElse fun _ => firstField rest

/-- Every text in the value, member names included, in written order. -/
def texts : Json → List String
  | .str s => [s]
  | .arr items => itemTexts items
  | .obj fields => fieldTexts fields
  | _ => []
where
  itemTexts : List Json → List String
    | [] => []
    | j :: rest => texts j ++ itemTexts rest
  fieldTexts : List (String × Json) → List String
    | [] => []
    | (k, v) :: rest => k :: texts v ++ fieldTexts rest

/-- The value with every text in it, member names included, changed by `f`. -/
def mapStrings (f : String → String) : Json → Json
  | .str s => .str (f s)
  | .arr items => .arr (mapItems f items)
  | .obj fields => .obj (mapFields f fields)
  | j => j
where
  mapItems (f : String → String) : List Json → List Json
    | [] => []
    | j :: rest => mapStrings f j :: mapItems f rest
  mapFields (f : String → String) : List (String × Json) → List (String × Json)
    | [] => []
    | (k, v) :: rest => (f k, mapStrings f v) :: mapFields f rest

end Json

/-- A time as a JSON document carries it: its RFC 3339 text, or a refusal when it has none. -/
def Instant.toJson (t : Instant) : Json :=
  match t.fault? with
  | some r => .refused ("json: error calling MarshalJSON for type *time.Time: " ++ r)
  | none => .str t.text

end OrderSaga
