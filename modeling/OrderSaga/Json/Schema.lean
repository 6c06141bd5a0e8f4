import OrderSaga.Json.Value
import OrderSaga.Time.Rfc3339

namespace OrderSaga.Json

/-- The types values are read into, each with the name that reports give it. -/
inductive Schema where
  | text
  | flag
  | whole (lo hi : Int) (name : String)
  | real
  | time
  | list (elem : Schema) (name : String)
  | record (name : String) (fields : List (String × Schema))
  | table (elem : Schema) (name : String)
  | any
  | named (name : String) (base : Schema)

/-- The character a field name is compared by: ASCII letters in upper case, and the two characters
outside ASCII that simple case folding puts beside an ASCII letter (the long s and the Kelvin sign)
mapped to that letter. -/
def foldChar (c : Char) : Char :=
  if 'a' ≤ c && c ≤ 'z' then Char.ofNat (c.toNat - 32)
  else if c.toNat == 0x17f then 'S'
  else if c.toNat == 0x212a then 'K'
  else c

def sameName (key name : String) : Bool :=
  key.toList.map foldChar == name.toList.map foldChar

namespace Schema

def uint64 : Schema := .whole 0 (UInt64.size - 1) "uint64"
def uint32 : Schema := .whole 0 (UInt32.size - 1) "uint32"
def int64 : Schema := .whole Int64.minValue.toInt Int64.maxValue.toInt "int64"
def int : Schema := .whole Int64.minValue.toInt Int64.maxValue.toInt "int"

/-- The name of the type in reports. -/
def name : Schema → String
  | .text => "string"
  | .flag => "bool"
  | .whole _ _ n => n
  | .real => "float64"
  | .time => "time.Time"
  | .list _ n => n
  | .record n _ => n
  | .table _ n => n
  | .any => "interface \x7b\x7d"
  | .named n _ => n

def listOf (elem : Schema) : Schema := .list elem ("[]" ++ elem.name)

/-- A field of an unnamed record type as the type's name lists it: its label, the member it is read
from, its type, and whether the field holds a reference, marked `*` in the name. -/
structure Slot where
  label : String
  member : String
  schema : Schema
  byRef : Bool := false

/-- An unnamed record type; its name lists each field's label, type and member name. -/
def unnamed (slots : List Slot) : Schema :=
  let field (f : Slot) : String :=
    f.label ++ " " ++ (if f.byRef then "*" else "") ++ f.schema.name ++
      " \"json:\\\"" ++ f.member ++ "\\\"\""
  .record ("struct \x7b " ++ "; ".intercalate (slots.map field) ++ " \x7d")
    (slots.map fun f => (f.member, f.schema))

/-- The name a path in a report starts from: a named record type's name without its package, and
nothing for an unnamed record type or any other type. -/
def root : Schema → String
  | .record n _ => if n.startsWith "struct " then "" else ((n.splitOn ".").getLast?).getD n
  | _ => ""

end Schema

/-- The kind of a JSON value as reports name it. -/
def kindName : Json → String
  | .null => "null"
  | .bool _ => "bool"
  | .num _ => "number"
  | .str _ => "string"
  | .arr _ => "array"
  | .obj _ => "object"
  | .refused _ => "null"

/-- A value that its type cannot hold: what was found, the type's name, where the value stood, and
whether that place is a record's field. -/
structure Mismatch where
  found : String
  target : String
  path : List String := []
  atField : Bool := false
  deriving DecidableEq, Repr

namespace Mismatch

def under (m : Mismatch) (step : String) (field : Bool) : Mismatch :=
  { m with path := step :: m.path, atField := if m.path.isEmpty then field else m.atField }

/-- The report of a mismatch met reading a value whose type's reports start from `root`. -/
def message (m : Mismatch) (root : String) : String :=
  let place := root ++ "." ++ ".".intercalate m.path
  "json: cannot unmarshal " ++ m.found ++ " into " ++
    (if m.path.isEmpty then "Go value of type " ++ m.target
     else if m.atField then "Go struct field " ++ place ++ " of type " ++ m.target
     else place ++ " of type " ++ m.target)

end Mismatch

/-- Whether a number's text is an integer from `lo` to `hi`; where `lo` is not negative, the text
has no minus sign. -/
def wholeFits (lo hi : Int) (text : String) : Bool :=
  match intText? text with
  | some i => lo ≤ i && i ≤ hi && (lo < 0 || !text.startsWith "-")
  | none => false

/-- Whether a number's text stands for a finite double. -/
def realFits (text : String) : Bool :=
  match decimalParts text with
  | some (_, m, e) =>
    let x := if e < 0 then Float.ofScientific m true e.natAbs
      else Float.ofScientific m false e.toNat
    !x.isInf
  | none => false

namespace Schema

/-- The first element, in order, that `check` finds fault with, placed by its position. -/
def checkItems (check : Json → Option Mismatch) (i : Nat) : List Json → Option Mismatch
  | [] => none
  | j :: rest => match check j with
    | some m => some (m.under (toString i) false)
    | none => checkItems check (i + 1) rest

/-- The first member, in order, that the field its key names finds fault with. -/
def checkMembers (field : String → Option (String × (Json → Option Mismatch))) :
    List (String × Json) → Option Mismatch
  | [] => none
  | (k, v) :: rest => match field k with
    | some (n, check) => match check v with
      | some m => some (m.under n true)
      | none => checkMembers field rest
    | none => checkMembers field rest

/-- The first entry, in order, whose value `check` finds fault with, placed by its key. -/
def checkEntries (check : Json → Option Mismatch) : List (String × Json) → Option Mismatch
  | [] => none
  | (k, v) :: rest => match check v with
    | some m => some (m.under k false)
    | none => checkEntries check rest

mutual
/-- The first value in `j`, in written order, that `s` cannot hold. -/
def check : Schema → Json → Option Mismatch
  | _, .null => none
  | .any, _ => none
  | .text, .str _ => none
  | .flag, .bool _ => none
  | .whole lo hi n, .num t =>
    if wholeFits lo hi t then none else some ⟨"number " ++ t, n, [], false⟩
  | .real, .num t => if realFits t then none else some ⟨"number " ++ t, "float64", [], false⟩
  | .time, .str t =>
    if (Instant.parse? t).isSome then none else some ⟨"string", "time.Time", [], false⟩
  | .list elem _, .arr items => checkItems elem.check 0 items
  | .record _ fields, .obj ms => checkMembers (fieldCheck fields) ms
  | .table elem _, .obj ms => checkEntries elem.check ms
  | .named n base, j =>
    (base.check j).map fun m => if m.path.isEmpty then { m with target := n } else m
  | s, j => some ⟨kindName j, s.name, [], false⟩

/-- The first field that a key names, with the check of its type. -/
def fieldCheck :
    List (String × Schema) → String → Option (String × (Json → Option Mismatch))
  | [], _ => none
  | (n, s) :: rest, k => if sameName k n then some (n, s.check) else fieldCheck rest k
end

end Schema

namespace Mismatch

def report (m : Mismatch) (s : Schema) : String := m.message s.root

end Mismatch

end OrderSaga.Json
