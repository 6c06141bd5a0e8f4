import OrderSaga.Json.Schema

namespace OrderSaga.Json

/-- A lenient reader of values of type `β`, and the schema of what it reads. -/
structure Reader (β : Type) where
  schema : Schema
  read : Json → β → β

namespace Reader

def text : Reader String := ⟨.text, fun j old => (str? j).getD old⟩

def flag : Reader Bool := ⟨.flag, fun j old => (bool? j).getD old⟩

/-- An integer of the schema's range, through `ofInt`. -/
def whole {β : Type} (s : Schema) (ofInt : Int → β) : Reader β :=
  ⟨s, fun j old => match s, j with
    | .whole lo hi _, .num t => if wholeFits lo hi t then
        match intText? t with
        | some i => ofInt i
        | none => old
      else old
    | _, _ => old⟩

def uint64 : Reader UInt64 := whole Schema.uint64 fun i => UInt64.ofNat i.toNat
def uint32 : Reader UInt32 := whole Schema.uint32 fun i => UInt32.ofNat i.toNat
def int64 : Reader Int64 := whole Schema.int64 Int64.ofInt
def int : Reader Int := whole Schema.int id

/-- A double; a number beyond the doubles' range leaves the held value. -/
def real : Reader Float :=
  ⟨.real, fun j old => match j with
    | .num t => if realFits t then (float? (.num t)).getD old else old
    | _ => old⟩

/-- An instant written as an RFC 3339 text. -/
def instant : Reader Instant :=
  ⟨.time, fun j old => match j with
    | .str s => (Instant.parse? s).getD old
    | _ => old⟩

def raw : Reader (Option Json) := ⟨.any, fun j _ => some j⟩

/-- An optional value: `null` clears it, and any other value is read over the held one, or over
`zero` when there is none. -/
def optional {β : Type} (r : Reader β) (zero : β) : Reader (Option β) :=
  ⟨r.schema, fun j old => match j with
    | .null => none
    | j => some (r.read j (old.getD zero))⟩

def map {β γ : Type} (r : Reader β) (forth : β → γ) (back : γ → β) : Reader γ :=
  ⟨r.schema, fun j old => forth (r.read j (back old))⟩

def named {β : Type} (r : Reader β) (name : String) : Reader β :=
  { r with schema := .named name r.schema }

/-- A strict read: `none` when the value holds anything its schema cannot. -/
def decode? {β : Type} (r : Reader β) (j : Json) (start : β) : Option β :=
  match r.schema.check j with
  | some _ => none
  | none => some (r.read j start)

end Reader

/-- A field of a record of type `α`: its name, its schema, and how the members naming it change a
record. -/
structure Field (α : Type) where
  name : String
  schema : Schema
  read : List Json → α → α

/-- Reads an object into `start`; any other value leaves `start` as it is. -/
def readRecord {α : Type} (fields : List (Field α)) (j : Json) (start : α) : α :=
  match j with
  | .obj ms =>
    fields.foldl (fun a f =>
      f.read (ms.filterMap fun m => if sameName m.1 f.name then some m.2 else none) a) start
  | _ => start

/-- One list member read over the elements held so far: `held` is every element still in reserve, of
which the first `len` are the list, and `absent` says there is no list. -/
structure Held (β : Type) where
  held : List β
  len : Nat
  absent : Bool

/-- The list a member leaves, the elements past its end kept in reserve. -/
def readElements {β : Type} (elem : Json → β → β) (zero : β) :
    List Json → List β → List β
  | [], held => held
  | j :: js, [] => elem j zero :: readElements elem zero js []
  | j :: js, h :: hs => elem j h :: readElements elem zero js hs

/-- How one member changes a held list; a value that is no list leaves it as it was. -/
def readHeld {β : Type} (elem : Json → β → β) (zero : β) (j : Json) (h : Held β) :
    Held β :=
  match j with
  | .null => ⟨[], 0, true⟩
  | .arr [] => ⟨[], 0, false⟩
  | .arr js => ⟨readElements elem zero js h.held, js.length, false⟩
  | _ => h

/-- A list read from the members naming it; `none` is the absent list, which `null` makes. -/
def readList {β : Type} (elem : Json → β → β) (zero : β) (js : List Json)
    (old : Option (List β)) : Option (List β) :=
  let start : Held β := match old with
    | none => ⟨[], 0, true⟩
    | some xs => ⟨xs, xs.length, false⟩
  let h := js.foldl (fun h j => readHeld elem zero j h) start
  if h.absent then none else some (h.held.take h.len)

namespace Reader

def list {β : Type} (elem : Reader β) (zero : β) (name : String) : Reader (Option (List β)) :=
  ⟨.list elem.schema name, fun j old => readList elem.read zero [j] old⟩

def record {α : Type} (name : String) (fields : List (Field α)) : Reader α :=
  ⟨.record name (fields.map fun f => (f.name, f.schema)), readRecord fields⟩

/-- A list of values kept as written; `null` reads as no values. -/
def values (name : String) : Reader (List Json) :=
  ⟨.list .any name, fun j old => match j with
    | .arr xs => xs
    | .null => []
    | _ => old⟩

def texts : Reader (List String) :=
  (list text "" "[]string").map (·.getD []) some

end Reader

/-- An object read over a held one: its members follow the held ones, so that a name's last member
wins and a member of a list of records is read over the held list. -/
def overObject (j held : Json) : Json :=
  match j with
  | .obj ms => .obj (held.members ++ ms)
  | _ => held

def readObjects (js : List Json) : List Json :=
  (readList overObject (.obj []) js none).getD []

namespace Field

/-- A field read by `r` from each member in turn. -/
def each {α β : Type} (name : String) (r : Reader β) (get : α → β) (set : α → β → α) :
    Field α :=
  ⟨name, r.schema, fun js a => set a (js.foldl (fun b j => r.read j b) (get a))⟩

/-- A list field whose elements are read by `elem`, starting from `zero` past the held ones. -/
def list {α β : Type} (name : String) (elem : Reader β) (zero : β) (listName : String)
    (get : α → Option (List β)) (set : α → Option (List β) → α) : Field α :=
  ⟨name, .list elem.schema listName, fun js a => set a (readList elem.read zero js (get a))⟩

end Field

end OrderSaga.Json
