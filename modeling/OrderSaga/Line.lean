import OrderSaga.Json.Fields

namespace OrderSaga

structure Line where
  resource : UInt64
  amount : Int64
  deriving DecidableEq, Repr, Inhabited

namespace Line

def toJson (l : Line) : Json :=
  .obj [("resourceId", .ofUInt64 l.resource), ("amount", .ofInt64 l.amount)]

def listJson (ls : List Line) : Json := .arr (ls.map toJson)

/-- A list that may be absent, written `null` then. -/
def listJson? : Option (List Line) → Json
  | some ls => listJson ls
  | none => .null

/-- How a line is read over a held one. -/
def reader : Json.Reader Line :=
  .record "model.Line" [
    .each "resourceId" .uint64 (·.resource) (fun l v => { l with resource := v }),
    .each "amount" .int64 (·.amount) (fun l v => { l with amount := v })]

def listName : String := "[]model.Line"

def listReader : Json.Reader (Option (List Line)) := .list reader default listName

/-- The field of a record holding its lines. -/
def field {α : Type} (name : String) (get : α → Option (List Line))
    (set : α → Option (List Line) → α) : Json.Field α :=
  .list name reader default listName get set

end Line

end OrderSaga
