import OrderSaga.Breaker

namespace OrderSaga.Degrade

/-- Marks `name` degraded (`on`), or clears its mark. -/
def set (marks : List String) (name : String) (on : Bool) : List String :=
  if on then (if marks.contains name then marks else marks ++ [name])
  else marks.filter (· != name)

def isDegraded (marks : List String) (name : String) : Bool := marks.contains name

/-- An update of the registry: the participant, and whether it marks or clears. -/
structure Update where
  name : String
  mark : Bool
  deriving DecidableEq, Repr

def Update.apply (marks : List String) (u : Update) : List String := set marks u.name u.mark

/-- The update the listener spawns when the breaker of `name` changes by `t`. -/
def listen (name : String) (t : Breaker.Transition) : Option Update :=
  match t.target with
  | .opened => some ⟨name, true⟩
  | .closed => some ⟨name, false⟩
  | .halfOpen => none

def spawned (reports : List (String × Breaker.Transition)) : List Update :=
  reports.filterMap fun r => listen r.1 r.2

def runAll (marks : List String) (order : List Update) : List String :=
  order.foldl Update.apply marks

end OrderSaga.Degrade
