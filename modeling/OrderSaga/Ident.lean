namespace OrderSaga

/-- Where saga and event identifiers come from, as `uuid.NewString` is for the services: the
identifier drawn as the `n`-th of the space `space`. -/
structure IdSource where
  draw : String → Nat → String
  draw_ne_empty : ∀ space n, draw space n ≠ ""

/-- Identifiers that spell their space and number. -/
def IdSource.numbered : IdSource where
  draw space n := space ++ "-" ++ toString n
  draw_ne_empty space n h := by
    have := congrArg String.length h
    simp at this

instance : Inhabited IdSource := ⟨.numbered⟩

end OrderSaga
