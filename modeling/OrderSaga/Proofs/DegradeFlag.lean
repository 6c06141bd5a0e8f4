import Mathlib
import OrderSaga.Degrade

namespace OrderSaga.Degrade

theorem isDegraded_set (marks : List String) (name target : String) (on : Bool) :
    isDegraded (set marks target on) name =
      if target = name then on else isDegraded marks name := by
  unfold set
  by_cases hn : target = name
  · subst hn
    cases on
    · simp [isDegraded]
    · by_cases hc : target ∈ marks <;> simp [isDegraded, hc]
  · have hn' : name ≠ target := Ne.symm hn
    cases on
    · simp [isDegraded, hn, hn']
    · by_cases hc : target ∈ marks <;> simp [isDegraded, hc, hn, hn']

theorem isDegraded_runAll (marks : List String) (name : String) (order : List Update) :
    isDegraded (runAll marks order) name =
      ((order.filter (·.name == name)).getLast?.map Update.mark).getD (isDegraded marks name) := by
  induction order generalizing marks with
  | nil => rfl
  | cons u order ih =>
    rw [runAll, List.foldl_cons, ← runAll, ih, Update.apply, isDegraded_set]
    by_cases hu : u.name = name
    · cases h : (order.filter (·.name == name)).getLast? <;> simp [hu, h, List.getLast?_cons]
    · simp [hu]

/-- The state the last reported change of `name`'s breaker into open or closed went to. -/
def lastSettled (reports : List (String × Breaker.Transition)) (name : String) :
    Option Breaker.State :=
  (reports.filter fun r => r.1 == name && r.2.target != .halfOpen).getLast?.map (·.2.target)

theorem spawned_last (reports : List (String × Breaker.Transition)) (name : String) :
    ((spawned reports).filter (·.name == name)).getLast?.map Update.mark =
      (lastSettled reports name).map (· == .opened) := by
  induction reports using List.reverseRecOn with
  | nil => rfl
  | append_singleton reports r ih =>
    obtain ⟨n, t⟩ := r
    simp only [spawned, lastSettled, List.filterMap_append, List.filter_append] at ih ⊢
    by_cases hn : n = name
    · cases ht : t.target <;> simp_all [listen]
    · cases ht : t.target <;> simp_all [listen]

/-- The degraded flag follows the updates that ran, not the changes reported. -/
theorem degraded_follows_last_update (marks : List String)
    (reports : List (String × Breaker.Transition)) (order : List Update) (name : String) :
    isDegraded (runAll marks order) name =
        ((order.filter (·.name == name)).getLast?.map Update.mark).getD
          (isDegraded marks name) ∧
    (∀ t, listen name t = none ↔ t.target = .halfOpen) ∧
    (order.filter (·.name == name) = (spawned reports).filter (·.name == name) →
      isDegraded (runAll marks order) name =
        ((lastSettled reports name).map (· == .opened)).getD (isDegraded marks name)) := by
  refine ⟨isDegraded_runAll marks name order, fun t => ?_, fun hsame => ?_⟩
  · cases ht : t.target <;> simp [listen, ht]
  · rw [isDegraded_runAll, hsame, spawned_last]

/-- A breaker that opens, probes half-open and closes, with its updates run in the order reported,
leaves its participant unmarked. -/
theorem reported_order_clears_after_close :
    isDegraded (runAll [] (spawned [("stock", ⟨.closed, .opened⟩),
      ("stock", ⟨.opened, .halfOpen⟩), ("stock", ⟨.halfOpen, .closed⟩)])) "stock" = false :=
  ((degraded_follows_last_update [] [("stock", ⟨.closed, .opened⟩),
      ("stock", ⟨.opened, .halfOpen⟩), ("stock", ⟨.halfOpen, .closed⟩)] _ "stock").2.2
    rfl).trans rfl

/-- A breaker that opens and is then reset reports a change into open, then one into closed. -/
theorem reset_overtaken_by_mark :
    let reports : List (String × Breaker.Transition) :=
      [("stock", ⟨.closed, .opened⟩), ("stock", ⟨.opened, .closed⟩)]
    (spawned reports).reverse.Perm (spawned reports) ∧
      lastSettled reports "stock" = some .closed ∧
      isDegraded (runAll [] (spawned reports).reverse) "stock" = true :=
  ⟨List.reverse_perm _, rfl, rfl⟩

end OrderSaga.Degrade
