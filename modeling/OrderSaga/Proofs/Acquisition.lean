import Mathlib
import OrderSaga.Proofs.Locking
import OrderSaga.Proofs.ByteOrder

namespace OrderSaga.Lock

/-- The locks a locker holds once an event has happened, from the locks `s` it held before. -/
def Event.hold : Event → Multiset String → Multiset String
  | .locked k, s => k ::ₘ s
  | .failed _, s => s
  | .unlocked k, s => s.erase k

def holding (es : List Event) (s : Multiset String) : Multiset String :=
  es.foldl (fun s e => e.hold s) s

@[simp] theorem holding_nil (s : Multiset String) : holding [] s = s := rfl

theorem holding_append (es es' : List Event) (s : Multiset String) :
    holding (es ++ es') s = holding es' (holding es s) := List.foldl_append

theorem holding_bracket (pre : List String) (mid : List Event)
    (hmid : ∀ s, holding mid s = s) (s : Multiset String) :
    holding (pre.map .locked ++ mid ++ pre.reverse.map .unlocked) s = s := by
  induction pre generalizing s with
  | nil => simpa using hmid s
  | cons k pre ih =>
    have hsplit : (k :: pre).map Event.locked ++ mid ++ (k :: pre).reverse.map Event.unlocked =
        [Event.locked k] ++ (pre.map .locked ++ mid ++ pre.reverse.map .unlocked) ++
          [Event.unlocked k] := by
      simp
    rw [hsplit, holding_append, holding_append, ih]
    simp [holding, Event.hold]

theorem release_events (l : Locker) (held : List String) :
    (release l held).1.1 = held.reverse.map .unlocked ∧ (release l held).2 = [] := ⟨rfl, rfl⟩

theorem first_refusal_unique (l : Locker) {pre post pre' post' : List String} {k k' : String}
    (h : pre ++ k :: post = pre' ++ k' :: post') (hpre : ∀ x ∈ pre, l.obtain x = none)
    (hk : l.obtain k ≠ none) (hpre' : ∀ x ∈ pre', l.obtain x = none) (hk' : l.obtain k' ≠ none) :
    pre = pre' ∧ k = k' := by
  induction pre generalizing pre' with
  | nil =>
    cases pre' with
    | nil => exact ⟨rfl, (List.cons.inj h).1⟩
    | cons y ys =>
      obtain ⟨rfl, -⟩ := List.cons.inj h
      exact absurd (List.forall_mem_cons.mp hpre').1 hk
  | cons x xs ih =>
    cases pre' with
    | nil =>
      obtain ⟨rfl, -⟩ := List.cons.inj h
      exact absurd (List.forall_mem_cons.mp hpre).1 hk'
    | cons y ys =>
      obtain ⟨rfl, htail⟩ := List.cons.inj h
      obtain ⟨rfl, rfl⟩ := ih htail (List.forall_mem_cons.mp hpre).2
        (List.forall_mem_cons.mp hpre').2
      exact ⟨rfl, rfl⟩

theorem acquire_cases (l : Locker) (ks held : List String) (events : List Event) :
    ((∀ k ∈ ks, l.obtain k = none) ∧
      acquire l ks held events = .ok (held ++ ks, events ++ ks.map .locked)) ∨
    ∃ pre k e post, ks = pre ++ k :: post ∧ (∀ x ∈ pre, l.obtain x = none) ∧
      l.obtain k = some e ∧
      acquire l ks held events = .error (e.wrap ("lock " ++ k),
        events ++ pre.map .locked ++ [Event.failed k] ++ (held ++ pre).reverse.map .unlocked) := by
  induction ks generalizing held events with
  | nil => exact .inl ⟨by simp, by simp [acquire]⟩
  | cons k rest ih =>
    cases hk : l.obtain k with
    | some e =>
      refine .inr ⟨[], k, e, rest, rfl, by simp, hk, ?_⟩
      simp [acquire, hk, release]
    | none =>
      have hstep : acquire l (k :: rest) held events =
          acquire l rest (held ++ [k]) (events ++ [Event.locked k]) := by
        simp [acquire, hk]
      rw [hstep]
      rcases ih (held ++ [k]) (events ++ [Event.locked k]) with
        ⟨hall, hok⟩ | ⟨pre, k', e, post, hks, hpre, he, herr⟩
      · exact .inl ⟨List.forall_mem_cons.mpr ⟨hk, hall⟩, by rw [hok]; simp⟩
      · exact .inr ⟨k :: pre, k', e, post, by rw [hks]; rfl, List.forall_mem_cons.mpr ⟨hk, hpre⟩,
          he, by rw [herr]; simp⟩

/-- Taking every key of a list asks for its distinct keys, in the order of their UTF-8 bytes. -/
theorem acquire_all_in_order (l : Locker) (keys : List String) :
    ((order keys).map fun k => k.toUTF8.data.toList).Pairwise (· < ·) ∧
    (∀ k, k ∈ order keys ↔ k ∈ keys) ∧
    ((∀ k ∈ order keys, l.obtain k = none) →
      acquireAll l keys = .ok (order keys, (order keys).map .locked) ∧
      (release l (order keys)).1.1 = (order keys).reverse.map .unlocked ∧
      (∀ s, holding ((order keys).map .locked ++ (release l (order keys)).1.1) s = s) ∧
      (release l (release l (order keys)).2).1.1 = []) ∧
    (∀ (pre : List String) (k : String) (post : List String), order keys = pre ++ k :: post →
      (∀ x ∈ pre, l.obtain x = none) → ∀ e, l.obtain k = some e →
        ∃ es, acquireAll l keys = .error (e.wrap ("lock " ++ k), es) ∧
          es = pre.map .locked ++ [Event.failed k] ++ pre.reverse.map .unlocked ∧
          ∀ s, holding es s = s) := by
  have hsorted := order_sorted keys
  refine ⟨List.pairwise_map.mpr (hsorted.imp Text.lt_iff_bytes_lt.mp), fun k => mem_order, fun hall => ?_, fun pre k post hks hpre e he => ?_⟩
  · rcases acquire_cases l (order keys) [] [] with ⟨-, hok⟩ | ⟨pre, k, e, post, hks, -, he, -⟩
    · refine ⟨by rw [acquireAll, hok]; simp, rfl, fun s => ?_, rfl⟩
      rw [(release_events l _).1]
      simpa using holding_bracket (order keys) [] (fun _ => rfl) s
    · rw [hall k (by rw [hks]; simp)] at he
      cases he
  ·
    rcases acquire_cases l (order keys) [] [] with
      ⟨hall, -⟩ | ⟨pre', k', e', post', hks', hpre', he', herr⟩
    · rw [hall k (by rw [hks]; simp)] at he
      cases he
    · obtain ⟨rfl, rfl⟩ := first_refusal_unique l (hks'.symm.trans hks) hpre'
        (by rw [he']; exact Option.some_ne_none _) hpre (by rw [he]; exact Option.some_ne_none _)
      rw [he] at he'
      cases he'
      refine ⟨_, herr, by simp, fun s => ?_⟩
      have hfail : ∀ s, holding [Event.failed k'] s = s := fun _ => rfl
      simpa using holding_bracket pre' [Event.failed k'] hfail s

/-- Keys `b`, `a`, `c`, `a`, with `c` refused: `a` and `b` are taken and let go, `b` first. -/
theorem refused_third_key_undone :
    let l : Locker := ⟨fun k => if k = "c" then some lockFailed else none, fun _ => none⟩
    order ["b", "a", "c", "a"] = ["a", "b"] ++ "c" :: [] ∧ (∀ x ∈ ["a", "b"], l.obtain x = none) ∧
      l.obtain "c" = some lockFailed ∧
      ∃ es, acquireAll l ["b", "a", "c", "a"] = .error (lockFailed.wrap ("lock " ++ "c"), es) ∧
        es = [.locked "a", .locked "b", .failed "c", .unlocked "b", .unlocked "a"] := by
  intro l
  have horder : order ["b", "a", "c", "a"] = ["a", "b"] ++ "c" :: [] := by cbv
  have hgrant : ∀ x ∈ ["a", "b"], l.obtain x = none := by decide
  obtain ⟨es, hes, rfl, -⟩ := (acquire_all_in_order l ["b", "a", "c", "a"]).2.2.2 ["a", "b"] "c" []
    horder hgrant lockFailed rfl
  exact ⟨horder, hgrant, rfl, _, hes, rfl⟩

end OrderSaga.Lock
