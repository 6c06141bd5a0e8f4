import Mathlib
import OrderSaga.Shop.Basic

namespace OrderSaga

namespace Condition

theorem reason?_of_protocol {c : Condition} (hc : c ∈ protocol) :
    ∃ r, c.reason? = some r ∧ r ≠ "INTERNAL" := by
  simp only [protocol, List.mem_cons, List.not_mem_nil, or_false] at hc
  rcases hc with rfl | rfl | rfl | rfl | rfl | rfl <;> simp [reason?]

theorem ofCode?_code? {c : Condition} (hc : c ∈ protocol) :
    ∃ k, c.code? = some k ∧ ofCode? k = some c := by
  simp only [protocol, List.mem_cons, List.not_mem_nil, or_false] at hc
  rcases hc with rfl | rfl | rfl | rfl | rfl | rfl <;> exact ⟨_, rfl, rfl⟩

theorem ofCode?_eq_none {k : ResponseCode} (hk : ∀ c ∈ protocol, c.code? ≠ some k) :
    ofCode? k = none := by
  refine List.find?_eq_none.mpr fun c hc => ?_
  simpa using hk c hc

theorem mem_protocol_of_ofCode? {k : ResponseCode} {c : Condition} (h : ofCode? k = some c) :
    c ∈ protocol :=
  List.mem_of_find?_eq_some h

theorem rejected_not_mem_protocol : Condition.rejected ∉ protocol := by decide

end Condition

namespace Failure

theorem protocolCause?_isSome (f : Failure) : f.protocolCause?.isSome = f.isDomain := by
  rw [Bool.eq_iff_iff, protocolCause?, List.find?_isSome]
  simp only [Condition.protocol, List.mem_cons, List.not_mem_nil, or_false,
    exists_eq_or_imp, exists_eq_left, isDomain, isValidation, Bool.or_eq_true]
  tauto

theorem mem_of_protocolCause? {f : Failure} {c : Condition} (h : f.protocolCause? = some c) :
    c ∈ Condition.protocol :=
  List.mem_of_find?_eq_some h

theorem reason_of_protocolCause? {f : Failure} {c : Condition} (h : f.protocolCause? = some c) :
    c.reason? = some f.reason := by
  obtain ⟨r, hr, -⟩ := Condition.reason?_of_protocol (mem_of_protocolCause? h)
  simp [reason, h, hr]

theorem reason_of_no_cause {f : Failure} (h : f.protocolCause? = none) : f.reason = "INTERNAL" := by
  simp [reason, h]

theorem reason_ne_internal_iff (f : Failure) : f.reason ≠ "INTERNAL" ↔ f.isDomain = true := by
  rw [← protocolCause?_isSome]
  cases h : f.protocolCause? with
  | none => simp [reason_of_no_cause h]
  | some c =>
    obtain ⟨r, hr, hne⟩ := Condition.reason?_of_protocol (mem_of_protocolCause? h)
    have hreason : f.reason = r := by
      simpa [hr] using (reason_of_protocolCause? h).symm
    simpa [hreason] using hne

theorem appError?_of_protocolCause? {f : Failure} {c : Condition} {k : ResponseCode}
    (h : f.protocolCause? = some c) (hk : c.code? = some k) :
    f.appError? = some ⟨k, f.message, some f⟩ := by
  simp [appError?, h, hk]

theorem appError?_of_no_cause {f : Failure} (h : f.protocolCause? = none) : f.appError? = none := by
  simp [appError?, h]

theorem ofCode?_appError? {f : Failure} {ae : AppError} (h : f.appError? = some ae) :
    ∃ c, f.protocolCause? = some c ∧ Condition.ofCode? ae.code = some c := by
  cases hc : f.protocolCause? with
  | none => simp [appError?_of_no_cause hc] at h
  | some c =>
    obtain ⟨k, hk, hback⟩ := Condition.ofCode?_code? (mem_of_protocolCause? hc)
    rw [appError?_of_protocolCause? hc hk, Option.some.injEq] at h
    subst h
    exact ⟨c, rfl, hback⟩

theorem protocolCause?_rejection (participant : String) (status : Int) (k : ResponseCode)
    (message : String) :
    (rejection participant status k message).protocolCause? = Condition.ofCode? k := by
  cases h : Condition.ofCode? k with
  | none =>
    refine List.find?_eq_none.mpr fun c hc => ?_
    have hne : c ≠ .rejected := fun he => Condition.rejected_not_mem_protocol (he ▸ hc)
    simp [rejection, has, h, hne]
  | some c =>
    have hc := Condition.mem_protocol_of_ofCode? h
    simp only [Condition.protocol, List.mem_cons, List.not_mem_nil, or_false] at hc
    rcases hc with rfl | rfl | rfl | rfl | rfl | rfl <;>
      simp [rejection, h, protocolCause?, has, Condition.protocol]

theorem rejection_isRejection (participant : String) (status : Int) (k : ResponseCode)
    (message : String) : (rejection participant status k message).isRejection = true := by
  simp [rejection, isRejection, has]

end Failure

/-- Classification agrees on both sides of a direct call. -/
theorem classification_agrees_across_the_wire :
    (∀ f : Failure,
      (f.isDomain = true ↔ f.reason ≠ "INTERNAL") ∧
      (f.isDomain = true ↔
        ∃ ae, f.appError? = some ae ∧ ∃ c ∈ Condition.protocol, c.code? = some ae.code) ∧
      (f.isDomain = false → f.appError? = none)) ∧
    (∀ (f : Failure) (participant : String), f.isDomain = true →
      ∃ ae, f.appError? = some ae ∧
        let r := Failure.rejection participant ae.code.httpStatus ae.code ae.message
        r.isRejection = true ∧ r.isDomain = true ∧ r.reason = f.reason ∧
        ∀ g now, (Shop.stepResultOf g participant (.error r) now).reason = f.reason) ∧
    (∀ c ∈ Condition.protocol, ∃ k, c.code? = some k ∧ Condition.ofCode? k = some c) ∧
    (∀ k, (∀ c ∈ Condition.protocol, c.code? ≠ some k) → Condition.ofCode? k = none) := by
  have body : ∀ f : Failure, f.isDomain = true →
      ∃ c k, f.protocolCause? = some c ∧ c.code? = some k ∧
        f.appError? = some ⟨k, f.message, some f⟩ ∧ Condition.ofCode? k = some c := by
    intro f hf
    obtain ⟨c, hc⟩ := Option.isSome_iff_exists.mp ((f.protocolCause?_isSome).trans hf)
    obtain ⟨k, hk, hback⟩ := Condition.ofCode?_code? (Failure.mem_of_protocolCause? hc)
    exact ⟨c, k, hc, hk, Failure.appError?_of_protocolCause? hc hk, hback⟩
  refine ⟨fun f => ⟨(f.reason_ne_internal_iff).symm, ⟨fun hf => ?_, ?_⟩, fun hf => ?_⟩,
    fun f participant hf => ?_, fun c hc => Condition.ofCode?_code? hc,
    fun k hk => Condition.ofCode?_eq_none hk⟩
  · obtain ⟨c, k, hc, hk, happ, -⟩ := body f hf
    exact ⟨_, happ, c, Failure.mem_of_protocolCause? hc, hk⟩
  · rintro ⟨ae, happ, -⟩
    obtain ⟨c, hc, -⟩ := Failure.ofCode?_appError? happ
    simpa [hc] using f.protocolCause?_isSome
  · have hnone : f.protocolCause? = none := by
      simpa [hf] using f.protocolCause?_isSome
    exact Failure.appError?_of_no_cause hnone
  · obtain ⟨c, k, hc, -, happ, hback⟩ := body f hf
    refine ⟨_, happ, ?_⟩
    have hcause :
        (Failure.rejection participant k.httpStatus k f.message).protocolCause? = some c := by
      rw [Failure.protocolCause?_rejection, hback]
    have hreason := Failure.reason_of_protocolCause? hcause
    rw [Failure.reason_of_protocolCause? hc, Option.some.injEq] at hreason
    refine ⟨Failure.rejection_isRejection .., ?_, hreason.symm, fun g now => ?_⟩
    · rw [← Failure.protocolCause?_isSome, hcause]
      rfl
    · simp [Shop.stepResultOf, Failure.rejection_isRejection, hreason]

/-- A capacity refusal whose announcement also failed is still refused for capacity, and the stock
participant's refusal carries that reason back. -/
theorem unannounced_capacity_refusal_keeps_reason :
    ((Condition.fail .insufficientCapacity "option 3 has 2 left").wrap "reserve line 1"
        |>.within .announceFailed "announce").isDomain = true ∧
      ∃ ae, ((Condition.fail .insufficientCapacity "option 3 has 2 left").wrap "reserve line 1"
          |>.within .announceFailed "announce").appError? = some ae ∧
        (Failure.rejection "stock" ae.code.httpStatus ae.code ae.message).reason =
          "INSUFFICIENT_CAPACITY" :=
  ⟨by decide, by
    obtain ⟨ae, happ, _, _, hreason, _⟩ :=
      classification_agrees_across_the_wire.2.1
        ((Condition.fail .insufficientCapacity "option 3 has 2 left").wrap "reserve line 1"
          |>.within .announceFailed "announce") "stock" (by decide)
    exact ⟨ae, happ, hreason.trans (by decide)⟩⟩

end OrderSaga
