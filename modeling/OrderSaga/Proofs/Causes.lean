import OrderSaga.Proofs.Atomicity
import OrderSaga.Proofs.Lines

namespace OrderSaga

namespace Failure

@[simp] theorem has_wrap (f : Failure) (context : String) (c : Condition) :
    (f.wrap context).has c = f.has c := rfl

@[simp] theorem has_detail (f : Failure) (d : String) (c : Condition) :
    (f.detail d).has c = f.has c := rfl

@[simp] theorem has_fail (c c' : Condition) (d : String) :
    (Condition.fail c d).has c' = decide (c' = c) := by
  simp [has, Condition.fail]

@[simp] theorem has_of (c c' : Condition) (d : String) :
    (Failure.of c d).has c' = decide (c' = c) := by
  simp [has, Failure.of]

@[simp] theorem has_plain (d : String) (c : Condition) : (Failure.plain d).has c = false := rfl

@[simp] theorem message_wrap (f : Failure) (context : String) :
    (f.wrap context).message = context ++ ": " ++ f.message := rfl

@[simp] theorem message_fail (c : Condition) (d : String) :
    (Condition.fail c d).message = c.text ++ ": " ++ d := rfl

@[simp] theorem message_of (c : Condition) (d : String) : (Failure.of c d).message = d := rfl

@[simp] theorem message_plain (d : String) : (Failure.plain d).message = d := rfl

def Refusal (e : Failure) : Prop := e.has .announceFailed = false ∧ e.message ≠ ""

namespace Refusal

theorem fail {c : Condition} (hc : c ≠ .announceFailed) (d : String) :
    (Condition.fail c d).Refusal :=
  ⟨by simpa using hc.symm, by simp⟩

theorem of {c : Condition} (hc : c ≠ .announceFailed) {d : String} (hd : d ≠ "") :
    (Failure.of c d).Refusal :=
  ⟨by simpa using hc.symm, hd⟩

theorem plain {d : String} (hd : d ≠ "") : (Failure.plain d).Refusal := ⟨rfl, hd⟩

theorem wrap {f : Failure} (hf : f.Refusal) (context : String) : (f.wrap context).Refusal :=
  ⟨by simpa using hf.1, by simp⟩

end Refusal

end Failure

variable {σ α β : Type} {P : Failure → Prop}

def Fails (P : Failure → Prop) (m : EStateM Failure σ α) : Prop :=
  ∀ s e s', m s = .error e s' → P e

namespace Fails

theorem pure (a : α) : Fails P (Pure.pure a : EStateM Failure σ α) := by
  intro s e s' h
  cases h

theorem throw {e : Failure} (he : P e) : Fails P (MonadExcept.throw e : EStateM Failure σ α) := by
  intro s e' s' h
  cases h
  exact he

theorem get : Fails P (MonadState.get : EStateM Failure σ σ) := by
  intro s e s' h
  cases h

theorem set (s₀ : σ) : Fails P (MonadStateOf.set s₀ : EStateM Failure σ PUnit) := by
  intro s e s' h
  cases h

theorem modify (f : σ → σ) : Fails P (modify f : EStateM Failure σ Unit) := by
  intro s e s' h
  cases h

theorem modifyGet (f : σ → α × σ) : Fails P (modifyGet f : EStateM Failure σ α) := by
  intro s e s' h
  cases h

theorem bind {x : EStateM Failure σ α} {k : α → EStateM Failure σ β} (hx : Fails P x)
    (hk : ∀ a, Fails P (k a)) : Fails P (x >>= k) := by
  intro s e s' h
  rcases Store.bind_error h with h | ⟨a, s₁, -, h⟩
  · exact hx s e s' h
  · exact hk a s₁ e s' h

theorem ite {p : Prop} [Decidable p] {x y : EStateM Failure σ α} (hx : Fails P x)
    (hy : Fails P y) : Fails P (if p then x else y) := by
  split
  · exact hx
  · exact hy

theorem guard {p : Prop} [Decidable p] {e : Failure} {k : Unit → EStateM Failure σ α}
    (he : P e) (hk : ∀ u, Fails P (k u)) :
    Fails P (have jp := k; if p then (do let r ← MonadExcept.throw e; jp r) else jp ()) :=
  ite (bind (throw he) hk) (hk ())

theorem forIn {xs : List α} {b : β} {body : α → β → EStateM Failure σ (ForInStep β)}
    (hb : ∀ a b, Fails P (body a b)) : Fails P (ForIn.forIn xs b body) := by
  induction xs generalizing b with
  | nil => exact pure b
  | cons x xs ih =>
    rw [List.forIn_cons]
    refine bind (hb x b) fun r => ?_
    cases r with
    | done b => exact pure b
    | yield b => exact ih

end Fails

/-! ## Envelopes that cannot be written -/

theorem Instant.refusal?_toJson {t : Instant} {r : String} (h : t.toJson.refusal? = some r) :
    r ≠ "" := by
  unfold Instant.toJson at h
  split at h
  · cases h
    simp
  · cases h

theorem Envelope.encode?_error {e : Envelope} {r : String} (h : e.encode? = .error r) :
    r ≠ "" := by
  unfold Envelope.encode? at h
  split at h
  · cases h
    simp
  · next hpayload =>
    split at h
    · next r' hr =>
      cases h
      simp only [Envelope.toJson, Json.refusal?, Json.refusal?.firstField, Option.orElse,
        hpayload] at hr
      split at hr
      · next hat => exact Instant.refusal?_toJson (hat.trans hr)
      · cases hr
    · cases h

/-! ## The store and the capacity -/

namespace Store

variable {space kind : String} {now : Instant}

theorem check_fails {b : Bool} {f : Failure} (hf : P f) : Fails P (check b f) := by
  unfold check
  exact Fails.ite (.pure ()) (.throw hf)

theorem nextId_fails : Fails P nextId := .modifyGet _

theorem withContext_fails {m : Op α} (context : String) (hP : ∀ e, P e → P (e.wrap context))
    (hm : Fails P m) : Fails P (withContext context m) := by
  intro s e s' h
  unfold withContext at h
  split at h
  · cases h
  · cases h
    exact hP _ (hm _ _ _ ‹_›)

theorem withContext_refusal {m : Op α} (context : String) (hm : Fails Failure.Refusal m) :
    Fails Failure.Refusal (withContext context m) :=
  withContext_fails context (fun _ he => he.wrap context) hm

theorem duplicate_refusal : duplicate.Refusal := by
  unfold duplicate
  exact .of (by decide) (by decide)

theorem versionConflict_refusal : versionConflict.Refusal := by
  unfold versionConflict
  exact .of (by decide) (by decide)

theorem appendLedger_refusal (e : LedgerEntry) : Fails Failure.Refusal (appendLedger kind e) :=
  .bind .get fun _ => .bind (check_fails duplicate_refusal) fun _ => .bind nextId_fails fun _ =>
    .bind (.modify _) fun _ => .pure _

theorem appendOutbox_fails (hdup : P duplicate) (e : OutboxEntry) :
    Fails P (appendOutbox e now) :=
  .bind .get fun _ => .bind (check_fails hdup) fun _ => .bind nextId_fails fun _ =>
    .bind (.modify _) fun _ => .pure _

theorem appendOutbox_refusal (e : OutboxEntry) : Fails Failure.Refusal (appendOutbox e now) :=
  appendOutbox_fails duplicate_refusal e

theorem entryOf_refusal (env : Envelope) : Fails Failure.Refusal (entryOf space env) := by
  unfold entryOf
  refine .bind .get fun s => ?_
  dsimp only
  split
  · exact .pure _
  · next f hf =>
    refine .throw ?_
    unfold Envelope.entry? at hf
    split at hf
    · cases hf
    · next r hr =>
      cases hf
      exact .plain (Envelope.encode?_error hr)

theorem writeEnvelope_refusal (env : Envelope) :
    Fails Failure.Refusal (writeEnvelope space env now) :=
  .bind (entryOf_refusal env) fun _ => .bind (appendOutbox_refusal _) fun _ => .pure _

theorem updateOption_refusal (o : ProductOption) :
    Fails Failure.Refusal (updateOption o now) := by
  unfold updateOption
  refine .bind .get fun s => ?_
  split
  · exact .bind (check_fails versionConflict_refusal) fun _ => .bind (.set _) fun _ => .pure _
  · exact .throw versionConflict_refusal

theorem updateCoupon_refusal (cp : Coupon) : Fails Failure.Refusal (updateCoupon cp now) := by
  unfold updateCoupon
  refine .bind .get fun s => ?_
  split
  · exact .bind (check_fails versionConflict_refusal) fun _ => .bind (.set _) fun _ => .pure _
  · exact .throw versionConflict_refusal

theorem updatePoints_refusal (p : PointBalance) :
    Fails Failure.Refusal (updatePoints p now) := by
  unfold updatePoints
  refine .bind .get fun s => ?_
  split
  · exact .bind (check_fails versionConflict_refusal) fun _ => .bind (.set _) fun _ => .pure _
  · exact .throw versionConflict_refusal

end Store

namespace Kind

open Store

variable {k : Kind} {o u : UInt64} {l : Line} {now : Instant}

theorem missing_refusal (what : String) (id : UInt64) : (missing what id).Refusal := by
  unfold missing
  exact .fail (by decide) _

theorem loadOption_refusal (id : UInt64) : Fails Failure.Refusal (loadOption id) := by
  unfold loadOption
  refine .bind .get fun s => ?_
  split
  · exact .pure _
  · exact .throw (missing_refusal _ _)

theorem loadCoupon_refusal (id : UInt64) : Fails Failure.Refusal (loadCoupon id) := by
  unfold loadCoupon
  refine .bind .get fun s => ?_
  split
  · exact .pure _
  · exact .throw (missing_refusal _ _)

theorem loadPoints_refusal (userId : UInt64) : Fails Failure.Refusal (loadPoints userId) := by
  unfold loadPoints
  refine .bind .get fun s => ?_
  split
  · exact .pure _
  · exact .throw (missing_refusal _ _)

theorem hold_refusal : Fails Failure.Refusal (k.hold o u l now) := by
  cases k with
  | stock =>
    exact .bind (loadOption_refusal _) fun _ => .guard (.fail (by decide) _) fun _ =>
      .bind (updateOption_refusal _) fun _ => .pure _
  | coupon =>
    exact .bind (loadCoupon_refusal _) fun _ => .guard (.fail (by decide) _) fun _ =>
      .guard (.fail (by decide) _) fun _ => .guard (.fail (by decide) _) fun _ =>
        .bind (updateCoupon_refusal _) fun _ => .pure _
  | point =>
    exact .bind (loadPoints_refusal _) fun _ => .guard (.fail (by decide) _) fun _ =>
      .bind (updatePoints_refusal _) fun _ => .pure _

theorem release_refusal : Fails Failure.Refusal (k.release o u l now) := by
  cases k with
  | stock =>
    exact .bind (loadOption_refusal _) fun _ => .bind (updateOption_refusal _) fun _ => .pure _
  | coupon =>
    exact .bind (loadCoupon_refusal _) fun _ =>
      .ite (.bind (updateCoupon_refusal _) fun _ => .pure _) (.pure _)
  | point =>
    exact .bind (loadPoints_refusal _) fun _ => .bind (updatePoints_refusal _) fun _ => .pure _

theorem commit_refusal : Fails Failure.Refusal (k.commit o u l now) := by
  cases k with
  | stock =>
    exact .bind (loadOption_refusal _) fun _ => .bind (updateOption_refusal _) fun _ => .pure _
  | coupon =>
    exact .bind (loadCoupon_refusal _) fun _ => .guard (.fail (by decide) _) fun _ =>
      .bind (updateCoupon_refusal _) fun _ => .pure _
  | point =>
    exact .bind (loadPoints_refusal _) fun _ => .bind (updatePoints_refusal _) fun _ => .pure _

theorem normalize_refusal {ls : List Line} {e : Failure} (h : k.normalize ls = .error e) :
    e.Refusal := by
  rcases (normalize_cases k ls).2 e h with ⟨-, rfl⟩ | ⟨i, -, -, -, rfl⟩ <;> exact .fail (by decide) _

end Kind

namespace Envelope

theorem create_refusal {t : EventType} {p : Option Payload} {now : Instant} {f : Failure}
    (h : create t p now = .error f) : f.Refusal := by
  unfold create at h
  split at h
  · split at h
    · split at h
      · cases h
      · cases h
        exact .of (by decide) (by simp)
    · cases h
      exact .of (by decide) (by simp)
  · cases h
    exact .of (by decide) (by simp)

theorem createNamed_refusal {name : String} {p : Option Payload} {now : Instant} {f : Failure}
    (h : createNamed name p now = .error f) : f.Refusal := by
  unfold createNamed at h
  split at h
  · exact create_refusal h
  · cases h
    exact .of (by decide) (by simp)

end Envelope

namespace Reservation

open Store

namespace Tx

theorem store_fails {m : Store.Op α} (hm : Fails P m) : Fails P (Tx.store m) := by
  rintro ⟨s, p⟩ e ⟨s', p'⟩ h
  cases hms : m s with
  | ok a s₁ =>
    simp only [Tx.store, hms] at h
    cases h
  | error e₁ s₁ =>
    simp only [Tx.store, hms] at h
    cases h
    exact hm _ _ _ hms

theorem setOutcome_fails (o : Option Outcome) : Fails P (Tx.setOutcome o) := .modify _

theorem setLines_fails (ls : List Line) : Fails P (Tx.setLines ls) := .modify _

theorem reading_fails : Fails P Tx.reading := .bind .get fun _ => .pure _

end Tx

namespace Service

variable {svc : Service} {op : Operation} {req : Request} {now : Instant} {s s' : Store}
  {res : Option Result} {e : Failure}

theorem replayReserve_refusal {entries : List LedgerEntry} {lines : List Line}
    (h : (replayReserve entries lines).2 = some e) : e.Refusal := by
  unfold replayReserve at h
  dsimp only at h
  split at h
  · cases h
    exact .fail (by decide) _
  · split_ifs at h <;> cases h <;> exact .fail (by decide) _

theorem checkLines_refusal {target : EntryType} {entries : List LedgerEntry} :
    ∀ (ls : List Line) (acc : List LedgerEntry),
      Fails Failure.Refusal (checkLines req target entries ls acc)
  | [], acc => .pure acc
  | l :: rest, acc => by
    unfold checkLines
    dsimp only
    split
    · exact .throw (.fail (by decide) _)
    · refine .bind (.modify _) fun _ => ?_
      split
      · exact checkLines_refusal rest _
      · exact .ite (.bind (Tx.setOutcome_fails _) fun _ => .throw (.fail (by decide) _))
          (checkLines_refusal rest _)

theorem reserveTx_refusal (lines : List Line) :
    Fails Failure.Refusal (svc.reserveTx req lines none now) := by
  unfold reserveTx
  refine .bind (Tx.setOutcome_fails _) fun _ => .bind Tx.reading_fails fun st => .ite ?_ ?_
  · refine .bind (Tx.setOutcome_fails _) fun _ => ?_
    split
    · next e he => exact .throw ((replayReserve_refusal he).wrap _)
    · exact .pure ()
  · exact .bind (.forIn fun _ _ => .bind (Tx.store_fails Kind.hold_refusal) fun _ =>
      .bind (Tx.store_fails (withContext_refusal _ (appendLedger_refusal _))) fun _ => .pure _)
      fun _ => .bind (Tx.setOutcome_fails _) fun _ => .pure ()

theorem finalizeTx_refusal (lines : List Line) :
    Fails Failure.Refusal (svc.finalizeTx op req lines none now) := by
  unfold finalizeTx
  refine .bind (Tx.setOutcome_fails _) fun _ => .bind Tx.reading_fails fun st =>
    .bind (Tx.setLines_fails _) fun _ => .bind (checkLines_refusal _ _) fun pending => .ite ?_ ?_
  · exact .bind (Tx.setOutcome_fails _) fun _ => .pure ()
  · refine .bind (.forIn fun _ _ => ?_) fun _ => .bind (Tx.setOutcome_fails _) fun _ => .pure ()
    dsimp only
    split
    · exact .bind (Tx.store_fails Kind.commit_refusal) fun _ =>
        .bind (Tx.store_fails (withContext_refusal _ (appendLedger_refusal _))) fun _ => .pure _
    · exact .bind (Tx.store_fails Kind.release_refusal) fun _ =>
        .bind (Tx.store_fails (withContext_refusal _ (appendLedger_refusal _))) fun _ => .pure _

theorem validate_refusal (h : validate req = .error e) : e.Refusal := by
  unfold validate at h
  split_ifs at h <;> cases h <;> exact .fail (by decide) _

theorem resolveLines_refusal (h : svc.resolveLines s req = .error e) : e.Refusal := by
  unfold resolveLines at h
  dsimp only at h
  split_ifs at h
  · exact Kind.normalize_refusal h
  · cases h
    exact .fail (by decide) _

theorem then_error {β : Type} {x : Except Failure Unit} {y : Except Failure β}
    (h : (do x; y) = Except.error e) : x = .error e ∨ y = .error e := by
  cases x with
  | error e' =>
    change Except.bind (Except.error e') _ = _ at h
    cases h
    exact .inl rfl
  | ok u => exact .inr h

theorem operate_unannounced_refusal {prepared : Except Failure (List Line)}
    {body : List Line → Tx Unit} (hprep : ∀ e, prepared = .error e → e.Refusal)
    (hbody : ∀ lines, Fails Failure.Refusal (body lines))
    (h : svc.operate op req prepared body none now s = ((res, some e), s')) : e.Refusal := by
  unfold operate at h
  cases prepared with
  | error e' =>
    simp only [finish_unannounced, Prod.mk.injEq, Option.some.injEq] at h
    obtain ⟨⟨-, rfl⟩, -⟩ := h
    exact hprep e' rfl
  | ok lines =>
    dsimp only at h
    rcases hrun : Tx.run (body lines) s { lines } with ⟨_ | e', p, s₁⟩
    · rw [hrun, finish_unannounced] at h
      cases h
    · rw [hrun, finish_unannounced] at h
      cases h
      obtain ⟨-, s₂, hb⟩ := run_failed hrun
      exact hbody lines _ _ _ hb

theorem apply_unannounced_refusal (h : svc.apply op req none now s = ((res, some e), s')) :
    e.Refusal := by
  cases op with
  | reserve =>
    exact operate_unannounced_refusal
      (fun e he => (then_error he).elim validate_refusal Kind.normalize_refusal)
      (fun lines => reserveTx_refusal lines) ((reserve_eq_operate none).symm.trans h)
  | confirm | cancel =>
    exact operate_unannounced_refusal
      (fun e he => (then_error he).elim validate_refusal resolveLines_refusal)
      (fun lines => finalizeTx_refusal lines) ((finalize_eq_operate none).symm.trans h)

section Announced

variable {an : Announcer}
  (han : ∀ req res err now f, an req res err now = .error f → f.Refusal)
include han

theorem announcedBy_failed {res₀ : Option Result} {err₀ : Option Failure} {s₁ : Store}
    (h₀ : ∀ e₀, err₀ = some e₀ → e₀.Refusal)
    (h : svc.announcedBy op req an now s ((res₀, err₀), s₁) = ((res, some e), s')) :
    ∃ cause, cause.Refusal ∧
      svc.finish op req res (some cause) (some an) now s = ((res, some e), s') := by
  have hres : res₀ = res := (announcedBy_result an _).symm.trans (congrArg (·.1.1) h)
  subst hres
  unfold announcedBy at h
  rcases err₀ with _ | e₀
  · dsimp only at h
    cases hmade : an req res₀ none now with
    | error f =>
      rw [hmade] at h
      exact ⟨_, (han _ _ _ _ _ hmade).wrap _, h⟩
    | ok made =>
      rw [hmade] at h
      cases made with
      | none => cases h
      | some env =>
        dsimp only at h
        cases hw : Store.writeEnvelope svc.service env now s₁ with
        | ok u s₂ =>
          rw [hw] at h
          cases h
        | error g s₂ =>
          rw [hw] at h
          exact ⟨g, writeEnvelope_refusal env _ _ _ hw, h⟩
  · exact ⟨e₀, h₀ e₀ rfl, h⟩

theorem apply_failed_cause (h : svc.apply op req (some an) now s = ((res, some e), s')) :
    ∃ cause, cause.Refusal ∧
      (e = cause ∧ svc.Announced req res (some cause) now s (some an) s' ∨
        e.conditions = [.announceFailed] ∧ s' = s ∧
          ¬ ∃ s'', svc.Announced req res (some cause) now s (some an) s'') := by
  rw [apply_announced] at h
  rcases h₀ : svc.apply op req none now s with ⟨⟨res₀, err₀⟩, s₁⟩
  rw [h₀] at h
  have hrefusal : ∀ e₀, err₀ = some e₀ → e₀.Refusal := by
    rintro e₀ rfl
    exact apply_unannounced_refusal h₀
  obtain ⟨cause, hcause, hfin⟩ := announcedBy_failed han hrefusal h
  obtain ⟨e', s'', hfin', hcases⟩ := finish_failure svc op req an res cause now s
  rw [hfin] at hfin'
  cases hfin'
  exact ⟨cause, hcause, hcases⟩

end Announced

end Service

theorem resultAnnouncer_failures (t : String) (k : Kind) :
    ∀ req res err now f, resultAnnouncer t k req res err now = .error f → f.Refusal := by
  intro req res err now f h
  have hbuild : ∀ err', resultAnnouncer.build t k req res err' now = .error f → f.Refusal := by
    intro err' hb
    unfold resultAnnouncer.build at hb
    dsimp only at hb
    revert hb
    cases hc : Envelope.createNamed t _ now with
    | error g =>
      rintro ⟨⟩
      exact Envelope.createNamed_refusal hc
    | ok env => rintro ⟨⟩
  unfold resultAnnouncer at h
  split at h
  · split at h
    · cases h
    · exact hbuild _ h
  · exact hbuild _ h

end Reservation

end OrderSaga
