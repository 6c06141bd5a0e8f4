import Mathlib
import OrderSaga.Proofs.Capacity
import OrderSaga.Reservation.Compensation
import OrderSaga.Reservation.Reaper

namespace OrderSaga

open Relation Store Reservation

/-! ## Normalized lines -/

namespace Kind

theorem addAmount_ok {t a t' : Int64} (h : addAmount t a = .ok t') (ht : 0 ≤ t.toInt)
    (ha : 0 ≤ a.toInt) : t'.toInt = t.toInt + a.toInt := by
  unfold addAmount at h
  split at h
  · cases h
  · cases h
    exact toInt_add_exact (by omega) (by omega)

theorem pos_of_not_le {a : Int64} (h : ¬ a ≤ 0) : 0 < a.toInt := by
  rw [Int64.le_iff_toInt_le] at h
  simpa using h

theorem mergeInto_pos {fixed : Option Int64} (hfixed : ∀ a, fixed = some a → 0 < a.toInt)
    {merged out : List Line} {l : Line} (hm : ∀ x ∈ merged, 0 < x.amount.toInt)
    (h : mergeInto fixed merged l = .ok out) : ∀ x ∈ out, 0 < x.amount.toInt := by
  unfold mergeInto at h
  split at h
  · cases h
  split at h
  · cases h
  next hl =>
  have hpos := pos_of_not_le hl
  split at h
  · cases h
    intro x hx
    simp only [List.mem_append, List.mem_singleton] at hx
    rcases hx with hx | rfl
    · exact hm x hx
    · cases fixed with
      | none => exact hpos
      | some a => exact hfixed a rfl
  next m hfind =>
  have hmpos := hm m (List.mem_of_find?_eq_some hfind)
  obtain ⟨total, htotal, rfl⟩ : ∃ total, 0 < total.toInt ∧
      out = merged.map fun x =>
        if x.resource == l.resource then ⟨x.resource, total⟩ else x := by
    cases fixed with
    | some a => exact ⟨a, hfixed a rfl, by cases h; rfl⟩
    | none =>
      simp only [bind, Except.bind] at h
      split at h
      next t hadd =>
        cases h
        exact ⟨t, by rw [addAmount_ok hadd hmpos.le hpos.le]; omega, rfl⟩
      · cases h
  intro x hx
  obtain ⟨y, hy, rfl⟩ := List.mem_map.1 hx
  split
  · exact htotal
  · exact hm y hy

theorem foldlM_mergeInto_pos {fixed : Option Int64} (hfixed : ∀ a, fixed = some a → 0 < a.toInt)
    {lines : List Line} : ∀ {merged out : List Line}, (∀ x ∈ merged, 0 < x.amount.toInt) →
      lines.foldlM (mergeInto fixed) merged = .ok out → ∀ x ∈ out, 0 < x.amount.toInt := by
  induction lines with
  | nil =>
    intro merged out hm h
    cases h
    exact hm
  | cons l rest ih =>
    intro merged out hm h
    rw [List.foldlM_cons] at h
    simp only [bind, Except.bind] at h
    split at h
    · cases h
    next merged' hmerge => exact ih (mergeInto_pos hfixed hm hmerge) h

theorem mergeLines_pos {fixed : Option Int64} (hfixed : ∀ a, fixed = some a → 0 < a.toInt)
    {lines out : List Line} (h : mergeLines fixed lines = .ok out) :
    ∀ x ∈ out, 0 < x.amount.toInt := by
  unfold mergeLines at h
  simp only [bind, Except.bind] at h
  split at h
  · cases h
  split at h
  · cases h
  next merged hmerge =>
  cases h
  intro x hx
  exact foldlM_mergeInto_pos hfixed (by simp) hmerge x (List.mem_mergeSort.1 hx)

theorem foldlM_grows {f : Int64 → Line → Except Failure Int64}
    (hf : ∀ t l t', 0 ≤ t.toInt → f t l = .ok t' → t.toInt < t'.toInt) {lines : List Line} :
    ∀ {t t' : Int64}, 0 ≤ t.toInt → lines.foldlM f t = .ok t' →
      t.toInt ≤ t'.toInt ∧ (lines ≠ [] → t.toInt < t'.toInt) := by
  induction lines with
  | nil =>
    intro t t' _ h
    cases h
    simp
  | cons l rest ih =>
    intro t t' ht h
    rw [List.foldlM_cons] at h
    simp only [bind, Except.bind] at h
    split at h
    · cases h
    next t₁ hstep =>
    have hlt := hf t l t₁ ht hstep
    have hle := (ih (by omega) h).1
    exact ⟨by omega, fun _ => by omega⟩

theorem normalize_pos {k : Kind} {ls lines : List Line} (h : k.normalize ls = .ok lines) :
    ∀ l ∈ lines, 0 < l.amount.toInt ∧ (k = .point → l.resource = 0) := by
  cases k with
  | stock => exact fun l hl => ⟨mergeLines_pos (by simp) h l hl, nofun⟩
  | coupon =>
    have hone : ∀ a, some (1 : Int64) = some a → 0 < a.toInt := by
      rintro a ⟨⟩
      decide
    exact fun l hl => ⟨mergeLines_pos hone h l hl, nofun⟩
  | point =>
    simp only [normalize, bind, Except.bind] at h
    split at h
    · cases h
    next hne =>
    split at h
    · cases h
    next total hfold =>
    cases h
    have hstep : ∀ (t : Int64) (l : Line) t', 0 ≤ t.toInt →
        (if l.amount ≤ 0 then
            throw (Condition.fail .invalidRequest "point amount must be positive")
          else addAmount t l.amount) = Except.ok t' → t.toInt < t'.toInt := by
      intro t l t' ht hadd
      split at hadd
      · cases hadd
      next hl =>
      have hpos := pos_of_not_le hl
      rw [addAmount_ok hadd ht hpos.le]
      omega
    have hgrow := foldlM_grows hstep (by decide) hfold
    have hls : ls ≠ [] := by simpa using hne
    intro l hl
    simp only [List.mem_singleton] at hl
    subst hl
    exact ⟨by simpa using hgrow.2 hls, fun _ => rfl⟩

/-! ## The ledger only grows -/

variable {k : Kind} {o u : UInt64} {l : Line} {now : Instant} {s s' : Store}

theorem hold_ledgers (h : k.hold o u l now s = .ok () s') : s'.ledgers = s.ledgers := by
  cases k with
  | stock => obtain ⟨_, _, -, -, -, -, -, rfl⟩ := hold_stock_ok h; rfl
  | coupon => obtain ⟨_, _, -, -, -, -, -, -, -, rfl⟩ := hold_coupon_ok h; rfl
  | point => obtain ⟨_, _, -, -, -, -, -, rfl⟩ := hold_point_ok h; rfl

theorem commit_ledgers (h : k.commit o u l now s = .ok () s') : s'.ledgers = s.ledgers := by
  cases k with
  | stock => obtain ⟨_, _, -, -, -, -, rfl⟩ := commit_stock_ok h; rfl
  | coupon => obtain ⟨_, _, -, -, -, -, -, -, -, rfl⟩ := commit_coupon_ok h; rfl
  | point => obtain ⟨_, _, -, -, -, -, rfl⟩ := commit_point_ok h; rfl

theorem release_ledgers (h : k.release o u l now s = .ok () s') : s'.ledgers = s.ledgers := by
  cases k with
  | stock => obtain ⟨_, _, -, -, -, -, rfl⟩ := release_stock_ok h; rfl
  | coupon =>
    obtain ⟨_, -, ⟨-, -, _, -, -, -, -, rfl⟩ | ⟨-, rfl⟩⟩ := release_coupon_ok h <;> rfl
  | point => obtain ⟨_, _, -, -, -, -, rfl⟩ := release_point_ok h; rfl

end Kind

theorem Step.mem_ledger {k : Kind} {s s' : Store} {e : LedgerEntry} (h : Step k s s')
    (he : e ∈ s.ledgers k.name) : e ∈ s'.ledgers k.name := by
  cases h with
  | keep ledgers => rwa [ledgers]
  | hold _ _ held write =>
    rw [(appendLedger_ok write).2.1, Kind.hold_ledgers held]
    exact List.mem_append_left _ he
  | commit _ _ done write =>
    rw [(appendLedger_ok write).2.1, Kind.commit_ledgers done]
    exact List.mem_append_left _ he
  | release _ _ done write =>
    rw [(appendLedger_ok write).2.1, Kind.release_ledgers done]
    exact List.mem_append_left _ he

theorem mem_ledger_of_moves {k : Kind} {s s' : Store} {e : LedgerEntry}
    (h : ReflTransGen (Step k) s s') (he : e ∈ s.ledgers k.name) : e ∈ s'.ledgers k.name := by
  induction h with
  | refl => exact he
  | tail _ step ih => exact step.mem_ledger ih

/-! ## What a transaction moves -/

/-- What a participant holds: its ledgers, product options, coupons and point balances. -/
def Store.holdings (s : Store) :
    (String → List LedgerEntry) × List ProductOption × List Coupon × List PointBalance :=
  (s.ledgers, s.options, s.coupons, s.points)

theorem Step.of_holdings {k : Kind} {s s' : Store} (h : s'.holdings = s.holdings) :
    Step k s s' := by
  simp only [Store.holdings, Prod.mk.injEq] at h
  exact .keep h.1 h.2.1 h.2.2.1 h.2.2.2

theorem nextId_keeps_holdings : Keeps holdings nextId := by
  intro s a s' h
  cases h
  rfl

theorem writeEnvelope_keeps_holdings (space : String) (e : Envelope) (now : Instant) :
    Keeps holdings (writeEnvelope space e now) :=
  .bind (entryOf_keeps _ _ _) fun _ =>
    .bind (.bind (.get _) fun _ => .bind (.check _ _ _) fun _ => .bind nextId_keeps_holdings
      fun _ => .bind (.modify fun _ => rfl) fun _ => .pure _ _) fun _ => .pure _ _

namespace Reservation

namespace Tx

variable {α β γ : Type} {k : Kind}

theorem store_ok {m : Store.Op α} {s s' : Store} {p p' : Progress} {a : α}
    (h : Tx.store m (s, p) = .ok a (s', p')) : m s = .ok a s' ∧ p' = p := by
  unfold Tx.store at h
  dsimp only at h
  split at h
  · cases h
    exact ⟨‹_›, rfl⟩
  · cases h

theorem setOutcome_ok {o : Option Outcome} {s s' : Store} {p p' : Progress} {u : Unit}
    (h : Tx.setOutcome o (s, p) = .ok u (s', p')) : s' = s := by
  cases h
  rfl

theorem setLines_ok {ls : List Line} {s s' : Store} {p p' : Progress} {u : Unit}
    (h : Tx.setLines ls (s, p) = .ok u (s', p')) : s' = s := by
  cases h
  rfl

theorem reading_ok {s s' st : Store} {p p' : Progress} (h : Tx.reading (s, p) = .ok st (s', p')) :
    st = s ∧ s' = s := by
  cases h
  exact ⟨rfl, rfl⟩

def Moves (k : Kind) (m : Tx α) : Prop :=
  ∀ s p a s' p', m (s, p) = .ok a (s', p') → ReflTransGen (Step k) s s'

namespace Moves

theorem pure (a : α) : Moves k (Pure.pure a : Tx α) := by
  intro s p b s' p' h
  cases h
  exact .refl

theorem bind {x : Tx α} {f : α → Tx β} (hx : Moves k x) (hf : ∀ a, Moves k (f a)) :
    Moves k (x >>= f) := by
  intro s p b s' p' h
  obtain ⟨a, ⟨s₁, p₁⟩, h₁, h₂⟩ := bind_ok h
  exact (hx s p a s₁ p₁ h₁).trans (hf a s₁ p₁ b s' p' h₂)

theorem get : Moves k (MonadState.get : Tx (Store × Progress)) := by
  intro s p b s' p' h
  cases h
  exact .refl

theorem throw (e : Failure) : Moves k (MonadExcept.throw e : Tx α) := by
  intro s p b s' p' h
  cases h

theorem setOutcome (o : Option Outcome) : Moves k (Tx.setOutcome o) := by
  intro s p b s' p' h
  cases h
  exact .refl

theorem reading : Moves k Tx.reading := by
  intro s p b s' p' h
  cases h
  exact .refl

theorem store {m : Store.Op α} (hm : Keeps holdings m) : Moves k (Tx.store m) := by
  intro s p a s' p' h
  exact .single (.of_holdings (hm s a s' (store_ok h).1))

theorem forIn_moves {xs : List β} {body : β → γ → Tx (ForInStep γ)}
    (P : β → Store → Prop) (hP : ∀ x s s', P x s → ReflTransGen (Step k) s s' → P x s')
    (hb : ∀ x ∈ xs, ∀ b s p a s' p', P x s → body x b (s, p) = .ok a (s', p') →
      ReflTransGen (Step k) s s') :
    ∀ {b : γ} {s p a s' p'}, (∀ x ∈ xs, P x s) →
      ForIn.forIn xs b body (s, p) = .ok a (s', p') → ReflTransGen (Step k) s s' := by
  induction xs with
  | nil =>
    intro b s p a s' p' _ h
    cases h
    exact .refl
  | cons x xs ih =>
    intro b s p a s' p' hs h
    rw [List.forIn_cons] at h
    obtain ⟨r, ⟨s₁, p₁⟩, h₁, h₂⟩ := bind_ok h
    have hx := hb x List.mem_cons_self b s p r s₁ p₁ (hs x List.mem_cons_self) h₁
    cases r with
    | done b =>
      cases h₂
      exact hx
    | yield b =>
      have hrest := ih (fun y hy => hb y (List.mem_cons_of_mem x hy))
        (fun y hy => hP y s s₁ (hs y (List.mem_cons_of_mem x hy)) hx) h₂
      exact hx.trans hrest

end Moves

end Tx

/-! ## Every operation moves the store by moves -/

namespace Service

theorem announceInTx_moves (svc : Service) (announce : Option Announcer) (req : Request)
    (now : Instant) : Tx.Moves k (svc.announceInTx announce req now) := by
  unfold announceInTx
  split
  · exact .pure ()
  · refine .bind .get fun (_, p) => ?_
    dsimp only
    split
    · exact .throw _
    · exact .pure ()
    · exact .store (writeEnvelope_keeps_holdings _ _ _)

theorem rowsOf_reserve {entries : List LedgerEntry} {res : UInt64} {r : LedgerEntry}
    (h : (rowsOf entries res).reserve = some r) :
    r ∈ entries ∧ r.type.isFinalization = false := by
  have inv : ∀ r, (rowsOf entries res).reserve = some r →
      r ∈ entries ∧ r.type.isFinalization = false := by
    unfold rowsOf
    refine List.foldlRecOn (motive := fun x : Rows => ∀ r, x.reserve = some r →
      r ∈ entries ∧ r.type.isFinalization = false) entries _ (by simp) ?_
    intro x hx e he r hr
    split at hr
    · exact hx r hr
    split at hr
    · exact hx r hr
    next hfin =>
    cases hr
    exact ⟨he, by simpa using hfin⟩
  exact inv r h

theorem checkLines_ok {req : Request} {target : EntryType} {entries : List LedgerEntry} :
    ∀ {ls : List Line} {acc pending : List LedgerEntry} {s s' : Store} {p p' : Progress},
      checkLines req target entries ls acc (s, p) = .ok pending (s', p') →
      s' = s ∧
        ∀ r ∈ pending, r ∈ acc ∨ r ∈ entries ∧ r.type.isFinalization = false := by
  intro ls
  induction ls with
  | nil =>
    intro acc pending s s' p p' h
    cases h
    exact ⟨rfl, fun r hr => .inl hr⟩
  | cons l rest ih =>
    intro acc pending s s' p p' h
    simp only [checkLines] at h
    cases hres : (rowsOf entries l.resource).reserve with
    | none =>
      simp only [hres] at h
      cases h
    | some r =>
      simp only [hres] at h
      obtain ⟨_, ⟨s₁, p₁⟩, h₁, h⟩ := bind_ok h
      cases h₁
      cases hfin : (rowsOf entries l.resource).final with
      | none =>
        simp only [hfin] at h
        obtain ⟨rfl, hpending⟩ := ih h
        refine ⟨rfl, fun x hx => ?_⟩
        rcases hpending x hx with hx | hx
        · rcases List.mem_append.1 hx with hx | hx
          · exact .inl hx
          · rw [List.mem_singleton.1 hx]
            exact .inr (rowsOf_reserve hres)
        · exact .inr hx
      | some f =>
        simp only [hfin] at h
        by_cases hc : (f.type != target) = true
        · rw [if_pos hc] at h
          obtain ⟨_, _, -, h⟩ := bind_ok h
          cases h
        · rw [if_neg hc] at h
          exact ih h

theorem reserveTx_moves (svc : Service) (req : Request) {lines : List Line}
    (hlines : ∀ l ∈ lines, 0 < l.amount.toInt ∧ (svc.kind = .point → l.resource = 0))
    (announce : Option Announcer) (now : Instant) :
    Tx.Moves svc.kind (svc.reserveTx req lines announce now) := by
  unfold reserveTx
  refine .bind (.setOutcome _) fun _ => .bind .reading fun st => ?_
  dsimp only
  split
  ·
    refine .bind (.setOutcome _) fun _ => ?_
    split
    · exact .throw _
    · exact announceInTx_moves svc announce req now
  · refine .bind (fun s p a s' p' h => ?_) fun _ => .bind (.setOutcome _) fun _ =>
      announceInTx_moves svc announce req now
    refine Tx.Moves.forIn_moves (fun _ _ => True) (fun _ _ _ _ _ => trivial) ?_
      (fun _ _ => trivial) h
    intro l hl b s p a s' p' _ h
    obtain ⟨_, ⟨s₁, p₁⟩, hheld, h⟩ := bind_ok h
    obtain ⟨id, ⟨s₂, p₂⟩, hwrite, h⟩ := bind_ok h
    cases h
    have hpos := hlines l hl
    exact .single (.hold hpos.1 hpos.2 (Tx.store_ok hheld).1
      (withContext_ok (Tx.store_ok hwrite).1))

theorem finalizeTx_moves (svc : Service) (op : Operation) (req : Request) (lines : List Line)
    (announce : Option Announcer) (now : Instant) :
    Tx.Moves svc.kind (svc.finalizeTx op req lines announce now) := by
  intro s p a s' p' h
  unfold finalizeTx at h
  obtain ⟨_, ⟨s₁, p₁⟩, h₁, hk₁⟩ := bind_ok h
  rw [Tx.setOutcome_ok h₁] at hk₁
  obtain ⟨st, ⟨s₂, p₂⟩, h₂, hk₂⟩ := bind_ok hk₁
  rw [(Tx.reading_ok h₂).1, (Tx.reading_ok h₂).2] at hk₂
  obtain ⟨_, ⟨s₃, p₃⟩, h₃, hk₃⟩ := bind_ok hk₂
  rw [Tx.setLines_ok h₃] at hk₃
  obtain ⟨pending, ⟨s₄, p₄⟩, h₄, hk₄⟩ := bind_ok hk₃
  have hpending := (checkLines_ok h₄).2
  rw [(checkLines_ok h₄).1] at hk₄
  have hrows : ∀ r ∈ pending, r ∈ s.ledgers svc.kind.name ∧ r.orderId = req.orderId ∧
      r.userId = req.userId ∧ r.type.isFinalization = false := by
    intro r hr
    rcases hpending r hr with hr | ⟨hr, hfin⟩
    · cases hr
    · simp only [findByOrder, List.mem_filter, Bool.and_eq_true, beq_iff_eq] at hr
      exact ⟨hr.1, hr.2.1, hr.2.2, hfin⟩
  have hafter : ∀ o, Tx.Moves svc.kind (Tx.setOutcome o >>= fun _ =>
      svc.announceInTx announce req now) := fun o =>
    .bind (.setOutcome o) fun _ => announceInTx_moves svc announce req now
  by_cases hnone : pending.isEmpty = true
  · rw [if_pos hnone] at hk₄
    exact hafter _ s p₄ a s' p' hk₄
  rw [if_neg hnone] at hk₄
  obtain ⟨_, ⟨s₅, p₅⟩, h₅, hk₅⟩ := bind_ok hk₄
  refine (Tx.Moves.forIn_moves (fun r s => r ∈ s.ledgers svc.kind.name)
    (fun r s s' hr hm => mem_ledger_of_moves hm hr) ?_ (fun r hr => (hrows r hr).1) h₅).trans
    (hafter _ s₅ p₅ a s' p' hk₅)
  intro r hr b s p a s' p' hmem h
  obtain ⟨-, hord, husr, hfin⟩ := hrows r hr
  by_cases hop : (op == .confirm) = true
  · simp only [hop, ↓reduceIte] at h
    obtain ⟨_, ⟨s₁, p₁⟩, h₁, hk₁⟩ := bind_ok h
    obtain ⟨id, ⟨s₂, p₂⟩, h₂, hk₂⟩ := bind_ok hk₁
    cases hk₂
    rw [← hord, ← husr] at h₁ h₂
    exact .single (.commit hmem hfin (Tx.store_ok h₁).1 (withContext_ok (Tx.store_ok h₂).1))
  · simp only [hop, Bool.false_eq_true, ↓reduceIte] at h
    obtain ⟨_, ⟨s₁, p₁⟩, h₁, hk₁⟩ := bind_ok h
    obtain ⟨id, ⟨s₂, p₂⟩, h₂, hk₂⟩ := bind_ok hk₁
    cases hk₂
    rw [← hord, ← husr] at h₁ h₂
    exact .single (.release hmem hfin (Tx.store_ok h₁).1 (withContext_ok (Tx.store_ok h₂).1))

theorem run_moves {k : Kind} {body : Tx Unit} (hm : Tx.Moves k body) (s : Store) (p : Progress) :
    ReflTransGen (Step k) s (Tx.run body s p).2.2 := by
  unfold Tx.run
  split
  next h => exact hm _ _ _ _ _ h
  · exact .refl

theorem run_atomically_holdings {α : Type} {m : Store.Op α} (hm : Keeps holdings m) (s : Store) :
    (Store.run (atomically m) s).2.holdings = s.holdings := by
  unfold Store.run
  split
  next h => exact hm _ _ _ (atomically_ok h)
  next h => rw [atomically_error_state h]

theorem finish_holdings (svc : Service) (op : Operation) (req : Request) (res : Option Result)
    (err : Option Failure) (announce : Option Announcer) (now : Instant) (s : Store) :
    (svc.finish op req res err announce now s).2.holdings = s.holdings := by
  unfold finish
  split
  next cause a =>
    have hrun : (Store.run (svc.announceFailure a req res cause now) s).2.holdings =
        s.holdings := by
      unfold announceFailure
      cases a req res (some cause) now with
      | error f => rfl
      | ok e =>
        cases e with
        | none => rfl
        | some e => exact run_atomically_holdings (writeEnvelope_keeps_holdings _ _ _) s
    split
    next s' heq => rw [heq] at hrun; exact hrun
    next s' heq => rw [heq] at hrun; exact hrun
  · rfl

theorem reserve_moves (svc : Service) (req : Request) (announce : Option Announcer)
    (now : Instant) (s : Store) :
    ReflTransGen (Step svc.kind) s (svc.reserve req announce now s).2 := by
  unfold reserve
  dsimp only
  split
  · exact .single (.of_holdings (finish_holdings ..))
  next lines hprep =>
  have hlines : ∀ l ∈ lines, 0 < l.amount.toInt ∧ (svc.kind = .point → l.resource = 0) := by
    simp only [bind, Except.bind] at hprep
    split at hprep
    · cases hprep
    · exact Kind.normalize_pos hprep
  exact (run_moves (reserveTx_moves svc req hlines announce now) s _).tail
    (.of_holdings (finish_holdings ..))

theorem finalize_moves (svc : Service) (op : Operation) (req : Request)
    (announce : Option Announcer) (now : Instant) (s : Store) :
    ReflTransGen (Step svc.kind) s (svc.finalize op req announce now s).2 := by
  unfold finalize
  dsimp only
  split
  · exact .single (.of_holdings (finish_holdings ..))
  · exact (run_moves (finalizeTx_moves svc op req _ announce now) s _).tail
      (.of_holdings (finish_holdings ..))

theorem apply_moves (svc : Service) (op : Operation) (req : Request)
    (announce : Option Announcer) (now : Instant) (s : Store) :
    ReflTransGen (Step svc.kind) s (svc.apply op req announce now s).2 := by
  cases op with
  | reserve => exact reserve_moves svc req announce now s
  | confirm => exact finalize_moves svc .confirm req announce now s
  | cancel => exact finalize_moves svc .cancel req announce now s

theorem compensate_moves (svc : Service) (req : CompensationRequest) (now : Instant)
    (s : Store) : ReflTransGen (Step svc.kind) s (svc.compensate req now s).2 := by
  unfold compensate
  split
  ·
    dsimp only
    split
    · exact .refl
    next e _ =>
      have hrun := run_atomically_holdings (writeEnvelope_keeps_holdings svc.service e now) s
      split
      next s' heq =>
        rw [heq] at hrun
        exact .single (.of_holdings hrun)
      next s' heq =>
        rw [heq] at hrun
        exact .single (.of_holdings hrun)
  ·
    dsimp only
    split
    · split
      · exact apply_moves ..
      · exact apply_moves ..
    · exact apply_moves ..

theorem foldl_moves {k : Kind} {ρ β : Type} {f : ρ × Store → β → ρ × Store}
    (hf : ∀ r s x, ReflTransGen (Step k) s (f (r, s) x).2) :
    ∀ (xs : List β) (r : ρ) (s : Store), ReflTransGen (Step k) s (xs.foldl f (r, s)).2
  | [], _, _ => .refl
  | x :: xs, r, s => (hf r s x).trans (foldl_moves hf xs (f (r, s) x).1 (f (r, s) x).2)

theorem sweep_moves (svc : Service) (threshold : Span) (limit : Int) (now : Instant)
    (s : Store) : ReflTransGen (Step svc.kind) s (svc.sweep threshold limit now s).2 := by
  unfold sweep
  dsimp only
  refine foldl_moves (fun _ _ _ => ?_) _ _ _
  exact apply_moves svc .cancel _ none now _

/-- The stores a participant's service reaches from `s₀`: after any requests, compensation requests
and sweeps of its reaper, in any order, at any time and with any announcers. -/
inductive Reaches (svc : Service) (s₀ : Store) : Store → Prop
  | start : Reaches svc s₀ s₀
  | apply {s : Store} (op : Operation) (req : Request) (announce : Option Announcer)
      (now : Instant) : Reaches svc s₀ s → Reaches svc s₀ (svc.apply op req announce now s).2
  | compensate {s : Store} (req : CompensationRequest) (now : Instant) :
      Reaches svc s₀ s → Reaches svc s₀ (svc.compensate req now s).2
  | sweep {s : Store} (threshold : Span) (limit : Int) (now : Instant) :
      Reaches svc s₀ s → Reaches svc s₀ (svc.sweep threshold limit now s).2

theorem Reaches.moves {svc : Service} {s₀ s : Store} (h : svc.Reaches s₀ s) :
    ReflTransGen (Step svc.kind) s₀ s := by
  induction h with
  | start => exact .refl
  | apply op req announce now _ ih => exact ih.trans (apply_moves ..)
  | compensate req now _ ih => exact ih.trans (compensate_moves ..)
  | sweep threshold limit now _ ih => exact ih.trans (sweep_moves ..)

end Service

end Reservation

/-! ## Capacity conserved -/

/-- A participant conserves its capacity. -/
theorem capacity_conserved {svc : Reservation.Service} {s₀ s : Store}
    (h₀ : Stocked svc.kind s₀) (run : svc.Reaches s₀ s) :
    (∀ o u res,
      (s.ledgers svc.kind.name).countP (fun e => e.orderId == o && e.userId == u &&
        e.resource == res && e.type == .reserve) ≤ 1 ∧
      (s.ledgers svc.kind.name).countP (fun e => e.orderId == o && e.userId == u &&
        e.resource == res && e.type.isFinalization) ≤ 1) ∧
    (∀ f ∈ s.ledgers svc.kind.name, f.type.isFinalization = true →
      ∃ r ∈ s.ledgers svc.kind.name, r.type = .reserve ∧ r.orderId = f.orderId ∧
        r.userId = f.userId ∧ r.resource = f.resource ∧ r.amount = f.amount) ∧
    (svc.kind = .stock → ∀ id,
      ((∃ p, s.getOption id = .ok p) ↔ ∃ p₀, s₀.getOption id = .ok p₀) ∧
      ∀ p₀ p, s₀.getOption id = .ok p₀ → s.getOption id = .ok p →
        p.reserved.toInt = p₀.reserved.toInt +
          amountOf (fun e => e.resource == id) (openRows (s.ledgers svc.kind.name)) ∧
        p.stock.toInt = p₀.stock.toInt -
          amountOf (fun e => e.type == .confirm && e.resource == id) (s.ledgers svc.kind.name) ∧
        0 ≤ p.reserved.toInt ∧ p.reserved.toInt ≤ p.stock.toInt) ∧
    (svc.kind = .point → (∀ e ∈ s.ledgers svc.kind.name, e.resource = 0) ∧ ∀ u,
      ((∃ b, s.getPoints u = .ok b) ↔ ∃ b₀, s₀.getPoints u = .ok b₀) ∧
      ∀ b₀ b, s₀.getPoints u = .ok b₀ → s.getPoints u = .ok b →
        b.reserved.toInt = b₀.reserved.toInt + amountOf (fun e => e.userId == u &&
          e.resource == 0) (openRows (s.ledgers svc.kind.name)) ∧
        b.balance.toInt = b₀.balance.toInt - amountOf (fun e => e.type == .confirm &&
          (e.userId == u && e.resource == 0)) (s.ledgers svc.kind.name) ∧
        0 ≤ b.reserved.toInt ∧ b.reserved.toInt ≤ b.balance.toInt) ∧
    (svc.kind = .coupon → ∀ id,
      ((∃ c, s.getCoupon id = .ok c) ↔ ∃ c₀, s₀.getCoupon id = .ok c₀) ∧
      ∀ c₀ c, s₀.getCoupon id = .ok c₀ → s.getCoupon id = .ok c →
        c.userId = c₀.userId ∧
        (c.status = .reserved ↔ ∃ r ∈ openRows (s.ledgers svc.kind.name), r.resource = id) ∧
        (∀ r ∈ openRows (s.ledgers svc.kind.name), r.resource = id →
          c.reservedBy = r.orderId ∧ r.userId = c.userId) ∧
        (openRows (s.ledgers svc.kind.name)).countP (fun r => r.resource == id) ≤ 1 ∧
        (c.status = .available → c.reservedBy = 0) ∧
        (c.status = .used ↔ c₀.status = .used ∨
          ∃ f ∈ s.ledgers svc.kind.name, f.type = .confirm ∧ f.resource = id) ∧
        (s.ledgers svc.kind.name).countP (fun f => f.type == .confirm && f.resource == id) +
          (if c₀.status = .used then 1 else 0) ≤ 1) := by
  have hk : Kept svc.kind s₀ s := (Kept.init h₀).moves run.moves
  refine ⟨fun o u res => ⟨hk.keyed.reserves_le_one o u res, hk.keyed.closings_le_one o u res⟩,
    fun f hf hfin => hk.keyed.closing_matched hf hfin, fun hkind id => ?_,
    fun hkind => ⟨(hk.points hkind).2, fun u => ?_⟩, fun hkind id => ?_⟩
  ·
    have hpools := hk.options hkind
    refine ⟨hpools.present id, fun p₀ p hp₀ hp => ?_⟩
    have hpool := hpools.pools id p₀ p hp₀ hp
    exact ⟨hpool.reserved_eq, hpool.total_eq, hpool.nonneg, hpool.le_total⟩
  ·
    have hpools := (hk.points hkind).1
    refine ⟨hpools.present u, fun b₀ b hb₀ hb => ?_⟩
    have hpool := hpools.pools u b₀ b hb₀ hb
    exact ⟨hpool.reserved_eq, hpool.total_eq, hpool.nonneg, hpool.le_total⟩
  ·
    have hcoupons := hk.coupons hkind
    refine ⟨hcoupons.present id, fun c₀ c hc₀ hc => ?_⟩
    have hheld := hcoupons.coupons id c₀ c hc₀ hc
    have hid : c.id = id := (getCoupon_ok hc).1
    subst hid
    refine ⟨hheld.owner, ⟨hheld.held, fun ⟨r, hr, hres⟩ => (hheld.holder r hr hres).1⟩,
      fun r hr hres => (hheld.holder r hr hres).2, hheld.open_le_one hk.keyed,
      fun hst => ?_, hheld.used, hheld.once⟩
    rcases hheld.status with ⟨-, hby⟩ | hst' | hst'
    · exact hby
    · rw [hst] at hst'
      cases hst'
    · rw [hst] at hst'
      cases hst'

/-- After a reserve of three of the five units of an option, the option holds no more than it has. -/
theorem reserved_option_within_stock :
    ∃ s₀ s : Store, Stocked .stock s₀ ∧
      Reservation.Service.Reaches ⟨.stock, "stock"⟩ s₀ s ∧
      ∀ p₀ p, s₀.getOption 7 = .ok p₀ → s.getOption 7 = .ok p →
        0 ≤ p.reserved.toInt ∧ p.reserved.toInt ≤ p.stock.toInt := by
  have h₀ : Stocked .stock { options := [{ id := 7, stock := 5 }] } :=
    ⟨rfl, by decide, by simp, by simp⟩
  have hstart : Reservation.Service.Reaches ⟨.stock, "stock"⟩
      { options := [{ id := 7, stock := 5 }] } { options := [{ id := 7, stock := 5 }] } :=
    .start
  have run := hstart.apply .reserve ⟨"saga", 1, 2, [⟨7, 3⟩]⟩ none Instant.zero
  exact ⟨_, _, h₀, run, fun p₀ p hp₀ hp =>
    (((capacity_conserved h₀ run).2.2.1 rfl 7).2 p₀ p hp₀ hp).2.2⟩

end OrderSaga
