import OrderSaga.Proofs.Replays
import OrderSaga.Proofs.OutboxOrder

namespace OrderSaga

namespace Store

variable {α β γ : Type}

theorem bind_error {ε σ : Type} {x : EStateM ε σ α} {k : α → EStateM ε σ β} {s s' : σ} {e : ε}
    (h : (x >>= k) s = .error e s') :
    x s = .error e s' ∨ ∃ a s₁, x s = .ok a s₁ ∧ k a s₁ = .error e s' := by
  change EStateM.bind x k s = _ at h
  unfold EStateM.bind at h
  split at h
  · exact .inr ⟨_, _, ‹_›, h⟩
  · cases h
    exact .inl ‹_›

theorem nextId_keeps {f : Store → γ} (hf : ∀ s : Store, f { s with seq := s.seq + 1 } = f s) :
    Keeps f nextId := by
  intro s a s' h
  cases h
  exact hf s

theorem appendLedger_keeps_outbox (kind : String) (e : LedgerEntry) :
    Keeps (·.outbox) (appendLedger kind e) :=
  .bind (.get _) fun _ => .bind (.check _ _ _) fun _ => .bind (nextId_keeps fun _ => rfl)
    fun _ => .bind (.modify fun _ => rfl) fun _ => .pure _ _

theorem writeEnvelope_outbox {space : String} {env : Envelope} {now : Instant} {s s' : Store}
    (h : writeEnvelope space env now s = .ok () s') : ∃ entry, s'.outbox = s.outbox ++ [entry] := by
  obtain ⟨entry, s₁, hentry, h₁⟩ := bind_ok h
  obtain ⟨written, s₂, happend, h₂⟩ := bind_ok h₁
  cases h₂
  have hs₁ : s₁.outbox = s.outbox := entryOf_keeps (·.outbox) space env s entry s₁ hentry
  exact ⟨written, by rw [appendOutbox_outbox happend, hs₁]⟩

end Store

namespace Kind

variable {k : Kind} {o u : UInt64} {l : Line} {now : Instant}

theorem hold_keeps_outbox : Store.Keeps (·.outbox) (k.hold o u l now) := by
  rintro s ⟨⟩ s' h
  cases k with
  | stock => obtain ⟨_, _, -, -, -, -, -, rfl⟩ := hold_stock_ok h; rfl
  | coupon => obtain ⟨_, _, -, -, -, -, -, -, -, rfl⟩ := hold_coupon_ok h; rfl
  | point => obtain ⟨_, _, -, -, -, -, -, rfl⟩ := hold_point_ok h; rfl

theorem commit_keeps_outbox : Store.Keeps (·.outbox) (k.commit o u l now) := by
  rintro s ⟨⟩ s' h
  cases k with
  | stock => obtain ⟨_, _, -, -, -, -, rfl⟩ := commit_stock_ok h; rfl
  | coupon => obtain ⟨_, _, -, -, -, -, -, -, -, rfl⟩ := commit_coupon_ok h; rfl
  | point => obtain ⟨_, _, -, -, -, -, rfl⟩ := commit_point_ok h; rfl

theorem release_keeps_outbox : Store.Keeps (·.outbox) (k.release o u l now) := by
  rintro s ⟨⟩ s' h
  cases k with
  | stock => obtain ⟨_, _, -, -, -, -, rfl⟩ := release_stock_ok h; rfl
  | coupon =>
    obtain ⟨_, -, ⟨-, -, _, -, -, -, -, rfl⟩ | ⟨-, rfl⟩⟩ := release_coupon_ok h <;> rfl
  | point => obtain ⟨_, _, -, -, -, -, rfl⟩ := release_point_ok h; rfl

end Kind

namespace Reservation

open Store

namespace Tx

variable {α β γ : Type}

def Keeps (f : Store → γ) (m : Tx α) : Prop :=
  ∀ s p a s' p', m (s, p) = .ok a (s', p') → f s' = f s

namespace Keeps

variable {f : Store → γ}

theorem pure (a : α) : Keeps f (Pure.pure a : Tx α) := by
  intro s p b s' p' h
  cases h
  rfl

theorem bind {x : Tx α} {k : α → Tx β} (hx : Keeps f x) (hk : ∀ a, Keeps f (k a)) :
    Keeps f (x >>= k) := by
  intro s p b s' p' h
  obtain ⟨a, ⟨s₁, p₁⟩, h₁, h₂⟩ := bind_ok h
  exact (hk a s₁ p₁ b s' p' h₂).trans (hx s p a s₁ p₁ h₁)

theorem throw (e : Failure) : Keeps f (MonadExcept.throw e : Tx α) := by
  intro s p a s' p' h
  cases h

theorem setOutcome (o : Option Outcome) : Keeps f (Tx.setOutcome o) := by
  intro s p a s' p' h
  cases h
  rfl

theorem setLines (ls : List Line) : Keeps f (Tx.setLines ls) := by
  intro s p a s' p' h
  cases h
  rfl

theorem reading : Keeps f Tx.reading := by
  intro s p a s' p' h
  cases h
  rfl

theorem store {m : Store.Op α} (hm : Store.Keeps f m) : Keeps f (Tx.store m) := by
  intro s p a s' p' h
  exact hm s a s' (store_ok h).1

theorem ite {c : Prop} [Decidable c] {x y : Tx α} (hx : Keeps f x) (hy : Keeps f y) :
    Keeps f (if c then x else y) := by
  split
  · exact hx
  · exact hy

theorem forIn {xs : List α} {b : β} {body : α → β → Tx (ForInStep β)}
    (hb : ∀ a b, Keeps f (body a b)) : Keeps f (ForIn.forIn xs b body) := by
  induction xs generalizing b with
  | nil => exact Keeps.pure b
  | cons x xs ih =>
    rw [List.forIn_cons]
    refine Keeps.bind (hb x b) fun r => ?_
    cases r with
    | done b => exact Keeps.pure b
    | yield b => exact ih

end Keeps

/-- The transaction `m` leaves the progress as it found it, whether it succeeds or fails. -/
def KeepsProgress (m : Tx α) : Prop :=
  (∀ s p a s' p', m (s, p) = .ok a (s', p') → p' = p) ∧
    ∀ s p e s' p', m (s, p) = .error e (s', p') → p' = p

namespace KeepsProgress

theorem pure (a : α) : KeepsProgress (Pure.pure a : Tx α) :=
  ⟨fun _ _ _ _ _ h => by cases h; rfl, fun _ _ _ _ _ h => by cases h⟩

theorem bind {x : Tx α} {k : α → Tx β} (hx : KeepsProgress x) (hk : ∀ a, KeepsProgress (k a)) :
    KeepsProgress (x >>= k) := by
  refine ⟨fun s p b s' p' h => ?_, fun s p e s' p' h => ?_⟩
  · obtain ⟨a, ⟨s₁, p₁⟩, h₁, h₂⟩ := bind_ok h
    exact ((hk a).1 s₁ p₁ b s' p' h₂).trans (hx.1 s p a s₁ p₁ h₁)
  · rcases bind_error h with h₁ | ⟨a, ⟨s₁, p₁⟩, h₁, h₂⟩
    · exact hx.2 s p e s' p' h₁
    · exact ((hk a).2 s₁ p₁ e s' p' h₂).trans (hx.1 s p a s₁ p₁ h₁)

theorem store (m : Store.Op α) : KeepsProgress (Tx.store m) := by
  constructor
  · intro s p a s' p' h
    obtain ⟨-, rfl⟩ := store_ok h
    rfl
  · intro s p e s' p' h
    unfold Tx.store at h
    dsimp only at h
    split at h
    · cases h
    · cases h
      rfl

theorem ite {c : Prop} [Decidable c] {x y : Tx α} (hx : KeepsProgress x)
    (hy : KeepsProgress y) : KeepsProgress (if c then x else y) := by
  split
  · exact hx
  · exact hy

theorem forIn {xs : List α} {b : β} {body : α → β → Tx (ForInStep β)}
    (hb : ∀ a b, KeepsProgress (body a b)) : KeepsProgress (ForIn.forIn xs b body) := by
  induction xs generalizing b with
  | nil => exact KeepsProgress.pure b
  | cons x xs ih =>
    rw [List.forIn_cons]
    refine KeepsProgress.bind (hb x b) fun r => ?_
    cases r with
    | done b => exact KeepsProgress.pure b
    | yield b => exact ih

end KeepsProgress

end Tx

namespace Service

variable {svc : Service} {op : Operation} {req : Request} {now : Instant} {s s' : Store}
  {res : Option Result} {err : Option Failure}

/-! ## The shape of an operation -/

/-- An operation: it prepares its lines, runs its transaction over them, and ends. -/
def operate (svc : Service) (op : Operation) (req : Request)
    (prepared : Except Failure (List Line)) (body : List Line → Tx Unit)
    (announce : Option Announcer) (now : Instant) (s : Store) :
    (Option Result × Option Failure) × Store :=
  match prepared with
  | .error e => svc.finish op req none (some e) announce now s
  | .ok lines =>
    let (err, p, s') := Tx.run (body lines) s { lines }
    svc.finish op req (svc.result req p) err announce now s'

theorem reserve_eq_operate (announce : Option Announcer) :
    svc.reserve req announce now s =
      svc.operate .reserve req (do validate req; svc.kind.normalize req.lines)
        (fun lines => svc.reserveTx req lines announce now) announce now s := rfl

theorem finalize_eq_operate (announce : Option Announcer) :
    svc.finalize op req announce now s =
      svc.operate op req (do validate req; svc.resolveLines s req)
        (fun lines => svc.finalizeTx op req lines announce now) announce now s := rfl

@[simp] theorem finish_unannounced :
    svc.finish op req res err none now s = ((res, err), s) := by
  cases err <;> rfl

theorem run_failed {body : Tx Unit} {p p' : Progress} {e : Failure}
    (h : Tx.run body s p = (some e, p', s')) : s' = s ∧ ∃ s₁, body (s, p) = .error e (s₁, p') := by
  rcases hb : body (s, p) with ⟨⟨⟩, s₁, p₁⟩ | ⟨e', s₁, p₁⟩
  · rw [Tx.run_of_ok hb] at h
    cases h
  · rw [Tx.run_of_error hb] at h
    cases h
    exact ⟨rfl, s₁, rfl⟩

/-! ## The announcement of an operation -/

/-- The announcement that `a` makes of an operation of `req` that ended with the result `res` and
the failure `err` (`none` for a success), written on the store `s`, leaves the store `s'`. -/
inductive Announced (svc : Service) (req : Request) (res : Option Result)
    (err : Option Failure) (now : Instant) (s : Store) : Option Announcer → Store → Prop
  | unannounced : Announced svc req res err now s none s
  | silent {an : Announcer} (made : an req res err now = .ok none) :
      Announced svc req res err now s (some an) s
  | written {an : Announcer} {env : Envelope} {s' : Store}
      (made : an req res err now = .ok (some env))
      (wrote : Store.writeEnvelope svc.service env now s = .ok () s') :
      Announced svc req res err now s (some an) s'

namespace Announced

variable {a : Option Announcer}

theorem outbox (h : svc.Announced req res err now s a s') :
    s'.outbox = s.outbox ∨ ∃ entry, s'.outbox = s.outbox ++ [entry] := by
  cases h with
  | unannounced => exact .inl rfl
  | silent => exact .inl rfl
  | written _ wrote => exact .inr (writeEnvelope_outbox wrote)

theorem holdings (h : svc.Announced req res err now s a s') : s'.holdings = s.holdings := by
  cases h with
  | unannounced => rfl
  | silent => rfl
  | written _ wrote => exact writeEnvelope_keeps_holdings _ _ _ _ _ _ wrote

theorem made {an : Announcer} (h : svc.Announced req res err now s (some an) s') :
    an req res err now = .ok none ∧ s' = s ∨
      ∃ env, an req res err now = .ok (some env) ∧
        Store.writeEnvelope svc.service env now s = .ok () s' := by
  cases h with
  | silent made => exact .inl ⟨made, rfl⟩
  | written made wrote => exact .inr ⟨_, made, wrote⟩

end Announced

theorem finish_failure (svc : Service) (op : Operation) (req : Request) (an : Announcer)
    (res : Option Result) (cause : Failure) (now : Instant) (s : Store) :
    ∃ e s', svc.finish op req res (some cause) (some an) now s = ((res, some e), s') ∧
      (e = cause ∧ svc.Announced req res (some cause) now s (some an) s' ∨
        e.conditions = [.announceFailed] ∧ s' = s ∧
          ¬ ∃ s'', svc.Announced req res (some cause) now s (some an) s'') := by
  unfold finish announceFailure
  dsimp only
  rcases han : an req res (some cause) now with f | _ | env
  ·
    refine ⟨_, s, rfl, .inr ⟨rfl, rfl, ?_⟩⟩
    rintro ⟨s'', h⟩
    rcases h.made with ⟨hm, -⟩ | ⟨env', hm, -⟩ <;> rw [han] at hm <;> cases hm
  · exact ⟨cause, s, rfl, .inl ⟨rfl, .silent han⟩⟩
  ·
    cases hw : Store.writeEnvelope svc.service env now s with
    | ok u s₁ =>
      exact ⟨cause, s₁, by simp [Store.run, atomically, hw], .inl ⟨rfl, .written han hw⟩⟩
    | error g s₁ =>
      have hrun : Store.run (atomically (Store.writeEnvelope svc.service env now)) s =
          (.error g, s) := by
        simp [Store.run, atomically, hw]
      dsimp only
      rw [hrun]
      refine ⟨_, s, rfl, .inr ⟨rfl, rfl, ?_⟩⟩
      rintro ⟨s'', h⟩
      rcases h.made with ⟨hm, -⟩ | ⟨env', hm, hw'⟩
      · rw [han] at hm
        cases hm
      · rw [han] at hm
        cases hm
        rw [hw] at hw'
        cases hw'

/-! ## The announcer is read at the end -/

theorem announceInTx_none (svc : Service) (req : Request) (now : Instant) :
    svc.announceInTx none req now = pure () := rfl

theorem announceInTx_some (an : Announcer) (s : Store) (p : Progress) :
    svc.announceInTx (some an) req now (s, p) =
      match an req (svc.result req p) none now with
      | .error f => .error (f.wrap "build announcement") (s, p)
      | .ok none => .ok () (s, p)
      | .ok (some env) => Tx.store (Store.writeEnvelope svc.service env now) (s, p) := by
  unfold announceInTx
  dsimp only
  rw [Tx.bind_of_ok (Tx.get_run _)]
  rcases an req (svc.result req p) none now with f | _ | env <;> rfl

theorem reserveTx_announced (lines : List Line) (a : Option Announcer) :
    svc.reserveTx req lines a now =
      (svc.reserveTx req lines none now >>= fun _ => svc.announceInTx a req now) := by
  unfold reserveTx
  simp only [bind_assoc, announceInTx_none]
  refine bind_congr fun _ => bind_congr fun st => ?_
  split_ifs
  · simp only [bind_assoc]
    refine bind_congr fun _ => ?_
    split
    · rfl
    · simp only [pure_bind]
  · simp only [bind_assoc, pure_bind]

theorem finalizeTx_announced (lines : List Line) (a : Option Announcer) :
    svc.finalizeTx op req lines a now =
      (svc.finalizeTx op req lines none now >>= fun _ => svc.announceInTx a req now) := by
  unfold finalizeTx
  simp only [bind_assoc, announceInTx_none]
  refine bind_congr fun _ => bind_congr fun st => bind_congr fun _ =>
    bind_congr fun pending => ?_
  by_cases hp : pending.isEmpty
  · simp only [hp, if_true, bind_assoc, pure_bind]
  · simp only [hp, Bool.false_eq_true, if_false, bind_assoc, pure_bind]

theorem run_announcing (body : Tx Unit) (an : Announcer) (p₀ : Progress) :
    Tx.run (body >>= fun _ => svc.announceInTx (some an) req now) s p₀ =
      match Tx.run body s p₀ with
      | (some e, p, _) => (some e, p, s)
      | (none, p, s₁) =>
        match an req (svc.result req p) none now with
        | .error f => (some (f.wrap "build announcement"), p, s)
        | .ok none => (none, p, s₁)
        | .ok (some env) =>
          match Store.writeEnvelope svc.service env now s₁ with
          | .ok () s₂ => (none, p, s₂)
          | .error g _ => (some g, p, s) := by
  rcases hb : body (s, p₀) with ⟨⟨⟩, s₁, p₁⟩ | ⟨e, s₁, p₁⟩
  · rw [Tx.run_of_ok hb]
    unfold Tx.run
    rw [Tx.bind_of_ok hb, announceInTx_some]
    dsimp only
    rcases an req (svc.result req p₁) none now with f | _ | env
    · rfl
    · rfl
    · dsimp only [Tx.store]
      rcases Store.writeEnvelope svc.service env now s₁ with ⟨⟨⟩, s₂⟩ | ⟨g, s₂⟩ <;> rfl
  · rw [Tx.run_of_error hb, Tx.run_of_error (Tx.bind_of_error hb)]

/-- How an operation that ended as `r` without an announcer ends with the announcer `an`, from the
store `s` it started on. -/
def announcedBy (svc : Service) (op : Operation) (req : Request) (an : Announcer)
    (now : Instant) (s : Store) (r : (Option Result × Option Failure) × Store) :
    (Option Result × Option Failure) × Store :=
  match r with
  | ((res, some e), _) => svc.finish op req res (some e) (some an) now s
  | ((res, none), s₁) =>
    match an req res none now with
    | .error f => svc.finish op req res (some (f.wrap "build announcement")) (some an) now s
    | .ok none => ((res, none), s₁)
    | .ok (some env) =>
      match Store.writeEnvelope svc.service env now s₁ with
      | .ok () s₂ => ((res, none), s₂)
      | .error g _ => svc.finish op req res (some g) (some an) now s

theorem operate_announced {prepared : Except Failure (List Line)}
    {body : List Line → Option Announcer → Tx Unit}
    (hbody : ∀ lines a, body lines a = (body lines none >>= fun _ => svc.announceInTx a req now))
    (an : Announcer) :
    svc.operate op req prepared (fun lines => body lines (some an)) (some an) now s =
      svc.announcedBy op req an now s
        (svc.operate op req prepared (fun lines => body lines none) none now s) := by
  unfold operate
  cases prepared with
  | error e => rfl
  | ok lines =>
    dsimp only
    rw [hbody lines (some an), run_announcing]
    rcases Tx.run (body lines none) s { lines } with ⟨_ | e, p, s₁⟩
    · simp only [finish_unannounced, announcedBy]
      rcases an req (svc.result req p) none now with f | _ | env
      · rfl
      · rfl
      · dsimp only
        rcases Store.writeEnvelope svc.service env now s₁ with ⟨⟨⟩, s₂⟩ | ⟨g, s₂⟩ <;> rfl
    · rfl

theorem apply_announced (an : Announcer) :
    svc.apply op req (some an) now s =
      svc.announcedBy op req an now s (svc.apply op req none now s) := by
  cases op with
  | reserve =>
    calc svc.reserve req (some an) now s
      _ = _ := reserve_eq_operate (some an)
      _ = _ := operate_announced (fun lines a => reserveTx_announced lines a) an
      _ = svc.announcedBy .reserve req an now s (svc.reserve req none now s) := by
        rw [reserve_eq_operate]
  | confirm | cancel =>
    calc svc.finalize _ req (some an) now s
      _ = _ := finalize_eq_operate (some an)
      _ = _ := operate_announced (fun lines a => finalizeTx_announced lines a) an
      _ = svc.announcedBy _ req an now s (svc.finalize _ req none now s) := by
        rw [finalize_eq_operate]

/-! ## An operation without an announcer -/

section Unannounced

variable {prepared : Except Failure (List Line)} {body : List Line → Tx Unit}

theorem operate_unannounced_failed {e : Failure}
    (h : svc.operate op req prepared body none now s = ((res, some e), s')) :
    s' = s ∧ (res = none ∨ ∃ lines p s₁, prepared = .ok lines ∧
      body lines (s, { lines }) = .error e (s₁, p) ∧ res = svc.result req p) := by
  unfold operate at h
  cases prepared with
  | error e' =>
    simp only [finish_unannounced, Prod.mk.injEq] at h
    obtain ⟨⟨rfl, -⟩, rfl⟩ := h
    exact ⟨rfl, .inl rfl⟩
  | ok lines =>
    dsimp only at h
    rcases hrun : Tx.run (body lines) s { lines } with ⟨_ | e', p, s₁⟩
    · rw [hrun, finish_unannounced] at h
      cases h
    · rw [hrun, finish_unannounced] at h
      cases h
      obtain ⟨rfl, s₂, hb⟩ := run_failed hrun
      exact ⟨rfl, .inr ⟨lines, p, s₂, rfl, hb, rfl⟩⟩

theorem operate_unannounced_outbox (hbody : ∀ lines, Tx.Keeps (·.outbox) (body lines))
    (h : svc.operate op req prepared body none now s = ((res, err), s')) :
    s'.outbox = s.outbox := by
  unfold operate at h
  cases prepared with
  | error e' =>
    dsimp only at h
    rw [finish_unannounced] at h
    cases h
    rfl
  | ok lines =>
    dsimp only at h
    rcases hrun : Tx.run (body lines) s { lines } with ⟨_ | e', p, s₁⟩
    · rw [hrun, finish_unannounced] at h
      cases h
      exact hbody lines s _ () _ p (Tx.ok_of_run hrun)
    · rw [hrun, finish_unannounced] at h
      cases h
      rw [(run_failed hrun).1]

end Unannounced

theorem checkLines_keeps {f : Store → γ} {target : EntryType} {entries : List LedgerEntry}
    (ls : List Line) (acc : List LedgerEntry) :
    Tx.Keeps f (checkLines req target entries ls acc) := by
  intro s p pending s' p' h
  rw [(checkLines_spec h).1]

theorem reserveTx_keeps_outbox (lines : List Line) :
    Tx.Keeps (·.outbox) (svc.reserveTx req lines none now) := by
  unfold reserveTx
  refine .bind (.setOutcome _) fun _ => .bind .reading fun st => .ite ?_ ?_
  · refine .bind (.setOutcome _) fun _ => ?_
    split
    · exact .throw _
    · exact .pure ()
  · exact .bind (.forIn fun _ _ => .bind (.store Kind.hold_keeps_outbox) fun _ =>
      .bind (.store (.withContext _ (appendLedger_keeps_outbox _ _))) fun _ => .pure _) fun _ =>
      .bind (.setOutcome _) fun _ => .pure ()

theorem finalizeTx_keeps_outbox (lines : List Line) :
    Tx.Keeps (·.outbox) (svc.finalizeTx op req lines none now) := by
  unfold finalizeTx
  refine .bind (.setOutcome _) fun _ => .bind .reading fun st => .bind (.setLines _) fun _ =>
    .bind (checkLines_keeps _ _) fun pending => .ite ?_ ?_
  · exact .bind (.setOutcome _) fun _ => .pure ()
  · refine .bind (.forIn fun _ _ => ?_) fun _ => .bind (.setOutcome _) fun _ => .pure ()
    dsimp only
    split
    · exact .bind (.store Kind.commit_keeps_outbox) fun _ =>
        .bind (.store (.withContext _ (appendLedger_keeps_outbox _ _))) fun _ => .pure _
    · exact .bind (.store Kind.release_keeps_outbox) fun _ =>
        .bind (.store (.withContext _ (appendLedger_keeps_outbox _ _))) fun _ => .pure _

theorem apply_unannounced_outbox (h : svc.apply op req none now s = ((res, err), s')) :
    s'.outbox = s.outbox := by
  cases op with
  | reserve =>
    exact operate_unannounced_outbox (fun lines => reserveTx_keeps_outbox lines)
      ((reserve_eq_operate none).symm.trans h)
  | confirm | cancel =>
    exact operate_unannounced_outbox (fun lines => finalizeTx_keeps_outbox lines)
      ((finalize_eq_operate none).symm.trans h)

/-! ## What a failure reports -/

def ClosedOrNone (o : Option Outcome) : Prop := o = none ∨ ∃ t, o = some (alreadyOutcome t)

theorem replayReserve_failed {entries : List LedgerEntry} {lines : List Line} {e : Failure}
    (h : (replayReserve entries lines).2 = some e) : ClosedOrNone (replayReserve entries lines).1 := by
  unfold replayReserve at h ⊢
  dsimp only at h ⊢
  rcases hf : (resourcesOf entries).findSome? (fun r => (rowsOf entries r).final) with _ | f
  ·
    simp only [hf] at h ⊢
    split_ifs at h ⊢
    · exact .inl rfl
    · exact .inl rfl
  · exact .inr ⟨_, rfl⟩

theorem checkLines_failed {target : EntryType} {entries : List LedgerEntry} :
    ∀ {ls : List Line} {acc : List LedgerEntry} {s s' : Store} {p p' : Progress} {e : Failure},
      checkLines req target entries ls acc (s, p) = .error e (s', p') →
      p'.outcome = p.outcome ∨ ∃ t, p'.outcome = some (alreadyOutcome t) := by
  intro ls
  induction ls with
  | nil =>
    intro acc s s' p p' e h
    cases h
  | cons l rest ih =>
    intro acc s s' p p' e h
    simp only [checkLines] at h
    cases hres : (rowsOf entries l.resource).reserve with
    | none =>
      simp only [hres] at h
      cases h
      exact .inl rfl
    | some r =>
      simp only [hres] at h
      rw [Tx.bind_of_ok (Tx.modify_run _ _)] at h
      cases hfin : (rowsOf entries l.resource).final with
      | none =>
        simp only [hfin] at h
        have hrest := ih h
        exact hrest
      | some f =>
        simp only [hfin] at h
        split at h
        ·
          rw [Tx.bind_of_ok (Tx.setOutcome_run _)] at h
          cases h
          exact .inr ⟨_, rfl⟩
        · have hrest := ih h
          exact hrest

theorem reserveRound_keepsProgress {lines : List Line} :
    Tx.KeepsProgress (forIn lines PUnit.unit fun l _ => do
      Tx.store (svc.kind.hold req.orderId req.userId l now)
      let _ ← Tx.store (withContext "append reserve entry" (appendLedger svc.kind.name
        (LedgerEntry.ofLine req.sagaId req.orderId req.userId l .reserve now)))
      pure (ForInStep.yield PUnit.unit)) :=
  .forIn fun _ _ => .bind (.store _) fun _ => .bind (.store _) fun _ => .pure _

theorem reserveTx_failed {lines : List Line} {p p' : Progress} {e : Failure}
    (h : svc.reserveTx req lines none now (s, p) = .error e (s', p')) :
    ClosedOrNone p'.outcome := by
  unfold reserveTx at h
  rw [Tx.bind_of_ok (Tx.setOutcome_run _), Tx.bind_of_ok Tx.reading_run] at h
  dsimp only at h
  split at h
  ·
    rw [Tx.bind_of_ok (Tx.setOutcome_run _)] at h
    rcases hr : (replayReserve (s.findByOrder svc.kind.name req.orderId req.userId) lines).2
      with _ | e'
    · rw [hr] at h
      dsimp only at h
      rw [announceInTx_none] at h
      cases h
    · rw [hr] at h
      cases h
      exact replayReserve_failed hr
  · rcases bind_error h with hloop | ⟨_, ⟨s₁, p₁⟩, -, h⟩
    ·
      rw [reserveRound_keepsProgress.2 _ _ _ _ _ hloop]
      exact .inl rfl
    · rw [Tx.bind_of_ok (Tx.setOutcome_run _), announceInTx_none] at h
      cases h

theorem finalizeTx_failed {lines : List Line} {p p' : Progress} {e : Failure}
    (h : svc.finalizeTx op req lines none now (s, p) = .error e (s', p')) :
    ClosedOrNone p'.outcome := by
  unfold finalizeTx at h
  rw [Tx.bind_of_ok (Tx.setOutcome_run _), Tx.bind_of_ok Tx.reading_run,
    Tx.bind_of_ok (Tx.setLines_run _)] at h
  dsimp only at h
  rcases bind_error h with hcheck | ⟨pending, ⟨s₁, p₁⟩, hcheck, h⟩
  · exact checkLines_failed hcheck
  · obtain ⟨rfl, rfl, -⟩ := checkLines_spec hcheck
    split at h
    · rw [Tx.bind_of_ok (Tx.setOutcome_run _), announceInTx_none] at h
      cases h
    · rcases bind_error h with hloop | ⟨_, ⟨s₂, p₂⟩, -, h⟩
      ·
        rw [(Tx.KeepsProgress.forIn ?round).2 _ _ _ _ _ hloop]
        · exact .inl rfl
        · intro r u
          split
          · exact .bind (.store _) fun _ => .bind (.store _) fun _ => .pure _
          · exact .bind (.store _) fun _ => .bind (.store _) fun _ => .pure _
      · rw [Tx.bind_of_ok (Tx.setOutcome_run _), announceInTx_none] at h
        cases h

theorem alreadyOutcome_cases (t : EntryType) :
    alreadyOutcome t = .alreadyConfirmed ∨ alreadyOutcome t = .alreadyCanceled := by
  unfold alreadyOutcome
  split
  · exact .inl rfl
  · exact .inr rfl

theorem result_closedOrNone {p : Progress} (h : ClosedOrNone p.outcome) :
    svc.result req p = none ∨ ∃ r, svc.result req p = some r ∧
      (r.outcome = .alreadyConfirmed ∨ r.outcome = .alreadyCanceled) := by
  rcases h with h | ⟨t, h⟩
  · exact .inl (by simp [result, h])
  · exact .inr ⟨⟨svc.kind, req.sagaId, req.orderId, req.userId, alreadyOutcome t, p.lines⟩,
      by simp [result, h], alreadyOutcome_cases t⟩

theorem apply_unannounced_failed {e : Failure}
    (h : svc.apply op req none now s = ((res, some e), s')) :
    s' = s ∧ (res = none ∨ ∃ r, res = some r ∧
      (r.outcome = .alreadyConfirmed ∨ r.outcome = .alreadyCanceled)) := by
  cases op with
  | reserve =>
    obtain ⟨rfl, hres | ⟨lines, p, s₁, -, hb, rfl⟩⟩ :=
      operate_unannounced_failed ((reserve_eq_operate none).symm.trans h)
    · exact ⟨rfl, .inl hres⟩
    · exact ⟨rfl, result_closedOrNone (reserveTx_failed hb)⟩
  | confirm | cancel =>
    obtain ⟨rfl, hres | ⟨lines, p, s₁, -, hb, rfl⟩⟩ :=
      operate_unannounced_failed ((finalize_eq_operate none).symm.trans h)
    · exact ⟨rfl, .inl hres⟩
    · exact ⟨rfl, result_closedOrNone (finalizeTx_failed hb)⟩

/-! ## An operation with an announcer -/

theorem announcedBy_cases (an : Announcer) (res₀ : Option Result) (err₀ : Option Failure)
    (s₁ : Store) :
    (∃ cause, svc.announcedBy op req an now s ((res₀, err₀), s₁) =
        svc.finish op req res₀ (some cause) (some an) now s) ∨
      err₀ = none ∧ ∃ s₂, svc.announcedBy op req an now s ((res₀, err₀), s₁) = ((res₀, none), s₂) ∧
        svc.Announced req res₀ none now s₁ (some an) s₂ := by
  rcases err₀ with _ | e₀
  ·
    unfold announcedBy
    dsimp only
    cases han : an req res₀ none now with
    | error f => exact .inl ⟨_, rfl⟩
    | ok made =>
      cases made with
      | none => exact .inr ⟨rfl, s₁, rfl, .silent han⟩
      | some env =>
        dsimp only
        cases hw : Store.writeEnvelope svc.service env now s₁ with
        | ok u s₂ => exact .inr ⟨rfl, s₂, rfl, .written han hw⟩
        | error g s₂ => exact .inl ⟨g, rfl⟩
  · exact .inl ⟨e₀, rfl⟩

theorem announcedBy_result (an : Announcer) (r : (Option Result × Option Failure) × Store) :
    (svc.announcedBy op req an now s r).1.1 = r.1.1 := by
  rcases r with ⟨⟨res₀, err₀⟩, s₁⟩
  rcases announcedBy_cases an res₀ err₀ s₁ with ⟨cause, hc⟩ | ⟨-, s₂, hs, -⟩
  · rw [hc]
    exact finish_result _ _
  · rw [hs]

theorem apply_result (a : Option Announcer) :
    (svc.apply op req a now s).1.1 = (svc.apply op req none now s).1.1 := by
  cases a with
  | none => rfl
  | some an => rw [apply_announced, announcedBy_result]

theorem apply_failed {a : Option Announcer} {e : Failure}
    (h : svc.apply op req a now s = ((res, some e), s')) :
    ∃ cause, svc.finish op req res (some cause) a now s = ((res, some e), s') := by
  cases a with
  | none =>
    obtain ⟨rfl, -⟩ := apply_unannounced_failed h
    exact ⟨e, finish_unannounced⟩
  | some an =>
    rw [apply_announced] at h
    rcases h₀ : svc.apply op req none now s with ⟨⟨res₀, err₀⟩, s₁⟩
    rw [h₀] at h
    rcases announcedBy_cases an res₀ err₀ s₁ with ⟨cause, hc⟩ | ⟨-, s₂, hs, -⟩
    · rw [hc] at h
      have hres : res₀ = res := (finish_result res₀ _).symm.trans (congrArg (·.1.1) h)
      subst hres
      exact ⟨cause, h⟩
    · rw [hs] at h
      cases h

theorem apply_succeeded {a : Option Announcer}
    (h : svc.apply op req a now s = ((res, none), s')) :
    ∃ s₁, svc.apply op req none now s = ((res, none), s₁) ∧
      svc.Announced req res none now s₁ a s' := by
  cases a with
  | none => exact ⟨s', h, .unannounced⟩
  | some an =>
    rw [apply_announced] at h
    rcases h₀ : svc.apply op req none now s with ⟨⟨res₀, err₀⟩, s₁⟩
    rw [h₀] at h
    rcases announcedBy_cases an res₀ err₀ s₁ with ⟨cause, hc⟩ | ⟨rfl, s₂, hs, hann⟩
    ·
      obtain ⟨e', he', -⟩ := finish_error svc op req res₀ cause (some an) now s
      rw [← hc, h] at he'
      cases he'
    · rw [hs] at h
      cases h
      exact ⟨_, rfl, hann⟩

theorem apply_unannounceable (an : Announcer) {res₀ : Option Result} {s₁ : Store}
    (h₀ : svc.apply op req none now s = ((res₀, none), s₁))
    (hno : ¬ ∃ s₂, svc.Announced req res₀ none now s₁ (some an) s₂) :
    (svc.apply op req (some an) now s).1.1 = res₀ ∧
      ∃ e, (svc.apply op req (some an) now s).1.2 = some e ∧
        (e.conditions = [.announceFailed] ∨
          (∃ f, an req res₀ none now = .error f ∧ e = f.wrap "build announcement") ∨
          ∃ env s₂, an req res₀ none now = .ok (some env) ∧
            Store.writeEnvelope svc.service env now s₁ = .error e s₂) := by
  refine ⟨by rw [apply_result, h₀], ?_⟩
  rw [apply_announced, h₀]
  unfold announcedBy
  dsimp only
  cases han : an req res₀ none now with
  | error f =>
    obtain ⟨e', he', hcases⟩ :=
      finish_error svc op req res₀ (f.wrap "build announcement") (some an) now s
    refine ⟨e', he', ?_⟩
    rcases hcases with rfl | ⟨-, hc⟩
    · exact .inr (.inl ⟨f, rfl, rfl⟩)
    · exact .inl hc
  | ok made =>
    cases made with
    | none => exact absurd ⟨s₁, .silent han⟩ hno
    | some env =>
      dsimp only
      cases hw : Store.writeEnvelope svc.service env now s₁ with
      | ok u s₂ => exact absurd ⟨s₂, .written han hw⟩ hno
      | error g s₂ =>
        obtain ⟨e', he', hcases⟩ := finish_error svc op req res₀ g (some an) now s
        refine ⟨e', he', ?_⟩
        rcases hcases with rfl | ⟨-, hc⟩
        · exact .inr (.inr ⟨env, s₂, rfl, hw⟩)
        · exact .inl hc

end Service

end Reservation

/-! ## Failure atomicity -/

open Reservation Reservation.Service

/-- **Failed operations roll back, and an operation is announced once.** -/
theorem operations_atomic_with_announcement {svc : Service} {op : Operation} {req : Request}
    {a : Option Announcer} {now : Instant} {s s' : Store} {res : Option Result}
    {err : Option Failure} (h : svc.apply op req a now s = ((res, err), s')) :
    (∀ e, err = some e → s'.holdings = s.holdings ∧
      (svc.Announced req res (some e) now s a s' ∨
        e.conditions = [.announceFailed] ∧ s' = s ∧
          ∃ an cause, a = some an ∧ ¬ ∃ s'', svc.Announced req res (some cause) now s a s'')) ∧
    (err = none → ∃ s₁, svc.apply op req none now s = ((res, none), s₁) ∧
      s₁.outbox = s.outbox ∧ svc.Announced req res none now s₁ a s') ∧
    (∀ an res₀ s₁, a = some an → svc.apply op req none now s = ((res₀, none), s₁) →
      (¬ ∃ s₂, svc.Announced req res₀ none now s₁ a s₂) →
      res = res₀ ∧ ∃ e, err = some e ∧ (e.conditions = [.announceFailed] ∨
        (∃ f, an req res₀ none now = .error f ∧ e = f.wrap "build announcement") ∨
        ∃ env s₂, an req res₀ none now = .ok (some env) ∧
          Store.writeEnvelope svc.service env now s₁ = .error e s₂)) ∧
    (∀ e, err = some e → (svc.apply op req none now s).1.1 = res ∧
      (res = none ∨
        (∃ r, res = some r ∧ (r.outcome = .alreadyConfirmed ∨ r.outcome = .alreadyCanceled)) ∨
        (svc.apply op req none now s).1.2 = none)) := by
  refine ⟨fun e he => ?_, fun he => ?_, fun an res₀ s₁ ha h₀ hno => ?_, fun e he => ?_⟩
  ·
    subst he
    obtain ⟨cause, hfin⟩ := apply_failed h
    cases a with
    | none =>
      rw [finish_unannounced] at hfin
      cases hfin
      exact ⟨rfl, .inl .unannounced⟩
    | some an =>
      obtain ⟨e', s'', hf, hcases⟩ := finish_failure svc op req an res cause now s
      rw [hf] at hfin
      cases hfin
      rcases hcases with ⟨rfl, hann⟩ | ⟨hc, rfl, hno⟩
      · exact ⟨hann.holdings, .inl hann⟩
      · exact ⟨rfl, .inr ⟨hc, rfl, an, cause, rfl, hno⟩⟩
  ·
    subst he
    obtain ⟨s₁, h₀, hann⟩ := apply_succeeded h
    exact ⟨s₁, h₀, apply_unannounced_outbox h₀, hann⟩
  · subst ha
    obtain ⟨hres, e, he, hcases⟩ := apply_unannounceable an h₀ hno
    rw [h] at hres he
    exact ⟨hres, e, he, hcases⟩
  ·
    subst he
    have hres : (svc.apply op req none now s).1.1 = res :=
      (apply_result a).symm.trans (congrArg (·.1.1) h)
    refine ⟨hres, ?_⟩
    rcases h₀ : svc.apply op req none now s with ⟨⟨res₀, _ | e₀⟩, s₁⟩
    · exact .inr (.inr rfl)
    · rw [h₀] at hres
      cases hres
      exact (apply_unannounced_failed h₀).2.imp_right .inl

def fiveOfSevenOneOfEight : Store := { options := [{ id := 7, stock := 5 }, { id := 8, stock := 1 }] }

def threeOfSevenTwoOfEight : Request := ⟨"saga", 1, 2, [⟨7, 3⟩, ⟨8, 2⟩]⟩

def silentAnnouncer : Announcer := fun _ _ _ _ => .ok none

/-- A reserve of two lines whose second lacks capacity fails, and leaves the first unheld. -/
theorem short_second_line_rolls_back :
    ∃ res e s', stockService.apply .reserve threeOfSevenTwoOfEight (some silentAnnouncer)
        Instant.zero fiveOfSevenOneOfEight = ((res, some e), s') ∧
      s'.holdings = fiveOfSevenOneOfEight.holdings := by
  have hfail : (stockService.apply .reserve threeOfSevenTwoOfEight (some silentAnnouncer)
      Instant.zero fiveOfSevenOneOfEight).1.2.isSome = true := by cbv
  rcases h : stockService.apply .reserve threeOfSevenTwoOfEight (some silentAnnouncer)
      Instant.zero fiveOfSevenOneOfEight with ⟨⟨res, _ | e⟩, s'⟩
  · rw [h] at hfail
    cases hfail
  · exact ⟨res, e, s', rfl, ((operations_atomic_with_announcement h).1 e rfl).1⟩

/-- A reserve announced by an announcer of an event type the catalogue does not know fails, as its
announcement cannot be built, and rolls back: the ledger stays empty and the option holds nothing. -/
theorem rolled_back_reserve_reports_reserved :
    (stockService.apply .reserve threeOfSeven (some (resultAnnouncer "REFUND_ISSUED" .stock))
        Instant.zero fiveOfSeven).1.1.map (·.outcome) = some .reserved ∧
      (stockService.apply .reserve threeOfSeven (some (resultAnnouncer "REFUND_ISSUED" .stock))
        Instant.zero fiveOfSeven).1.2.isSome = true ∧
      (stockService.apply .reserve threeOfSeven (some (resultAnnouncer "REFUND_ISSUED" .stock))
        Instant.zero fiveOfSeven).2.ledgers stockService.kind.name = [] ∧
      (stockService.apply .reserve threeOfSeven (some (resultAnnouncer "REFUND_ISSUED" .stock))
        Instant.zero fiveOfSeven).2.options = fiveOfSeven.options := by
  decide +kernel

end OrderSaga
