import OrderSaga.Proofs.Conservation

namespace OrderSaga

namespace Kind

theorem foldlM_invariant {α β : Type} {f : β → α → Except Failure β} (P : β → Prop)
    (hf : ∀ b a b', P b → f b a = .ok b' → P b') :
    ∀ {xs : List α} {b out : β}, P b → xs.foldlM f b = .ok out → P out
  | [], _, _, hb, h => by
    cases h
    exact hb
  | x :: xs, b, out, hb, h => by
    rw [List.foldlM_cons] at h
    simp only [bind, Except.bind] at h
    split at h
    · cases h
    next b' hstep => exact foldlM_invariant P hf (hf b x b' hb hstep) h

theorem mergeInto_spec {fixed : Option Int64} {merged out : List Line} {l : Line}
    (h : mergeInto fixed merged l = .ok out) :
    out ≠ [] ∧ ((merged.map (·.resource)).Nodup → (out.map (·.resource)).Nodup) := by
  unfold mergeInto at h
  split at h
  · cases h
  split at h
  · cases h
  split at h
  next hfind =>
    cases h
    have hnew : ∀ x ∈ merged, x.resource ≠ l.resource := fun x hx => by
      simpa using List.find?_eq_none.mp hfind x hx
    refine ⟨by simp, fun hm => ?_⟩
    simpa [List.nodup_append] using ⟨hm, hnew⟩
  next m hfind =>
    have hm : merged ≠ [] := List.ne_nil_of_mem (List.mem_of_find?_eq_some hfind)
    obtain ⟨total, rfl⟩ : ∃ total : Int64, out = merged.map fun x =>
        if x.resource == l.resource then ⟨x.resource, total⟩ else x := by
      cases fixed with
      | some a => exact ⟨a, by cases h; rfl⟩
      | none =>
        simp only [bind, Except.bind] at h
        split at h
        next t _ => exact ⟨t, by cases h; rfl⟩
        · cases h
    refine ⟨by simpa using hm, fun hnd => ?_⟩
    simpa [Function.comp_def, apply_ite] using hnd

theorem normalize_spec {k : Kind} {ls lines : List Line} (h : k.normalize ls = .ok lines) :
    lines ≠ [] ∧ (lines.map (·.resource)).Nodup := by
  cases k with
  | point =>
    simp only [normalize, bind, Except.bind] at h
    split at h
    · cases h
    split at h
    · cases h
    cases h
    simp
  | stock | coupon =>
    simp only [normalize, mergeLines, bind, Except.bind] at h
    split at h
    · cases h
    next hne =>
    split at h
    · cases h
    next merged hmerge =>
    cases h
    obtain ⟨x, rest, rfl⟩ := List.exists_cons_of_ne_nil (by simpa using hne)
    rw [List.foldlM_cons] at hmerge
    simp only [bind, Except.bind] at hmerge
    split at hmerge
    · cases hmerge
    next first hfirst =>
    have hspec := mergeInto_spec hfirst
    have hnil : merged ≠ [] := foldlM_invariant (fun m => m ≠ []) (fun _ _ _ _ h =>
      (mergeInto_spec h).1) hspec.1 hmerge
    have hnd : (merged.map (·.resource)).Nodup := foldlM_invariant
      (fun m : List Line => (m.map (·.resource)).Nodup) (fun _ _ _ hm h => (mergeInto_spec h).2 hm)
      (hspec.2 (by simp)) hmerge
    refine ⟨fun h => hnil (List.eq_nil_of_length_eq_zero (by
      simpa [List.length_mergeSort] using congrArg List.length h)), ?_⟩
    exact ((List.mergeSort_perm merged _).map _).nodup_iff.mpr hnd

end Kind

namespace Reservation

open Store

/-! ## Running a transaction forward -/

namespace Tx

variable {α β : Type} {s s' : Store} {p p' : Progress}

theorem bind_of_ok {x : Tx α} {k : α → Tx β} {σ σ₁ : Store × Progress} {a : α}
    (h : x σ = .ok a σ₁) : (x >>= k) σ = k a σ₁ := by
  change EStateM.bind x k σ = _
  simp [EStateM.bind, h]

theorem bind_of_error {x : Tx α} {k : α → Tx β} {σ σ₁ : Store × Progress} {e : Failure}
    (h : x σ = .error e σ₁) : (x >>= k) σ = .error e σ₁ := by
  change EStateM.bind x k σ = _
  simp [EStateM.bind, h]

@[simp] theorem setOutcome_run (o : Option Outcome) :
    Tx.setOutcome o (s, p) = .ok () (s, { p with outcome := o }) := rfl

@[simp] theorem setLines_run (ls : List Line) :
    Tx.setLines ls (s, p) = .ok () (s, { p with lines := ls }) := rfl

theorem modify_run (f : Store × Progress → Store × Progress) (σ : Store × Progress) :
    (modify f : Tx Unit) σ = .ok () (f σ) := rfl

theorem get_run (σ : Store × Progress) : (get : Tx (Store × Progress)) σ = .ok σ σ := rfl

@[simp] theorem reading_run : Tx.reading (s, p) = .ok s (s, p) := rfl

theorem run_of_ok {body : Tx Unit} (h : body (s, p) = .ok () (s', p')) :
    Tx.run body s p = (none, p', s') := by
  simp [Tx.run, h]

theorem run_of_error {body : Tx Unit} {e : Failure} (h : body (s, p) = .error e (s', p')) :
    Tx.run body s p = (some e, p', s) := by
  simp [Tx.run, h]

theorem ok_of_run {body : Tx Unit} (h : Tx.run body s p = (none, p', s')) :
    body (s, p) = .ok () (s', p') := by
  unfold Tx.run at h
  split at h
  next h' =>
    cases h
    exact h'
  · cases h

end Tx

/-! ## The rows of a resource -/

def opening (res : UInt64) (e : LedgerEntry) : Bool :=
  e.resource == res && !e.type.isFinalization

def closing (res : UInt64) (e : LedgerEntry) : Bool :=
  e.resource == res && e.type.isFinalization

theorem rowsOf_eq (entries : List LedgerEntry) (res : UInt64) :
    rowsOf entries res =
      ⟨(entries.filter (opening res)).getLast?, (entries.filter (closing res)).getLast?⟩ := by
  induction entries using List.reverseRecOn with
  | nil => rfl
  | append_singleton xs x ih =>
    have hstep : rowsOf (xs ++ [x]) res =
        if x.resource != res then rowsOf xs res
        else if x.type.isFinalization then { rowsOf xs res with final := some x }
        else { rowsOf xs res with reserve := some x } := by
      simp only [rowsOf, List.foldl_append, List.foldl_cons, List.foldl_nil]
    rw [hstep, ih]
    by_cases hres : x.resource = res <;> cases hfin : x.type.isFinalization <;>
      simp [opening, closing, hres, hfin, List.filter_append]

theorem rowsOf_append (xs ys : List LedgerEntry) (res : UInt64) :
    rowsOf (xs ++ ys) res = ⟨(rowsOf ys res).reserve.or (rowsOf xs res).reserve,
      (rowsOf ys res).final.or (rowsOf xs res).final⟩ := by
  simp only [rowsOf_eq, List.filter_append, List.getLast?_append]

theorem reserve_eq_some {entries : List LedgerEntry} {res : UInt64} {r : LedgerEntry}
    (h : (rowsOf entries res).reserve = some r) :
    r ∈ entries ∧ r.resource = res ∧ r.type.isFinalization = false := by
  rw [rowsOf_eq] at h
  simpa [opening] using List.mem_of_getLast? h

theorem final_eq_some {entries : List LedgerEntry} {res : UInt64} {f : LedgerEntry}
    (h : (rowsOf entries res).final = some f) :
    f ∈ entries ∧ f.resource = res ∧ f.type.isFinalization = true := by
  rw [rowsOf_eq] at h
  simpa [closing] using List.mem_of_getLast? h

theorem final_eq_none {entries : List LedgerEntry} {res : UInt64} :
    (rowsOf entries res).final = none ↔ ∀ e ∈ entries, closing res e = false := by
  simp [rowsOf_eq]

theorem reserve_eq_none {entries : List LedgerEntry} {res : UInt64} :
    (rowsOf entries res).reserve = none ↔ ∀ e ∈ entries, opening res e = false := by
  simp [rowsOf_eq]

/-! ## Checking lines -/

def answered (entries : List LedgerEntry) (ls : List Line) : List Line :=
  ls.filterMap fun l => (rowsOf entries l.resource).reserve.map LedgerEntry.line

/-- Every line of `ls` has an opening row among `entries`, closed by a row of type `t`. -/
def Settled (entries : List LedgerEntry) (t : EntryType) (ls : List Line) : Prop :=
  ∀ l ∈ ls, (rowsOf entries l.resource).reserve ≠ none ∧
    ∃ f, (rowsOf entries l.resource).final = some f ∧ f.type = t

namespace Service

variable {req : Request} {target : EntryType} {entries : List LedgerEntry}

theorem checkLines_spec : ∀ {ls : List Line} {acc pending : List LedgerEntry} {s s' : Store}
    {p p' : Progress}, checkLines req target entries ls acc (s, p) = .ok pending (s', p') →
    s' = s ∧ p' = { p with lines := p.lines ++ answered entries ls } ∧ (∀ r ∈ acc, r ∈ pending) ∧
    ∀ l ∈ ls, (rowsOf entries l.resource).reserve ≠ none ∧
      ((∃ r ∈ pending, r.resource = l.resource) ∨
        ∃ f, (rowsOf entries l.resource).final = some f ∧ f.type = target) := by
  intro ls
  induction ls with
  | nil =>
    intro acc pending s s' p p' h
    cases h
    simp [answered]
  | cons l rest ih =>
    intro acc pending s s' p p' h
    simp only [checkLines] at h
    cases hres : (rowsOf entries l.resource).reserve with
    | none =>
      simp only [hres] at h
      cases h
    | some r =>
      simp only [hres] at h
      obtain ⟨_, ⟨s₁, p₁⟩, h₁, h⟩ := bind_ok h
      cases h₁
      have hr := reserve_eq_some hres
      cases hfin : (rowsOf entries l.resource).final with
      | none =>
        simp only [hfin] at h
        obtain ⟨rfl, rfl, hacc, hrest⟩ := ih h
        refine ⟨rfl, by simp [answered, hres], fun x hx => hacc x (by simp [hx]),
          fun x hx => ?_⟩
        rcases List.mem_cons.mp hx with rfl | hx
        · exact ⟨by simp [hres], .inl ⟨r, hacc r (by simp), hr.2.1⟩⟩
        · exact hrest x hx
      | some f =>
        simp only [hfin] at h
        by_cases hc : (f.type != target) = true
        · rw [if_pos hc] at h
          obtain ⟨_, _, -, h⟩ := bind_ok h
          cases h
        · rw [if_neg hc] at h
          have hft : f.type = target := by simpa using hc
          obtain ⟨rfl, rfl, hacc, hrest⟩ := ih h
          refine ⟨rfl, by simp [answered, hres], hacc, fun x hx => ?_⟩
          rcases List.mem_cons.mp hx with rfl | hx
          · exact ⟨by simp [hres], .inr ⟨f, hfin, hft⟩⟩
          · exact hrest x hx

theorem checkLines_settled : ∀ {ls : List Line} {acc : List LedgerEntry} {s : Store}
    {p : Progress}, Settled entries target ls →
    checkLines req target entries ls acc (s, p) =
      .ok acc (s, { p with lines := p.lines ++ answered entries ls }) := by
  intro ls
  induction ls with
  | nil =>
    intro acc s p _
    simp [checkLines, answered]
    rfl
  | cons l rest ih =>
    intro acc s p hs
    obtain ⟨hr, f, hf, hft⟩ := hs l List.mem_cons_self
    obtain ⟨r, hr⟩ := Option.ne_none_iff_exists'.mp hr
    have hrest := @ih acc s { p with lines := p.lines ++ [r.line] }
      fun x hx => hs x (List.mem_cons_of_mem l hx)
    simp only [checkLines, hr, hf, hft, bne_self_eq_false, Bool.false_eq_true, if_false]
    rw [Tx.bind_of_ok (Tx.modify_run _ _), hrest]
    simp [answered, hr]

theorem checkLines_conflict (req : Request) {t : EntryType} (hne : t ≠ target) {l : Line}
    {rest : List Line} (acc : List LedgerEntry) (s : Store) (p : Progress)
    (hs : Settled entries t (l :: rest)) :
    ∃ e p', checkLines req target entries (l :: rest) acc (s, p) = .error e (s, p') ∧
      e.conditions = [.invalidReservationState] ∧ p'.outcome = some (alreadyOutcome t) := by
  obtain ⟨hr, f, hf, hft⟩ := hs l List.mem_cons_self
  obtain ⟨r, hr⟩ := Option.ne_none_iff_exists'.mp hr
  have hc : (f.type != target) = true := by simpa [hft] using hne
  simp only [checkLines, hr, hf, hc, if_true]
  rw [Tx.bind_of_ok (Tx.modify_run _ _)]
  exact ⟨_, _, rfl, rfl, by simp [hft]⟩

/-! ## Ending an operation -/

variable {svc : Service} {op : Operation} {announce : Option Announcer} {now : Instant}
  {s s' : Store} {p p' : Progress}

theorem finish_none (res : Option Result) :
    svc.finish op req res none announce now s = ((res, none), s) := rfl

theorem finish_result (res : Option Result) (err : Option Failure) :
    (svc.finish op req res err announce now s).1.1 = res := by
  unfold finish
  split
  · split <;> rfl
  · rfl

theorem finish_error (svc : Service) (op : Operation) (req : Request) (res : Option Result)
    (e : Failure) (announce : Option Announcer) (now : Instant) (s : Store) :
    ∃ e', (svc.finish op req res (some e) announce now s).1.2 = some e' ∧
      (e' = e ∨ announce ≠ none ∧ e'.conditions = [.announceFailed]) := by
  cases announce with
  | none => exact ⟨e, rfl, .inl rfl⟩
  | some a =>
    unfold finish
    dsimp only
    split
    · exact ⟨e, rfl, .inl rfl⟩
    · exact ⟨_, rfl, .inr ⟨by simp, rfl⟩⟩

theorem announceInTx_cases (svc : Service) (announce : Option Announcer) (req : Request)
    (now : Instant) (s : Store) (p : Progress) :
    (∃ s', svc.announceInTx announce req now (s, p) = .ok () (s', p) ∧
      s'.holdings = s.holdings) ∨
    ∃ e s', svc.announceInTx announce req now (s, p) = .error e (s', p) := by
  unfold announceInTx
  cases announce with
  | none => exact .inl ⟨s, rfl, rfl⟩
  | some a =>
    dsimp only
    rw [Tx.bind_of_ok (Tx.get_run _)]
    rcases a req (svc.result req p) none now with f | _ | e
    · exact .inr ⟨_, _, rfl⟩
    · exact .inl ⟨s, rfl, rfl⟩
    ·
      dsimp only [Tx.store]
      split
      next h => exact .inl ⟨_, rfl, writeEnvelope_keeps_holdings _ _ _ _ _ _ h⟩
      next => exact .inr ⟨_, _, rfl⟩

theorem announceInTx_ok (h : svc.announceInTx announce req now (s, p) = .ok () (s', p')) :
    p' = p ∧ s'.holdings = s.holdings := by
  rcases announceInTx_cases svc announce req now s p with ⟨s₁, h₁, hhold⟩ | ⟨e, s₁, h₁⟩
  · rw [h₁] at h
    cases h
    exact ⟨rfl, hhold⟩
  · rw [h₁] at h
    cases h

/-! ## Loops that write rows -/

theorem append_round {kind c : String} {entry : LedgerEntry} {a : ForInStep PUnit}
    (h : (Tx.store (withContext c (appendLedger kind entry)) >>= fun _ =>
      pure (ForInStep.yield ⟨⟩)) (s, p) = .ok a (s', p')) :
    a = .yield ⟨⟩ ∧ p' = p ∧ ∃ id, s'.ledgers kind = s.ledgers kind ++ [{ entry with id }] := by
  obtain ⟨id, ⟨s₁, p₁⟩, h₁, hk₁⟩ := bind_ok h
  cases hk₁
  obtain ⟨hw, rfl⟩ := Tx.store_ok h₁
  exact ⟨rfl, rfl, id, (appendLedger_ok (withContext_ok hw)).2.1⟩

theorem forIn_appends {β γ : Type} {xs : List β} {body : β → PUnit → Tx (ForInStep PUnit)}
    (kind : String) (P : LedgerEntry → Prop) (key : LedgerEntry → γ) (keyOf : β → γ)
    (hb : ∀ x ∈ xs, ∀ b s p a s' p', body x b (s, p) = .ok a (s', p') →
      a = .yield ⟨⟩ ∧ p' = p ∧ ∃ f, P f ∧ key f = keyOf x ∧
        s'.ledgers kind = s.ledgers kind ++ [f]) :
    ∀ {b : PUnit} {s p a s' p'}, forIn xs b body (s, p) = .ok a (s', p') →
      p' = p ∧ ∃ more, (∀ f ∈ more, P f) ∧ more.map key = xs.map keyOf ∧
        s'.ledgers kind = s.ledgers kind ++ more := by
  induction xs with
  | nil =>
    intro b s p a s' p' h
    rw [List.forIn_nil] at h
    cases h
    exact ⟨rfl, [], by simp, rfl, by simp⟩
  | cons x xs ih =>
    intro b s p a s' p' h
    rw [List.forIn_cons] at h
    obtain ⟨r, ⟨s₁, p₁⟩, h₁, h₂⟩ := bind_ok h
    obtain ⟨rfl, rfl, f, hf, hkey, hs₁⟩ := hb x List.mem_cons_self b s p r s₁ p₁ h₁
    obtain ⟨rfl, more, hmore, hkeys, hs'⟩ :=
      ih (fun y hy => hb y (List.mem_cons_of_mem x hy)) h₂
    refine ⟨rfl, f :: more, fun y hy => ?_, by simp [hkey, hkeys], by simp [hs', hs₁]⟩
    rcases List.mem_cons.mp hy with rfl | hy
    · exact hf
    · exact hmore y hy

def closingType (op : Operation) : EntryType := if op == .confirm then .confirm else .cancel

theorem closingType_isFinalization (op : Operation) : (closingType op).isFinalization = true := by
  unfold closingType
  split <;> rfl

theorem findByOrder_append {kind : String} {more : List LedgerEntry}
    (h : s'.ledgers kind = s.ledgers kind ++ more)
    (hmore : ∀ f ∈ more, f.orderId = req.orderId ∧ f.userId = req.userId) :
    s'.findByOrder kind req.orderId req.userId =
      s.findByOrder kind req.orderId req.userId ++ more := by
  have hkept : more.filter (fun e => e.orderId == req.orderId && e.userId == req.userId) = more :=
    List.filter_eq_self.mpr fun f hf => by simp [hmore f hf]
  unfold findByOrder
  rw [h, List.filter_append, hkept]

theorem ledgers_of_holdings (h : s'.holdings = s.holdings) : s'.ledgers = s.ledgers :=
  congrArg Prod.fst h

/-! ## A confirmation or cancellation that went through -/

theorem settled_append {entries more : List LedgerEntry} {t : EntryType}
    (hmore : ∀ f ∈ more, f.type = t) (ht : t.isFinalization = true) {ls : List Line}
    (hls : ∀ l ∈ ls, (rowsOf entries l.resource).reserve ≠ none ∧
      (l.resource ∈ more.map LedgerEntry.resource ∨
        ∃ f, (rowsOf entries l.resource).final = some f ∧ f.type = t)) :
    Settled (entries ++ more) t ls := by
  intro l hl
  obtain ⟨hr, hfin⟩ := hls l hl
  have hopen : (rowsOf more l.resource).reserve = none :=
    reserve_eq_none.mpr fun f hf => by simp [opening, hmore f hf, ht]
  rw [rowsOf_append]
  refine ⟨by simpa [hopen] using hr, ?_⟩
  cases hlast : (rowsOf more l.resource).final with
  | some f => exact ⟨f, by simp, hmore f (final_eq_some hlast).1⟩
  | none =>
    rcases hfin with hin | hfin
    · obtain ⟨f, hf, hres⟩ := List.mem_map.mp hin
      have := final_eq_none.mp hlast f hf
      simp [closing, hres, hmore f hf, ht] at this
    · simpa using hfin

theorem finalizeTx_ok {lines : List Line}
    (h : svc.finalizeTx op req lines announce now (s, p) = .ok () (s', p')) :
    p'.lines = answered (s.findByOrder svc.kind.name req.orderId req.userId) lines ∧
    p'.outcome ≠ none ∧
    ∃ more, s'.ledgers svc.kind.name = s.ledgers svc.kind.name ++ more ∧
      (∀ f ∈ more, f.orderId = req.orderId ∧ f.userId = req.userId ∧ f.type = closingType op) ∧
      Settled (s.findByOrder svc.kind.name req.orderId req.userId ++ more) (closingType op)
        lines := by
  unfold finalizeTx at h
  obtain ⟨_, ⟨s₁, p₁⟩, h₁, hk₁⟩ := bind_ok h
  cases h₁
  obtain ⟨st, ⟨s₂, p₂⟩, h₂, hk₂⟩ := bind_ok hk₁
  cases h₂
  obtain ⟨_, ⟨s₃, p₃⟩, h₃, hk₃⟩ := bind_ok hk₂
  cases h₃
  obtain ⟨pending, ⟨s₄, p₄⟩, h₄, hk₄⟩ := bind_ok hk₃
  obtain ⟨rfl, rfl, -, hlines⟩ := checkLines_spec h₄
  by_cases hnone : pending.isEmpty = true
  ·
    rw [if_pos hnone] at hk₄
    obtain ⟨_, ⟨s₅, p₅⟩, h₅, hk₅⟩ := bind_ok hk₄
    cases h₅
    have hempty : pending = [] := List.isEmpty_iff.mp hnone
    subst hempty
    obtain ⟨rfl, hhold⟩ := announceInTx_ok hk₅
    refine ⟨by simp, by simp, [], by simp [ledgers_of_holdings hhold], by simp, fun l hl => ?_⟩
    obtain ⟨hr, hfin⟩ := hlines l hl
    simpa using ⟨hr, hfin.resolve_left (by simp)⟩
  ·
    rw [if_neg hnone] at hk₄
    obtain ⟨_, ⟨s₅, p₅⟩, h₅, hk₅⟩ := bind_ok hk₄
    obtain ⟨rfl, more, hmore, hkeys, hledger⟩ := forIn_appends svc.kind.name
      (fun f => f.orderId = req.orderId ∧ f.userId = req.userId ∧ f.type = closingType op)
      LedgerEntry.resource LedgerEntry.resource (fun r _ b s p a s' p' h => by
        split at h
        next hop =>
          obtain ⟨_, ⟨s₁, p₁⟩, h₁, hk₁⟩ := bind_ok h
          obtain ⟨hc, rfl⟩ := Tx.store_ok h₁
          obtain ⟨rfl, rfl, id, hl⟩ := append_round hk₁
          refine ⟨rfl, rfl, _, ⟨?_, ?_, ?_⟩, ?_, by rw [hl, Kind.commit_ledgers hc]⟩ <;>
            simp [LedgerEntry.ofLine, LedgerEntry.line, closingType, hop]
        next hop =>
          obtain ⟨_, ⟨s₁, p₁⟩, h₁, hk₁⟩ := bind_ok h
          obtain ⟨hc, rfl⟩ := Tx.store_ok h₁
          obtain ⟨rfl, rfl, id, hl⟩ := append_round hk₁
          refine ⟨rfl, rfl, _, ⟨?_, ?_, ?_⟩, ?_, by rw [hl, Kind.release_ledgers hc]⟩ <;>
            simp [LedgerEntry.ofLine, LedgerEntry.line, closingType, hop]) h₅
    obtain ⟨_, ⟨s₆, p₆⟩, h₆, hk₆⟩ := bind_ok hk₅
    cases h₆
    obtain ⟨rfl, hhold⟩ := announceInTx_ok hk₆
    refine ⟨by simp, by simp, more, by rw [ledgers_of_holdings hhold, hledger], hmore,
      settled_append (fun f hf => (hmore f hf).2.2) (closingType_isFinalization op)
        fun l hl => ⟨(hlines l hl).1, (hlines l hl).2.imp_left fun hpending => ?_⟩⟩
    obtain ⟨r, hr, hres⟩ := hpending
    exact hkeys ▸ List.mem_map.mpr ⟨r, hr, hres⟩

theorem prepared_ok {α : Type} {x : Except Failure α} {a : α}
    (h : (do validate req; x) = .ok a) : validate req = .ok () ∧ x = .ok a := by
  cases hv : validate req with
  | error e =>
    rw [hv] at h
    cases h
  | ok u => exact ⟨rfl, by rw [hv] at h; exact h⟩

theorem run_of_finish {body : Tx Unit} {p₀ : Progress} {res : Option Result}
    (h : (match Tx.run body s p₀ with
      | (err, p, s₁) => svc.finish op req (svc.result req p) err announce now s₁) =
        ((res, none), s')) :
    ∃ p, body (s, p₀) = .ok () (s', p) ∧ res = svc.result req p := by
  rcases hrun : Tx.run body s p₀ with ⟨err, p, s₁⟩
  rw [hrun] at h
  dsimp only at h
  cases err with
  | none =>
    rw [finish_none] at h
    cases h
    exact ⟨p, Tx.ok_of_run hrun, rfl⟩
  | some e =>
    obtain ⟨e', he', -⟩ := finish_error svc op req (svc.result req p) e announce now s₁
    rw [h] at he'
    cases he'

theorem finalize_ok {res : Option Result}
    (h : svc.finalize op req announce now s = ((res, none), s')) :
    ∃ lines, validate req = .ok () ∧ svc.resolveLines s req = .ok lines ∧
      (∃ o, res = some ⟨svc.kind, req.sagaId, req.orderId, req.userId, o,
        answered (s.findByOrder svc.kind.name req.orderId req.userId) lines⟩) ∧
      ∃ more, s'.ledgers svc.kind.name = s.ledgers svc.kind.name ++ more ∧
        (∀ f ∈ more, f.orderId = req.orderId ∧ f.userId = req.userId ∧
          f.type = closingType op) ∧
        Settled (s.findByOrder svc.kind.name req.orderId req.userId ++ more) (closingType op)
          lines := by
  unfold finalize at h
  dsimp only at h
  split at h
  next e _ =>
    obtain ⟨e', he', -⟩ := finish_error svc op req none e announce now s
    rw [h] at he'
    cases he'
  next lines hprep =>
    obtain ⟨hv, hl⟩ := prepared_ok hprep
    obtain ⟨p, hbody, rfl⟩ := run_of_finish h
    obtain ⟨hlines, hout, more, hledger, hmore, hsettled⟩ := finalizeTx_ok hbody
    obtain ⟨o, ho⟩ := Option.ne_none_iff_exists'.mp hout
    exact ⟨lines, hv, hl, ⟨o, by simp [result, ho, hlines]⟩, more, hledger, hmore, hsettled⟩

/-! ## A confirmation or cancellation sent again -/

theorem closingType_fold :
    (if (op == Operation.confirm) = true then EntryType.confirm else EntryType.cancel) =
      closingType op := rfl

theorem run_announced {body : Tx Unit} {p₀ p₁ : Progress}
    (h : body (s, p₀) = svc.announceInTx announce req now (s, p₁)) :
    ∃ err s₁, Tx.run body s p₀ = (err, p₁, s₁) ∧ s₁.holdings = s.holdings := by
  rcases announceInTx_cases svc announce req now s p₁ with ⟨s₁, h₁, hhold⟩ | ⟨e, s₁, h₁⟩
  · exact ⟨none, s₁, Tx.run_of_ok (h.trans h₁), hhold⟩
  · exact ⟨some e, s, Tx.run_of_error (h.trans h₁), rfl⟩

theorem finalizeTx_settled {lines : List Line}
    (hs : Settled (s.findByOrder svc.kind.name req.orderId req.userId) (closingType op) lines) :
    svc.finalizeTx op req lines announce now (s, p) =
      svc.announceInTx announce req now (s,
        { outcome := some (alreadyOutcome (closingType op))
          lines := answered (s.findByOrder svc.kind.name req.orderId req.userId) lines }) := by
  unfold finalizeTx
  rw [closingType_fold, Tx.bind_of_ok (Tx.setOutcome_run _), Tx.bind_of_ok Tx.reading_run]
  dsimp only
  rw [Tx.bind_of_ok (Tx.setLines_run _), Tx.bind_of_ok (checkLines_settled hs)]
  simp only [List.isEmpty_nil, if_true, List.nil_append]
  rw [Tx.bind_of_ok (Tx.setOutcome_run _)]

theorem finalizeTx_conflict (announce : Option Announcer) (now : Instant) {lines : List Line}
    {t : EntryType} (ht : t ≠ closingType op) (hne : lines ≠ [])
    (hs : Settled (s.findByOrder svc.kind.name req.orderId req.userId) t lines) :
    ∃ e p', svc.finalizeTx op req lines announce now (s, p) = .error e (s, p') ∧
      e.conditions = [.invalidReservationState] := by
  obtain ⟨l, rest, rfl⟩ := List.exists_cons_of_ne_nil hne
  obtain ⟨e, p', hconf, he, -⟩ :=
    checkLines_conflict req ht [] s { p with outcome := none, lines := [] } hs
  unfold finalizeTx
  rw [closingType_fold, Tx.bind_of_ok (Tx.setOutcome_run _), Tx.bind_of_ok Tx.reading_run]
  dsimp only
  rw [Tx.bind_of_ok (Tx.setLines_run _), Tx.bind_of_error hconf]
  exact ⟨e, p', rfl, he⟩

theorem prepared_of {α : Type} {x : Except Failure α} {a : α} (hv : validate req = .ok ())
    (hx : x = .ok a) : (do validate req; x) = .ok a := by
  rw [hv]
  exact hx

theorem finalize_settled {lines : List Line} (hv : validate req = .ok ())
    (hl : svc.resolveLines s req = .ok lines)
    (hs : Settled (s.findByOrder svc.kind.name req.orderId req.userId) (closingType op) lines) :
    (svc.finalize op req announce now s).1.1 = some ⟨svc.kind, req.sagaId, req.orderId,
      req.userId, alreadyOutcome (closingType op),
      answered (s.findByOrder svc.kind.name req.orderId req.userId) lines⟩ ∧
    (svc.finalize op req announce now s).2.holdings = s.holdings := by
  obtain ⟨err, s₁, hrun, hhold⟩ := run_announced (finalizeTx_settled (p := { lines }) hs)
  unfold finalize
  dsimp only
  rw [prepared_of hv hl]
  dsimp only
  rw [hrun]
  dsimp only
  exact ⟨finish_result .., (finish_holdings ..).trans hhold⟩

theorem finalize_conflict {lines : List Line} {t : EntryType} (hv : validate req = .ok ())
    (hl : svc.resolveLines s req = .ok lines) (hne : lines ≠ []) (ht : t ≠ closingType op)
    (hs : Settled (s.findByOrder svc.kind.name req.orderId req.userId) t lines) :
    ∃ e, (svc.finalize op req announce now s).1.2 = some e ∧
      (e.conditions = [.invalidReservationState] ∨
        announce ≠ none ∧ e.conditions = [.announceFailed]) ∧
      (svc.finalize op req announce now s).2.holdings = s.holdings := by
  obtain ⟨e, p', hconf, he⟩ := finalizeTx_conflict (p := { lines }) announce now ht hne hs
  unfold finalize
  dsimp only
  rw [prepared_of hv hl]
  dsimp only
  rw [Tx.run_of_error hconf]
  dsimp only
  obtain ⟨e', he', hreport⟩ := finish_error svc op req (svc.result req p') e announce now s
  exact ⟨e', he', hreport.imp_left (by rintro rfl; exact he), finish_holdings ..⟩

/-! ## The lines a confirmation or cancellation addresses -/

theorem resolveLines_ne_nil {lines : List Line} (h : svc.resolveLines s req = .ok lines) :
    lines ≠ [] := by
  unfold resolveLines at h
  split at h
  · exact (Kind.normalize_spec h).1
  · dsimp only at h
    split at h
    · cases h
    next hrows =>
    cases h
    intro hnil
    have := congrArg List.length hnil
    simp only [List.length_mergeSort, List.length_map, List.length_nil] at this
    simp [List.eq_nil_of_length_eq_zero this] at hrows

theorem resolveLines_append {more : List LedgerEntry}
    (h : s'.ledgers svc.kind.name = s.ledgers svc.kind.name ++ more)
    (hmore : ∀ f ∈ more, f.orderId = req.orderId ∧ f.userId = req.userId ∧
      f.type.isFinalization = true) :
    svc.resolveLines s' req = svc.resolveLines s req := by
  have hclosing : more.filter (fun e => e.type == .reserve) = [] :=
    List.filter_eq_nil_iff.mpr fun f hf => by
      have hfin := (hmore f hf).2.2
      intro hres
      rw [beq_iff_eq.mp hres] at hfin
      cases hfin
  unfold resolveLines
  rw [findByOrder_append h fun f hf => ⟨(hmore f hf).1, (hmore f hf).2.1⟩, List.filter_append,
    hclosing, List.append_nil]

end Service

/-! ## Reserving for an order that has rows -/

theorem eraseDups_of_nodup {α : Type} [BEq α] [LawfulBEq α] :
    ∀ {l : List α}, l.Nodup → l.eraseDups = l
  | [], _ => rfl
  | a :: as, h => by
    have hfresh : as.filter (fun b => !b == a) = as :=
      List.filter_eq_self.mpr fun b hb => by
        have hne : b ≠ a := fun hba => (List.nodup_cons.mp h).1 (hba ▸ hb)
        simpa using hne
    rw [List.eraseDups_cons, hfresh, eraseDups_of_nodup (List.nodup_cons.mp h).2]

theorem replayReserve_of_ok {entries : List LedgerEntry} {lines : List Line} {o : Option Outcome}
    (h : replayReserve entries lines = (o, none)) : o = some .alreadyReserved := by
  unfold replayReserve at h
  dsimp only at h
  split at h
  · cases h
  · split at h
    · cases h
    · split at h
      · cases h
        rfl
      · cases h

theorem replayReserve_of_closed {entries : List LedgerEntry} {lines : List Line}
    {e : LedgerEntry} (he : e ∈ entries) (hfin : e.type.isFinalization = true) :
    ∃ f : LedgerEntry, replayReserve entries lines = (some (alreadyOutcome f.type),
      some (Condition.fail .invalidReservationState ("reservation already " ++ f.type.name))) := by
  unfold replayReserve
  dsimp only
  cases hfs : (resourcesOf entries).findSome? (fun r => (rowsOf entries r).final) with
  | some f => exact ⟨f, rfl⟩
  | none =>
    have hres : e.resource ∈ resourcesOf entries := by
      simpa [resourcesOf, List.mem_eraseDups] using ⟨e, he, rfl⟩
    have := final_eq_none.mp (List.findSome?_eq_none_iff.mp hfs _ hres) e he
    simp [closing, hfin] at this

theorem reserve_of_unique {entries : List LedgerEntry} (hent : (entries.map (·.resource)).Nodup)
    {e : LedgerEntry} (he : e ∈ entries) (hfin : e.type.isFinalization = false) :
    (rowsOf entries e.resource).reserve = some e := by
  have hmem : e ∈ entries.filter (opening e.resource) :=
    List.mem_filter.mpr ⟨he, by simp [opening, hfin]⟩
  rw [rowsOf_eq]
  dsimp only
  obtain ⟨x, hx⟩ : ∃ x, (entries.filter (opening e.resource)).getLast? = some x :=
    Option.ne_none_iff_exists'.mp fun h => by simp [List.getLast?_eq_none_iff.mp h] at hmem
  obtain ⟨hxe, hxo⟩ := List.mem_filter.mp (List.mem_of_getLast? hx)
  have hxres : x.resource = e.resource := by
    simp only [opening, Bool.and_eq_true, beq_iff_eq] at hxo
    exact hxo.1
  rw [hx, List.inj_on_of_nodup_map hent hxe he hxres]

theorem line_answered_iff {entries : List LedgerEntry}
    (hopen : ∀ e ∈ entries, e.type.isFinalization = false)
    (hent : (entries.map (·.resource)).Nodup) (l : Line) :
    (match (rowsOf entries l.resource).reserve with
      | some e => e.amount == l.amount
      | none => false) = true ↔ l ∈ entries.map LedgerEntry.line := by
  constructor
  · intro h
    cases hr : (rowsOf entries l.resource).reserve with
    | none => simp [hr] at h
    | some e =>
      simp only [hr, beq_iff_eq] at h
      obtain ⟨he, hres, -⟩ := reserve_eq_some hr
      exact List.mem_map.mpr ⟨e, he, by simp [LedgerEntry.line, hres, h]⟩
  · intro h
    obtain ⟨e, he, rfl⟩ := List.mem_map.mp h
    simp [LedgerEntry.line, reserve_of_unique hent he (hopen e he)]

theorem replayReserve_open {entries : List LedgerEntry} {lines : List Line}
    (hopen : ∀ e ∈ entries, e.type.isFinalization = false)
    (hent : (entries.map (·.resource)).Nodup) (hlines : (lines.map (·.resource)).Nodup) :
    replayReserve entries lines =
      if (entries.map LedgerEntry.line).Perm lines then (some .alreadyReserved, none)
      else (none, some (Condition.fail .invalidReservationState
        "already reserved with different lines")) := by
  have hnone : (resourcesOf entries).findSome? (fun r => (rowsOf entries r).final) = none :=
    List.findSome?_eq_none_iff.mpr fun r _ =>
      final_eq_none.mpr fun e he => by simp [closing, hopen e he]
  have hres : resourcesOf entries = entries.map (·.resource) := eraseDups_of_nodup hent
  have hline := line_answered_iff hopen hent
  have hcheck : (entries.map (·.resource)).length = lines.length ∧
      (∀ l ∈ lines, l ∈ entries.map LedgerEntry.line) ↔
      (entries.map LedgerEntry.line).Perm lines := by
    constructor
    · rintro ⟨hlen, hsub⟩
      refine ((List.Nodup.of_map _ hlines).subperm hsub).perm_of_length_le ?_ |>.symm
      simpa using hlen.le
    · intro hp
      exact ⟨by simpa using hp.length_eq, fun l hl => hp.mem_iff.mpr hl⟩
  unfold replayReserve
  dsimp only
  rw [hnone, hres]
  dsimp only
  by_cases hp : (entries.map LedgerEntry.line).Perm lines
  · obtain ⟨hlen, hall⟩ := hcheck.mpr hp
    rw [if_pos hp]
    split_ifs with hlen' hall'
    · simp [hlen] at hlen'
    · rfl
    · exact absurd (List.all_eq_true.mpr fun l hl => (hline l).mpr (hall l hl)) hall'
  · rw [if_neg hp]
    split_ifs with hlen hall
    · rfl
    · exact absurd (hcheck.mp ⟨by simpa using hlen,
        fun l hl => (hline l).mp (List.all_eq_true.mp hall l hl)⟩) hp
    · rfl

namespace Service

variable {svc : Service} {req : Request} {announce : Option Announcer} {now : Instant}
  {s s' : Store} {p p' : Progress}

theorem reserveTx_ok {lines : List Line}
    (h : svc.reserveTx req lines announce now (s, p) = .ok () (s', p')) :
    p'.lines = p.lines ∧
    (s.findByOrder svc.kind.name req.orderId req.userId ≠ [] ∧
        replayReserve (s.findByOrder svc.kind.name req.orderId req.userId) lines =
          (some .alreadyReserved, none) ∧
        s'.ledgers = s.ledgers ∧ p'.outcome = some .alreadyReserved ∨
      s.findByOrder svc.kind.name req.orderId req.userId = [] ∧
        ∃ more, more.map LedgerEntry.line = lines ∧
          (∀ f ∈ more, f.orderId = req.orderId ∧ f.userId = req.userId ∧ f.type = .reserve) ∧
          s'.ledgers svc.kind.name = s.ledgers svc.kind.name ++ more ∧
          p'.outcome = some .reserved) := by
  unfold reserveTx at h
  obtain ⟨_, ⟨s₁, p₁⟩, h₁, hk₁⟩ := bind_ok h
  cases h₁
  obtain ⟨st, ⟨s₂, p₂⟩, h₂, hk₂⟩ := bind_ok hk₁
  cases h₂
  dsimp only at hk₂
  split at hk₂
  next hne =>
    rcases hr : replayReserve (s.findByOrder svc.kind.name req.orderId req.userId) lines with
      ⟨o, err⟩
    rw [hr] at hk₂
    dsimp only at hk₂
    obtain ⟨_, ⟨s₃, p₃⟩, h₃, hk₃⟩ := bind_ok hk₂
    cases h₃
    cases err with
    | some e => cases hk₃
    | none =>
      obtain ⟨rfl, hhold⟩ := announceInTx_ok hk₃
      have ho := replayReserve_of_ok hr
      subst ho
      exact ⟨rfl, .inl ⟨by simpa using hne, rfl, ledgers_of_holdings hhold, rfl⟩⟩
  next hne =>
    obtain ⟨_, ⟨s₃, p₃⟩, h₃, hk₃⟩ := bind_ok hk₂
    obtain ⟨rfl, more, hmore, hkeys, hledger⟩ := forIn_appends svc.kind.name
      (fun f => f.orderId = req.orderId ∧ f.userId = req.userId ∧ f.type = .reserve)
      LedgerEntry.line id (fun l _ b s p a s' p' h => by
        obtain ⟨_, ⟨s₁, p₁⟩, h₁, hk₁⟩ := bind_ok h
        obtain ⟨hc, rfl⟩ := Tx.store_ok h₁
        obtain ⟨rfl, rfl, id, hl⟩ := append_round hk₁
        refine ⟨rfl, rfl, _, ⟨?_, ?_, ?_⟩, ?_, by rw [hl, Kind.hold_ledgers hc]⟩ <;>
          simp [LedgerEntry.ofLine, LedgerEntry.line]) h₃
    obtain ⟨_, ⟨s₄, p₄⟩, h₄, hk₄⟩ := bind_ok hk₃
    cases h₄
    obtain ⟨rfl, hhold⟩ := announceInTx_ok hk₄
    exact ⟨rfl, .inr ⟨by simpa using hne, more, by simpa using hkeys, hmore,
      by rw [ledgers_of_holdings hhold, hledger], rfl⟩⟩

theorem findByOrder_of_ledgers (h : s'.ledgers = s.ledgers) (kind : String) (o u : UInt64) :
    s'.findByOrder kind o u = s.findByOrder kind o u := by
  simp [findByOrder, h]

theorem reserve_ok {res : Option Result}
    (h : svc.reserve req announce now s = ((res, none), s')) :
    ∃ lines, validate req = .ok () ∧ svc.kind.normalize req.lines = .ok lines ∧
      (∃ o, (o = .reserved ∨ o = .alreadyReserved) ∧
        res = some ⟨svc.kind, req.sagaId, req.orderId, req.userId, o, lines⟩) ∧
      s'.findByOrder svc.kind.name req.orderId req.userId ≠ [] ∧
      replayReserve (s'.findByOrder svc.kind.name req.orderId req.userId) lines =
        (some .alreadyReserved, none) := by
  unfold reserve at h
  dsimp only at h
  split at h
  next e _ =>
    obtain ⟨e', he', -⟩ := finish_error svc .reserve req none e announce now s
    rw [h] at he'
    cases he'
  next lines hprep =>
    obtain ⟨hv, hn⟩ := prepared_ok hprep
    obtain ⟨p, hbody, rfl⟩ := run_of_finish h
    obtain ⟨hlines, hcases⟩ := reserveTx_ok hbody
    refine ⟨lines, hv, hn, ?_⟩
    rcases hcases with ⟨hne, hr, hledgers, hout⟩ | ⟨hnil, more, hmap, hmore, hledger, hout⟩
    · rw [findByOrder_of_ledgers hledgers]
      exact ⟨⟨.alreadyReserved, .inr rfl, by simp [result, hout, hlines]⟩, hne, hr⟩
    ·
      rw [findByOrder_append hledger fun f hf => ⟨(hmore f hf).1, (hmore f hf).2.1⟩, hnil,
        List.nil_append]
      have hspec := Kind.normalize_spec hn
      have hres : more.map (·.resource) = lines.map (·.resource) := by
        rw [← hmap, List.map_map]
        rfl
      refine ⟨⟨.reserved, .inl rfl, by simp [result, hout, hlines]⟩,
        fun hm => hspec.1 (by simpa [hm] using hmap.symm), ?_⟩
      rw [replayReserve_open (fun f hf => by rw [(hmore f hf).2.2]; rfl) (hres ▸ hspec.2) hspec.2,
        if_pos (hmap ▸ List.Perm.refl _)]

theorem reserveTx_replay (announce : Option Announcer) (now : Instant) (lines : List Line)
    (p : Progress) (hne : s.findByOrder svc.kind.name req.orderId req.userId ≠ []) :
    svc.reserveTx req lines announce now (s, p) =
      (match (replayReserve (s.findByOrder svc.kind.name req.orderId req.userId) lines).2 with
        | some e => throw (e.wrap ("order " ++ toString req.orderId.toNat))
        | none => svc.announceInTx announce req now)
      (s, { p with outcome :=
        (replayReserve (s.findByOrder svc.kind.name req.orderId req.userId) lines).1 }) := by
  unfold reserveTx
  rw [Tx.bind_of_ok (Tx.setOutcome_run _), Tx.bind_of_ok Tx.reading_run]
  dsimp only
  rw [if_pos (by simpa using hne)]
  exact Tx.bind_of_ok (Tx.setOutcome_run _)

theorem reserve_replayed {lines : List Line} (hv : validate req = .ok ())
    (hn : svc.kind.normalize req.lines = .ok lines)
    (hne : s.findByOrder svc.kind.name req.orderId req.userId ≠ [])
    (hr : replayReserve (s.findByOrder svc.kind.name req.orderId req.userId) lines =
      (some .alreadyReserved, none)) :
    (svc.reserve req announce now s).1.1 =
      some ⟨svc.kind, req.sagaId, req.orderId, req.userId, .alreadyReserved, lines⟩ ∧
    (svc.reserve req announce now s).2.holdings = s.holdings := by
  have hbody := reserveTx_replay announce now lines { lines } hne
  rw [hr] at hbody
  obtain ⟨err, s₁, hrun, hhold⟩ := run_announced hbody
  unfold reserve
  dsimp only
  rw [prepared_of hv hn]
  dsimp only
  rw [hrun]
  dsimp only
  exact ⟨finish_result .., (finish_holdings ..).trans hhold⟩

theorem reserve_conflict {lines : List Line} {o : Option Outcome} {e : Failure}
    (hv : validate req = .ok ()) (hn : svc.kind.normalize req.lines = .ok lines)
    (hne : s.findByOrder svc.kind.name req.orderId req.userId ≠ [])
    (hr : replayReserve (s.findByOrder svc.kind.name req.orderId req.userId) lines = (o, some e)) :
    ∃ e', (svc.reserve req announce now s).1.2 = some e' ∧
      (e'.conditions = e.conditions ∨ announce ≠ none ∧ e'.conditions = [.announceFailed]) ∧
      (svc.reserve req announce now s).2.holdings = s.holdings := by
  have hbody := reserveTx_replay announce now lines { lines } hne
  rw [hr] at hbody
  unfold reserve
  dsimp only
  rw [prepared_of hv hn]
  dsimp only
  rw [Tx.run_of_error hbody]
  dsimp only
  obtain ⟨e', he', hreport⟩ :=
    finish_error svc .reserve req (svc.result req { lines, outcome := o }) _ announce now s
  exact ⟨e', he', hreport.imp_left (by rintro rfl; rfl), finish_holdings ..⟩

/-! ## Requests sent again -/

theorem answered_append {entries more : List LedgerEntry}
    (hmore : ∀ f ∈ more, f.type.isFinalization = true) (ls : List Line) :
    answered (entries ++ more) ls = answered entries ls := by
  unfold answered
  congr 1
  funext l
  have hopen : (rowsOf more l.resource).reserve = none :=
    reserve_eq_none.mpr fun f hf => by simp [opening, hmore f hf]
  rw [rowsOf_append, hopen, Option.none_or]

theorem finalize_settles {op : Operation} {res : Option Result}
    (h : svc.finalize op req announce now s = ((res, none), s')) :
    ∃ lines, validate req = .ok () ∧ svc.resolveLines s' req = .ok lines ∧
      Settled (s'.findByOrder svc.kind.name req.orderId req.userId) (closingType op) lines ∧
      ∃ o, res = some ⟨svc.kind, req.sagaId, req.orderId, req.userId, o,
        answered (s'.findByOrder svc.kind.name req.orderId req.userId) lines⟩ := by
  obtain ⟨lines, hv, hl, ⟨o, rfl⟩, more, hledger, hmore, hsettled⟩ := finalize_ok h
  have hclosing : ∀ f ∈ more, f.type.isFinalization = true := fun f hf => by
    rw [(hmore f hf).2.2]
    exact closingType_isFinalization op
  have hrows := findByOrder_append hledger fun f hf => ⟨(hmore f hf).1, (hmore f hf).2.1⟩
  refine ⟨lines, hv, ?_, hrows ▸ hsettled, o, by rw [hrows, answered_append hclosing]⟩
  rw [resolveLines_append hledger fun f hf => ⟨(hmore f hf).1, (hmore f hf).2.1, hclosing f hf⟩]
  exact hl

theorem finalize_again {op : Operation} {res : Option Result} (announce' : Option Announcer)
    (now' : Instant) (h : svc.finalize op req announce now s = ((res, none), s')) :
    ∃ r, res = some r ∧
      (svc.finalize op req announce' now' s').1.1 =
        some { r with outcome := alreadyOutcome (closingType op) } ∧
      (svc.finalize op req announce' now' s').2.holdings = s'.holdings := by
  obtain ⟨lines, hv, hl, hs, o, rfl⟩ := finalize_settles h
  exact ⟨_, rfl, finalize_settled hv hl hs⟩

theorem finalize_after {op op' : Operation} {res : Option Result}
    (hop : closingType op ≠ closingType op') (announce' : Option Announcer) (now' : Instant)
    (h : svc.finalize op req announce now s = ((res, none), s')) :
    ∃ e, (svc.finalize op' req announce' now' s').1.2 = some e ∧
      (e.conditions = [.invalidReservationState] ∨
        announce' ≠ none ∧ e.conditions = [.announceFailed]) ∧
      (svc.finalize op' req announce' now' s').2.holdings = s'.holdings := by
  obtain ⟨lines, hv, hl, hs, -⟩ := finalize_settles h
  exact finalize_conflict hv hl (resolveLines_ne_nil hl) hop hs

theorem reserve_again {res : Option Result} (announce' : Option Announcer) (now' : Instant)
    (h : svc.reserve req announce now s = ((res, none), s')) :
    ∃ r, res = some r ∧ (r.outcome = .reserved ∨ r.outcome = .alreadyReserved) ∧
      (svc.reserve req announce' now' s').1.1 = some { r with outcome := .alreadyReserved } ∧
      (svc.reserve req announce' now' s').2.holdings = s'.holdings := by
  obtain ⟨lines, hv, hn, ⟨o, ho, rfl⟩, hne, hr⟩ := reserve_ok h
  exact ⟨_, rfl, ho, reserve_replayed hv hn hne hr⟩

theorem keyed_resources_nodup {rows : List LedgerEntry} (hk : Keyed rows) (o u : UInt64)
    (hopen : ∀ e ∈ rows.filter (fun e => e.orderId == o && e.userId == u), e.type = .reserve) :
    ((rows.filter fun e => e.orderId == o && e.userId == u).map (·.resource)).Nodup := by
  rw [List.Nodup, List.pairwise_map]
  refine (hk.unique.filter _).imp_of_mem fun {a b} ha hb hab hres => ?_
  have ha' := List.mem_filter.mp ha
  have hb' := List.mem_filter.mp hb
  simp only [Bool.and_eq_true, beq_iff_eq] at ha' hb'
  exact hab (LedgerEntry.sameKey_iff.mpr
      ⟨ha'.2.1.trans hb'.2.1.symm, ha'.2.2.trans hb'.2.2.symm, hres⟩)
    ((Keyed.stage_eq_one (hopen a ha)).trans (Keyed.stage_eq_one (hopen b hb)).symm)

theorem replayReserve_keyed {rows : List LedgerEntry} (hk : Keyed rows) {o u : UInt64}
    {lines : List Line} (hlines : (lines.map (·.resource)).Nodup)
    (hdiff : ¬ ((∀ e ∈ rows.filter (fun e => e.orderId == o && e.userId == u),
        e.type = .reserve) ∧
      ((rows.filter fun e => e.orderId == o && e.userId == u).map LedgerEntry.line).Perm lines)) :
    ∃ o' e, replayReserve (rows.filter fun e => e.orderId == o && e.userId == u) lines =
      (o', some e) ∧ e.conditions = [.invalidReservationState] := by
  by_cases hall : ∀ e ∈ rows.filter (fun e => e.orderId == o && e.userId == u), e.type = .reserve
  ·
    have hopen : ∀ e ∈ rows.filter (fun e => e.orderId == o && e.userId == u),
        e.type.isFinalization = false := fun e he => by rw [hall e he]; rfl
    rw [replayReserve_open hopen (keyed_resources_nodup hk o u hall) hlines,
      if_neg fun hp => hdiff ⟨hall, hp⟩]
    exact ⟨_, _, rfl, rfl⟩
  ·
    simp only [not_forall] at hall
    obtain ⟨e, he, hne⟩ := hall
    have hfin : e.type.isFinalization = true := by
      rcases hk.types e (List.mem_filter.mp he).1 with h | h | h
      · exact absurd h hne
      · rw [h]; rfl
      · rw [h]; rfl
    obtain ⟨f, hf⟩ := @replayReserve_of_closed _ lines _ he hfin
    exact ⟨_, _, hf, rfl⟩

theorem reserve_mismatch (hk : Keyed (s.ledgers svc.kind.name)) {lines : List Line}
    (hv : validate req = .ok ()) (hn : svc.kind.normalize req.lines = .ok lines)
    (hne : s.findByOrder svc.kind.name req.orderId req.userId ≠ [])
    (hdiff : ¬ ((∀ e ∈ s.findByOrder svc.kind.name req.orderId req.userId, e.type = .reserve) ∧
      ((s.findByOrder svc.kind.name req.orderId req.userId).map LedgerEntry.line).Perm lines)) :
    ∃ e, (svc.reserve req announce now s).1.2 = some e ∧
      (e.conditions = [.invalidReservationState] ∨
        announce ≠ none ∧ e.conditions = [.announceFailed]) ∧
      (svc.reserve req announce now s).2.holdings = s.holdings := by
  obtain ⟨o, e, hr, he⟩ := replayReserve_keyed hk (Kind.normalize_spec hn).2 hdiff
  obtain ⟨e', he', hreport, hhold⟩ := reserve_conflict hv hn hne hr
  exact ⟨e', he', hreport.imp_left (·.trans he), hhold⟩

end Service

end Reservation

/-! ## Requests answered again change nothing -/

open Reservation

/-- **Requests answered again change nothing.** -/
theorem replays_change_nothing {svc : Service} {s₀ s : Store} (h₀ : Stocked svc.kind s₀)
    (run : svc.Reaches s₀ s) (req : Request) (a a' : Option Announcer) (now now' : Instant) :
    (∀ op already, op = .confirm ∧ already = .alreadyConfirmed ∨
        op = .cancel ∧ already = .alreadyCanceled →
      ∀ res s', svc.apply op req a now s = ((res, none), s') →
        ∃ r, res = some r ∧
          (svc.apply op req a' now' s').1.1 = some { r with outcome := already } ∧
          (svc.apply op req a' now' s').2.holdings = s'.holdings) ∧
    (∀ res s', svc.apply .reserve req a now s = ((res, none), s') →
      ∃ r, res = some r ∧ (r.outcome = .reserved ∨ r.outcome = .alreadyReserved) ∧
        (svc.apply .reserve req a' now' s').1.1 = some { r with outcome := .alreadyReserved } ∧
        (svc.apply .reserve req a' now' s').2.holdings = s'.holdings) ∧
    (∀ op op', op = .confirm ∧ op' = .cancel ∨ op = .cancel ∧ op' = .confirm →
      ∀ res s', svc.apply op req a now s = ((res, none), s') →
        ∃ e, (svc.apply op' req a' now' s').1.2 = some e ∧
          (e.conditions = [.invalidReservationState] ∨
            a' ≠ none ∧ e.conditions = [.announceFailed]) ∧
          (svc.apply op' req a' now' s').2.holdings = s'.holdings) ∧
    (∀ lines, validate req = .ok () → svc.kind.normalize req.lines = .ok lines →
      s.findByOrder svc.kind.name req.orderId req.userId ≠ [] →
      ¬ ((∀ e ∈ s.findByOrder svc.kind.name req.orderId req.userId, e.type = .reserve) ∧
        ((s.findByOrder svc.kind.name req.orderId req.userId).map LedgerEntry.line).Perm lines) →
      ∃ e, (svc.apply .reserve req a now s).1.2 = some e ∧
        (e.conditions = [.invalidReservationState] ∨
          a ≠ none ∧ e.conditions = [.announceFailed]) ∧
        (svc.apply .reserve req a now s).2.holdings = s.holdings) := by
  have hk : Keyed (s.ledgers svc.kind.name) := ((Kept.init h₀).moves run.moves).keyed
  refine ⟨fun op already hop res s' h => ?_, fun res s' h => Service.reserve_again a' now' h,
    fun op op' hops res s' h => ?_,
    fun lines hv hn hne hdiff => Service.reserve_mismatch hk hv hn hne hdiff⟩
  · rcases hop with ⟨rfl, rfl⟩ | ⟨rfl, rfl⟩
    · exact Service.finalize_again a' now' h
    · exact Service.finalize_again a' now' h
  · rcases hops with ⟨rfl, rfl⟩ | ⟨rfl, rfl⟩
    · exact Service.finalize_after (by decide) a' now' h
    · exact Service.finalize_after (by decide) a' now' h

def stockService : Service := ⟨.stock, "stock"⟩

def fiveOfSeven : Store := { options := [{ id := 7, stock := 5 }] }

def threeOfSeven : Request := ⟨"saga", 1, 2, [⟨7, 3⟩]⟩

theorem fiveOfSeven_stocked : Stocked .stock fiveOfSeven :=
  ⟨rfl, by decide, by simp [fiveOfSeven], by simp [fiveOfSeven]⟩

/-- A reservation of three of five units goes through; sent again, it is answered as reserved
already and moves nothing. -/
theorem stock_reserve_sent_twice :
    ∃ (s s' : Store) (r : Result), Service.Reaches stockService fiveOfSeven s ∧
      stockService.apply .reserve threeOfSeven none Instant.zero s = ((some r, none), s') ∧
      (stockService.apply .reserve threeOfSeven none Instant.zero s').1.1 =
        some { r with outcome := .alreadyReserved } ∧
      (stockService.apply .reserve threeOfSeven none Instant.zero s').2.holdings = s'.holdings := by
  have hnone : (stockService.apply .reserve threeOfSeven none Instant.zero fiveOfSeven).1.2 =
      none := by decide +kernel
  have h : stockService.apply .reserve threeOfSeven none Instant.zero fiveOfSeven =
      (((stockService.apply .reserve threeOfSeven none Instant.zero fiveOfSeven).1.1, none),
        (stockService.apply .reserve threeOfSeven none Instant.zero fiveOfSeven).2) := by
    rw [← hnone]
  obtain ⟨r, hr, -, hagain, hhold⟩ := (replays_change_nothing fiveOfSeven_stocked .start
    threeOfSeven none none Instant.zero Instant.zero).2.1 _ _ h
  exact ⟨_, _, r, .start, hr ▸ h, hagain, hhold⟩

/-- A confirmation after a cancellation, announced with an event type the catalogue does not know,
fails with an announcement failure rather than the state conflict. -/
theorem unknown_type_announcer_hides_conflict :
    ∃ s s' : Store, Service.Reaches stockService fiveOfSeven s ∧
      (stockService.apply .cancel threeOfSeven none Instant.zero s).1.2 = none ∧
      s' = (stockService.apply .cancel threeOfSeven none Instant.zero s).2 ∧
      ((stockService.apply .confirm threeOfSeven
        (some (resultAnnouncer "REFUND_ISSUED" .stock)) Instant.zero s').1.2.map
          (·.conditions)) = some [.announceFailed] :=
  ⟨_, _, .apply .reserve threeOfSeven none Instant.zero .start, by decide +kernel, rfl,
    by decide +kernel⟩

end OrderSaga
