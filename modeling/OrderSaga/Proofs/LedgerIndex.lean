import OrderSaga.Proofs.Sweeps
import OrderSaga.Proofs.Placement

namespace OrderSaga.Store

/-- The store as an operation leaves it, whether it succeeded or was refused. -/
def after {α : Type} (m : Op α) (s : Store) : Store :=
  match m s with
  | .ok _ s' => s'
  | .error _ s' => s'

/-- A call of one of the store's repositories that writes; reads leave the store as it is. -/
inductive Call where
  | appendLedger (kind : String) (e : LedgerEntry)
  | appendOutbox (e : OutboxEntry) (now : Instant)
  | markPublished (id : UInt64) (time : Instant)
  | recordFailure (id : UInt64) (reason : String)
  | deletePublishedBefore (before : Instant)
  | createOption (o : ProductOption) (now : Instant)
  | updateOption (o : ProductOption) (now : Instant)
  | createCoupon (c : Coupon) (now : Instant)
  | updateCoupon (c : Coupon) (now : Instant)
  | createPoints (p : PointBalance) (now : Instant)
  | updatePoints (p : PointBalance) (now : Instant)
  | createSaga (g : Saga) (now : Instant)
  | updateSaga (g : Saga) (now : Instant)
  | createOrder (o : Order) (now : Instant)
  | setOrderStatus (id : UInt64) (status : OrderStatus) (reason : String) (now : Instant)

namespace Call

/-- The store after the call, whether the call succeeded or was refused. -/
def run : Call → Store → Store
  | .appendLedger kind e => after (Store.appendLedger kind e)
  | .appendOutbox e now => after (Store.appendOutbox e now)
  | .markPublished id time => after (Store.markPublished id time)
  | .recordFailure id reason => after (Store.recordFailure id reason)
  | .deletePublishedBefore before => after (Store.deletePublishedBefore before)
  | .createOption o now => after (Store.createOption o now)
  | .updateOption o now => after (Store.updateOption o now)
  | .createCoupon c now => after (Store.createCoupon c now)
  | .updateCoupon c now => after (Store.updateCoupon c now)
  | .createPoints p now => after (Store.createPoints p now)
  | .updatePoints p now => after (Store.updatePoints p now)
  | .createSaga g now => after (Store.createSaga g now)
  | .updateSaga g now => after (Store.updateSaga g now)
  | .createOrder o now => after (Store.createOrder o now)
  | .setOrderStatus id status reason now => after (Store.setOrderStatus id status reason now)

/-- How many numbers the call draws from the store's sequence. -/
def draws : Call → Store → Nat
  | .appendLedger kind e, s =>
    if s.hasStage kind e.orderId e.userId e.resource e.stage then 0 else 1
  | .appendOutbox e _, s => if s.outbox.any (·.eventId == e.eventId) then 0 else 1
  | .createOption o _, _ => if o.id == 0 then 1 else 0
  | .createCoupon c _, _ => if c.id == 0 then 1 else 0
  | .createSaga g _, s =>
    if s.sagas.any (·.sagaId == g.sagaId) || s.sagas.any (·.orderId == g.orderId) then 0 else 1
  | .createOrder o _, s => if s.orders.any (·.id == o.id) then 0 else o.items.length
  | _, _ => 0

end Call

/-! ## What an operation leaves -/

section After

variable {α β : Type} (s : Store) (k : α → Op β)

@[simp] theorem after_pure (a : α) : after (pure a : Op α) s = s := rfl

@[simp] theorem after_throw (e : Failure) : after (throw e : Op α) s = s := rfl

@[simp] theorem after_set (t : Store) : after (set t : Op PUnit) s = t := rfl

@[simp] theorem after_modify (g : Store → Store) : after (modify g : Op Unit) s = g s := rfl

@[simp] theorem after_get_bind (k : Store → Op β) :
    after (get >>= k) s = after (k s) s := rfl

@[simp] theorem after_set_bind (t : Store) (k : PUnit → Op β) :
    after (set t >>= k) s = after (k ⟨⟩) t := rfl

@[simp] theorem after_modify_bind (g : Store → Store) (k : PUnit → Op β) :
    after (modify g >>= k) s = after (k ⟨⟩) (g s) := rfl

@[simp] theorem after_nextId_bind (k : UInt64 → Op β) :
    after (nextId >>= k) s = after (k (s.seq + 1)) { s with seq := s.seq + 1 } := rfl

@[simp] theorem after_map (f : α → β) (m : Op α) : after (f <$> m) s = after m s := by
  show (match EStateM.map f m s with | .ok _ s' => s' | .error _ s' => s') = after m s
  unfold after EStateM.map
  cases m s <;> rfl

@[simp] theorem after_pure_bind (a : α) : after (pure a >>= k) s = after (k a) s := rfl

@[simp] theorem after_check_bind (b : Bool) (f : Failure) (k : Unit → Op β) :
    after (check b f >>= k) s = if b then after (k ()) s else s := by
  cases b <;> rfl

end After

/-! ## The sequence -/

theorem appendLedger_seq (kind : String) (e : LedgerEntry) (s : Store) :
    (after (appendLedger kind e) s).seq = s.seq +
      (if s.hasStage kind e.orderId e.userId e.resource e.stage then 0 else 1 : Nat).toUInt64 := by
  by_cases h : s.hasStage kind e.orderId e.userId e.resource e.stage <;>
    simp [appendLedger, h, withRow]

theorem appendOutbox_seq (e : OutboxEntry) (now : Instant) (s : Store) :
    (after (appendOutbox e now) s).seq =
      s.seq + (if s.outbox.any (·.eventId == e.eventId) then 0 else 1 : Nat).toUInt64 := by
  by_cases h : s.outbox.any (·.eventId == e.eventId) <;> simp [appendOutbox, h]

theorem createOption_seq (o : ProductOption) (now : Instant) (s : Store) :
    (after (createOption o now) s).seq = s.seq + (if o.id == 0 then 1 else 0 : Nat).toUInt64 := by
  by_cases h : o.id == 0 <;> simp [createOption, h] <;> split <;> rfl

theorem createCoupon_seq (c : Coupon) (now : Instant) (s : Store) :
    (after (createCoupon c now) s).seq = s.seq + (if c.id == 0 then 1 else 0 : Nat).toUInt64 := by
  by_cases h : c.id == 0 <;> simp [createCoupon, h] <;> split <;> rfl

theorem createSaga_seq (g : Saga) (now : Instant) (s : Store) :
    (after (createSaga g now) s).seq = s.seq + (if s.sagas.any (·.sagaId == g.sagaId) ||
      s.sagas.any (·.orderId == g.orderId) then 0 else 1 : Nat).toUInt64 := by
  by_cases h₁ : s.sagas.any (·.sagaId == g.sagaId) <;>
    by_cases h₂ : s.sagas.any (·.orderId == g.orderId) <;> simp [createSaga, h₁, h₂]

theorem createOrder_seq (o : Order) (now : Instant) (s : Store) :
    (after (createOrder o now) s).seq =
      s.seq + (if s.orders.any (·.id == o.id) then 0 else o.items.length : Nat).toUInt64 := by
  by_cases h : s.orders.any (·.id == o.id)
  · simp [createOrder, h]
  · obtain ⟨items, hrun, -⟩ := createOrder_run now (s := s) (o := o) (by simpa using h)
    simp [after, hrun, h]

theorem markPublished_seq (id : UInt64) (time : Instant) (s : Store) :
    (after (markPublished id time) s).seq = s.seq := by
  simp [markPublished, updateEntry]

theorem recordFailure_seq (id : UInt64) (reason : String) (s : Store) :
    (after (recordFailure id reason) s).seq = s.seq := by
  simp [recordFailure, updateEntry]

theorem deletePublishedBefore_seq (before : Instant) (s : Store) :
    (after (deletePublishedBefore before) s).seq = s.seq := by
  simp [deletePublishedBefore]

theorem updateOption_seq (o : ProductOption) (now : Instant) (s : Store) :
    (after (updateOption o now) s).seq = s.seq := by
  simp only [updateOption, after_get_bind]
  split <;> simp [apply_ite]

theorem updateCoupon_seq (c : Coupon) (now : Instant) (s : Store) :
    (after (updateCoupon c now) s).seq = s.seq := by
  simp only [updateCoupon, after_get_bind]
  split <;> simp [apply_ite]

theorem createPoints_seq (p : PointBalance) (now : Instant) (s : Store) :
    (after (createPoints p now) s).seq = s.seq := by
  simp [createPoints, apply_ite]

theorem updatePoints_seq (p : PointBalance) (now : Instant) (s : Store) :
    (after (updatePoints p now) s).seq = s.seq := by
  simp only [updatePoints, after_get_bind]
  split <;> simp [apply_ite]

theorem updateSaga_seq (g : Saga) (now : Instant) (s : Store) :
    (after (updateSaga g now) s).seq = s.seq := by
  simp only [updateSaga, after_get_bind]
  split <;> simp [apply_ite]

theorem setOrderStatus_seq (id : UInt64) (status : OrderStatus) (reason : String) (now : Instant)
    (s : Store) : (after (setOrderStatus id status reason now) s).seq = s.seq := by
  simp [setOrderStatus, apply_ite]

theorem Call.seq_run (c : Call) (s : Store) : (c.run s).seq = s.seq + (c.draws s).toUInt64 := by
  cases c <;> simp [Call.run, Call.draws, appendLedger_seq, appendOutbox_seq, createOption_seq,
    createCoupon_seq, createSaga_seq, createOrder_seq, markPublished_seq, recordFailure_seq,
    deletePublishedBefore_seq, updateOption_seq, updateCoupon_seq, createPoints_seq,
    updatePoints_seq, updateSaga_seq, setOrderStatus_seq]

/-! ## Reachable stores -/

/-- Stores that a fresh store reaches by calls of its repositories; `n` counts the numbers drawn
from the sequence on the way. -/
inductive Reaches : Nat → Store → Prop
  | empty : Reaches 0 {}
  | call {n : Nat} {s : Store} (c : Call) : Reaches n s → Reaches (n + c.draws s) (c.run s)

theorem Reaches.seq_eq {n : Nat} {s : Store} (h : Reaches n s) : s.seq = n.toUInt64 := by
  induction h with
  | empty => rfl
  | call c _ ih => rw [c.seq_run, ih]; simp only [Nat.toUInt64_eq, UInt64.ofNat_add]

/-- The calls of a transaction's callback in turn; each sees what the ones before it wrote, a
refused one included. -/
def runAll : List Call → Store → Store
  | [], s => s
  | c :: cs, s => runAll cs (c.run s)

def drawsAll : List Call → Store → Nat
  | [], _ => 0
  | c :: cs, s => c.draws s + drawsAll cs (c.run s)

/-- A transaction's callback: its calls, then its verdict. -/
def callback (cs : List Call) (verdict : Option Failure) : Op Unit := fun s =>
  match verdict with
  | none => .ok () (runAll cs s)
  | some f => .error f (runAll cs s)

theorem Reaches.transaction {n : Nat} {s : Store} (h : Reaches n s) (cs : List Call)
    (verdict : Option Failure) :
    Reaches (n + if verdict.isNone then drawsAll cs s else 0)
      (after (atomically (callback cs verdict)) s) := by
  cases verdict with
  | some f => simpa [after, atomically, callback] using h
  | none =>
    simp only [after, atomically, callback, Option.isNone_none, if_true]
    induction cs generalizing n s with
    | nil => simpa [runAll, drawsAll] using h
    | cons c cs ih =>
      have := ih (h.call c)
      simpa [runAll, drawsAll, Nat.add_assoc] using this

/-! ## The ledger's index and its checks -/

theorem hasStage_eq_any (s : Store) (kind : String) (orderId userId resource : UInt64)
    (stage : Nat) :
    s.hasStage kind orderId userId resource stage =
      (s.ledgers kind).any (·.key == ⟨orderId, userId, resource, stage⟩) := by
  apply Bool.eq_iff_iff.mpr
  rw [hasStage_iff, List.any_eq_true]
  simp

theorem appendLedger_taken {kind : String} {e : LedgerEntry} {s : Store}
    (h : s.hasStage kind e.orderId e.userId e.resource e.stage = true) :
    appendLedger kind e s = .error duplicate s := by
  simp [appendLedger, check, h, bind, EStateM.bind, get, getThe, MonadStateOf.get, EStateM.get,
    throw, throwThe, MonadExceptOf.throw, EStateM.throw]

theorem appendLedger_free {kind : String} {e : LedgerEntry} {s : Store}
    (h : s.hasStage kind e.orderId e.userId e.resource e.stage = false) :
    appendLedger kind e s =
      .ok (s.seq + 1) ({ s with seq := s.seq + 1 }.withRow kind { e with id := s.seq + 1 }) := by
  simp [appendLedger, check, h, bind, EStateM.bind, get, getThe, MonadStateOf.get, EStateM.get,
    nextId, modifyGet, MonadStateOf.modifyGet, EStateM.modifyGet, modify, pure, EStateM.pure]

theorem appendLedger_duplicate_iff (kind : String) (e : LedgerEntry) (s : Store) :
    appendLedger kind e s = .error duplicate s ↔ ∃ x ∈ s.ledgers kind, x.key = e.key := by
  rw [← hasStage_iff]
  change _ ↔ s.hasStage kind e.orderId e.userId e.resource e.stage = true
  cases h : s.hasStage kind e.orderId e.userId e.resource e.stage with
  | true => simp [appendLedger_taken h]
  | false => simp [appendLedger_free h]

theorem appendOutbox_duplicate_iff (e : OutboxEntry) (now : Instant) (s : Store) :
    appendOutbox e now s = .error duplicate s ↔ ∃ x ∈ s.outbox, x.eventId = e.eventId := by
  cases h : s.outbox.any (·.eventId == e.eventId) with
  | true =>
    simp only [appendOutbox, check, h, bind, EStateM.bind, get, getThe, MonadStateOf.get,
      EStateM.get, Bool.not_true, Bool.false_eq_true, if_false, throw, throwThe,
      MonadExceptOf.throw, EStateM.throw, true_iff]
    simpa [List.any_eq_true] using h
  | false =>
    obtain ⟨e', s', hok⟩ := (appendOutbox_ok_iff e now s).mpr h
    simp only [List.any_eq_false, beq_iff_eq] at h
    simp only [hok, reduceCtorEq, false_iff, not_exists, not_and]
    exact h

theorem findExpired_exact (s : Store) (kind : String) (before : Instant) (limit : Int) :
    ∃ sorted : List LedgerEntry,
      sorted.Perm ((s.ledgers kind).filter fun e => e.type == .reserve &&
        e.reservedAt.before before &&
          !(s.ledgers kind).any (·.key == ⟨e.orderId, e.userId, e.resource, 2⟩)) ∧
      sorted.Pairwise (fun a b => a.reservedBefore b = true) ∧
      s.findExpired kind before limit = if 0 < limit then sorted.take limit.toNat else sorted := by
  refine ⟨s.expiredSorted kind before, ?_, s.expiredSorted_sorted kind before, rfl⟩
  have hopen : s.expiredOpen kind before = fun e => e.type == .reserve &&
      e.reservedAt.before before &&
        !(s.ledgers kind).any (·.key == ⟨e.orderId, e.userId, e.resource, 2⟩) := by
    funext e
    rw [expiredOpen, hasStage_eq_any]
  rw [← hopen]
  exact s.expiredSorted_perm kind before

/-! ## The sequence's numbers -/

def drawn (n : Nat) : List UInt64 := (List.range n).map fun m => (m + 1).toUInt64

theorem next_exceeds_drawn_iff (n : Nat) :
    (∀ j ∈ drawn n, j < (n + 1).toUInt64) ↔ n + 1 < UInt64.size := by
  simp only [drawn, List.mem_map, List.mem_range, forall_exists_index, and_imp,
    forall_apply_eq_imp_iff₂, UInt64.lt_iff_toNat_lt, Nat.toUInt64_eq, UInt64.toNat_ofNat']
  rw [show UInt64.size = 18446744073709551616 from rfl]
  constructor
  · intro hall
    by_contra hwide
    have hlast := hall 18446744073709551614 (by omega)
    omega
  · intro hfit m hm
    omega

theorem Reaches.seq_succ {n : Nat} {s : Store} (h : Reaches n s) :
    s.seq + 1 = (n + 1).toUInt64 := by
  rw [h.seq_eq]
  simp only [Nat.toUInt64_eq, UInt64.ofNat_add]
  rfl

/-! ## The index in every reachable store -/

/-- In every reachable store the index of a ledger holds exactly the keys of its rows. -/
theorem ledger_index_keeps_rows_unique {n : Nat} {s : Store} (h : Reaches n s) (kind : String)
    (e : LedgerEntry) (before : Instant) (limit : Int) (o : OutboxEntry) (now : Instant) :
    (∀ k, k ∈ s.ledgerKeys kind ↔ ∃ x ∈ s.ledgers kind, x.key = k) ∧
    (appendLedger kind e s = .error duplicate s ↔ ∃ x ∈ s.ledgers kind, x.key = e.key) ∧
    ((¬ ∃ x ∈ s.ledgers kind, x.key = e.key) →
      ∃ t, appendLedger kind e s = .ok (s.seq + 1) t ∧
        t.ledgers kind = s.ledgers kind ++ [{ e with id := s.seq + 1 }] ∧
        t.ledgerKeys kind = s.ledgerKeys kind ++ [e.key] ∧
        (∀ k, k ≠ kind → t.ledgers k = s.ledgers k) ∧
        ((∀ j ∈ drawn n, j < s.seq + 1) ↔ n + 1 < UInt64.size)) ∧
    (∃ sorted : List LedgerEntry,
      sorted.Perm ((s.ledgers kind).filter fun e => e.type == .reserve &&
        e.reservedAt.before before &&
          !(s.ledgers kind).any (·.key == ⟨e.orderId, e.userId, e.resource, 2⟩)) ∧
      sorted.Pairwise (fun a b => a.reservedBefore b = true) ∧
      s.findExpired kind before limit = if 0 < limit then sorted.take limit.toNat else sorted) ∧
    (appendOutbox o now s = .error duplicate s ↔ ∃ x ∈ s.outbox, x.eventId = o.eventId) := by
  refine ⟨s.keys_exact kind, appendLedger_duplicate_iff kind e s, fun hnew => ?_,
    findExpired_exact s kind before limit, appendOutbox_duplicate_iff o now s⟩
  have hfree : s.hasStage kind e.orderId e.userId e.resource e.stage = false := by
    rw [Bool.eq_false_iff, ne_eq, hasStage_iff]
    exact hnew
  refine ⟨_, appendLedger_free hfree, by simp [withRow],
    by simp [withRow, LedgerEntry.key, LedgerEntry.stage], fun k hk => by simp [withRow, hk], ?_⟩
  rw [h.seq_succ]
  exact next_exceeds_drawn_iff n

/-- A second opening row for one order, user and resource is refused once the first is in. -/
theorem second_opening_row_refused :
    let e := LedgerEntry.ofLine "s" 1 2 ⟨3, 4⟩ .reserve Instant.zero
    let s := (Call.appendLedger "stock" e).run {}
    Reaches 1 s ∧ (appendLedger "stock" e s = .error duplicate s ↔
      ∃ x ∈ s.ledgers "stock", x.key = e.key) := by
  intro e s
  have h : Reaches 1 s := .call (.appendLedger "stock" e) .empty
  exact ⟨h,
    (ledger_index_keeps_rows_unique h "stock" e Instant.zero 0 default Instant.zero).2.1⟩

/-- A failed transaction takes back the row numbers it drew, so the next row is numbered 1 again. -/
theorem rolled_back_row_number_drawn_again :
    let e := LedgerEntry.ofLine "s" 1 2 ⟨3, 4⟩ .reserve Instant.zero
    let rollback := Failure.plain "rollback requested"
    let tx := atomically (callback [.appendLedger "stock" e] (some rollback))
    (∃ t, appendLedger "stock" e {} = .ok 1 t) ∧
      tx {} = .error rollback {} ∧
      ∃ t, appendLedger "stock" e (after tx {}) = .ok 1 t := by
  intro e rollback tx
  have hfree : ({} : Store).hasStage "stock" e.orderId e.userId e.resource e.stage = false := rfl
  have hinside : appendLedger "stock" e {} = .ok 1 _ := appendLedger_free hfree
  exact ⟨⟨_, hinside⟩, rfl, ⟨_, hinside⟩⟩

end OrderSaga.Store
