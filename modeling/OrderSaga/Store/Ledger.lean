import OrderSaga.Store.Basic

namespace OrderSaga.Store

def findByOrder (s : Store) (kind : String) (orderId userId : UInt64) : List LedgerEntry :=
  (s.ledgers kind).filter fun e => e.orderId == orderId && e.userId == userId

def hasStage (s : Store) (kind : String) (orderId userId resource : UInt64) (stage : Nat) : Bool :=
  (s.ledgerKeys kind).contains ⟨orderId, userId, resource, stage⟩

theorem hasStage_iff (s : Store) (kind : String) (orderId userId resource : UInt64)
    (stage : Nat) :
    s.hasStage kind orderId userId resource stage = true ↔
      ∃ e ∈ s.ledgers kind, e.key = ⟨orderId, userId, resource, stage⟩ := by
  rw [hasStage, List.contains_iff_mem, s.keys_exact]

/-- The store with `e` appended to the ledger `kind` and its key to that ledger's index. -/
def withRow (s : Store) (kind : String) (e : LedgerEntry) : Store :=
  { s with
    ledgers := fun k => if k = kind then s.ledgers k ++ [e] else s.ledgers k
    ledgerKeys := fun k => if k = kind then s.ledgerKeys k ++ [e.key] else s.ledgerKeys k
    keys_exact := fun k key => by
      by_cases hk : k = kind
      · simp only [hk, if_true, List.mem_append, List.mem_singleton, s.keys_exact kind,
          or_and_right, exists_or, exists_eq_left]
        exact or_congr_right eq_comm
      · simp only [hk, if_false, s.keys_exact k] }

/-- Appends a row and numbers it; a second row of one stage for one key is refused. -/
def appendLedger (kind : String) (e : LedgerEntry) : Op UInt64 := do
  let s ← get
  check (!s.hasStage kind e.orderId e.userId e.resource e.stage) duplicate
  let id ← nextId
  modify fun s => s.withRow kind { e with id }
  pure id

/-- Whether `e` is an opening row from before `before` that no row has closed. -/
def expiredOpen (s : Store) (kind : String) (before : Instant) (e : LedgerEntry) : Bool :=
  e.type == .reserve && e.reservedAt.before before
    && !s.hasStage kind e.orderId e.userId e.resource 2

/-- Opening rows from before `before` that no row has closed, oldest first and by number among
equals; a positive `limit` keeps that many. -/
def findExpired (s : Store) (kind : String) (before : Instant) (limit : Int) : List LedgerEntry :=
  let sorted := ((s.ledgers kind).filter (s.expiredOpen kind before)).mergeSort
    LedgerEntry.reservedBefore
  if limit > 0 then sorted.take limit.toNat else sorted

/-- Appends an outbox entry and numbers it; an entry without a creation instant gets `now`. -/
def appendOutbox (e : OutboxEntry) (now : Instant) : Op OutboxEntry := do
  let s ← get
  check (!s.outbox.any (·.eventId == e.eventId)) duplicate
  let id ← nextId
  let e := { e with id, createdAt := if e.createdAt.isZero then now else e.createdAt }
  modify fun s => { s with outbox := s.outbox ++ [e] }
  pure e

/-- Unpublished entries, oldest first and by number among equals; a positive `limit` keeps that
many. -/
def fetchPending (s : Store) (limit : Int) : List OutboxEntry :=
  let pending := (s.outbox.filter (!·.isPublished)).mergeSort fun a b =>
    a.createdAt.nanos < b.createdAt.nanos
      || (a.createdAt.nanos == b.createdAt.nanos && a.id ≤ b.id)
  if limit > 0 then pending.take limit.toNat else pending

/-- Changes the first entry of that number, if there is one. -/
def updateEntry (id : UInt64) (f : OutboxEntry → OutboxEntry) : Op Unit :=
  modify fun s => { s with outbox :=
    match s.outbox.findIdx? (·.id == id) with
    | some i => s.outbox.modify i f
    | none => s.outbox }

def markPublished (id : UInt64) (time : Instant) : Op Unit :=
  updateEntry id fun e => { e with publishedAt := some time }

/-- Counts a failed attempt and keeps the reason, cut to the length an entry keeps. -/
def recordFailure (id : UInt64) (reason : String) : Op Unit :=
  updateEntry id fun e => { e with attempts := e.attempts + 1,
                                   lastError := OutboxEntry.clipError reason }

/-- Removes entries published before `before` and counts them. -/
def deletePublishedBefore (before : Instant) : Op Nat := do
  let s ← get
  let gone (e : OutboxEntry) : Bool := match e.publishedAt with
    | some t => t.before before
    | none => false
  set { s with outbox := s.outbox.filter (!gone ·) }
  pure (s.outbox.countP gone)

def countPending (s : Store) : Nat := s.outbox.countP (!·.isPublished)

end OrderSaga.Store
