import OrderSaga.Model.Saga
import OrderSaga.Model.Ledger
import OrderSaga.Model.Resource
import OrderSaga.Model.Order
import OrderSaga.Model.Outbox
import OrderSaga.Ident

namespace OrderSaga

theorem LedgerEntry.Key.keys_exact_empty (k : LedgerEntry.Key) :
    k ∈ ([] : List LedgerEntry.Key) ↔ ∃ e ∈ ([] : List LedgerEntry), e.key = k :=
  iff_of_false List.not_mem_nil fun h => h.elim fun _ he => List.not_mem_nil he.1

structure Store where
  seq : UInt64 := 0
  ledgers : String → List LedgerEntry := fun _ => []
  ledgerKeys : String → List LedgerEntry.Key := fun _ => []
  keys_exact : ∀ kind k, k ∈ ledgerKeys kind ↔ ∃ e ∈ ledgers kind, e.key = k := by
    exact fun _ => LedgerEntry.Key.keys_exact_empty
  outbox : List OutboxEntry := []
  options : List ProductOption := []
  coupons : List Coupon := []
  points : List PointBalance := []
  sagas : List Saga := []
  orders : List Order := []
  idSource : IdSource := .numbered

instance : Inhabited Store := ⟨{}⟩

namespace Store

abbrev Op := EStateM Failure Store

def notFound : Failure := .of .notFound "record not found"

def versionConflict : Failure := .of .versionConflict "version conflict"

def duplicate : Failure := .of .duplicate "duplicate record"

def nextId : Op UInt64 :=
  modifyGet fun s => (s.seq + 1, { s with seq := s.seq + 1 })

/-- Runs `m` as one transaction: if it fails, nothing it did remains. -/
def atomically {α : Type} (m : Op α) : Op α := fun s =>
  match m s with
  | .ok a s' => .ok a s'
  | .error e _ => .error e s

/-- Runs `m`, putting `context` in front of the text of its failure. -/
def withContext {α : Type} (context : String) (m : Op α) : Op α := fun s =>
  match m s with
  | .ok a s' => .ok a s'
  | .error e s' => .error (e.wrap context) s'

/-- Runs `m` on the store. -/
def run {α : Type} (m : Op α) (s : Store) : Except Failure α × Store :=
  match m s with
  | .ok a s' => (.ok a, s')
  | .error e s' => (.error e, s')

/-- Puts a row into a table keyed by `key`: the row of the same key is replaced in place, and a row
of a new key goes last. -/
def upsert {α : Type} (key : α → UInt64) (row : α) : List α → List α
  | [] => [row]
  | r :: rest => if key r == key row then row :: rest else r :: upsert key row rest

def check (b : Bool) (f : Failure) : Op Unit := if b then pure () else throw f

/-- Lifts a result into a store operation. -/
def ofExcept {α : Type} (r : Except Failure α) : Op α :=
  match r with
  | .ok a => pure a
  | .error e => throw e

end Store

end OrderSaga
