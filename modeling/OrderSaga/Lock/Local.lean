import OrderSaga.Lock

namespace OrderSaga.Lock

/-- Where a caller of the guard stands. -/
inductive Stage where
  | taking (n : Nat)
  | running
  | releasing (n : Nat)
  | done
  deriving DecidableEq, Repr

namespace Stage

/-- The keys a caller holds at a stage, of its keys in order. -/
def held (st : Stage) (ks : List String) : List String :=
  match st with
  | .taking n => ks.take n
  | .running => ks
  | .releasing n => ks.take n
  | .done => []

/-- The key a caller asks for at a stage, if it asks for one. -/
def wanted (st : Stage) (ks : List String) : Option String :=
  match st with
  | .taking n => ks[n]?
  | _ => none

end Stage

/-- The callers `Fin n` of the guard over one locker: where each stands, and which keys' slots are
full. -/
structure Table (n : Nat) where
  stage : Fin n → Stage
  full : String → Bool

namespace Table

variable {n : Nat}

def start (n : Nat) : Table n := ⟨fun _ => .taking 0, fun _ => false⟩

def move (t : Table n) (i : Fin n) (st : Stage) (full : String → Bool) : Table n :=
  ⟨fun j => if j = i then st else t.stage j, full⟩

def fill (t : Table n) (k : String) (b : Bool) : String → Bool :=
  fun k' => if k' = k then b else t.full k'

def heldBy (t : Table n) (keys : Fin n → List String) (i : Fin n) : List String :=
  (t.stage i).held (order (keys i))

def wantedBy (t : Table n) (keys : Fin n → List String) (i : Fin n) : Option String :=
  (t.stage i).wanted (order (keys i))

def Waits (t : Table n) (keys : Fin n → List String) (i j : Fin n) : Prop :=
  ∃ k, t.wantedBy keys i = some k ∧ k ∈ t.heldBy keys j

end Table

variable {n : Nat} (keys : Fin n → List String)

/-- One step of one caller whose context does not end, when each caller `i` asks for `keys i`. -/
inductive Proceeds : Table n → Table n → Prop
  | take {t : Table n} {i : Fin n} {m : Nat} {k : String} (taking : t.stage i = .taking m)
      (next : (order (keys i))[m]? = some k) (free : t.full k = false) :
      Proceeds t (t.move i (.taking (m + 1)) (t.fill k true))
  | enter {t : Table n} {i : Fin n} {m : Nat} (taking : t.stage i = .taking m)
      (all : m = (order (keys i)).length) : Proceeds t (t.move i .running t.full)
  | leave {t : Table n} {i : Fin n} (running : t.stage i = .running) :
      Proceeds t (t.move i (.releasing (order (keys i)).length) t.full)
  | unlock {t : Table n} {i : Fin n} {m : Nat} {k : String}
      (releasing : t.stage i = .releasing (m + 1)) (last : (order (keys i))[m]? = some k) :
      Proceeds t (t.move i (.releasing m) (t.fill k false))
  | finish {t : Table n} {i : Fin n} (released : t.stage i = .releasing 0) :
      Proceeds t (t.move i .done t.full)

/-- One step of one caller: a step of a caller whose context does not end, or a caller whose context
ends while it takes its keys, which then lets go of the keys it took. -/
inductive Step : Table n → Table n → Prop
  | proceed {t t' : Table n} (h : Proceeds keys t t') : Step t t'
  | giveUp {t : Table n} {i : Fin n} {m : Nat} (taking : t.stage i = .taking m)
      (short : m < (order (keys i)).length) : Step t (t.move i (.releasing m) t.full)

end OrderSaga.Lock
