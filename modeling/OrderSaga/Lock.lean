import OrderSaga.Failure

namespace OrderSaga.Lock

/-- What happened to a key. -/
inductive Event where
  | locked (key : String)
  | failed (key : String)
  | unlocked (key : String)
  deriving DecidableEq, Repr

def Event.text : Event → String
  | .locked k => "lock " ++ k
  | .failed k => "fail " ++ k
  | .unlocked k => "unlock " ++ k

def order (keys : List String) : List String :=
  (keys.mergeSort fun a b => !(b < a)).eraseDups

def lockFailed : Failure := .of .lockFailed "failed to acquire lock"

/-- A locker as one holder sees it: asking for a key grants its lock or fails, and letting go of a
lock works or fails. -/
structure Locker where
  obtain : String → Option Failure
  unlock : String → Option Failure

def release (l : Locker) (held : List String) : (List Event × Option Failure) × List String :=
  ((held.reverse.map .unlocked, held.reverse.findSome? l.unlock), [])

/-- Takes the keys in order while the locker grants them. -/
def acquire (l : Locker) : List String → List String → List Event →
    Except (Failure × List Event) (List String × List Event)
  | [], held, events => .ok (held, events)
  | k :: rest, held, events =>
    match l.obtain k with
    | some f => .error (f.wrap ("lock " ++ k), events ++ [.failed k] ++ (release l held).1.1)
    | none => acquire l rest (held ++ [k]) (events ++ [.locked k])

/-- Takes every key of `keys`. -/
def acquireAll (l : Locker) (keys : List String) :
    Except (Failure × List Event) (List String × List Event) :=
  acquire l (order keys) [] []

end OrderSaga.Lock
