
namespace OrderSaga

/-- A moment, counted in nanoseconds from 1970-01-01T00:00:00Z, shown at `offset` seconds east of
UTC. -/
structure Instant where
  nanos : Int
  offset : Int := 0
  deriving DecidableEq, Repr

namespace Instant

def nanosPerSecond : Int := 1000000000

def zero : Instant := ⟨-62135596800 * nanosPerSecond, 0⟩

instance : Inhabited Instant := ⟨zero⟩

def isZero (t : Instant) : Bool := t.nanos == zero.nanos

def before (a b : Instant) : Bool := a.nanos < b.nanos

def addNanos (t : Instant) (n : Int) : Instant := { t with nanos := t.nanos + n }

def addMillis (t : Instant) (ms : Int) : Instant := t.addNanos (ms * 1000000)

def ofUnixMillis (ms : Int) : Instant := ⟨ms * 1000000, 0⟩

def unixMillis (t : Instant) : Int := t.nanos / 1000000

def utc (t : Instant) : Instant := { t with offset := 0 }

/-- Days from 1970-01-01 to a civil date. -/
def daysFromCivil (y : Int) (m d : Nat) : Int :=
  let y := if m ≤ 2 then y - 1 else y
  let era := y / 400
  let yoe := y - era * 400
  let mp : Int := if m > 2 then m - 3 else m + 9
  let doy := (153 * mp + 2) / 5 + d - 1
  let doe := yoe * 365 + yoe / 4 - yoe / 100 + doy
  era * 146097 + doe - 719468

/-- The civil date of a day counted from 1970-01-01: year, month and day of month. -/
def civilFromDays (z : Int) : Int × Nat × Nat :=
  let z := z + 719468
  let era := z / 146097
  let doe := z - era * 146097
  let yoe := (doe - doe / 1460 + doe / 36524 - doe / 146096) / 365
  let y := yoe + era * 400
  let doy := doe - (365 * yoe + yoe / 4 - yoe / 100)
  let mp := (5 * doy + 2) / 153
  let d := doy - (153 * mp + 2) / 5 + 1
  let m := if mp < 10 then mp + 3 else mp - 9
  (if m ≤ 2 then y + 1 else y, m.toNat, d.toNat)

def isLeap (y : Int) : Bool := y % 4 == 0 && (y % 100 != 0 || y % 400 == 0)

/-- The number of days in a month of a year. -/
def daysIn (m : Nat) (y : Int) : Nat :=
  if m == 2 then (if isLeap y then 29 else 28)
  else if m == 4 || m == 6 || m == 9 || m == 11 then 30
  else 31

/-- Decimal digits of `n`, padded with zeros to `width`. -/
def padded (width n : Nat) : String :=
  let s := toString n
  String.ofList (List.replicate (width - s.length) '0') ++ s

/-- The fraction of a second as written after a point: nine digits with trailing zeros cut, empty
when the fraction is zero. -/
def fractionText (nanos : Nat) : String :=
  if nanos = 0 then ""
  else "." ++ String.ofList ((padded 9 nanos).toList.reverse.dropWhile (· == '0')).reverse

/-- The offset as written in RFC 3339: `Z` for UTC, else a sign and hours and minutes. -/
def offsetText (offset : Int) : String :=
  if offset = 0 then "Z"
  else
    let minutes := offset.natAbs / 60
    (if offset < 0 then "-" else "+") ++ padded 2 (minutes / 60) ++ ":" ++ padded 2 (minutes % 60)

/-- RFC 3339 text of the instant in its own offset; with `nanos` the fraction of the second follows
the seconds, with trailing zeros cut. -/
def render (t : Instant) (nanos : Bool) : String :=
  let wall := t.nanos + t.offset * nanosPerSecond
  let secs := wall / nanosPerSecond
  let frac := (wall % nanosPerSecond).toNat
  let days := secs / 86400
  let sod := (secs % 86400).toNat
  let (y, m, d) := civilFromDays days
  let yearText := if y < 0 then "-" ++ padded 4 y.natAbs else padded 4 y.toNat
  yearText ++ "-" ++ padded 2 m ++ "-" ++ padded 2 d ++ "T" ++ padded 2 (sod / 3600) ++ ":" ++
    padded 2 (sod / 60 % 60) ++ ":" ++ padded 2 (sod % 60) ++
    (if nanos then fractionText frac else "") ++ offsetText t.offset

def year (t : Instant) : Int :=
  (civilFromDays ((t.nanos + t.offset * nanosPerSecond) / nanosPerSecond / 86400)).1

/-- Why the instant has no RFC 3339 text, if it has none: the year must have four digits and the
offset must be less than a day. -/
def fault? (t : Instant) : Option String :=
  if t.year < 0 || t.year > 9999 then some "year outside of range [0,9999]"
  else if t.offset.natAbs / 3600 ≥ 24 then some "timezone hour outside of range [0,23]"
  else none

def text (t : Instant) : String := t.render true

def secondsText (t : Instant) : String := t.render false

end Instant

end OrderSaga
