import OrderSaga.Time.Instant

namespace OrderSaga

/-- A signed span of nanoseconds. -/
structure Span where
  nanos : Int64
  deriving DecidableEq, Repr, Inhabited

namespace Span

def ofMillis (ms : Int64) : Span := ⟨ms * 1000000⟩

def neg (d : Span) : Span := ⟨-d.nanos⟩

def toMillis (d : Span) : Int64 := d.nanos / 1000000

/-- The digits of `v / 10 ^ prec` after the point, trailing zeros cut, with the point; empty when
that fraction is zero. -/
def fractionDigits (v prec : Nat) : String :=
  let frac := v % Nat.pow 10 prec
  if frac = 0 then ""
  else
    let s := toString frac
    let digits := (List.replicate (prec - s.length) '0' ++ s.toList).reverse.dropWhile (· == '0')
    "." ++ String.ofList digits.reverse

/-- The span's text. -/
def text (d : Span) : String :=
  let u : Nat := d.nanos.toInt.natAbs
  let body :=
    if u = 0 then "0s"
    else if u < 1000 then toString u ++ "ns"
    else if u < 1000000 then toString (u / 1000) ++ fractionDigits u 3 ++ "µs"
    else if u < 1000000000 then toString (u / 1000000) ++ fractionDigits u 6 ++ "ms"
    else
      let secs := u / 1000000000
      let s := toString (secs % 60) ++ fractionDigits u 9 ++ "s"
      let mins := secs / 60
      if mins = 0 then s
      else
        let m := toString (mins % 60) ++ "m" ++ s
        let hours := mins / 60
        if hours = 0 then m else toString hours ++ "h" ++ m
  if d.nanos < 0 then "-" ++ body else body

end Span

def Instant.shift (t : Instant) (d : Span) : Instant := t.addNanos d.nanos.toInt

end OrderSaga
