import Chip8.Decimal.Fixed
import Chip8.Time

/-! # Time in rationals

The time scale without rounding. Every integer is on it, and every number has an integer
part.
-/

namespace Chip8

namespace Exact

def truncate (q : Rat) : Int := q.num.tdiv q.den

/-- The quotient, rounded down. -/
def floorDiv (q r : Rat) : Rat := (q / r).floor

def modulo (q r : Rat) : Rat := q - r * floorDiv q r

def countDown (ticks : Rat) (timer : UInt8) : UInt8 :=
  UInt8.ofNat (truncate (timer.toNat - ticks)).toNat

def shown (q : Rat) : String := toString q.num ++ "/" ++ toString q.den

end Exact

instance : TimeScale Rat where
  zero := 0
  lt x y := x < y
  le x y := x ≤ y
  ofInt? n := some n
  ofQuotient? a b := some (a / b)
  exceeds n x := (n : Rat) < x
  truncate q := .ok (Exact.truncate q)
  floorDiv := Exact.floorDiv
  modulo := Exact.modulo
  countDown := Exact.countDown
  fixed places q := Decimal.fixed places (q.num < 0) q.num.natAbs q.den
  shown := Exact.shown

end Chip8
