import Chip8.Decimal.Quotient
import Chip8.Decimal.Shortest
import Chip8.Time

/-! # Time in doubles

The time scale on which sessions run. Sums, products and quotients are rounded as doubles
are; conversions from and to integers and texts are exact in the double's value.
-/

namespace Chip8

open Decimal

/-- A double. What is no number has a sign too, which only its bits show. -/
structure Double where
  value : Float
  /-- Whether the double, if it is no number, has its sign set. -/
  nanSign : Bool := true
  deriving Repr

namespace Double

/-- The double that is no number, as a text denotes it. -/
def notANumber : Double := { value := 0.0 / 0.0, nanSign := false }

/-- The sign set is what an invalid operation gives. An operand that is no number passes its
sign on, the left one first. -/
def combine (op : Float → Float → Float) (x y : Double) : Double where
  value := op x.value y.value
  nanSign :=
    if x.value.isNaN then x.nanSign else if y.value.isNaN then y.nanSign else true

instance : Add Double := ⟨combine (· + ·)⟩

instance : Sub Double := ⟨combine (· - ·)⟩

instance : Mul Double := ⟨combine (· * ·)⟩

instance : Div Double := ⟨combine (· / ·)⟩

instance : OfScientific Double where
  ofScientific mantissa negative exponent :=
    { value := OfScientific.ofScientific mantissa negative exponent }

def parts (x : Double) : Binary64 := Binary64.ofFloat x.value

def bits (x : Double) : UInt64 :=
  if x.value.isNaN then (if x.nanSign then 0xFFF8000000000000 else 0x7FF8000000000000)
  else x.value.toBits

/-- An integer past the largest double has no nearest double. -/
def ofInt? (n : Int) : Option Double :=
  let x := Float.ofInt n
  if x.isFinite then some { value := x } else none

/-- A quotient past the largest double has no nearest double. -/
def ofQuotient? (a b : Int) : Option Double :=
  match Binary64.ofQuotient (decide (a < 0) != decide (b < 0)) a.natAbs b.natAbs with
  | .finite negative mantissa exponent =>
    some { value := (Binary64.finite negative mantissa exponent).toFloat }
  | _ => none

/-- Infinities and what is no number have no integer part. -/
def truncate (x : Double) : Except Failure Int :=
  match x.parts with
  | .finite negative mantissa exponent => .ok (Binary64.truncate negative mantissa exponent)
  | .infinite _ => .error (.outOfRange .infinite)
  | .notANumber => .error (.invalid .notANumber)

/-- Timers count down in single precision, to which the ticks are rounded before and the rest
after they are taken away. -/
def countDown (ticks : Double) (timer : UInt8) : UInt8 :=
  let rest := timer.toFloat32 - ticks.value.toFloat32
  if rest > 0.0 then rest.toUInt8 else 0

/-- What is left of `x` when it is divided by `y` towards zero. -/
def remainder (x y : Float) : Float :=
  ((Binary64.ofFloat x).remainder (Binary64.ofFloat y)).toFloat

/-- Whether a remainder has to change to the sign of the divisor. -/
def opposes (rest y : Float) : Bool := rest != 0.0 && decide (rest < 0.0) != decide (y < 0.0)

def modulo (x y : Float) : Float :=
  let rest := remainder x y
  if opposes rest y then rest + y else rest

/-- The quotient is taken without the remainder and then moved to the nearest integer, which
its rounding may have missed. -/
def floorDiv (x y : Float) : Float :=
  let rest := remainder x y
  let quotient := (x - rest) / y
  let quotient := if opposes rest y then quotient - 1.0 else quotient
  let whole := quotient.floor
  if quotient - whole > 0.5 then whole + 1.0 else whole

end Double

instance : TimeScale Double where
  zero := { value := 0.0 }
  lt x y := x.value < y.value
  le x y := x.value ≤ y.value
  ofInt? := Double.ofInt?
  ofQuotient? := Double.ofQuotient?
  exceeds n x := x.parts.exceeds n
  truncate := Double.truncate
  floorDiv := Double.combine Double.floorDiv
  modulo := Double.combine Double.modulo
  countDown := Double.countDown
  fixed places x := x.parts.fixed places
  shown x := NumberFormat.message.double x.parts

end Chip8
