/-! # Doubles taken apart

A finite double is a sign and an integer times a power of two. Conversions to integers,
comparisons with integers, remainders and all decimal texts are computed from these parts
exactly.
-/

namespace Chip8.Decimal

inductive Binary64 where
  /-- The value `± mantissa * 2 ^ exponent`. -/
  | finite (negative : Bool) (mantissa : Nat) (exponent : Int)
  | infinite (negative : Bool)
  | notANumber
  deriving DecidableEq, Repr

namespace Binary64

def ofBits (bits : UInt64) : Binary64 :=
  let negative := bits >>> 63 == 1
  let exponent := (bits >>> 52 &&& 0x7FF).toNat
  let fraction := (bits &&& 0xFFFFFFFFFFFFF).toNat
  if exponent = 0x7FF then
    if fraction = 0 then infinite negative else notANumber
  else if exponent = 0 then finite negative fraction (-1074)
  else finite negative (fraction + Nat.pow 2 52) (exponent - 1075)

def ofFloat (x : Float) : Binary64 := ofBits x.toBits

/-- The double of this value, which must have one. -/
def toFloat : Binary64 → Float
  | finite negative mantissa exponent =>
    let x := (Float.ofNat mantissa).scaleB exponent
    if negative then -x else x
  | infinite negative => if negative then -1.0 / 0.0 else 1.0 / 0.0
  | notANumber => 0.0 / 0.0

def fraction (mantissa : Nat) (exponent : Int) : Nat × Nat :=
  if 0 ≤ exponent then (mantissa * Nat.pow 2 exponent.toNat, 1)
  else (mantissa, Nat.pow 2 (-exponent).toNat)

def signed (negative : Bool) (n : Nat) : Int := if negative then -n else n

/-- The integer part, towards zero, of a finite double. -/
def truncate (negative : Bool) (mantissa : Nat) (exponent : Int) : Int :=
  let (num, den) := fraction mantissa exponent
  signed negative (num / den)

/-- What is left of the first double when the second is taken off it as often as it fits
without a change of sign. The remainder of two doubles is a double. -/
def remainder : Binary64 → Binary64 → Binary64
  | finite negative m e, finite _ m' e' =>
    if m' = 0 then notANumber
    else
      let unit := min e e'
      let dividend := m * Nat.pow 2 (e - unit).toNat
      let divisor := m' * Nat.pow 2 (e' - unit).toNat
      finite negative (dividend % divisor) unit
  | finite negative m e, infinite _ => finite negative m e
  | _, _ => notANumber

def exceeds (n : Int) : Binary64 → Bool
  | finite negative mantissa exponent =>
    let (num, den) := fraction mantissa exponent
    n * den < signed negative num
  | infinite negative => !negative
  | notANumber => false

end Binary64

end Chip8.Decimal
