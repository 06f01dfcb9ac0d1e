import Chip8.Decimal.Fixed

/-! # Quotients as doubles

The double nearest to a quotient of integers. Half way between two doubles the one with the
even mantissa is taken, and past the largest double the result is infinite.
-/

namespace Chip8.Decimal.Binary64

/-- The exponent of two between which and the next one a positive quotient lies. -/
def quotientLog2 (num den : Nat) : Int :=
  let near : Int := num.log2 - den.log2
  let below :=
    if 0 ≤ near then num < den * Nat.pow 2 near.toNat
    else num * Nat.pow 2 (-near).toNat < den
  if below then near - 1 else near

/-- The exponent of the last bit of the double nearest to a positive quotient: a mantissa has
53 bits, and no double is finer than the smallest one. -/
def lastBit (num den : Nat) : Int := max (quotientLog2 num den - 52) (-1074)

def inUnits (num den : Nat) (exponent : Int) : Nat :=
  if 0 ≤ exponent then roundDiv num (den * Nat.pow 2 exponent.toNat)
  else roundDiv (num * Nat.pow 2 (-exponent).toNat) den

def ofQuotient (negative : Bool) (num den : Nat) : Binary64 :=
  if num = 0 then finite negative 0 0
  else
    let exponent := lastBit num den
    let mantissa := inUnits num den exponent
    if 971 < exponent ∨ (exponent = 971 ∧ mantissa = Nat.pow 2 53) then infinite negative
    else finite negative mantissa exponent

end Chip8.Decimal.Binary64
