import Chip8.Decimal.Binary64
import Chip8.Text.Layout

/-! # Decimals with fixed places

The decimal with a given number of places that is nearest to a quotient. A quotient half way
between two of them goes to the one with an even last digit.
-/

namespace Chip8.Decimal

/-- The quotient rounded to the nearest integer, a half to the even neighbour. -/
def roundDiv (num den : Nat) : Nat :=
  let q := num / den
  let twice := 2 * (num % den)
  if twice < den then q
  else if den < twice then q + 1
  else if q % 2 = 0 then q else q + 1

/-- The rounded quotient is no more than half a unit away. -/
theorem roundDiv_within_half {den : Nat} (pos : 0 < den) (num : Nat) :
    2 * (roundDiv num den * den) ≤ 2 * num + den ∧
      2 * num ≤ 2 * (roundDiv num den * den) + den := by
  have parts := Nat.div_add_mod num den
  rw [Nat.mul_comm] at parts
  have up : (num / den + 1) * den = num / den * den + den := Nat.succ_mul _ _
  have rest := Nat.mod_lt num pos
  simp only [roundDiv]
  split
  · omega
  · split
    · omega
    · split <;> omega

def placed (places units : Nat) : String :=
  if places = 0 then toString units
  else
    toString (units / Nat.pow 10 places) ++ "."
      ++ Text.padLeft '0' places (toString (units % Nat.pow 10 places))

/-- The quotient with fixed places, behind a minus sign if `negative`. -/
def fixed (places : Nat) (negative : Bool) (num den : Nat) : String :=
  (if negative then "-" else "") ++ placed places (roundDiv (num * Nat.pow 10 places) den)

namespace Binary64

/-- A double with fixed places. A negative zero keeps its sign. -/
def fixed (places : Nat) : Binary64 → String
  | finite negative mantissa exponent =>
    let (num, den) := fraction mantissa exponent
    Decimal.fixed places negative num den
  | infinite negative => if negative then "-inf" else "inf"
  | notANumber => "nan"

end Binary64

end Chip8.Decimal
