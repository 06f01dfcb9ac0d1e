import Chip8.Decimal.Fixed

/-! # Shortest decimals

The shortest decimal that reads back as a double. The reals that round to a double form an
interval around it, closed iff its mantissa is even. For one digit, two digits and so on, the
two neighbours of the double among the decimals with that many digits are tested; the first
count with a neighbour in the interval wins, and of two neighbours the nearer one.
-/

namespace Chip8.Decimal

structure Scientific where
  digits : Nat
  power : Int
  deriving DecidableEq, Repr

/-- A positive double as a multiple of a fourth of its grid, with the interval of the reals
that round to it. All four numbers are numerators over `den`. -/
structure Rounding where
  low : Nat
  value : Nat
  high : Nat
  den : Nat
  closed : Bool

namespace Rounding

/-- The interval of `mantissa * 2 ^ exponent`. Below a power of two the grid is twice as
fine, the smallest exponent apart. -/
def ofParts (mantissa : Nat) (exponent : Int) : Rounding :=
  let below := if mantissa = Nat.pow 2 52 ∧ -1074 < exponent then 1 else 2
  let (unit, den) := Binary64.fraction 1 (exponent - 2)
  { low := (4 * mantissa - below) * unit
    value := 4 * mantissa * unit
    high := (4 * mantissa + 2) * unit
    den
    closed := mantissa % 2 = 0 }

def contains (r : Rounding) (digits : Nat) (power : Int) : Bool :=
  let num := digits * Nat.pow 10 power.toNat * r.den
  let scale := Nat.pow 10 (-power).toNat
  if r.closed then r.low * scale ≤ num && num ≤ r.high * scale
  else r.low * scale < num && num < r.high * scale

def neighbour? (r : Rounding) (power : Int) : Option Scientific :=
  let num := r.value * Nat.pow 10 (-power).toNat
  let den := r.den * Nat.pow 10 power.toNat
  let down := num / den
  let nearest := roundDiv num den
  let other := if nearest = down then down + 1 else down
  if r.contains nearest power then some ⟨nearest, power⟩
  else if r.contains other power then some ⟨other, power⟩
  else none

/-- The exponent of the value's first decimal digit, found among the exponents of doubles. -/
def magnitude (r : Rounding) : Int :=
  let below (power : Int) : Bool :=
    r.den * Nat.pow 10 power.toNat ≤ r.value * Nat.pow 10 (-power).toNat
  let rec search : Nat → Int → Int
    | 0, power => power
    | fuel + 1, power => if below power then power else search fuel (power - 1)
  search 640 309

/-- The shortest decimal in the interval. Seventeen digits always suffice. -/
def shortest (r : Rounding) : Scientific :=
  let first := r.magnitude
  let candidates := (List.range 17).filterMap fun (n : Nat) => r.neighbour? (first - n)
  candidates.headD ⟨roundDiv r.value r.den, 0⟩

end Rounding

def Scientific.stripZeros (s : Scientific) : Scientific :=
  let rec strip : Nat → Scientific → Scientific
    | 0, s => s
    | fuel + 1, s =>
      if s.digits ≠ 0 ∧ s.digits % 10 = 0 then strip fuel ⟨s.digits / 10, s.power + 1⟩ else s
  strip 400 s

/-- Where a number is written positionally and where with an exponent. -/
structure NumberFormat where
  /-- Least exponent of the first digit that is written positionally. -/
  least : Int
  /-- Least exponent above these that is not. -/
  beyond : Int
  /-- Least digits of a written exponent. -/
  exponentDigits : Nat

/-- Numbers in messages are positional from `0.0001` up to sixteen digits before the point,
and their exponents have at least two digits. -/
def NumberFormat.message : NumberFormat where
  least := -4
  beyond := 16
  exponentDigits := 2

namespace NumberFormat

/-- Digits with a point after `whole` of them, filled up with zeros on either side. -/
def positional (digits : String) (whole : Int) : String :=
  if whole ≤ 0 then "0." ++ "".pushn '0' (-whole).toNat ++ digits
  else if digits.length ≤ whole.toNat then
    digits ++ "".pushn '0' (whole.toNat - digits.length) ++ ".0"
  else
    String.ofList (digits.toList.take whole.toNat) ++ "."
      ++ String.ofList (digits.toList.drop whole.toNat)

/-- One digit before the point, none after it if there is just one. -/
def withExponent (f : NumberFormat) (digits : String) (exponent : Int) : String :=
  let rest := String.ofList (digits.toList.drop 1)
  String.ofList (digits.toList.take 1) ++ (if rest.isEmpty then "" else "." ++ rest) ++ "e"
    ++ (if exponent < 0 then "-" else "+")
    ++ Text.padLeft '0' f.exponentDigits (toString exponent.natAbs)

def scientific (f : NumberFormat) (s : Scientific) : String :=
  let s := s.stripZeros
  let digits := toString s.digits
  let exponent := s.power + digits.length - 1
  if f.least ≤ exponent ∧ exponent < f.beyond then positional digits (exponent + 1)
  else f.withExponent digits exponent

def double (f : NumberFormat) : Binary64 → String
  | .finite negative mantissa exponent =>
    (if negative then "-" else "")
      ++ (if mantissa = 0 then "0.0" else f.scientific (Rounding.ofParts mantissa exponent).shortest)
  | .infinite negative => if negative then "-inf" else "inf"
  | .notANumber => "nan"

end NumberFormat

end Chip8.Decimal
