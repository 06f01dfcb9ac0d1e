import Chip8.Failure
import Chip8.Text.Integer
import Chip8.Text.Layout

/-! # Time scales

A time scale is a number type in which seconds, frequencies and credits are kept. The clock
is written over any time scale. It runs on doubles and is reasoned about on rationals.
Readings, spans and frequencies may also be given as integers of any size.
-/

namespace Chip8

class TimeScale (τ : Type) extends Add τ, Sub τ, Mul τ, Div τ, OfScientific τ where
  zero : τ
  lt : τ → τ → Bool
  le : τ → τ → Bool
  /-- The number nearest to an integer, unless it is out of range. -/
  ofInt? : Int → Option τ
  /-- The number nearest to a quotient of integers, unless it is out of range. -/
  ofQuotient? : Int → Int → Option τ
  /-- Whether an integer lies below a number. -/
  exceeds : Int → τ → Bool
  /-- The integer part, towards zero. -/
  truncate : τ → Except Failure Int
  /-- The quotient, rounded down. -/
  floorDiv : τ → τ → τ
  /-- What a quotient that is rounded down leaves; it has the sign of the divisor. -/
  modulo : τ → τ → τ
  /-- What is left of a timer after a number of ticks, down to the last whole tick. -/
  countDown : τ → UInt8 → UInt8
  /-- Text with a fixed number of decimal places. -/
  fixed : Nat → τ → String
  /-- Text in messages. -/
  shown : τ → String

/-- A setting or a reading of the clock, given either as an integer or on the time scale.
Integers are exact as long as they meet integers only. -/
inductive Quantity (τ : Type) where
  | whole (n : Int)
  | real (x : τ)
  deriving DecidableEq, Repr

namespace TimeScale

variable {τ : Type} [TimeScale τ]

def isZero (x : τ) : Bool := le x zero && le zero x

def ofInt (n : Int) : Except Failure τ :=
  match ofInt? n with
  | some x => .ok x
  | none => .error (.outOfRange (.float n))

end TimeScale

namespace Quantity

variable {τ : Type} [TimeScale τ]

def toReal : Quantity τ → Except Failure τ
  | whole n => TimeScale.ofInt n
  | real x => .ok x

/-- Two integers are combined exactly, other quantities on the time scale. -/
def combine (exact : Int → Int → Int) (scaled : τ → τ → τ) :
    Quantity τ → Quantity τ → Except Failure (Quantity τ)
  | whole a, whole b => .ok (whole (exact a b))
  | p, q =>
    match p.toReal, q.toReal with
    | .ok x, .ok y => .ok (real (scaled x y))
    | .error e, _ => .error e
    | _, .error e => .error e

def mul : Quantity τ → Quantity τ → Except Failure (Quantity τ) := combine (· * ·) (· * ·)

def add : Quantity τ → Quantity τ → Except Failure (Quantity τ) := combine (· + ·) (· + ·)

def sub : Quantity τ → Quantity τ → Except Failure (Quantity τ) := combine (· - ·) (· - ·)

def isZero : Quantity τ → Bool
  | whole n => n = 0
  | real x => TimeScale.isZero x

/-- Combines as `combine` does, but fails for a second quantity of zero. Both quantities are
brought to the time scale before that is found. -/
def combineNonzero (exact : Int → Int → Int) (scaled : τ → τ → τ) (p q : Quantity τ) :
    Except Failure (Quantity τ) :=
  match combine exact scaled p q with
  | .ok result => if q.isZero then .error .zeroDivision else .ok result
  | .error e => .error e

/-- The quotient, rounded down. -/
def floorDiv : Quantity τ → Quantity τ → Except Failure (Quantity τ) :=
  combineNonzero Int.fdiv TimeScale.floorDiv

def modulo : Quantity τ → Quantity τ → Except Failure (Quantity τ) :=
  combineNonzero Int.fmod TimeScale.modulo

/-- The quotient on the time scale. That of two integers is rounded once. -/
def div : Quantity τ → Quantity τ → Except Failure τ
  | whole a, whole b =>
    match TimeScale.ofQuotient? a b with
    | some x => .ok x
    | none => .error (.outOfRange (.float a))
  | p, q => do
    let x ← p.toReal
    let y ← q.toReal
    return x / y

def lt : Quantity τ → Quantity τ → Bool
  | whole a, whole b => a < b
  | whole a, real y => TimeScale.exceeds a y
  | real x, whole b => TimeScale.exceeds (-b) (TimeScale.zero - x)
  | real x, real y => TimeScale.lt x y

/-- The larger of a quantity and zero. What cannot be compared with zero stays. -/
def atLeastZero (q : Quantity τ) : Quantity τ :=
  if q.lt (real TimeScale.zero) then real TimeScale.zero else q

def truncate : Quantity τ → Except Failure Int
  | whole n => .ok n
  | real x => TimeScale.truncate x

def isEndless : Quantity τ → Bool
  | whole _ => false
  | real x => TimeScale.lt TimeScale.zero x && !(TimeScale.truncate x).isOk

def isNegative : Quantity τ → Bool
  | whole n => n < 0
  | real x => TimeScale.lt x TimeScale.zero

def isNotPositive : Quantity τ → Bool
  | whole n => n ≤ 0
  | real x => TimeScale.le x TimeScale.zero

def shown : Quantity τ → String
  | whole n => toString n
  | real x => TimeScale.shown x

def grouped : Quantity τ → String
  | whole n => Text.grouped n
  | real x => Text.groupedWhole (TimeScale.shown x)

/-- Text in a log of settings: integers plainly, other numbers with four places. -/
def logged : Quantity τ → String
  | whole n => toString n
  | real x => TimeScale.fixed 4 x

/-- Only an integer can have too many digits. -/
def isWritable : Quantity τ → Bool
  | whole n => Text.isWritable n
  | real _ => true

def text (write : Quantity τ → String) (q : Quantity τ) : Except Failure String :=
  if q.isWritable then .ok (write q) else .error (.invalid (.tooManyDigits Text.maxDigits))

/-- Why a quantity is refused, for a cause that is to show it. -/
def refusal (cause : String → InvalidArgument) (q : Quantity τ) : InvalidArgument :=
  if q.isWritable then cause q.shown else .tooManyDigits Text.maxDigits

/-- Text with fixed places, also for integers. -/
def fixed (places : Nat) (q : Quantity τ) : Except Failure String :=
  match q.toReal with
  | .ok x => .ok (TimeScale.fixed places x)
  | .error e => .error e

end Quantity

end Chip8
