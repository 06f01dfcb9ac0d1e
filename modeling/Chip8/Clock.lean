import Chip8.Log

/-! # Execution clock

The clock turns elapsed time into instruction cycles and timer ticks. Each tick measures the
time since the tick before and converts it at the two frequencies. What is left over of a
cycle or of a timer tick is kept as credit for the next tick. An optional limit bounds the
time that one tick may cover; the cycles beyond it are dropped, with a warning in a log.
-/

namespace Chip8

structure Shortfall (τ : Type) where
  covered : Quantity τ
  limit : Quantity τ
  dropped : Int
  deriving Repr

structure Clock (τ : Type) where
  cpuFrequency : Quantity τ := .whole 500
  timerFrequency : Quantity τ := .whole 60
  catchUp : Option (Quantity τ) := none
  /-- Reading at the last tick or reset. -/
  last : Option (Quantity τ) := none
  dropped : Int := 0
  cycleCredit : τ
  timerCredit : τ
  deriving Repr

structure Due where
  cycles : Int
  ticks : Int
  deriving DecidableEq, Repr

/-- A tick's effect on the clock, what it wrote to the log, and what is due. -/
structure Tick (τ : Type) where
  clock : Clock τ
  output : String := ""
  due : Except Failure Due

variable {τ : Type} [TimeScale τ]

namespace Shortfall

def message (s : Shortfall τ) : Except Failure String := do
  let covered ← s.covered.fixed 3
  let limit ← s.limit.fixed 3
  return "Tick covered " ++ covered ++ "s, over the " ++ limit ++ "s catch-up limit; dropping "
    ++ toString s.dropped ++ " cycles"

end Shortfall

namespace Clock

def create (cpuFrequency timerFrequency : Quantity τ) (catchUp : Option (Quantity τ)) :
    Clock τ where
  cpuFrequency
  timerFrequency
  catchUp
  cycleCredit := TimeScale.zero
  timerCredit := TimeScale.zero

/-- Measures from `now` on and forgets the credit. -/
def reset (c : Clock τ) (now : Quantity τ) : Clock τ :=
  { c with last := some now, cycleCredit := TimeScale.zero, timerCredit := TimeScale.zero }

def cyclesBeyond (c : Clock τ) (limit elapsed : Quantity τ) : Except Failure Int := do
  let beyond ← elapsed.sub limit
  let cycles ← beyond.mul c.cpuFrequency
  cycles.truncate

/-- The time that a tick grants, cut at the limit if there is one. -/
def grant (c : Clock τ) (elapsed : Quantity τ) :
    Except Failure (Quantity τ × Option (Shortfall τ)) :=
  match c.catchUp with
  | none => .ok (elapsed, none)
  | some limit =>
    if limit.lt elapsed then
      match c.cyclesBeyond limit elapsed with
      | .ok dropped => .ok (limit, some { covered := elapsed, limit, dropped })
      | .error e => .error e
    else .ok (elapsed, none)

def credited (credit : τ) (span frequency : Quantity τ) : Except Failure τ := do
  let product ← span.mul frequency
  let more ← product.toReal
  return credit + more

def debited (credit : τ) (whole : Int) : Except Failure τ := do
  let less ← TimeScale.ofInt whole
  return credit - less

/-- Takes the whole cycles and timer ticks out of the credits. -/
def withdraw (c : Clock τ) : Clock τ × Except Failure Due :=
  match TimeScale.truncate c.cycleCredit, TimeScale.truncate c.timerCredit with
  | .ok cycles, .ok ticks =>
    match debited c.cycleCredit cycles with
    | .error e => (c, .error e)
    | .ok cycleCredit =>
      let c := { c with cycleCredit }
      match debited c.timerCredit ticks with
      | .error e => (c, .error e)
      | .ok timerCredit => ({ c with timerCredit }, .ok { cycles, ticks })
  | .error e, _ => (c, .error e)
  | _, .error e => (c, .error e)

def accrue (c : Clock τ) (span : Quantity τ) : Clock τ × Except Failure Due :=
  match credited c.cycleCredit span c.cpuFrequency with
  | .error e => (c, .error e)
  | .ok cycleCredit =>
    let c := { c with cycleCredit }
    match credited c.timerCredit span c.timerFrequency with
    | .error e => (c, .error e)
    | .ok timerCredit => { c with timerCredit }.withdraw

/-- The tick after a span of time since the last one. Dropped cycles are counted and then
warned of; without the warning there is no credit for the tick. -/
def tickAfter (c : Clock τ) (logger : Logger τ) (now elapsed : Quantity τ) : Tick τ :=
  match c.grant elapsed with
  | .error e => { clock := c, due := .error e }
  | .ok (span, none) =>
    let (clock, due) := c.accrue span
    { clock, due }
  | .ok (span, some shortfall) =>
    let c := { c with dropped := c.dropped + shortfall.dropped }
    match shortfall.message >>= logger.write now .warning with
    | .error e => { clock := c, due := .error e }
    | .ok output =>
      let (clock, due) := c.accrue span
      { clock, output, due }

/-- The first tick starts the clock and finds nothing due. A clock that goes back counts as
one that stands still. -/
def tick (c : Clock τ) (logger : Logger τ) (now : Quantity τ) : Tick τ :=
  match c.last with
  | none => { clock := { c with last := some now }, due := .ok { cycles := 0, ticks := 0 } }
  | some last =>
    match now.sub last with
    | .error e => { clock := c, due := .error e }
    | .ok elapsed => { c with last := some now }.tickAfter logger now elapsed.atLeastZero

end Clock

end Chip8
