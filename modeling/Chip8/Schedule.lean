import Chip8.Machine.Batch
import Chip8.Time

/-! # Timer schedules

A schedule counts the timers down a number of times in a number of cycles, either of which
may be a fraction. Cycle by cycle the ticks due are computed with the fractions. A batch
takes the integer parts of both numbers, in 32 bits. A schedule of integers is a timer ratio,
and the two ways agree as those of the ratio do.
-/

namespace Chip8

/-- So many timer decrements in so many cycles. -/
structure Schedule (τ : Type) where
  decrements : Quantity τ := .whole 0
  cycles : Quantity τ := .whole 1
  deriving Repr

variable {τ : Type} [TimeScale τ]

namespace Quantity

/-- The integer part, which has to fit in 32 bits. -/
def signed32 (q : Quantity τ) : Except Failure Int :=
  match q.truncate with
  | .ok n => if fits32 n then .ok n else .error (.outOfRange (.signed32 n))
  | .error e => .error e

theorem signed32_whole (n : Int) :
    (whole n : Quantity τ).signed32
      = if fits32 n then .ok n else .error (.outOfRange (.signed32 n)) :=
  rfl

end Quantity

namespace Schedule

def dueBefore (s : Schedule τ) (c : Int) : Except Failure (Quantity τ) := do
  let product ← (Quantity.whole c).mul s.decrements
  product.floorDiv s.cycles

def ticksAt (s : Schedule τ) (c : Int) : Except Failure (Quantity τ) := do
  let after ← s.dueBefore (c + 1)
  let before ← s.dueBefore c
  after.sub before

def ratio (s : Schedule τ) : Except Failure TimerRatio := do
  let decrements ← s.decrements.signed32
  let cycles ← s.cycles.signed32
  return { decrements, cycles }

/-- The number of a batch's first cycle: its phase modulo the cycles of the schedule. -/
def start (s : Schedule τ) (phase : Quantity τ) : Except Failure Int := do
  let first ← phase.modulo s.cycles
  first.signed32

theorem ticksAt_whole {a b : Int} (h : b ≠ 0) (c : Int) :
    (⟨.whole a, .whole b⟩ : Schedule τ).ticksAt c
      = .ok (.whole (TimerRatio.ticksAt ⟨a, b⟩ c)) := by
  simp [ticksAt, dueBefore, Quantity.mul, Quantity.floorDiv, Quantity.sub, Quantity.combine,
    Quantity.combineNonzero, Quantity.isZero, h, TimerRatio.ticksAt, bind, Except.bind]

end Schedule

namespace Machine

/-- Counts both timers down, stopping at zero. No ticks and negative ones do nothing. -/
def decay (m : Machine) : Quantity τ → Except Failure Machine
  | .whole ticks => m.decayTimers ticks
  | .real ticks =>
    if TimeScale.le ticks TimeScale.zero then .ok m
    else
      .ok { m with
        delay := TimeScale.countDown ticks m.delay
        sound := TimeScale.countDown ticks m.sound }

/-- Runs `count` cycles on a schedule. A batch of no cycles asks nothing of the schedule. -/
def runScheduled (m : Machine) (count : Quantity τ) (s : Schedule τ) (phase : Quantity τ) :
    Except Failure Batch :=
  if count.isNotPositive then .ok { machine := m, executed := 0 }
  else do
    let count ← count.signed32
    let ratio ← s.ratio
    let start ← s.start phase
    return m.runFrom ratio start count.toNat

theorem runScheduled_whole (m : Machine) (count a b phase : Int) :
    m.runScheduled (.whole count) (⟨.whole a, .whole b⟩ : Schedule τ) (.whole phase)
      = m.runBatch count ⟨a, b⟩ phase := by
  unfold runScheduled runBatch
  by_cases positive : count ≤ 0
  · simp [Quantity.isNotPositive, positive]
  cases hc : fits32 count
  · simp [Quantity.isNotPositive, positive, Quantity.signed32_whole, hc, bind, Except.bind]
  cases ha : fits32 a
  · simp [Quantity.isNotPositive, positive, Schedule.ratio, Quantity.signed32_whole, hc, ha,
      bind, Except.bind]
  cases hb : fits32 b
  · simp [Quantity.isNotPositive, positive, Schedule.ratio, Quantity.signed32_whole, hc, ha,
      hb, bind, Except.bind]
  by_cases h : b = 0
  · subst h
    simp [Quantity.isNotPositive, positive, Schedule.ratio, Schedule.start, Quantity.modulo,
      Quantity.combineNonzero, Quantity.combine, Quantity.isZero, Quantity.signed32_whole, hc,
      ha, hb, bind, Except.bind, pure, Except.pure]
  · simp [Quantity.isNotPositive, positive, Schedule.ratio, Schedule.start, Quantity.modulo,
      Quantity.combineNonzero, Quantity.combine, Quantity.isZero, Quantity.signed32_whole, hc,
      ha, hb, h, fits32_fmod hb h, bind, Except.bind, pure, Except.pure]

end Machine

end Chip8
