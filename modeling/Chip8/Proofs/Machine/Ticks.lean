import Mathlib.Algebra.Group.Int.Defs
import Chip8.Machine.Batch

/-! # Timer ticks

Ticks due after each cycle, in unbounded integers and in 32 bits. They repeat after each round
of cycles, lie between zero and the decrements of a round, and are the same in 32 bits as long
as the products that they are made from fit.
-/

namespace Chip8.TimerRatio

variable {r : TimerRatio} {c : Int}

theorem ticksAt_eq (h : 0 < r.cycles) (c : Int) :
    r.ticksAt c = ((c + 1) * r.decrements) / r.cycles - (c * r.decrements) / r.cycles := by
  have floor (x : Int) : x.fdiv r.cycles = x / r.cycles :=
    Int.fdiv_eq_ediv_of_nonneg x (Int.le_of_lt h)
  rw [ticksAt, floor, floor]

theorem ticksAt_add_mul (h : 0 < r.cycles) (c rounds : Int) :
    r.ticksAt (c + r.cycles * rounds) = r.ticksAt c := by
  have shift (x : Int) : (x + r.cycles * rounds) * r.decrements / r.cycles
      = x * r.decrements / r.cycles + rounds * r.decrements := by
    rw [Int.add_mul, Int.mul_assoc, Int.add_mul_ediv_left _ _ (Int.ne_of_gt h)]
  rw [ticksAt_eq h, ticksAt_eq h, Int.add_right_comm, shift, shift]
  omega

/-- Where a batch starts, modulo a round, makes no difference to its ticks. -/
theorem ticksAt_fmod_add (h : 0 < r.cycles) (phase c : Int) :
    r.ticksAt (phase.fmod r.cycles + c) = r.ticksAt (phase + c) := by
  have round := Int.fmod_add_mul_fdiv phase r.cycles
  calc r.ticksAt (phase.fmod r.cycles + c)
      = r.ticksAt (phase.fmod r.cycles + c + r.cycles * phase.fdiv r.cycles) :=
        (ticksAt_add_mul h _ _).symm
    _ = r.ticksAt (phase + c) := by congr 1; omega

theorem ticksAt_nonneg (h : 0 < r.cycles) (hd : 0 ≤ r.decrements) (c : Int) :
    0 ≤ r.ticksAt c := by
  have step : c * r.decrements ≤ (c + 1) * r.decrements := by
    rw [Int.add_mul]
    omega
  have := Int.ediv_le_ediv h step
  rw [ticksAt_eq h]
  omega

theorem ticksAt_le (h : 0 < r.cycles) (hd : 0 ≤ r.decrements) (c : Int) :
    r.ticksAt c ≤ r.decrements := by
  have step : (c + 1) * r.decrements ≤ c * r.decrements + r.cycles * r.decrements := by
    have : 1 * r.decrements ≤ r.cycles * r.decrements :=
      Int.mul_le_mul_of_nonneg_right (by omega) hd
    rw [Int.add_mul]
    omega
  have := Int.ediv_le_ediv h step
  rw [Int.add_mul_ediv_left _ _ (Int.ne_of_gt h)] at this
  rw [ticksAt_eq h]
  omega

theorem wrappedQuotient_eq (h : 0 < r.cycles) {x : Int} (low : 0 ≤ x) (high : x < 2 ^ 31) :
    wrappedQuotient x r.cycles = x / r.cycles := by
  have := Int.ediv_nonneg low (Int.le_of_lt h)
  have := Int.ediv_le_self r.cycles low
  rw [wrappedQuotient, if_neg (Int.ne_of_gt h), Int.fdiv_eq_ediv_of_nonneg _ (Int.le_of_lt h),
    wrap32_of_fits (by omega) (by omega)]

/-- In 32 bits the ticks are the same as long as the decrements up to the next cycle fit. -/
theorem wrappedTicksAt_wrap32 (h : 0 < r.cycles) (hd : 0 ≤ r.decrements) (hc : 0 ≤ c)
    (fits : (c + 1) * r.decrements < 2 ^ 31) : r.wrappedTicksAt (wrap32 c) = r.ticksAt c := by
  rcases Int.lt_or_eq_of_le hd with positive | zero
  · -- With a decrement to spread, the cycle number fits because its product does.
    have step : (c + 1) * r.decrements = c * r.decrements + r.decrements := by
      rw [Int.add_mul, Int.one_mul]
    have cycle : (c + 1) * 1 ≤ (c + 1) * r.decrements :=
      Int.mul_le_mul_of_nonneg_left (by omega) (by omega)
    have product : 0 ≤ c * r.decrements := Int.mul_nonneg hc hd
    have low := ticksAt_nonneg h hd c
    have high := ticksAt_le h hd c
    rw [ticksAt_eq h] at low high ⊢
    rw [wrappedTicksAt, wrap32_of_fits (n := c) (by omega) (by omega),
      wrap32_of_fits (n := c + 1) (by omega) (by omega),
      wrap32_of_fits (n := (c + 1) * r.decrements) (by omega) (by omega),
      wrap32_of_fits (n := c * r.decrements) (by omega) (by omega),
      wrappedQuotient_eq h (by omega) fits, wrappedQuotient_eq h product (by omega),
      wrap32_of_fits (by omega) (by omega)]
  · rw [ticksAt_eq h, wrappedTicksAt, ← zero]
    simp only [Int.mul_zero, Int.sub_self]
    rfl

theorem wrappedTicksAt_fmod_add (h : 0 < r.cycles) (hd : 0 ≤ r.decrements) {phase : Int}
    {count : Nat} (fits : (phase.fmod r.cycles + count) * r.decrements < 2 ^ 31) {k : Nat}
    (hk : k < count) :
    r.wrappedTicksAt (wrap32 (phase.fmod r.cycles + k)) = r.ticksAt (phase + k) := by
  have start : 0 ≤ phase.fmod r.cycles := Int.fmod_nonneg_of_pos phase h
  have product : (phase.fmod r.cycles + k + 1) * r.decrements ≤
      (phase.fmod r.cycles + count) * r.decrements :=
    Int.mul_le_mul_of_nonneg_right (by omega) hd
  rw [wrappedTicksAt_wrap32 h hd (by omega) (by omega), ticksAt_fmod_add h]

end Chip8.TimerRatio
