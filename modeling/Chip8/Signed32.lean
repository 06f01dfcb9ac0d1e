/-! # Signed 32-bit numbers

Cycle counts, timer schedules and the stack pointer are kept in 32 bits in two's complement.
They are integers here, brought back into range by `wrap32` after every operation.
-/

namespace Chip8

def fits32 (n : Int) : Bool := -0x80000000 ≤ n && n < 0x80000000

def fits64 (n : Int) : Bool := -0x8000000000000000 ≤ n && n < 0x8000000000000000

/-- The number in signed 32-bit range that is congruent to `n` modulo `2 ^ 32`. -/
def wrap32 (n : Int) : Int := (n + 0x80000000) % 0x100000000 - 0x80000000

/-- The number in signed 64-bit range that is congruent to `n` modulo `2 ^ 64`. -/
def wrap64 (n : Int) : Int :=
  (n + 0x8000000000000000) % 0x10000000000000000 - 0x8000000000000000

theorem fits64_iff {n : Int} :
    fits64 n = true ↔ -0x8000000000000000 ≤ n ∧ n < 0x8000000000000000 := by
  simp [fits64]

theorem fits32_iff {n : Int} : fits32 n = true ↔ -0x80000000 ≤ n ∧ n < 0x80000000 := by
  simp [fits32]

theorem wrap32_of_fits {n : Int} (low : -0x80000000 ≤ n) (high : n < 0x80000000) :
    wrap32 n = n := by
  unfold wrap32
  omega

theorem fits32_fmod {b : Int} (fits : fits32 b = true) (h : b ≠ 0) (a : Int) :
    fits32 (a.fmod b) = true := by
  rw [fits32_iff] at fits ⊢
  rw [Int.fmod_eq_emod]
  have low := Int.emod_nonneg a h
  have high := Int.emod_lt a h
  split <;> omega

theorem fits32_wrap32 (n : Int) : fits32 (wrap32 n) = true := by
  rw [fits32_iff, wrap32]
  omega

end Chip8
