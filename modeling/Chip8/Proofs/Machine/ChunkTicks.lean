import Mathlib.Data.Int.GCD
import Chip8.Proofs.Machine.Ticks

/-! # Ticks of chunks

A run in chunks numbers the cycles of each chunk from the phase of its first cycle, modulo a
round, and finds the ticks in 32 bits. The chunks begin at the multiples of a common divisor,
so the largest product that a long run meets is known. Its ticks are exact in every cycle if
that product fits, or if each cycle is a round, and otherwise the timers are counted up in the
first cycle whose product does not fit.
-/

namespace Chip8

/-! ## Wrapping -/

theorem exists_wrap32 (n : Int) : ∃ k, wrap32 n = n + 0x100000000 * k :=
  ⟨-((n + 0x80000000) / 0x100000000), by unfold wrap32; omega⟩

theorem wrap32_of_overflow {n : Int} (low : 2 ^ 31 ≤ n) (high : n < 2 ^ 32) :
    wrap32 n = n - 0x100000000 := by
  unfold wrap32
  omega

theorem wrap32_add_mul (n k : Int) : wrap32 (n + 0x100000000 * k) = wrap32 n := by
  unfold wrap32
  omega

theorem wrap32_wrap32_mul (a b : Int) : wrap32 (wrap32 a * b) = wrap32 (a * b) := by
  obtain ⟨k, hk⟩ := exists_wrap32 a
  rw [hk, Int.add_mul, Int.mul_assoc, wrap32_add_mul]

theorem wrap32_wrap32_add (a b : Int) : wrap32 (wrap32 a + b) = wrap32 (a + b) := by
  obtain ⟨k, hk⟩ := exists_wrap32 a
  rw [hk, Int.add_right_comm, wrap32_add_mul]

theorem wrap32_wrap32_sub_wrap32 (a b : Int) : wrap32 (wrap32 a - wrap32 b) = wrap32 (a - b) := by
  obtain ⟨k, hk⟩ := exists_wrap32 a
  obtain ⟨l, hl⟩ := exists_wrap32 b
  rw [hk, hl, show a + 0x100000000 * k - (b + 0x100000000 * l) = a - b + 0x100000000 * (k - l) by
    omega, wrap32_add_mul]

namespace TimerRatio

/-- The ticks that a run in chunks of `size` cycles counts after its cycle `c`. -/
def chunkTicks (r : TimerRatio) (size c : Nat) : Int :=
  r.wrappedTicksAt (wrap32 (((c / size * size : Nat) : Int).fmod r.cycles + (c % size : Nat)))

variable {r : TimerRatio} {f g size : Nat}

/-- Within a chunk that begins after `done` cycles, cycles are numbered from its phase. -/
theorem chunkTicks_add {done k : Nat} (begins : size ∣ done) (h : k < size) :
    r.chunkTicks size (done + k) = r.wrappedTicksAt (wrap32 ((done : Int).fmod r.cycles + k)) := by
  obtain ⟨chunks, rfl⟩ := begins
  have position : (size * chunks + k) / size = chunks := by
    rw [Nat.mul_add_div (by omega), Nat.div_eq_of_lt h, Nat.add_zero]
  have offset : (size * chunks + k) % size = k := by
    rw [Nat.mul_add_mod, Nat.mod_eq_of_lt h]
  rw [chunkTicks, position, offset, Nat.mul_comm chunks]

theorem chunkTicks_eq_ticksAt (hc : 0 < r.cycles) (hd : 0 ≤ r.decrements) (c : Nat)
    (fits : (((c / size * size : Nat) : Int).fmod r.cycles + (c % size : Nat) + 1) * r.decrements
      < 2 ^ 31) :
    r.chunkTicks size c = r.ticksAt c := by
  have start := Int.fmod_nonneg_of_pos ((c / size * size : Nat) : Int) hc
  have number : ((c / size * size : Nat) : Int) + (c % size : Nat) = c := by
    have := Nat.div_add_mod' c size
    omega
  rw [chunkTicks, wrappedTicksAt_wrap32 hc hd (by omega) fits, ticksAt_fmod_add hc, number]

/-- Where each cycle is a round, the wrapped products cancel. -/
theorem chunkTicks_of_round (hg : g < 2 ^ 31) (c : Nat) :
    chunkTicks ⟨g, 1⟩ size c = ticksAt ⟨g, 1⟩ c := by
  have exact : ticksAt ⟨g, 1⟩ c = g := by
    rw [ticksAt_eq (show (0 : Int) < 1 by decide), Int.ediv_one, Int.ediv_one, Int.add_mul,
      Int.one_mul, add_sub_cancel_left]
  have quotient (x : Int) : wrappedQuotient (wrap32 x) 1 = wrap32 x := by
    have := (fits32_iff.mp (fits32_wrap32 x))
    rw [wrappedQuotient, if_neg (by decide), Int.fdiv_one, wrap32_of_fits this.1 this.2]
  rw [exact, chunkTicks]
  generalize (((c / size * size : Nat) : Int).fmod 1 + (c % size : Nat)) = n
  rw [wrappedTicksAt]
  simp only [wrap32_wrap32_add, wrap32_wrap32_mul, quotient, wrap32_wrap32_sub_wrap32]
  rw [Int.add_mul, show n * g + 1 * g - n * g = (g : Int) by omega,
    wrap32_of_fits (by omega) (by omega)]

theorem wrappedTicksAt_neg (hf : 2 ≤ f) (hg : g < 2 ^ 31) {n : Nat} (before : n * g < 2 ^ 31)
    (after : 2 ^ 31 ≤ (n + 1) * g) : wrappedTicksAt ⟨g, f⟩ (wrap32 n) < 0 := by
  have positive : (0 : Int) < f := by omega
  have before : (n * g : Int) < 2 ^ 31 := by exact_mod_cast before
  have after : 2 ^ 31 ≤ ((n + 1) * g : Int) := by exact_mod_cast after
  have product : ((n + 1) * g : Int) = n * g + g := by rw [Int.add_mul, Int.one_mul]
  have nonneg : (0 : Int) ≤ n * g := Int.mul_nonneg (by omega) (by omega)
  have wrapped : wrap32 ((n + 1) * g) = (n + 1) * g - 0x100000000 :=
    wrap32_of_overflow after (by omega)
  have high : ((n + 1) * g - 0x100000000 : Int) / f < 0 :=
    Int.ediv_neg_of_neg_of_pos (by omega) positive
  have low : -0x40000000 ≤ ((n + 1) * g - 0x100000000 : Int) / f :=
    (Int.le_ediv_iff_mul_le positive).mpr (by omega)
  have due : (n * g : Int) / f < 0x40000000 := (Int.ediv_lt_iff_lt_mul positive).mpr (by omega)
  have := Int.ediv_nonneg nonneg (Int.le_of_lt positive)
  have quotient : wrappedQuotient (n * g) f = n * g / f :=
    wrappedQuotient_eq (r := ⟨g, f⟩) positive nonneg before
  rw [wrappedTicksAt]
  simp only [wrap32_wrap32_add, wrap32_wrap32_mul]
  rw [wrapped, wrap32_of_fits (n := n * g) (by omega) (by omega), quotient, wrappedQuotient,
    if_neg (Int.ne_of_gt positive), Int.fdiv_eq_ediv_of_nonneg _ (Int.le_of_lt positive),
    wrap32_of_fits (n := ((n + 1) * g - 0x100000000) / f) (by omega) (by omega),
    wrap32_of_fits (by omega) (by omega)]
  omega

theorem exists_mul_mod_eq {start : Nat} (common : f.gcd size ∣ start) (h : start < f) :
    ∃ k, size * k % f = start := by
  obtain ⟨q, rfl⟩ := common
  have divides : f.gcd size ≤ f := Nat.gcd_le_left size (by omega)
  rcases Nat.lt_or_eq_of_le divides with less | same
  · rw [Nat.gcd_comm] at less h ⊢
    obtain ⟨k, -, hk⟩ := Nat.exists_mul_mod_eq_gcd less
    exact ⟨k * q, by rw [← Nat.mul_assoc, ← Nat.mod_mul_mod, hk, Nat.mod_eq_of_lt h]⟩
  · rw [same] at h ⊢
    obtain rfl : q = 0 := by
      by_contra
      have := Nat.le_mul_of_pos_right f (show 0 < q by omega)
      omega
    exact ⟨0, by simp⟩

theorem mul_mod_le (hf : 0 < f) (k : Nat) : size * k % f ≤ f - f.gcd size := by
  have divides : f.gcd size ∣ f := Nat.gcd_dvd_left f size
  have common : f.gcd size ∣ f - size * k % f := by
    refine Nat.dvd_sub divides ((Nat.dvd_mod_iff divides).mpr ?_)
    exact Nat.dvd_mul_right_of_dvd (Nat.gcd_dvd_right f size) k
  have := Nat.mod_lt (size * k) hf
  have := Nat.le_of_dvd (by omega) common
  omega

theorem exists_chunk (hf : 0 < f) (hs : 0 < size) {n : Nat} (h : n < f - f.gcd size + size) :
    ∃ start, f.gcd size ∣ start ∧ start < f ∧ start ≤ n ∧ n < start + size := by
  have positive : 0 < f.gcd size := Nat.gcd_pos_of_pos_left size hf
  have divisor : f.gcd size ≤ size := Nat.gcd_le_right f hs
  by_cases round : n < f
  · have := Nat.div_add_mod' n (f.gcd size)
    have := Nat.mod_lt n positive
    exact ⟨n / f.gcd size * f.gcd size, Nat.dvd_mul_left _ _, by omega, by omega, by omega⟩
  · exact ⟨f - f.gcd size, Nat.dvd_sub (Nat.gcd_dvd_left f size) (Nat.dvd_refl _), by omega,
      by omega, h⟩

theorem exists_last_product (hg : 0 < g) : ∃ n, n * g < 2 ^ 31 ∧ 2 ^ 31 ≤ (n + 1) * g := by
  have fits := Nat.div_mul_le_self (2 ^ 31 - 1) g
  have next := Nat.lt_mul_div_succ (2 ^ 31 - 1) hg
  rw [Nat.mul_comm] at next
  exact ⟨(2 ^ 31 - 1) / g, by omega, by omega⟩

/-- If the largest product does not fit, some cycle of a long run counts the timers up. -/
theorem exists_chunkTicks_neg (hf : 2 ≤ f) (hg : g < 2 ^ 31) (hs : 0 < size)
    (large : 2 ^ 31 ≤ (f - f.gcd size + size) * g) : ∃ c, chunkTicks ⟨g, f⟩ size c < 0 := by
  have positive : 0 < g := by
    refine Nat.pos_of_ne_zero ?_
    rintro rfl
    omega
  obtain ⟨n, before, after⟩ := exists_last_product positive
  have last : n < f - f.gcd size + size :=
    Nat.lt_of_mul_lt_mul_right (Nat.lt_of_lt_of_le before large)
  obtain ⟨start, common, below, le, lt⟩ := exists_chunk (by omega) hs last
  obtain ⟨k, hk⟩ := exists_mul_mod_eq common below
  have number : ((size * k : Nat) : Int).fmod f + (n - start : Nat) = n := by
    rw [Int.fmod_eq_emod_of_nonneg _ (by omega), ← Int.natCast_mod, hk]
    omega
  refine ⟨size * k + (n - start), ?_⟩
  rw [chunkTicks_add ⟨k, rfl⟩ (by omega), number]
  exact wrappedTicksAt_neg hf hg before after

theorem chunkTicks_eq_iff (hf : 0 < f) (hg : g < 2 ^ 31) (hs : 0 < size) :
    (∀ c : Nat, chunkTicks ⟨g, f⟩ size c = ticksAt ⟨g, f⟩ c) ↔
      f = 1 ∨ (f - f.gcd size + size) * g < 2 ^ 31 := by
  constructor
  · intro exact
    by_contra overflow
    obtain ⟨notOne, large⟩ := not_or.mp overflow
    obtain ⟨c, negative⟩ := exists_chunkTicks_neg (by omega) hg hs (Nat.le_of_not_lt large)
    have nonneg := ticksAt_nonneg (r := ⟨g, f⟩) (show (0 : Int) < f by omega)
      (Int.natCast_nonneg g) c
    rw [exact] at negative
    omega
  · rintro (rfl | fits) c
    · exact chunkTicks_of_round hg c
    · refine chunkTicks_eq_ticksAt (show (0 : Int) < f by omega) (Int.natCast_nonneg g) c ?_
      have start : size * (c / size) % f ≤ f - f.gcd size := mul_mod_le hf (c / size)
      have offset := Nat.mod_lt c hs
      have product : (size * (c / size) % f + c % size + 1) * g
          ≤ (f - f.gcd size + size) * g := Nat.mul_le_mul_right g (by omega)
      dsimp only
      rw [Nat.mul_comm, Int.fmod_eq_emod_of_nonneg _ (by omega), ← Int.natCast_mod]
      exact_mod_cast Nat.lt_of_le_of_lt product fits

end TimerRatio

end Chip8
