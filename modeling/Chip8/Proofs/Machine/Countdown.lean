import Mathlib.Algebra.BigOperators.Group.Finset.Basic
import Mathlib.Algebra.Order.BigOperators.Group.Finset
import Mathlib.Algebra.Order.Floor.Ring
import Mathlib.Data.Rat.Floor
import Chip8.Proofs.Machine.Drives

/-! # Countdowns

The ticks of consecutive cycles are differences of one floor, so they add up to the difference of
the first and the last. Timers stop at zero, and stay there, so many ticks one by one take the same
off them as their sum. A batch without an instruction that sets a timer thus takes off the floors
between its ends, however its cycles are numbered, and no cycle takes off more than its share of the
ratio rounded up or less than that rounded down.
-/

namespace Chip8

namespace TimerRatio

variable {r : TimerRatio}

theorem ticksAt_eq_floor (h : 0 < r.cycles) (c : Int) :
    r.ticksAt c =
      ⌊((c + 1) * r.decrements / r.cycles : ℚ)⌋ - ⌊(c * r.decrements / r.cycles : ℚ)⌋ := by
  obtain ⟨cycles, positive⟩ := Int.eq_ofNat_of_zero_le (Int.le_of_lt h)
  have floor (n : Int) : ⌊(n / r.cycles : ℚ)⌋ = n / r.cycles := by
    rw [positive]
    exact Rat.floor_intCast_div_natCast n cycles
  rw [ticksAt_eq h, ← floor, ← floor]
  push_cast
  rfl

theorem ticksAt_eq_floor_or_ceil (h : 0 < r.cycles) (c : Int) :
    r.ticksAt c = ⌊(r.decrements / r.cycles : ℚ)⌋ ∨
      r.ticksAt c = ⌈(r.decrements / r.cycles : ℚ)⌉ := by
  have share : ((c + 1) * r.decrements / r.cycles : ℚ) =
      c * r.decrements / r.cycles + r.decrements / r.cycles := by ring
  rw [ticksAt_eq_floor h, share]
  generalize (c * r.decrements / r.cycles : ℚ) = before, (r.decrements / r.cycles : ℚ) = share
  have low : ⌊before⌋ + ⌊share⌋ ≤ ⌊before + share⌋ := Int.le_floor_add before share
  have high : ⌊before + share⌋ < ⌊before⌋ + 1 + ⌈share⌉ := by
    rw [Int.floor_lt]
    push_cast
    exact add_lt_add_of_lt_of_le (Int.lt_floor_add_one before) (Int.le_ceil share)
  have near : ⌈share⌉ ≤ ⌊share⌋ + 1 := Int.ceil_le_floor_add_one share
  omega

theorem sum_ticksAt (h : 0 < r.cycles) (phase : Int) (count : Nat) :
    ∑ k ∈ Finset.range count, r.ticksAt (phase + k) =
      ⌊((phase + count) * r.decrements / r.cycles : ℚ)⌋ -
        ⌊(phase * r.decrements / r.cycles : ℚ)⌋ := by
  let due (k : Nat) : Int := ⌊((phase + k) * r.decrements / r.cycles : ℚ)⌋
  have difference (k : Nat) : r.ticksAt (phase + k) = due (k + 1) - due k := by
    rw [ticksAt_eq_floor h]
    simp only [due]
    push_cast
    rw [add_assoc]
  calc ∑ k ∈ Finset.range count, r.ticksAt (phase + k)
      = ∑ k ∈ Finset.range count, (due (k + 1) - due k) :=
        Finset.sum_congr rfl fun k _ => difference k
    _ = due count - due 0 := Finset.sum_range_sub due count
    _ = _ := by simp [due]

end TimerRatio

namespace Machine

variable {m m' : Machine} {ticks : Nat → Int} {count : Nat}

def setsTimer (m : Machine) : Bool :=
  decide (Kind.ldDt.Matches m.word.toNat ∨ Kind.ldSt.Matches m.word.toNat)

theorem timers_step (h : m.step = .ok m') (quiet : m.setsTimer = false) :
    m'.delay = m.delay ∧ m'.sound = m.sound := by
  obtain ⟨k, hk, rfl⟩ := step_eq_ok_iff.mp h
  obtain ⟨noDelay, noSound⟩ := not_or.mp (of_decide_eq_false quiet)
  rw [delay_perform, sound_perform]
  cases k
  case ldDt => exact absurd hk.fits noDelay
  case ldSt => exact absurd hk.fits noSound
  all_goals exact ⟨rfl, rfl⟩

/-- The timers of `m'` are those of `m` less a number of ticks, but not less than zero. -/
structure CountedDown (ticks : Int) (m m' : Machine) : Prop where
  delay : (m'.delay.toNat : Int) = max (m.delay.toNat - ticks) 0
  sound : (m'.sound.toNat : Int) = max (m.sound.toNat - ticks) 0

theorem CountedDown.refl (m : Machine) : CountedDown 0 m m where
  delay := by omega
  sound := by omega

theorem CountedDown.eq (h : CountedDown 0 m m') : m'.delay = m.delay ∧ m'.sound = m.sound := by
  have delay := h.delay
  have sound := h.sound
  exact ⟨UInt8.toNat_inj.mp (by omega), UInt8.toNat_inj.mp (by omega)⟩

theorem CountedDown.trans {m'' : Machine} {a b : Int} (h : CountedDown a m m')
    (h' : CountedDown b m' m'') (more : 0 ≤ b) : CountedDown (a + b) m m'' where
  delay := by
    rw [h'.delay, h.delay]
    omega
  sound := by
    rw [h'.sound, h.sound]
    omega

theorem countedDown_countTimers (m : Machine) {ticks : Int} (low : 0 ≤ ticks)
    (high : ticks < 2 ^ 31) : CountedDown ticks m (m.countTimers ticks) where
  delay := by
    rw [countTimers, toNat_countDown low high]
    omega
  sound := by
    rw [countTimers, toNat_countDown low high]
    omega

theorem countedDown_decayTimers {ticks : Int} (nonneg : 0 ≤ ticks)
    (h : m.decayTimers ticks = .ok m') : CountedDown ticks m m' := by
  unfold decayTimers at h
  split at h
  · next none =>
    obtain rfl := Except.ok.inj h
    obtain rfl : ticks = 0 := by omega
    exact .refl m
  · split at h
    · next fits =>
      obtain rfl := Except.ok.inj h
      exact countedDown_countTimers m nonneg (fits32_iff.mp fits).2
    · cases h

/-- Cycles that set no timer take the sum of their ticks off both timers. -/
theorem countedDown_runTimed (ticks32 : ∀ k < count, 0 ≤ ticks k ∧ ticks k < 2 ^ 31)
    (quiet : ∀ m₁ ∈ m.runLog ticks count, m₁.setsTimer = false) :
    CountedDown (∑ k ∈ Finset.range (m.runTimed ticks count).executed, ticks k) m
      (m.runTimed ticks count).machine := by
  induction count generalizing m ticks with
  | zero => exact .refl m
  | succ count ih =>
    cases hs : m.step with
    | error e =>
      rw [runTimed_of_error hs]
      exact .refl m
    | ok m₁ =>
      rw [runLog_of_step hs, List.forall_mem_cons] at quiet
      obtain ⟨low, high⟩ := ticks32 0 (Nat.succ_pos count)
      have first : CountedDown (ticks 0) m (m₁.countTimers (ticks 0)) := by
        obtain ⟨delay, sound⟩ := timers_step hs quiet.1
        have counted := countedDown_countTimers m₁ low high
        exact ⟨delay ▸ counted.delay, sound ▸ counted.sound⟩
      have others := ih (fun k hk => ticks32 (k + 1) (Nat.succ_lt_succ hk)) quiet.2
      rw [runTimed_of_step hs, Finset.sum_range_succ', add_comm]
      have bound := (runTimed_executed (m := m₁.countTimers (ticks 0)) (fun k => ticks (k + 1))
        count).1
      refine first.trans others (Finset.sum_nonneg fun k hk => ?_)
      have inside := Nat.lt_of_lt_of_le (Finset.mem_range.mp hk) bound
      exact (ticks32 (k + 1) (Nat.succ_lt_succ inside)).1

theorem timers_runTimed
    (quiet : ∀ m₁ ∈ m.runLog (fun _ => 0) count, m₁.setsTimer = false) :
    (m.runTimed (fun _ => 0) count).machine.delay = m.delay ∧
      (m.runTimed (fun _ => 0) count).machine.sound = m.sound := by
  have counted := countedDown_runTimed (fun _ _ => by decide) quiet
  rw [Finset.sum_const_zero] at counted
  exact counted.eq

theorem runTimed_of_lt {k : Nat} (h : k < (m.runTimed ticks count).executed) :
    ∃ m₁ m₂, (m.runLog ticks count)[k]? = some m₁ ∧
      m.runTimed ticks k = { machine := m₁, executed := k } ∧ m₁.step = .ok m₂ ∧
      m.runTimed ticks (k + 1) = { machine := m₂.countTimers (ticks k), executed := k + 1 } := by
  induction count generalizing m ticks k with
  | zero => exact absurd h (Nat.not_lt_zero k)
  | succ count ih =>
    cases hs : m.step with
    | error e =>
      rw [runTimed_of_error hs] at h
      exact absurd h (Nat.not_lt_zero k)
    | ok first =>
      rw [runTimed_of_step hs] at h
      cases k with
      | zero =>
        refine ⟨m, first, ?_, rfl, hs, ?_⟩
        · rw [runLog_of_step hs, List.getElem?_cons_zero]
        · rw [runTimed_of_step hs]
          rfl
      | succ k =>
        obtain ⟨m₁, m₂, logged, before, step, after⟩ := ih (Nat.lt_of_succ_lt_succ h)
        refine ⟨m₁, m₂, ?_, ?_, step, ?_⟩
        · rw [runLog_of_step hs, List.getElem?_cons_succ, logged]
        · rw [runTimed_of_step hs, before]
        · rw [runTimed_of_step hs, after]

/-- A batch whose products fit in 32 bits is run. The cycles of it that complete are those of the
shorter batches, one after the other. The ticks of each are its share of the ratio, rounded down or
up, and together they are the difference of the floors before the first cycle and after the last:
this is what they take off both timers, down to zero, unless an instruction sets one of them. -/
theorem countedDown_runBatch (m : Machine) {count num den phase : Int} (hcount : 1 ≤ count)
    (hcount' : count < 2 ^ 31) (hnum : 0 ≤ num) (hnum' : num < 2 ^ 31) (hden : 1 ≤ den)
    (hden' : den < 2 ^ 31) (fits : (phase % den + count) * num < 2 ^ 31) :
    let ticks := batchTicks ⟨num, den⟩ phase
    let log := m.completed (.batch count ⟨num, den⟩ phase)
    ∃ b, m.runBatch count ⟨num, den⟩ phase = .ok b ∧
      (∀ k < b.executed, ∃ m₁ m₂, log[k]? = some m₁ ∧
        m.runBatch k ⟨num, den⟩ phase = .ok { machine := m₁, executed := k } ∧
        m₁.step = .ok m₂ ∧
        m.runBatch (k + 1) ⟨num, den⟩ phase =
          .ok { machine := m₂.countTimers (ticks k), executed := k + 1 } ∧
        CountedDown (ticks k) m₂ (m₂.countTimers (ticks k)) ∧
        (ticks k = ⌊(num / den : ℚ)⌋ ∨ ticks k = ⌈(num / den : ℚ)⌉)) ∧
      ((∀ m₁ ∈ log, m₁.setsTimer = false) →
        CountedDown (⌊((phase + b.executed) * num / den : ℚ)⌋ - ⌊(phase * num / den : ℚ)⌋) m
          b.machine) := by
  intro ticks log
  have positive : 0 < den := hden
  have length : (count.toNat : Int) = count := Int.toNat_of_nonneg (by omega)
  have exact (k : Nat) (hk : k < count.toNat) :
      ticks k = (⟨num, den⟩ : TimerRatio).ticksAt (phase + k) := by
    refine TimerRatio.wrappedTicksAt_fmod_add positive hnum ?_ hk
    rw [Int.fmod_eq_emod_of_nonneg _ (Int.le_of_lt positive), length]
    exact fits
  have bounds (k : Nat) (hk : k < count.toNat) : 0 ≤ ticks k ∧ ticks k < 2 ^ 31 := by
    rw [exact k hk]
    have low := TimerRatio.ticksAt_nonneg (r := ⟨num, den⟩) positive hnum (phase + k)
    have high := TimerRatio.ticksAt_le (r := ⟨num, den⟩) positive hnum (phase + k)
    exact ⟨low, by dsimp only at high; omega⟩
  have run (n : Int) (hn : n < 2 ^ 31) :
      m.runBatch n ⟨num, den⟩ phase = .ok (m.runTimed ticks n.toNat) :=
    runBatch_eq_ok_runTimed hn positive hden' hnum hnum' phase
  have logged : log = m.runLog ticks count.toNat := completed_batch (run count hcount')
  have executed := (runTimed_executed (m := m) ticks count.toNat).1
  refine ⟨_, run count hcount', fun k hk => ?_, fun quiet => ?_⟩
  · obtain ⟨m₁, m₂, front, before, step, after⟩ := runTimed_of_lt hk
    obtain ⟨low, high⟩ := bounds k (by omega)
    refine ⟨m₁, m₂, logged ▸ front, ?_, step, ?_, countedDown_countTimers m₂ low high, ?_⟩
    · rw [run k (by omega), Int.toNat_natCast, before]
    · rw [run (k + 1) (by omega), show ((k : Int) + 1).toNat = k + 1 by omega, after]
    · rw [exact k (by omega)]
      exact TimerRatio.ticksAt_eq_floor_or_ceil positive _
  · rw [logged] at quiet
    have counted := countedDown_runTimed bounds quiet
    rw [Finset.sum_congr rfl fun k hk => exact k (by have := Finset.mem_range.mp hk; omega),
      TimerRatio.sum_ticksAt positive] at counted
    exact counted

/-- Three decrements in two cycles: five empty instructions after the first cycle are due eight,
two and one in turn. -/
theorem countedDown_runBatch_uneven :
    let m : Machine := { rng := ⟨0, 0⟩, delay := 9, sound := 3 }
    ∃ b, m.runBatch 5 ⟨3, 2⟩ 1 = .ok b ∧ b.executed = 5 ∧
      (∀ m₁ ∈ m.completed (.batch 5 ⟨3, 2⟩ 1), m₁.setsTimer = false) ∧
      b.machine.delay = 1 ∧ b.machine.sound = 0 ∧
      batchTicks ⟨3, 2⟩ 1 0 = 2 ∧ batchTicks ⟨3, 2⟩ 1 1 = 1 := by
  intro m
  have inRange : ((1 : Int) % 2 + 5) * 3 < 2 ^ 31 := by decide
  obtain ⟨b, run, -, down⟩ := countedDown_runBatch m (by decide) (by decide) (by decide) (by decide)
    (by decide) (by decide) inRange
  have quiet : ∀ m₁ ∈ m.completed (.batch 5 ⟨3, 2⟩ 1), m₁.setsTimer = false := by decide +kernel
  have executed : b.executed = 5 := by
    rw [← length_completed_batch run]
    decide +kernel
  have due : ⌊((1 + 5) * 3 / 2 : ℚ)⌋ - ⌊(1 * 3 / 2 : ℚ)⌋ = 8 := by norm_num
  obtain ⟨delay, sound⟩ := down quiet
  rw [executed] at delay sound
  push_cast at delay sound
  rw [due] at delay sound
  refine ⟨b, run, executed, quiet, ?_, ?_, by decide, by decide⟩
  · exact UInt8.toNat_inj.mp (Int.ofNat.inj delay)
  · exact UInt8.toNat_inj.mp (Int.ofNat.inj sound)

end Machine

end Chip8
