import Chip8.Proofs.Session.Chunks

/-! # Frequencies of runs

A configuration may ask for any positive frequencies. A run of cycles takes them in 32 bits, and
so do the products that its timer ticks are made from. The frequencies for which both fit are
determined here; for all others a run fails before its first instruction, or counts the timers
down by a wrong number of ticks, which may even be negative.
-/

namespace Chip8

namespace Machine

variable {m m₁ : Machine}

theorem countDown_le {ticks : Int} (low : 0 ≤ ticks) (high : ticks < 2 ^ 31) (timer : UInt8) :
    countDown ticks timer ≤ timer := by
  rw [UInt8.le_iff_toNat_le, toNat_countDown low high]
  omega

theorem Completes.timers_le {k : Kind} (h : m.Completes k) (hs : m.step = .ok m₁) {ticks : Int}
    (low : 0 ≤ ticks) (high : ticks < 2 ^ 31) :
    (k ≠ .ldDt → (m₁.countTimers ticks).delay ≤ m.delay) ∧
      (k ≠ .ldSt → (m₁.countTimers ticks).sound ≤ m.sound) := by
  obtain rfl := Except.ok.inj (h.step.symm.trans hs)
  constructor
  · intro other
    have kept : (m.perform k m.bus m.operands).delay = m.delay := by
      rw [delay_perform]
      split
      · exact absurd rfl other
      · rfl
    exact kept ▸ countDown_le low high _
  · intro other
    have kept : (m.perform k m.bus m.operands).sound = m.sound := by
      rw [sound_perform]
      split
      · exact absurd rfl other
      · rfl
    exact kept ▸ countDown_le low high _

theorem runBatch_of_large (m : Machine) {f g : Nat} (large : ¬(f < 2 ^ 31 ∧ g < 2 ^ 31)) :
    ∃ e, m.runBatch 1 ⟨g, f⟩ 0 = .error (.outOfRange e) := by
  unfold runBatch
  rw [if_neg (by decide), if_neg (by decide)]
  by_cases timer : fits32 g
  · have cpu : fits32 f = false := by
      rw [Bool.eq_false_iff, ne_eq, fits32_iff]
      rw [fits32_iff] at timer
      omega
    rw [if_neg (by simpa using timer), if_pos (by simpa using cpu)]
    exact ⟨_, rfl⟩
  · rw [if_pos (by simpa using timer)]
    exact ⟨_, rfl⟩

end Machine

namespace Session

variable {τ : Type} [TimeScale τ] {s : Session τ} {f g : Nat}

/-- The timer arithmetic of a session's runs is safe: a run fails with execution errors only, the
ticks after every cycle are those of the frequencies in unbounded integers, and no other cycle
than one that sets a timer leaves it higher than it was. -/
structure TimersSafe (s : Session τ) (r : TimerRatio) : Prop where
  failures : ∀ (count : Int) (e : Failure), (s.runCycles (.whole count)).2 = .error e →
    ∃ x, e = .execution x
  ticks : ∀ c : Nat, r.chunkTicks chunkSize c = r.ticksAt c
  timers : ∀ (c : Nat) (m m₁ : Machine) (k : Kind), m.Completes k → m.step = .ok m₁ →
    (k ≠ .ldDt → (m₁.countTimers (r.chunkTicks chunkSize c)).delay ≤ m.delay) ∧
      (k ≠ .ldSt → (m₁.countTimers (r.chunkTicks chunkSize c)).sound ≤ m.sound)

theorem runBatch_eq_error {count a b phase : Int} {e : Failure}
    (h : s.machine.runBatch count ⟨a, b⟩ phase = .error e) :
    s.runBatch (.whole count) ⟨.whole a, .whole b⟩ phase = (s, .error e) := by
  rw [runBatch, Machine.runScheduled_whole, h]

theorem runCycles_of_large (quiet : s.traced = false) (pace : s.schedule = ⟨.whole g, .whole f⟩)
    (large : ¬(f < 2 ^ 31 ∧ g < 2 ^ 31)) :
    ∃ e, (s.runCycles (.whole 1)).2 = .error (.outOfRange e) := by
  obtain ⟨e, failed⟩ := s.loadKeypad.machine.runBatch_of_large large
  have chunk : s.loadKeypad.advance 1 ⟨.whole g, .whole f⟩ 0
      = (s.loadKeypad, .error (.outOfRange e)) := by
    rw [advance, if_neg (by rw [show s.loadKeypad.traced = false from quiet]; decide)]
    exact runBatch_eq_error failed
  refine ⟨e, ?_⟩
  rw [runCycles_whole, runCyclesIn, pace, runChunks]
  have length : ((min (Int.toNat 1) chunkSize : Nat) : Int) = 1 := by decide
  dsimp only
  rw [length, Int.natCast_zero, chunk, dif_neg (by decide)]

theorem positive_of_valid (cpu : s.config.cpuFrequency = .whole f)
    (timer : s.config.timerFrequency = .whole g) (valid : s.config.violation? = none) :
    0 < f ∧ 0 < g := by
  unfold Config.violation? at valid
  rw [cpu, timer] at valid
  constructor
  · by_contra none
    rw [if_pos (by simpa [Quantity.isNotPositive] using none)] at valid
    cases valid
  · by_contra none
    split at valid
    · cases valid
    · rw [if_pos (by simpa [Quantity.isNotPositive] using none)] at valid
      cases valid

/-- The runs of a session without a trace count the timers down as timed runs by the ticks of its
chunks. Their timer arithmetic is safe if and only if the frequencies fit in 32 bits and so does
the largest product that a chunk meets; with one cycle in a second no product matters. -/
theorem timersSafe_iff (s : Session τ) (quiet : s.traced = false)
    (cpu : s.config.cpuFrequency = .whole f) (timer : s.config.timerFrequency = .whole g)
    (valid : s.config.violation? = none) :
    (f < 2 ^ 31 → g < 2 ^ 31 → ∀ count : Int, s.runCycles (.whole count) =
      s.afterRun (s.loadKeypad.machine.runTimed (TimerRatio.chunkTicks ⟨g, f⟩ chunkSize)
        count.toNat)) ∧
    (s.TimersSafe ⟨g, f⟩ ↔ f < 2 ^ 31 ∧ g < 2 ^ 31 ∧
      (f = 1 ∨ (f - f.gcd chunkSize + chunkSize) * g < 2 ^ 31)) := by
  have pace : s.schedule = ⟨.whole g, .whole f⟩ := by rw [schedule, cpu, timer]
  obtain ⟨hf, hg⟩ := positive_of_valid cpu timer valid
  have run (hf' : f < 2 ^ 31) (hg' : g < 2 ^ 31) (count : Int) : s.runCycles (.whole count) =
      s.afterRun (s.loadKeypad.machine.runTimed (TimerRatio.chunkTicks ⟨g, f⟩ chunkSize)
        count.toNat) :=
    runCycles_eq_runTimed quiet pace (by omega) (by omega) (by omega) (by omega) count
  refine ⟨run, ?_, ?_⟩
  · intro safe
    by_cases large : f < 2 ^ 31 ∧ g < 2 ^ 31
    · exact ⟨large.1, large.2, (TimerRatio.chunkTicks_eq_iff hf large.2 (by decide)).mp safe.ticks⟩
    · obtain ⟨e, failed⟩ := runCycles_of_large quiet pace large
      obtain ⟨x, hx⟩ := safe.failures 1 _ failed
      cases hx
  · rintro ⟨hf', hg', fits⟩
    have exact := (TimerRatio.chunkTicks_eq_iff hf hg' (by decide)).mpr fits
    refine ⟨fun count e failed => ?_, exact, fun c m m₁ k completes step => ?_⟩
    · rw [run hf' hg', afterRun] at failed
      dsimp only at failed
      split at failed
      · cases failed
      · exact ⟨_, (Except.error.inj failed).symm⟩
    · have positive : (0 : Int) < f := by omega
      have low := TimerRatio.ticksAt_nonneg (r := ⟨g, f⟩) positive (Int.natCast_nonneg g) c
      have high : TimerRatio.ticksAt ⟨g, f⟩ c ≤ g :=
        TimerRatio.ticksAt_le positive (Int.natCast_nonneg g) c
      rw [exact]
      exact completes.timers_le step low (by omega)

/-- The default frequencies are safe by far. -/
theorem timersSafe_iff_default :
    ∃ s : Session Rat, create {} Machine.delayProgram "delay" ⟨0, 0⟩ (.whole 0) = .ok s ∧
      s.traced = false ∧ s.config.violation? = none ∧ s.TimersSafe ⟨60, 500⟩ := by
  have info : LogLevel.ofName? ({} : Config Rat).logLevel = some .info := by decide +kernel
  obtain ⟨s, made, config, -, quiet⟩ := exists_create_eq Machine.delayProgram info (by decide)
    (Quantity.measurableFrom_rat (.whole 0) (.whole 0)) "delay" ⟨0, 0⟩
  have cpu : s.config.cpuFrequency = .whole (500 : Nat) := by rw [config]; rfl
  have timer : s.config.timerFrequency = .whole (60 : Nat) := by rw [config]; rfl
  have valid : s.config.violation? = none := by rw [config]; decide +kernel
  have safe := (timersSafe_iff s quiet cpu timer valid).2.mpr
    ⟨by decide, by decide, .inr (by decide)⟩
  exact ⟨s, made, quiet, valid, safe⟩

/-- At the largest frequencies that fit every cycle is a timer tick. The product of the second
cycle wraps around, and the jump after three cycles leaves the timer higher than it was. -/
theorem timers_rise_at_top_frequencies :
    ∃ s : Session Rat,
      create { cpuFrequency := .whole 2147483647, timerFrequency := .whole 2147483647 }
        Machine.delayProgram "delay" ⟨0, 0⟩ (.whole 0) = .ok s ∧
      s.traced = false ∧ s.config.violation? = none ∧
      (s.runCycles (.whole 3)).1.machine.delay = 6 ∧
      (s.runCycles (.whole 4)).2 = .ok () ∧ (s.runCycles (.whole 4)).1.machine.delay = 7 ∧
      (s.loadKeypad.machine.runTimed (TimerRatio.ticksAt ⟨2147483647, 2147483647⟩ ·)
        4).machine.delay = 2 := by
  let config : Config Rat :=
    { cpuFrequency := .whole 2147483647, timerFrequency := .whole 2147483647 }
  have info : LogLevel.ofName? config.logLevel = some .info := by decide +kernel
  obtain ⟨s, made, hs, holds, quiet⟩ := exists_create_eq Machine.delayProgram info (by decide)
    (Quantity.measurableFrom_rat (.whole 0) (.whole 0)) "delay" ⟨0, 0⟩
  have valid : s.config.violation? = none := by
    rw [hs]
    decide +kernel
  have pace : s.schedule = ⟨.whole 2147483647, .whole 2147483647⟩ := by rw [schedule, hs]
  have run := runCycles_eq_runTimed quiet pace (by decide) (by decide) (by decide) (by decide)
  have delays := Machine.runTimed_delayProgram holds
  obtain ⟨-, three⟩ := delays (TimerRatio.chunkTicks ⟨2147483647, 2147483647⟩ chunkSize) 1
  obtain ⟨completes, four⟩ := delays (TimerRatio.chunkTicks ⟨2147483647, 2147483647⟩ chunkSize) 2
  obtain ⟨-, exact⟩ := delays (TimerRatio.ticksAt ⟨2147483647, 2147483647⟩ ·) 2
  refine ⟨s, made, quiet, valid, ?_, ?_, ?_, exact.trans (by decide)⟩
  · rw [run]
    exact three.trans (by decide)
  · rw [run, afterRun_eq_ok_iff]
    exact completes
  · rw [run]
    exact four.trans (by decide)

end Session

end Chip8
