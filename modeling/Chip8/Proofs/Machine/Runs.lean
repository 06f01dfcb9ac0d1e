import Chip8.Proofs.Machine.Steps
import Chip8.Proofs.Machine.Ticks

/-! # Batches and single steps

A batch runs the same cycles as a loop of single steps that counts the timers down after each
step in unbounded integers. Both stop in the same state, with the same error, after the same
number of cycles.
-/

namespace Chip8.Machine

variable {m m' : Machine} {r : TimerRatio}

theorem countTimers_zero (m : Machine) : m.countTimers 0 = m := by
  have still (timer : UInt8) : countDown 0 timer = timer := by
    apply UInt8.toNat_inj.mp
    rw [toNat_countDown (by decide) (by decide)]
    rfl
  simp only [countTimers, still]

theorem decayTimers_eq {ticks : Int} (low : 0 ≤ ticks) (high : ticks < 2 ^ 31) :
    m.decayTimers ticks = .ok (m.countTimers ticks) := by
  rcases Int.lt_or_eq_of_le low with positive | rfl
  · rw [decayTimers, if_neg (by omega), if_pos (fits32_iff.mpr ⟨by omega, high⟩)]
  · rw [countTimers_zero]
    rfl

/-! ## Batches -/

/-- What holds of a machine and survives every cycle holds after a batch. -/
theorem cycles_induction {P : Machine → Prop}
    (keeps : ∀ {m m₁ : Machine} (ticks : Int), P m → m.step = .ok m₁ → P (m₁.countTimers ticks))
    {phase : Int} (count executed : Nat) (hm : P m) :
    P (m.cycles r phase count executed).1 := by
  induction count generalizing m executed with
  | zero => exact hm
  | succ count ih =>
    unfold cycles
    cases hs : m.step with
    | error e =>
      obtain ⟨f, hf, -⟩ := step_eq_error_iff.mp hs
      rw [cycle_of_fault hf]
      exact hm
    | ok m₁ =>
      rw [cycle_of_step hs]
      exact ih (executed + 1) (keeps _ hm hs)

/-- A batch falls short of its cycles exactly if the state that it reaches faults, and then it
reports that fault. -/
theorem cycles_stop {phase : Int} {count executed k : Nat} {f : Option Fault}
    (h : m.cycles r phase count executed = (m', k, f)) :
    k ≤ executed + count ∧ (f = none ↔ k = executed + count) ∧
      ∀ g, f = some g → m'.fault? = some g := by
  induction count generalizing m executed with
  | zero =>
    cases h
    exact ⟨Nat.le_refl _, by simp, by simp⟩
  | succ count ih =>
    unfold cycles at h
    cases hf : m.fault? with
    | some g =>
      rw [cycle_of_fault hf] at h
      cases h
      exact ⟨by omega, by simp, fun g' hg => hg ▸ hf⟩
    | none =>
      obtain ⟨kind, hk⟩ := fault?_eq_none_iff.mp hf
      rw [cycle_of_step hk.step] at h
      obtain ⟨bound, short, fault⟩ := ih h
      exact ⟨by omega, by rw [short]; omega, fault⟩

theorem runFrom_stop (m : Machine) (r : TimerRatio) (start : Int) (count : Nat) :
    (m.runFrom r start count).executed ≤ count ∧
      ((m.runFrom r start count).error = none ↔ (m.runFrom r start count).executed = count) ∧
      ∀ e, (m.runFrom r start count).error = some e →
        ∃ f, (m.runFrom r start count).machine.fault? = some f ∧
          e = (m.runFrom r start count).machine.faultError f := by
  have batch : m.cycles r start count 0 = (_, _, _) := rfl
  obtain ⟨bound, short, fault⟩ := cycles_stop batch
  refine ⟨by simpa [runFrom] using bound, by simpa [runFrom] using short, ?_⟩
  intro e he
  obtain ⟨f, hf, rfl⟩ := Option.map_eq_some_iff.mp he
  exact ⟨f, fault f hf, rfl⟩

theorem runBatch_eq_ok {count phase : Int} {b : Batch} (h : m.runBatch count r phase = .ok b) :
    count ≤ 0 ∧ b = { machine := m, executed := 0 } ∨
      0 < count ∧ b = m.runFrom r (phase.fmod r.cycles) count.toNat := by
  unfold runBatch at h
  split at h
  · next none => exact .inl ⟨none, (Except.ok.inj h).symm⟩
  · next some =>
    iterate 4
      split at h
      · cases h
    exact .inr ⟨Int.not_le.mp some, (Except.ok.inj h).symm⟩

/-! ## Single steps -/

/-- Runs `count` single steps, the first one numbered `cycle`, and counts the timers down after
each of them. The loop ends before the first step that fails. -/
def runSteps (r : TimerRatio) : Nat → Int → Machine → Except Failure Batch
  | 0, _, m => .ok { machine := m, executed := 0 }
  | count + 1, cycle, m =>
    match m.step with
    | .error e => .ok { machine := m, executed := 0, error := some e }
    | .ok m₁ =>
      match m₁.decayTimers (r.ticksAt cycle) with
      | .error e => .error e
      | .ok m₂ =>
        (runSteps r count (cycle + 1) m₂).map fun b => { b with executed := b.executed + 1 }

theorem runSteps_of_error {e : ExecutionError} (h : m.step = .error e) (count : Nat)
    (cycle : Int) :
    m.runSteps r (count + 1) cycle = .ok { machine := m, executed := 0, error := some e } := by
  rw [runSteps, h]

theorem runSteps_of_step {m₁ : Machine} (h : m.step = .ok m₁) {cycle : Int}
    (low : 0 ≤ r.ticksAt cycle) (high : r.ticksAt cycle < 2 ^ 31) (count : Nat) :
    m.runSteps r (count + 1) cycle =
      ((m₁.countTimers (r.ticksAt cycle)).runSteps r count (cycle + 1)).map fun b =>
        { b with executed := b.executed + 1 } := by
  rw [runSteps, h]
  simp only [decayTimers_eq low high]

theorem runSteps_succ_eq_ok {count : Nat} {cycle : Int} {b : Batch}
    (h : m.runSteps r (count + 1) cycle = .ok b) :
    (∃ e, m.step = .error e ∧ b = { machine := m, executed := 0, error := some e }) ∨
      ∃ m₁ m₂ rest, m.step = .ok m₁ ∧ m₁.decayTimers (r.ticksAt cycle) = .ok m₂ ∧
        m₂.runSteps r count (cycle + 1) = .ok rest ∧
        b = { rest with executed := rest.executed + 1 } := by
  unfold runSteps at h
  cases hs : m.step with
  | error e =>
    rw [hs] at h
    exact .inl ⟨e, rfl, (Except.ok.inj h).symm⟩
  | ok m₁ =>
    simp only [hs] at h
    cases hd : m₁.decayTimers (r.ticksAt cycle) with
    | error e => simp only [hd, reduceCtorEq] at h
    | ok m₂ =>
      simp only [hd] at h
      cases hr : m₂.runSteps r count (cycle + 1) with
      | error e => simp only [hr, Except.map, reduceCtorEq] at h
      | ok rest =>
        simp only [hr, Except.map, Except.ok.injEq] at h
        exact .inr ⟨m₁, m₂, rest, rfl, hd, hr, h.symm⟩

/-- Cycles that are numbered from `start` on run as single steps that are numbered from `phase`
on, if the two numberings are a number of rounds apart. -/
theorem cycles_eq_runSteps (hc : 0 < r.cycles) (hd : 0 ≤ r.decrements) (hd' : r.decrements < 2 ^ 31)
    {start phase : Int} (hs : 0 ≤ start)
    (apart : ∀ c : Int, r.ticksAt (start + c) = r.ticksAt (phase + c))
    {count executed : Nat} (fits : (start + executed + count) * r.decrements < 2 ^ 31) :
    ∃ b f, m.runSteps r count (phase + executed) = .ok b ∧
      m.cycles r start count executed = (b.machine, executed + b.executed, f) ∧
      b.error = f.map b.machine.faultError := by
  induction count generalizing m executed with
  | zero => exact ⟨{ machine := m, executed := 0 }, none, rfl, rfl, rfl⟩
  | succ count ih =>
    unfold cycles
    cases hstep : m.step with
    | error e =>
      obtain ⟨f, hf, rfl⟩ := step_eq_error_iff.mp hstep
      rw [cycle_of_fault hf, runSteps_of_error hstep]
      exact ⟨_, some f, rfl, rfl, rfl⟩
    | ok m₁ =>
      have product : (start + executed + 1) * r.decrements
          ≤ (start + executed + (count + 1 : Nat)) * r.decrements :=
        Int.mul_le_mul_of_nonneg_right (by omega) hd
      -- No product of this cycle exceeds the last one's, so nothing wraps.
      have ticks : r.wrappedTicksAt (wrap32 (start + executed)) = r.ticksAt (phase + executed) := by
        rw [TimerRatio.wrappedTicksAt_wrap32 hc hd (by omega) (by omega), apart]
      have low := TimerRatio.ticksAt_nonneg hc hd (phase + executed)
      have high := TimerRatio.ticksAt_le hc hd (phase + executed)
      have next : start + (executed + 1 : Nat) + count = start + executed + (count + 1 : Nat) := by
        omega
      obtain ⟨b, f, loop, batch, error⟩ :=
        ih (m := m₁.countTimers (r.ticksAt (phase + executed))) (next ▸ fits)
      rw [cycle_of_step hstep, ticks, runSteps_of_step hstep low (by omega)]
      refine ⟨{ b with executed := b.executed + 1 }, f, ?_, ?_, error⟩
      · rw [show phase + executed + 1 = phase + (executed + 1 : Nat) by omega, loop]
        rfl
      · simp only [batch]
        congr 2
        omega

theorem runFrom_eq_runSteps (m : Machine) (hc : 0 < r.cycles) (hd : 0 ≤ r.decrements)
    (hd' : r.decrements < 2 ^ 31) {phase : Int} {count : Nat}
    (fits : (phase.fmod r.cycles + count) * r.decrements < 2 ^ 31) :
    m.runSteps r count phase = .ok (m.runFrom r (phase.fmod r.cycles) count) := by
  have start : 0 ≤ phase.fmod r.cycles := Int.fmod_nonneg_of_pos phase hc
  have fits' : (phase.fmod r.cycles + (0 : Nat) + count) * r.decrements < 2 ^ 31 := by
    simpa using fits
  obtain ⟨b, f, loop, batch, error⟩ :=
    cycles_eq_runSteps (m := m) hc hd hd' start (TimerRatio.ticksAt_fmod_add hc phase) fits'
  rw [runFrom, batch]
  simp only [Nat.zero_add, ← error]
  simpa using loop

theorem runBatch_runSteps (m : Machine) (hc : 0 < r.cycles) (hc' : r.cycles < 2 ^ 31)
    (hd : 0 ≤ r.decrements) (hd' : r.decrements < 2 ^ 31) {count : Int} (hcount : count < 2 ^ 31)
    (phase : Int) (fits : (phase.fmod r.cycles + count.toNat) * r.decrements < 2 ^ 31) :
    ∃ b, m.runBatch count r phase = .ok b ∧ m.runSteps r count.toNat phase = .ok b := by
  by_cases none : count ≤ 0
  · refine ⟨{ machine := m, executed := 0 }, if_pos none, ?_⟩
    rw [Int.toNat_of_nonpos none]
    rfl
  · refine ⟨m.runFrom r (phase.fmod r.cycles) count.toNat, ?_,
      runFrom_eq_runSteps m hc hd hd' fits⟩
    have count32 : fits32 count = true := fits32_iff.mpr ⟨by omega, hcount⟩
    have decrements32 : fits32 r.decrements = true := fits32_iff.mpr ⟨by omega, hd'⟩
    have cycles32 : fits32 r.cycles = true := fits32_iff.mpr ⟨by omega, hc'⟩
    rw [runBatch, if_neg none]
    simp [count32, decrements32, cycles32, show r.cycles ≠ 0 by omega]

/-- A batch returns what the loop of single steps returns: the same state after the same number
of cycles, and the error of the step that failed, if one did. -/
theorem runBatch_eq_runSteps (m : Machine) {count num den phase : Int}
    (hcount : 1 ≤ count) (hcount' : count < 2 ^ 31) (hnum : 0 ≤ num) (hnum' : num < 2 ^ 31)
    (hden : 1 ≤ den) (hden' : den < 2 ^ 31) (fits : (phase % den + count) * num < 2 ^ 31) :
    ∃ b, m.runBatch count ⟨num, den⟩ phase = .ok b ∧
      m.runSteps ⟨num, den⟩ count.toNat phase = .ok b ∧
      b.executed ≤ count.toNat ∧ (b.error = none ↔ b.executed = count.toNat) := by
  have start : phase.fmod den = phase % den := Int.fmod_eq_emod_of_nonneg phase (by omega)
  have length : (count.toNat : Int) = count := Int.toNat_of_nonneg (by omega)
  obtain ⟨b, batch, loop⟩ := runBatch_runSteps m (r := ⟨num, den⟩) (show 0 < den by omega) hden'
    hnum hnum' hcount' phase (by simpa only [start, length] using fits)
  refine ⟨b, batch, loop, ?_⟩
  rcases runBatch_eq_ok batch with ⟨none, -⟩ | ⟨-, rfl⟩
  · omega
  · obtain ⟨bound, short, -⟩ := m.runFrom_stop ⟨num, den⟩ (phase.fmod den) count.toNat
    exact ⟨bound, short⟩

/-- Two empty instructions before the end of memory: a batch of five cycles stops at the third. -/
theorem runBatch_eq_runSteps_near_end :
    (7 % 500 + 5) * 60 < (2 : Int) ^ 31 ∧
      ∃ b, ({ rng := ⟨0, 0⟩, pc := 0xFFB } : Machine).runBatch 5 ⟨60, 500⟩ 7 = .ok b ∧
        ({ rng := ⟨0, 0⟩, pc := 0xFFB } : Machine).runSteps ⟨60, 500⟩ 5 7 = .ok b ∧
        b.executed ≤ 5 ∧ (b.error = none ↔ b.executed = 5) :=
  ⟨by decide, runBatch_eq_runSteps _ (by decide) (by decide) (by decide) (by decide) (by decide)
    (by decide) (by decide)⟩

end Chip8.Machine
