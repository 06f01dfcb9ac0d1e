import Chip8.Proofs.Machine.Effects
import Chip8.Proofs.Machine.Runs

/-! # Timed runs

A timed run does single steps and counts the timers down after each by a given number of
ticks. It is what a batch does, with the ticks of its schedule in 32 bits. Timed runs compose:
one run of many cycles is a run of the first ones followed by a run of the others, and it
depends on the ticks of its own cycles only.
-/

namespace Chip8

/-- Goes on where a batch ended, unless it ended with an error. -/
def Batch.andThen (b : Batch) (next : Machine → Batch) : Batch :=
  match b.error with
  | some _ => b
  | none => { next b.machine with executed := b.executed + (next b.machine).executed }

theorem Batch.andThen_of_none {b : Batch} (h : b.error = none) (next : Machine → Batch) :
    b.andThen next =
      { next b.machine with executed := b.executed + (next b.machine).executed } := by
  rw [andThen, h]

theorem Batch.andThen_of_ne_none {b : Batch} (h : b.error ≠ none) (next : Machine → Batch) :
    b.andThen next = b := by
  obtain ⟨e, he⟩ := Option.ne_none_iff_exists'.mp h
  rw [andThen, he]

namespace Machine

variable {m : Machine} {r : TimerRatio}

/-- Runs `count` steps, counting the timers down by `ticks k` after step `k`. The run ends
before the first step that fails. -/
def runTimed (ticks : Nat → Int) : Nat → Machine → Batch
  | 0, m => { machine := m, executed := 0 }
  | count + 1, m =>
    match m.step with
    | .error e => { machine := m, executed := 0, error := some e }
    | .ok m₁ =>
      let rest := runTimed (fun k => ticks (k + 1)) count (m₁.countTimers (ticks 0))
      { rest with executed := rest.executed + 1 }

theorem runTimed_of_error {e : ExecutionError} (h : m.step = .error e) (ticks : Nat → Int)
    (count : Nat) :
    m.runTimed ticks (count + 1) = { machine := m, executed := 0, error := some e } := by
  rw [runTimed, h]

theorem runTimed_of_step {m₁ : Machine} (h : m.step = .ok m₁) (ticks : Nat → Int) (count : Nat) :
    m.runTimed ticks (count + 1) =
      let rest := (m₁.countTimers (ticks 0)).runTimed (fun k => ticks (k + 1)) count
      { rest with executed := rest.executed + 1 } := by
  rw [runTimed, h]

/-- Only what the ticks of the cycles that are run do to a timer matters. -/
theorem runTimed_congr {ticks ticks' : Nat → Int} {count : Nat}
    (h : ∀ k < count, countDown (ticks k) = countDown (ticks' k)) :
    m.runTimed ticks count = m.runTimed ticks' count := by
  induction count generalizing m ticks ticks' with
  | zero => rfl
  | succ count ih =>
    cases hs : m.step with
    | error e => rw [runTimed_of_error hs, runTimed_of_error hs]
    | ok m₁ =>
      have timers : m₁.countTimers (ticks 0) = m₁.countTimers (ticks' 0) := by
        rw [countTimers, countTimers, h 0 (by omega)]
      rw [runTimed_of_step hs, runTimed_of_step hs, timers]
      rw [ih fun k hk => h (k + 1) (by omega)]

theorem runTimed_add (ticks : Nat → Int) (a b : Nat) :
    m.runTimed ticks (a + b) =
      (m.runTimed ticks a).andThen (runTimed (fun k => ticks (a + k)) b) := by
  induction a generalizing m ticks with
  | zero =>
    simp only [Nat.zero_add, runTimed, Batch.andThen]
  | succ a ih =>
    rw [Nat.add_right_comm]
    cases hs : m.step with
    | error e =>
      rw [runTimed_of_error hs, runTimed_of_error hs]
      rfl
    | ok m₁ =>
      rw [runTimed_of_step hs, runTimed_of_step hs, ih]
      have shift : (fun k => ticks (a + k + 1)) = fun k => ticks (a + 1 + k) :=
        funext fun k => congrArg ticks (by omega)
      dsimp only
      rw [shift]
      generalize (m₁.countTimers (ticks 0)).runTimed (fun k => ticks (k + 1)) a = first
      obtain ⟨machine, executed, _ | e⟩ := first
      · simp only [Batch.andThen]
        congr 1
        omega
      · rfl

theorem runTimed_error_of_add {ticks : Nat → Int} {a b : Nat}
    (h : (m.runTimed ticks (a + b)).error = none) : (m.runTimed ticks a).error = none := by
  cases fails : (m.runTimed ticks a).error with
  | none => rfl
  | some e =>
    rw [runTimed_add, Batch.andThen_of_ne_none (by simp [fails]), fails] at h
    exact h

theorem runTimed_executed (ticks : Nat → Int) (count : Nat) :
    (m.runTimed ticks count).executed ≤ count ∧
      ((m.runTimed ticks count).error = none ↔ (m.runTimed ticks count).executed = count) := by
  induction count generalizing m ticks with
  | zero => exact ⟨Nat.le_refl _, by simp [runTimed]⟩
  | succ count ih =>
    cases hs : m.step with
    | error e =>
      rw [runTimed_of_error hs]
      exact ⟨Nat.zero_le _, by simp⟩
    | ok m₁ =>
      rw [runTimed_of_step hs]
      obtain ⟨bound, short⟩ := ih (m := m₁.countTimers (ticks 0)) fun k => ticks (k + 1)
      exact ⟨by dsimp only; omega, short.trans (by dsimp only; omega)⟩

/-! ## Keys and the draw flag -/

theorem keypad_runTimed (ticks : Nat → Int) (count : Nat) :
    (m.runTimed ticks count).machine.keypad = m.keypad := by
  induction count generalizing m ticks with
  | zero => rfl
  | succ count ih =>
    cases hs : m.step with
    | error e => rw [runTimed_of_error hs]
    | ok m₁ =>
      obtain ⟨k, -, rfl⟩ := step_eq_ok_iff.mp hs
      rw [runTimed_of_step hs]
      exact (ih _).trans (keypad_perform _ _ _ k)

theorem step_draw_of_error {e : ExecutionError} (h : m.step = .error e) (draw : Bool) :
    { m with draw }.step = .error e := by
  obtain ⟨f, hf, rfl⟩ := step_eq_error_iff.mp h
  exact step_eq_error_iff.mpr ⟨f, hf, rfl⟩

theorem step_draw {m₁ : Machine} (h : m.step = .ok m₁) :
    ∃ drawn : Bool, (drawn = false → m₁.display = m.display) ∧
      ∀ draw, { m with draw }.step = .ok { m₁ with draw := drawn || draw } := by
  obtain ⟨k, hk, rfl⟩ := step_eq_ok_iff.mp h
  refine ⟨draws k, fun dark => ?_, fun draw => ?_⟩
  · rw [display_perform]
    split
    · cases dark
    · cases dark
    · rfl
  · have completes : { m with draw }.Completes k := ⟨hk.fetched, hk.fits, hk.passed⟩
    rw [completes.step, ← perform_draw]
    rfl

theorem runTimed_draw (ticks : Nat → Int) (count : Nat) :
    ∃ drawn : Bool, (drawn = false → (m.runTimed ticks count).machine.display = m.display) ∧
      ∀ draw, { m with draw }.runTimed ticks count =
        { m.runTimed ticks count with
          machine := { (m.runTimed ticks count).machine with draw := drawn || draw } } := by
  induction count generalizing m ticks with
  | zero => exact ⟨false, fun _ => rfl, fun draw => by simp only [runTimed, Bool.false_or]⟩
  | succ count ih =>
    cases hs : m.step with
    | error e =>
      refine ⟨false, fun _ => by rw [runTimed_of_error hs], fun draw => ?_⟩
      rw [runTimed_of_error hs, runTimed_of_error (step_draw_of_error hs draw), Bool.false_or]
    | ok m₁ =>
      obtain ⟨first, shown, flag⟩ := step_draw hs
      obtain ⟨later, shown', flag'⟩ := ih (m := m₁.countTimers (ticks 0)) fun k => ticks (k + 1)
      refine ⟨later || first, fun dark => ?_, fun draw => ?_⟩
      · obtain ⟨dark', dark⟩ := Bool.or_eq_false_iff.mp dark
        rw [runTimed_of_step hs]
        exact (shown' dark').trans (shown dark)
      · rw [runTimed_of_step hs, runTimed_of_step (flag draw), Bool.or_assoc]
        have timers : ({ m₁ with draw := first || draw } : Machine).countTimers (ticks 0) =
            { m₁.countTimers (ticks 0) with draw := first || draw } := rfl
        rw [timers, flag']

/-! ## Batches -/

theorem cycles_eq_runTimed (start : Int) (count executed : Nat) {b : Batch}
    (h : m.runTimed (fun k => r.wrappedTicksAt (wrap32 (start + (executed + k : Nat)))) count = b) :
    ∃ f, m.cycles r start count executed = (b.machine, executed + b.executed, f) ∧
      b.error = f.map b.machine.faultError := by
  -- The batch numbers its cycles from those already executed, so the ticks shift with every cycle.
  induction count generalizing m executed b with
  | zero =>
    subst h
    exact ⟨none, rfl, rfl⟩
  | succ count ih =>
    unfold cycles
    cases hs : m.step with
    | error e =>
      obtain ⟨f, hf, rfl⟩ := step_eq_error_iff.mp hs
      rw [runTimed_of_error hs] at h
      subst h
      rw [cycle_of_fault hf]
      exact ⟨some f, rfl, rfl⟩
    | ok m₁ =>
      have shift : (fun k => r.wrappedTicksAt (wrap32 (start + (executed + (k + 1) : Nat)))) =
          fun k => r.wrappedTicksAt (wrap32 (start + (executed + 1 + k : Nat))) :=
        funext fun k => by rw [Nat.add_assoc, Nat.add_comm 1]
      rw [runTimed_of_step hs, shift] at h
      subst h
      obtain ⟨f, batch, error⟩ :=
        ih (m := m₁.countTimers (r.wrappedTicksAt (wrap32 (start + executed)))) (executed + 1) rfl
      refine ⟨f, ?_, error⟩
      rw [cycle_of_step hs]
      simp only [Nat.add_zero, batch]
      congr 2
      omega

theorem runFrom_eq_runTimed (start : Int) (count : Nat) :
    m.runFrom r start count =
      m.runTimed (fun k => r.wrappedTicksAt (wrap32 (start + k))) count := by
  obtain ⟨f, batch, error⟩ := cycles_eq_runTimed (m := m) (r := r) start count 0 rfl
  simp only [Nat.zero_add] at batch error
  rw [runFrom, batch]
  simp only [← error]

theorem runBatch_eq_runFrom {count : Int} (positive : 0 < count) (hcount : count < 2 ^ 31)
    (hc : 0 < r.cycles) (hc' : r.cycles < 2 ^ 31) (hd : 0 ≤ r.decrements)
    (hd' : r.decrements < 2 ^ 31) (phase : Int) :
    m.runBatch count r phase = .ok (m.runFrom r (phase.fmod r.cycles) count.toNat) := by
  have count32 : fits32 count = true := fits32_iff.mpr ⟨by omega, hcount⟩
  have decrements32 : fits32 r.decrements = true := fits32_iff.mpr ⟨by omega, hd'⟩
  have cycles32 : fits32 r.cycles = true := fits32_iff.mpr ⟨by omega, hc'⟩
  rw [runBatch, if_neg (by omega)]
  simp [count32, decrements32, cycles32, show r.cycles ≠ 0 by omega]

theorem runBatch_eq_ok_runTimed {count : Int} (hcount : count < 2 ^ 31) (hc : 0 < r.cycles)
    (hc' : r.cycles < 2 ^ 31) (hd : 0 ≤ r.decrements) (hd' : r.decrements < 2 ^ 31) (phase : Int) :
    m.runBatch count r phase =
      .ok (m.runTimed (fun k => r.wrappedTicksAt (wrap32 (phase.fmod r.cycles + k)))
        count.toNat) := by
  by_cases positive : 0 < count
  · rw [runBatch_eq_runFrom positive hcount hc hc' hd hd', runFrom_eq_runTimed]
  · rw [runBatch, if_pos (by omega), Int.toNat_of_nonpos (by omega)]
    rfl

theorem runBatch_eq_runTimed {count : Int} (hcount : count < 2 ^ 31) (hc : 0 < r.cycles)
    (hc' : r.cycles < 2 ^ 31) (hd : 0 ≤ r.decrements) (hd' : r.decrements < 2 ^ 31) (phase : Int)
    (fits : (phase.fmod r.cycles + count.toNat) * r.decrements < 2 ^ 31) :
    m.runBatch count r phase = .ok (m.runTimed (fun k => r.ticksAt (phase + k)) count.toNat) := by
  have ticks (k : Nat) (hk : k < count.toNat) :=
    congrArg countDown (TimerRatio.wrappedTicksAt_fmod_add hc hd fits hk)
  rw [runBatch_eq_ok_runTimed hcount hc hc' hd hd', runTimed_congr ticks]

end Machine

end Chip8
