import Chip8.Proofs.Machine.Timed

/-! # Drives

A machine is driven by single steps and by batches. In between its keys are replaced, its timers
are counted down and its frame is taken. A drive is a list of such operations, those that fail
included. Its log holds the machines in front of the instructions that complete, whichever way
these are run. So what every instruction keeps, with the log, is kept by a drive.
-/

namespace Chip8

/-- What is done to a machine. -/
inductive Operation where
  | step
  /-- A number of cycles is run in one loop. -/
  | batch (count : Int) (ratio : TimerRatio) (phase : Int)
  | keys (keypad : Keypad)
  | decay (ticks : Int)
  /-- The frame is taken, which lowers the draw flag. -/
  | present

namespace Machine

variable {m m' : Machine}

/-! ## Logs of timed runs -/

def runLog (ticks : Nat → Int) : Nat → Machine → List Machine
  | 0, _ => []
  | count + 1, m =>
    match m.step with
    | .error _ => []
    | .ok m₁ => m :: runLog (fun k => ticks (k + 1)) count (m₁.countTimers (ticks 0))

theorem runLog_of_error {e : ExecutionError} (h : m.step = .error e) (ticks : Nat → Int)
    (count : Nat) : m.runLog ticks (count + 1) = [] := by
  rw [runLog, h]

theorem runLog_of_step {m₁ : Machine} (h : m.step = .ok m₁) (ticks : Nat → Int) (count : Nat) :
    m.runLog ticks (count + 1) =
      m :: (m₁.countTimers (ticks 0)).runLog (fun k => ticks (k + 1)) count := by
  rw [runLog, h]

theorem length_runLog (ticks : Nat → Int) (count : Nat) :
    (m.runLog ticks count).length = (m.runTimed ticks count).executed := by
  induction count generalizing m ticks with
  | zero => rfl
  | succ count ih =>
    cases hs : m.step with
    | error e => rw [runLog_of_error hs, runTimed_of_error hs, List.length_nil]
    | ok m₁ => rw [runLog_of_step hs, runTimed_of_step hs, List.length_cons, ih]

/-! ## Operations -/

def batchTicks (r : TimerRatio) (phase : Int) (k : Nat) : Int :=
  r.wrappedTicksAt (wrap32 (phase.fmod r.cycles + k))

def after (m : Machine) : Operation → Machine
  | .step => m.step.toOption.getD m
  | .batch count ratio phase => (m.runBatch count ratio phase).toOption.elim m Batch.machine
  | .keys keypad => { m with keypad }
  | .decay ticks => (m.decayTimers ticks).toOption.getD m
  | .present => { m with draw := false }

def completed (m : Machine) : Operation → List Machine
  | .step => if m.step.isOk then [m] else []
  | .batch count ratio phase =>
    if (m.runBatch count ratio phase).isOk then
      m.runLog (batchTicks ratio phase) count.toNat
    else []
  | .keys _ | .decay _ | .present => []

def drive (m : Machine) (ops : List Operation) : Machine := ops.foldl after m

def log : List Operation → Machine → List Machine
  | [], _ => []
  | op :: rest, m => m.completed op ++ log rest (m.after op)

theorem runBatch_eq_runTimed_batchTicks {count phase : Int} {r : TimerRatio} {b : Batch}
    (h : m.runBatch count r phase = .ok b) : b = m.runTimed (batchTicks r phase) count.toNat := by
  rcases runBatch_eq_ok h with ⟨none, rfl⟩ | ⟨-, rfl⟩
  · rw [Int.toNat_of_nonpos none]
    rfl
  · exact runFrom_eq_runTimed _ _

theorem completed_batch {count phase : Int} {r : TimerRatio} {b : Batch}
    (h : m.runBatch count r phase = .ok b) :
    m.completed (.batch count r phase) = m.runLog (batchTicks r phase) count.toNat := by
  have run : (m.runBatch count r phase).isOk = true := by
    rw [h]
    rfl
  rw [completed, if_pos run]

theorem length_completed_batch {count phase : Int} {r : TimerRatio} {b : Batch}
    (h : m.runBatch count r phase = .ok b) :
    (m.completed (.batch count r phase)).length = b.executed := by
  rw [completed_batch h, length_runLog, runBatch_eq_runTimed_batchTicks h]

theorem after_of_error {e : ExecutionError} (h : m.step = .error e) :
    m.after .step = m ∧
      ∀ count ratio phase, m.after (.batch count ratio phase) = m := by
  constructor
  · rw [after, h]
    rfl
  · intro count ratio phase
    rw [after]
    cases hb : m.runBatch count ratio phase with
    | error => rfl
    | ok b =>
      rw [runBatch_eq_runTimed_batchTicks hb]
      cases count.toNat with
      | zero => rfl
      | succ count => rw [runTimed_of_error h]; rfl

/-! ## Induction along a drive -/

section

variable {P : List Machine → Machine → Prop}
  (instruction : ∀ {log : List Machine} {m m' : Machine}, P log m → m.step = .ok m' →
    P (log ++ [m]) m')
  (around : ∀ {log : List Machine} {m : Machine} (delay sound keypad draw), P log m →
    P log { m with delay, sound, keypad, draw })

include instruction around

theorem runTimed_induction (ticks : Nat → Int) (count : Nat) {log : List Machine} (h : P log m) :
    P (log ++ m.runLog ticks count) (m.runTimed ticks count).machine := by
  induction count generalizing m ticks log with
  | zero =>
    rw [runLog, List.append_nil]
    exact h
  | succ count ih =>
    cases hs : m.step with
    | error e =>
      rw [runLog_of_error hs, runTimed_of_error hs, List.append_nil]
      exact h
    | ok m₁ =>
      rw [runLog_of_step hs, runTimed_of_step hs, List.append_cons]
      exact ih _ (around _ _ m₁.keypad m₁.draw (instruction h hs))

theorem after_induction (op : Operation) {log : List Machine} (h : P log m) :
    P (log ++ m.completed op) (m.after op) := by
  cases op with
  | step =>
    rw [after, completed]
    cases hs : m.step with
    | error e => exact (List.append_nil log).symm ▸ h
    | ok m' => exact instruction h hs
  | batch count ratio phase =>
    have run := runTimed_induction instruction around (batchTicks ratio phase) count.toNat h
    rw [after, completed]
    cases hb : m.runBatch count ratio phase with
    | error e => exact (List.append_nil log).symm ▸ h
    | ok b =>
      rw [← runBatch_eq_runTimed_batchTicks hb] at run
      exact run
  | keys keypad => exact (List.append_nil log).symm ▸ around m.delay m.sound keypad m.draw h
  | decay ticks =>
    show P (log ++ []) ((m.decayTimers ticks).toOption.getD m)
    rw [List.append_nil, decayTimers]
    split
    · exact h
    · split
      · exact around _ _ m.keypad m.draw h
      · exact h
  | present => exact (List.append_nil log).symm ▸ around m.delay m.sound m.keypad false h

/-- What holds of the log and the machine is kept by a drive, if an instruction that the log takes
up keeps it, and so do timers, keys and a draw flag that change. -/
theorem drive_induction (start : P [] m) (ops : List Operation) :
    P (m.log ops) (m.drive ops) := by
  have whole : ∀ {log : List Machine}, P log m → P (log ++ m.log ops) (m.drive ops) := by
    clear start
    induction ops generalizing m with
    | nil =>
      intro log h
      rw [Machine.log, List.append_nil]
      exact h
    | cons op rest ih =>
      intro log h
      rw [Machine.log, ← List.append_assoc]
      exact ih (after_induction instruction around op h)
  exact whole start

end

end Machine

end Chip8
