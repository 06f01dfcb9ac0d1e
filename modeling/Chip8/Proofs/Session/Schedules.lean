import Chip8.Proofs.Session.Chunks
import Chip8.Proofs.Session.Moves

/-! # Schedules

A schedule paces a session by steps, ticks and runs of cycles, without touching a key. As long as
no instruction reads the delay timer, the instructions that complete are those of the machine's
own single steps. So two schedules of equally many instructions compute the same, although their
timers, draw flags and frames may differ.
-/

namespace Chip8

namespace Core

/-- An emulation from `first` completes a trace of instructions, with other moves in between. -/
inductive Runs (first : Core) : List Completed → Core → Prop where
  | start : Runs first [] first
  | instruction {trace : List Completed} {c : Core} {m : Machine} (h : Runs first trace c)
      (completes : c.machine.step = .ok m) :
      Runs first (trace ++ [⟨c.machine.pc, c.machine.word⟩])
        { c with machine := m, cycles := c.cycles + 1 }
  | idle {trace : List Completed} {c c' : Core} (h : Runs first trace c) (move : c.Move c')
      (same : c'.cycles = c.cycles) : Runs first trace c'

variable {first c c' : Core} {trace : List Completed}

theorem Emulates.exists_runs (h : first.Emulates c) : ∃ trace, first.Runs trace c := by
  induction h with
  | refl => exact ⟨[], .start⟩
  | tail _ move ih =>
    obtain ⟨trace, runs⟩ := ih
    cases move with
    | instruction completes => exact ⟨_, runs.instruction completes⟩
    | timers delay sound => exact ⟨trace, runs.idle (.timers _ delay sound) rfl⟩
    | loadKeypad => exact ⟨trace, runs.idle (.loadKeypad _) rfl⟩
    | publish drawn => exact ⟨trace, runs.idle (.publish drawn) rfl⟩

theorem Runs.cycles (h : first.Runs trace c) : c.cycles = first.cycles + trace.length := by
  induction h with
  | start => rfl
  | instruction _ _ ih =>
    rw [List.length_append, ih]
    rfl
  | idle _ _ same ih => exact same.trans ih

theorem Runs.keypad (h : first.Runs trace c) : c.keypad = first.keypad := by
  induction h with
  | start => rfl
  | instruction _ _ ih => exact ih
  | idle _ move _ ih => cases move <;> exact ih

theorem Runs.held (h : first.Runs trace c) (loaded : first.machine.keypad = first.keypad) :
    c.machine.keypad = first.keypad := by
  induction h with
  | start => exact loaded
  | instruction _ completes ih =>
    obtain ⟨k, -, rfl⟩ := Machine.step_eq_ok_iff.mp completes
    exact (Machine.keypad_perform _ _ _ k).trans ih
  | idle runs move _ ih =>
    cases move with
    | instruction => exact absurd ‹_› (Nat.succ_ne_self _)
    | timers | publish => exact ih
    | loadKeypad => exact runs.keypad

def NoTimerRead (trace : List Completed) : Prop :=
  ∀ i ∈ trace, ¬Kind.ldVxDt.Matches i.word.toNat

/-- The moves around the instructions change nothing that single steps would find. -/
theorem Runs.exists_steps (h : first.Runs trace c) (loaded : first.machine.keypad = first.keypad)
    (noTimer : NoTimerRead trace) :
    ∃ m, first.machine.steps trace.length = .ok m ∧ m.Alike c.machine ∧
      m.keypad = first.keypad := by
  induction h with
  | start => exact ⟨first.machine, rfl, .refl _, loaded⟩
  | @instruction trace c m' runs completes ih =>
    obtain ⟨m, stepped, alike, keys⟩ := ih fun i hi => noTimer i (List.mem_append_left _ hi)
    have quiet : ¬Kind.ldVxDt.Matches c.machine.word.toNat :=
      noTimer ⟨c.machine.pc, c.machine.word⟩ (by simp)
    -- Both machines see the keys that were held from the beginning.
    have same : m.keypad = c.machine.keypad := keys.trans (runs.held loaded).symm
    obtain ⟨m₁, step, alike₁, keys₁⟩ := alike.symm.step same quiet completes
    refine ⟨m₁, ?_, alike₁.symm, ?_⟩
    · rw [List.length_append]
      exact (Machine.steps_succ stepped).trans step
    · exact keys₁.trans ((runs.instruction completes).held loaded)
  | idle runs move same ih =>
    obtain ⟨m, stepped, alike, keys⟩ := ih noTimer
    exact ⟨m, stepped, alike.trans (move.alike same), keys⟩

end Core

def Command.isPacing {τ : Type} : Command τ → Bool
  | .call .step | .call .tick | .call (.runCycles _ _) => true
  | _ => false

namespace Session

variable {τ : Type} [TimeScale τ] {s t : Session τ}

theorem emulates_perform {c : Command τ} (h : c.isPacing = true) :
    s.core.Emulates (s.perform c).1.core := by
  unfold Command.isPacing at h
  split at h
  · exact emulates_step
  · exact emulates_tick
  · next count progress =>
    cases progress with
    | false => exact emulates_runCycles count
    | true => exact emulates_runWithProgress count
  · cases h

theorem emulates_after {history : List (Quantity τ × Command τ)}
    (paced : ∀ e ∈ history, e.2.isPacing = true) : s.core.Emulates (s.after history).core := by
  induction history using List.reverseRecOn with
  | nil => exact .refl _
  | append_singleton history e ih =>
    rw [after_concat]
    have earlier := ih fun e he => paced e (List.mem_append_left _ he)
    exact earlier.trans (emulates_perform (s := (s.after history).atTime e.1)
      (paced e (by simp)))

section Creation

variable {config : Config τ} {rom : List UInt8} {name name' : String} {seed : RandomKey}
  {start start' : Quantity τ}

/-- Two schedules of as many instructions, none of which reads the delay timer, leave the same
in memory, registers, call stack, display and random state. -/
theorem schedules_agree (hs : create config rom name seed start = .ok s)
    (ht : create config rom name' seed start' = .ok t)
    {history history' : List (Quantity τ × Command τ)}
    (paced : ∀ e ∈ history, e.2.isPacing = true) (paced' : ∀ e ∈ history', e.2.isPacing = true) :
    (∃ trace, s.core.Runs trace (s.after history).core) ∧
      (∃ trace, t.core.Runs trace (t.after history').core) ∧
      ∀ trace trace', s.core.Runs trace (s.after history).core →
        t.core.Runs trace' (t.after history').core → trace.length = trace'.length →
        Core.NoTimerRead trace → Core.NoTimerRead trace' →
        let m := (s.after history).machine
        let m' := (t.after history').machine
        m.memory = m'.memory ∧ m.v = m'.v ∧ m.i = m'.i ∧ m.pc = m'.pc ∧ m.stack = m'.stack ∧
          m.display = m'.display ∧ m.rng = m'.rng ∧
          (s.after history).cycles = (t.after history').cycles := by
  refine ⟨(emulates_after paced).exists_runs, (emulates_after paced').exists_runs, ?_⟩
  intro trace trace' runs runs' count noTimer noTimer'
  have same : s.core = t.core := by
    rw [core_create hs, core_create ht, machine_create hs, machine_create ht]
  have loaded : s.core.machine.keypad = s.core.keypad := by
    rw [core_create hs, machine_create hs]
    rfl
  obtain ⟨m, stepped, alike, -⟩ := runs.exists_steps loaded noTimer
  obtain ⟨m', stepped', alike', -⟩ := (same ▸ runs').exists_steps loaded noTimer'
  obtain rfl : m = m' := by
    rw [count, stepped'] at stepped
    exact (Except.ok.inj stepped).symm
  have agree := alike.symm.trans alike'
  have counted : (s.after history).cycles = (t.after history').cycles :=
    runs.cycles.trans (count ▸ (same ▸ runs').cycles.symm)
  exact ⟨agree.memory, agree.v, agree.i, agree.pc, agree.stack, agree.display, agree.rng, counted⟩

end Creation

end Session

/-! ## A jump in place -/

namespace Machine

/-- A program that jumps in place. -/
def jumpProgram : List UInt8 := [0x12, 0x00]

variable {m : Machine}

theorem Holds.jump_word (holds : m.Holds jumpProgram) : m.word = 0x1200 :=
  holds.word (by decide) 0 rfl rfl (by decide) (congrArg UInt16.toNat holds.pc)

theorem step_jumpProgram (holds : m.Holds jumpProgram) : m.step = .ok m := by
  have inside : m.pc.toNat < 0xFFF := by
    rw [holds.pc]
    decide
  rw [step_jp holds.jump_word inside (by decide), show (Operands.ofWord 0x1200).nnn = m.pc from
    holds.pc.symm]

theorem runTimed_jumpProgram (holds : m.Holds jumpProgram) (ticks : Nat → Int) (count : Nat) :
    (m.runTimed ticks count).executed = count := by
  have completes := (runTimed_of_jump 0x200 0x1200 (by decide) (by decide) (by decide) holds.pc
    (holds.pc ▸ holds.jump_word) ticks count).1
  exact (runTimed_executed ticks count).2.mp completes

end Machine

theorem Core.Runs.jumps {first c : Core} {trace : List Completed} (h : first.Runs trace c)
    (holds : first.machine.Holds Machine.jumpProgram) :
    c.machine.Holds Machine.jumpProgram ∧ ∀ i ∈ trace, i.word = 0x1200 := by
  induction h with
  | start => exact ⟨holds, by simp⟩
  | instruction _ completes ih =>
    obtain ⟨jumping, words⟩ := ih
    obtain rfl := Except.ok.inj ((Machine.step_jumpProgram jumping).symm.trans completes)
    refine ⟨jumping, fun i hi => ?_⟩
    rcases List.mem_append.mp hi with earlier | last
    · exact words i earlier
    · rw [List.mem_singleton.mp last]
      exact jumping.jump_word
  | idle _ move same ih =>
    obtain ⟨jumping, words⟩ := ih
    have alike := move.alike same
    exact ⟨⟨alike.memory ▸ jumping.memory, alike.pc ▸ jumping.pc⟩, words⟩

/-- Two steps of a program that jumps in place, and a run of two cycles. -/
theorem Session.schedules_agree_jump :
    ∃ s : Session Rat, create {} Machine.jumpProgram "jump" ⟨0, 0⟩ (.whole 0) = .ok s ∧
      let stepping : List (Quantity Rat × Command Rat) :=
        [(.whole 0, .call .step), (.whole 1, .call .step)]
      let running : List (Quantity Rat × Command Rat) := [(.whole 0, .call (.runCycles 2 false))]
      (s.after stepping).cycles = 2 ∧ (s.after running).cycles = 2 ∧
        (s.after stepping).machine.pc = (s.after running).machine.pc := by
  have info : LogLevel.ofName? ({} : Config Rat).logLevel = some .info := by decide +kernel
  obtain ⟨s, made, config, holds, quiet⟩ := exists_create_eq Machine.jumpProgram info (by decide)
    (Quantity.measurableFrom_rat (.whole 0) (.whole 0)) "jump" ⟨0, 0⟩
  refine ⟨s, made, ?_⟩
  intro stepping running
  have jumping : s.machine.Holds Machine.jumpProgram := ⟨holds.memory, holds.pc⟩
  have zero : s.cycles = 0 := congrArg Core.cycles (core_create made)
  have paced : ∀ e ∈ stepping, e.2.isPacing = true := by simp [stepping, Command.isPacing]
  have paced' : ∀ e ∈ running, e.2.isPacing = true := by simp [running, Command.isPacing]
  obtain ⟨⟨trace, runs⟩, ⟨trace', runs'⟩, agree⟩ := schedules_agree made made paced paced'
  have noTimer {trace : List Completed} {c : Core} (runs : s.core.Runs trace c) :
      Core.NoTimerRead trace := by
    intro i hi
    rw [(runs.jumps jumping).2 i hi]
    decide
  have stepped : (s.after stepping).cycles = 2 := by
    have stamp (s : Session Rat) : s.Stampable :=
      Logger.stamp_of_measurableFrom (Quantity.measurableFrom_rat _ _)
    let first := s.atTime (.whole 0)
    have one : first.step.1.core = { s.core with cycles := s.cycles + 1 } :=
      core_step (stamp _) (Machine.step_jumpProgram jumping)
    have next : first.step.1.machine.step = .ok s.machine :=
      (congrArg (fun c => c.machine.step) one).trans (Machine.step_jumpProgram jumping)
    have two : (s.after stepping).core = _ :=
      core_step (s := first.step.1.atTime (.whole 1)) (stamp _) next
    rw [show (s.after stepping).cycles = _ from congrArg Core.cycles two]
    show first.step.1.core.cycles + 1 = 2
    rw [one, zero]
  have ran : (s.after running).cycles = 2 := by
    have pace : s.schedule = ⟨.whole 60, .whole 500⟩ := by rw [schedule, config]
    have cycles := congrArg (fun x => x.1.cycles)
      (runCycles_eq_runTimed (s := s.atTime (.whole 0)) quiet pace (by decide) (by decide)
        (by decide) (by decide) 2)
    have executed :=
      Machine.runTimed_jumpProgram holds (TimerRatio.chunkTicks ⟨60, 500⟩ chunkSize) 2
    exact cycles.trans (congrArg₂ (· + ·) zero executed)
  have count : trace.length = trace'.length := by
    have left : (s.after stepping).cycles = s.cycles + trace.length := runs.cycles
    have right : (s.after running).cycles = s.cycles + trace'.length := runs'.cycles
    omega
  obtain ⟨-, -, -, pc, -⟩ := agree trace trace' runs runs' count (noTimer runs) (noTimer runs')
  exact ⟨stepped, ran, pc⟩

end Chip8
