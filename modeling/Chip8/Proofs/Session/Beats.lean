import Mathlib.Algebra.Ring.Int.Defs
import Chip8.Proofs.Session.Failures

/-! # Beats

A tick completes as many instructions as its reading of the clock finds due, and then counts the
timers down by as many ticks as it finds due for them. A session that is left to its ticks keeps
to this beat, whatever keys are set and frames are taken between them.
-/

namespace Chip8

namespace Machine

variable {m : Machine}

theorem steps_of_runTimed {count : Nat} (h : (m.runTimed (fun _ => 0) count).error = none) :
    m.steps count = .ok (m.runTimed (fun _ => 0) count).machine := by
  induction count with
  | zero => rfl
  | succ count ih =>
    have before := runTimed_error_of_add h
    rw [steps_succ (ih before)]
    rw [runTimed_add, Batch.andThen_of_none before] at h ⊢
    generalize (m.runTimed (fun _ => 0) count).machine = m₁ at h ⊢
    cases hs : m₁.step with
    | error e =>
      rw [runTimed_of_error hs] at h
      cases h
    | ok m₂ =>
      rw [runTimed_of_step hs, countTimers_zero]
      rfl

end Machine

namespace Core

def publish (c : Core) : Core :=
  if c.machine.draw then
    { c with
      machine := { c.machine with draw := false }
      screen := Screen.publish c.machine.display }
  else c

@[simp] theorem cycles_publish (c : Core) : c.publish.cycles = c.cycles := by
  unfold publish
  split <;> rfl

def ticked (c : Core) (m : Machine) (due : Due) : Core :=
  publish { c with
    machine := m.countTimers due.ticks
    cycles := c.cycles + due.cycles.toNat }

/-- What has become of `first` after ticks that found so much due. -/
inductive Beats (first : Core) : List Due → Core → Prop where
  | start : Beats first [] first
  | tick {dues : List Due} {c : Core} {due : Due} {m : Machine} (h : Beats first dues c)
      (nonneg : 0 ≤ due.cycles ∧ 0 ≤ due.ticks)
      (steps : { c.machine with keypad := c.keypad }.steps due.cycles.toNat = .ok m) :
      Beats first (dues ++ [due]) (c.ticked m due)
  | press {dues : List Due} {c : Core} (h : Beats first dues c) (keypad : Keypad) :
      Beats first dues { c with keypad }
  | take {dues : List Due} {c : Core} (h : Beats first dues c) : Beats first dues c.taken

theorem Beats.cycles {first c : Core} {dues : List Due} (h : first.Beats dues c) :
    (c.cycles : Int) = first.cycles + (dues.map Due.cycles).sum := by
  induction h with
  | start => simp
  | @tick dues c due m _ nonneg _ ih =>
    have more : (c.ticked m due).cycles = c.cycles + due.cycles.toNat := cycles_publish _
    rw [more, List.map_append, List.sum_append, List.map_singleton, List.sum_singleton]
    omega
  | press _ _ ih => exact ih
  | take _ ih => exact ih

end Core

namespace Session

variable {τ : Type} [TimeScale τ] {s : Session τ}

theorem core_publish (s : Session τ) : s.publish.core = s.core.publish := by
  unfold publish Core.publish
  split
  · next drawn =>
    rw [if_pos (by exact drawn)]
    rfl
  · next clear => rw [if_neg (by exact clear)]

theorem runBatch_untimed {count : Int} (fits : count < 2 ^ 31) :
    s.runBatch (.whole count) {} 0 =
      s.afterBatch (s.machine.runTimed (fun _ => 0) count.toNat) := by
  have still : (fun k : Nat => TimerRatio.ticksAt ⟨0, 1⟩ (0 + k)) = fun _ => 0 := by
    funext k
    simp [TimerRatio.ticksAt]
  have batch := Machine.runBatch_eq_runTimed (m := s.machine) (r := ⟨0, 1⟩) fits (by decide)
    (by decide) (by decide) (by decide) 0 (by simp)
  rw [still] at batch
  exact runBatch_eq batch

theorem advance_cases (stamp : s.Stampable) {count : Int} (fits : count < 2 ^ 31) :
    (∃ e, (s.advance count {} 0).2 = .error (.execution e)) ∨
      ∃ m t, s.machine.steps count.toNat = .ok m ∧ s.advance count {} 0 = (t, .ok ()) ∧
        t.core = { s.core with machine := m, cycles := s.cycles + count.toNat } := by
  -- A muted session runs its instructions in a batch, and traced ones leave the same core.
  have quiet := advance_mute stamp (a := 0) (b := 1) (by decide) (by decide) (by decide)
    (by decide) fits 0 (by simp)
  rw [advance, traced_mute, if_neg (by decide)] at quiet
  change s.mute.runBatch (.whole count) {} 0 = muted (s.advance count {} 0) at quiet
  rw [runBatch_untimed fits, machine_mute] at quiet
  generalize s.advance count {} 0 = x at quiet
  obtain ⟨t, r⟩ := x
  have outcome := congrArg Prod.snd quiet
  have core := congrArg (fun x => x.1.core) quiet
  dsimp only [afterBatch, muted] at outcome
  cases failed : (s.machine.runTimed (fun _ => 0) count.toNat).error with
  | some e =>
    rw [failed] at outcome
    exact .inl ⟨e, outcome.symm⟩
  | none =>
    rw [failed] at outcome
    subst outcome
    have steps := Machine.steps_of_runTimed failed
    have executed := (Machine.runTimed_executed _ _).2.mp failed
    generalize s.machine.runTimed (fun _ => 0) count.toNat = b at core steps executed
    refine .inr ⟨b.machine, t, steps, rfl, ?_⟩
    rw [← executed]
    exact core.symm

theorem exists_steps_of_tick (stamp : s.Stampable) {due : Due} (read : s.readClock.2 = .ok due)
    (cycles : due.cycles < 2 ^ 31) (ticks : 0 ≤ due.ticks ∧ due.ticks < 2 ^ 31)
    (unfaulted : Faultless s.tick.2) :
    ∃ m, { s.machine with keypad := s.keypad }.steps due.cycles.toNat = .ok m ∧
      s.tick.2 = .ok due.cycles ∧ s.tick.1.core = s.core.ticked m due := by
  have stamped : s.readClock.1.loadKeypad.Stampable := stamp
  have loaded : s.readClock.1.loadKeypad.core = s.loadKeypad.core := rfl
  unfold tick at unfaulted ⊢
  generalize s.readClock = x at read stamped loaded unfaulted ⊢
  obtain ⟨s₁, r⟩ := x
  dsimp only at read stamped loaded
  subst read
  have machine : s₁.loadKeypad.machine = s.loadKeypad.machine := congrArg Core.machine loaded
  have counter : s₁.loadKeypad.cycles = s.cycles := congrArg Core.cycles loaded
  dsimp only at unfaulted ⊢
  rcases advance_cases stamped cycles with ⟨e, fails⟩ | ⟨m, s₂, steps, runs, core⟩
  · generalize s₁.loadKeypad.advance due.cycles {} 0 = y at fails unfaulted
    obtain ⟨s₂, r⟩ := y
    dsimp only at fails
    subst fails
    exact absurd rfl (unfaulted e)
  · rw [runs]
    rw [machine] at steps
    rw [loaded, counter] at core
    have counted : s₂.machine.decay (.whole due.ticks : Quantity τ) =
        .ok (s₂.machine.countTimers due.ticks) := Machine.decayTimers_eq ticks.1 ticks.2
    dsimp only [decay]
    rw [counted]
    refine ⟨m, steps, rfl, (core_publish _).trans (congrArg Core.publish ?_)⟩
    show { s₂.core with machine := s₂.core.machine.countTimers due.ticks } = _
    rw [core]
    rfl

end Session

end Chip8
