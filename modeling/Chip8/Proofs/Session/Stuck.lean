import Chip8.Proofs.Session.Failures

/-! # Stuck machines

Whatever fails with an execution error leaves the machine in front of the instruction that
faulted, whether it went through single steps or through batches. There it stays. Nothing but a
reset changes what the instruction depends on, so the machine would meet the same error again.
-/

namespace Chip8

variable {e : ExecutionError}

theorem Machine.step_runTimed {m : Machine} {ticks : Nat → Int} {count : Nat}
    (h : (m.runTimed ticks count).error = some e) :
    (m.runTimed ticks count).machine.step = .error e := by
  induction count generalizing m ticks with
  | zero => cases h
  | succ count ih =>
    cases hs : m.step with
    | error e' =>
      rw [runTimed_of_error hs] at h ⊢
      cases h
      exact hs
    | ok m₁ =>
      rw [runTimed_of_step hs] at h ⊢
      exact ih h

namespace Core

variable {first c c' : Core}

theorem Act.halted (a : c.Act c') (stuck : c.machine.step = .error e) :
    c.machine.Alike c'.machine ∧ c'.cycles = c.cycles := by
  cases a with
  | press => exact ⟨.refl _, rfl⟩
  | move move =>
    -- No instruction completes, and the other moves count none.
    have idle : c'.cycles = c.cycles := by
      cases move with
      | instruction completes =>
        rw [stuck] at completes
        cases completes
      | timers | loadKeypad | publish => rfl
    exact ⟨move.alike idle, idle⟩

theorem Course.halted (h : first.Course c) (stuck : first.machine.step = .error e) :
    first.machine.Alike c.machine ∧ c.cycles = first.cycles := by
  induction h with
  | start => exact ⟨.refl _, rfl⟩
  | act _ a ih =>
    obtain ⟨alike, cycles⟩ := ih
    obtain ⟨next, idle⟩ := a.halted (alike.step_error stuck)
    exact ⟨alike.trans next, idle.trans cycles⟩
  | take _ ih => exact ih

theorem Evolves.halted (h : c.Evolves c') (stuck : c.machine.step = .error e) :
    c.machine.Alike c'.machine ∧ c'.cycles = c.cycles := (Course.start.evolves h).halted stuck

theorem Evolves.stuck (h : c.Evolves c') (stuck : c.machine.step = .error e) :
    c'.machine.step = .error e := (h.halted stuck).1.step_error stuck

end Core

namespace Session

variable {τ : Type} [TimeScale τ] {s : Session τ}

/-! ## What raises -/

theorem stuck_step (h : s.step.2 = .error (.execution e)) : s.step.1.machine.step = .error e := by
  unfold step at h ⊢
  cases hf : s.machine.fetch with
  | error e' =>
    rw [hf] at h
    cases h
    show s.machine.step = _
    rw [Machine.step, hf]
  | ok word =>
    have same := core_trace (s := s) word
    have written : Faultless (s.trace word).2 := faultless_say _ _
    rw [hf] at h
    dsimp only at h ⊢
    generalize s.trace word = x at h same written ⊢
    rcases x with ⟨s₁, failure | _⟩
    · cases h
      exact absurd rfl (written e)
    · have machine : s₁.machine = s.machine := congrArg Core.machine same
      dsimp only at h ⊢
      cases hx : s₁.machine.execute word.toNat with
      | error e' =>
        rw [hx] at h
        cases h
        show s₁.machine.step = _
        rw [Machine.step, machine, hf, ← machine]
        exact hx
      | ok m =>
        rw [hx] at h
        cases h

theorem stuck_runSteps {schedule : Schedule τ} {count : Nat} {cycle : Int}
    (h : (runSteps schedule count cycle s).2 = .error (.execution e)) :
    (runSteps schedule count cycle s).1.machine.step = .error e := by
  induction count generalizing cycle s with
  | zero => cases h
  | succ count ih =>
    unfold runSteps at h ⊢
    have first := stuck_step (s := s) (e := e)
    generalize s.step = x at h first ⊢
    rcases x with ⟨s₁, failure | _⟩
    · exact first h
    · have timers := faultless_decayAt (s := s₁) schedule cycle
      dsimp only at h ⊢
      generalize s₁.decayAt schedule cycle = y at h timers ⊢
      rcases y with ⟨s₂, failure | _⟩
      · cases h
        exact absurd rfl (timers e)
      · exact ih h

theorem stuck_runBatch [FaultlessScale τ] {count : Quantity τ} {schedule : Schedule τ}
    {phase : Int} (h : (s.runBatch count schedule phase).2 = .error (.execution e)) :
    (s.runBatch count schedule phase).1.machine.step = .error e := by
  unfold runBatch at h ⊢
  cases hb : s.machine.runScheduled count schedule (.whole phase) with
  | error failure =>
    rw [hb] at h
    cases h
    exact absurd hb (s.machine.faultless_runScheduled count _ schedule e)
  | ok b =>
    rw [hb] at h
    dsimp only at h ⊢
    rcases Machine.runScheduled_eq_ok hb with ⟨-, rfl⟩ | ⟨-, n, ticks, -, rfl⟩
    · cases h
    · cases error : (s.machine.runTimed ticks n.toNat).error with
      | none =>
        rw [error] at h
        cases h
      | some e' =>
        rw [error] at h
        cases h
        exact Machine.step_runTimed error

variable [FaultlessScale τ]

theorem stuck_advance {count : Int} {schedule : Schedule τ} {phase : Int}
    (h : (s.advance count schedule phase).2 = .error (.execution e)) :
    (s.advance count schedule phase).1.machine.step = .error e := by
  unfold advance at h ⊢
  split at h
  · next traced =>
    rw [if_pos traced]
    exact stuck_runSteps h
  · next quiet =>
    rw [if_neg quiet]
    exact stuck_runBatch h

theorem stuck_tick (h : s.tick.2 = .error (.execution e)) : s.tick.1.machine.step = .error e := by
  unfold tick at h ⊢
  have read := faultless_readClock (s := s)
  generalize s.readClock = x at h read ⊢
  rcases x with ⟨s₁, failure | due⟩
  · cases h
    exact absurd rfl (read e)
  · have cycles : (s₁.loadKeypad.advance due.cycles {} 0).2 = .error (.execution e) →
        (s₁.loadKeypad.advance due.cycles {} 0).1.machine.step = .error e := stuck_advance
    dsimp only at h ⊢
    generalize s₁.loadKeypad.advance due.cycles {} 0 = y at h cycles ⊢
    rcases y with ⟨s₂, failure | _⟩
    · dsimp only at h
      refine cycles ?_
      cases h
      rfl
    · have timers := faultless_decay (s := s₂) (.whole due.ticks)
      dsimp only at h ⊢
      generalize s₂.decay (.whole due.ticks) = z at h timers ⊢
      rcases z with ⟨s₃, failure | _⟩
      · cases h
        exact absurd rfl (timers e)
      · cases h

theorem stuck_runChunks {size : Nat} (sizePos : 0 < size) {schedule : Schedule τ}
    {done remaining : Nat}
    (h : (runChunks size sizePos schedule done remaining s).2 = .error (.execution e)) :
    (runChunks size sizePos schedule done remaining s).1.machine.step = .error e := by
  induction remaining using Nat.strongRecOn generalizing done s with
  | ind remaining ih =>
    unfold runChunks at h ⊢
    split at h
    · cases h
    · next some =>
      rw [dif_neg some]
      have chunk : (s.advance (min remaining size : Nat) schedule done).2 = .error (.execution e) →
          (s.advance (min remaining size : Nat) schedule done).1.machine.step = .error e :=
        stuck_advance
      dsimp only at h ⊢
      generalize s.advance (min remaining size : Nat) schedule done = x at h chunk ⊢
      rcases x with ⟨s₁, failure | _⟩
      · refine chunk ?_
        cases h
        rfl
      · exact ih _ (by omega) h

omit [FaultlessScale τ] in
theorem stuck_publish (h : s.machine.step = .error e) : s.publish.machine.step = .error e :=
  emulates_publish.evolves.stuck h

theorem stuck_runCycles {count : Int} (h : (s.runCycles (.whole count)).2 = .error (.execution e)) :
    (s.runCycles (.whole count)).1.machine.step = .error e :=
  stuck_publish (stuck_runChunks (s := s.loadKeypad) (by decide) h)

theorem stuck_runWithProgress {count : Int}
    (h : (s.runWithProgress (.whole count)).2 = .error (.execution e)) :
    (s.runWithProgress (.whole count)).1.machine.step = .error e := by
  unfold runWithProgress at h ⊢
  split at h
  · next refused =>
    cases h
    exact absurd refused (ProgressBar.faultless_create _ _ _ e)
  · exact stuck_runCycles h

theorem stuck_turn (h : s.turn.2 = .ended (.error (.execution e))) :
    s.turn.1.machine.step = .error e := by
  obtain ⟨s₁, tick, core, -⟩ := exists_tick_of_turn h
  have stuck : s.tick.1.machine.step = .error e := stuck_tick (congrArg Prod.snd tick)
  rw [tick] at stuck
  rw [show s.turn.1.machine = _ from congrArg Core.machine core]
  exact stuck_publish stuck

theorem stuck_run {naps : List (Nap τ)} {lag : Option (Quantity τ)}
    (spares : ∀ nap ∈ naps, nap.Spares e) (h : (s.run naps lag).2 = .error (.execution e)) :
    (s.run naps lag).1.machine.step = .error e := by
  obtain ⟨s', turn⟩ := exists_turn_of_run spares h
  have stuck : s'.turn.1.machine.step = .error e := stuck_turn (congrArg Prod.snd turn)
  rwa [turn] at stuck

theorem stuck_call {c : Call τ} (h : (s.call c).2 = .error (.execution e)) :
    (s.call c).1.machine.step = .error e := by
  have raised {α : Type} {answer : α → Answer} {x : Session τ × Except Failure α}
      (h : (answered answer x).2 = .error (.execution e)) : x.2 = .error (.execution e) := by
    rcases x with ⟨s, failure | _⟩
    · cases h
      rfl
    · cases h
  match c with
  | .step => exact stuck_step (raised h)
  | .tick => exact stuck_tick (raised h)
  | .runCycles count true => exact stuck_runWithProgress (raised h)
  | .runCycles count false => exact stuck_runCycles (raised h)
  | .setKey index pressed => exact absurd (raised h) (faultless_setKey index pressed e)
  | .setKeys keys => exact absurd (raised h) (faultless_setKeys keys e)
  | .consumeDraw => cases h
  | .frame => cases h
  | .reset => exact absurd (raised h) (faultless_reset e)

/-! ## Commands -/


/-- A command fails with an execution error, or the thread that it lets run does. -/
inductive Raises (s : Session τ) (e : ExecutionError) : Command τ → Prop where
  | call {c : Call τ} (h : (s.call c).2 = .error (.execution e)) : Raises s e (.call c)
  | run {naps : List (Nap τ)} {lag : Option (Quantity τ)}
      (h : (s.run naps lag).2 = .error (.execution e)) : Raises s e (.run naps lag)
  | start {lag : Option (Quantity τ)} (idle : s.running = false)
      (h : ({ s with error := none, stopRequested := false }.beginRun lag).2 =
        .ended (.error (.execution e))) : Raises s e (.start lag)
  | release {nap : Nap τ} (busy : s.running = true)
      (h : (s.wake nap).2 = .ended (.error (.execution e))) : Raises s e (.release nap)

theorem Raises.stuck {c : Command τ} (h : s.Raises e c) (spares : c.Spares e) :
    (s.perform c).1.machine.step = .error e := by
  cases h with
  | call h => exact stuck_call h
  | run h => exact stuck_run spares h
  | @start lag idle h =>
    obtain ⟨s', turn⟩ := exists_turn_of_beginRun h
    rw [turn] at h
    have stuck := stuck_turn h
    show (s.start lag).1.core.machine.step = _
    unfold Session.start
    rw [if_neg (by simp [idle])]
    dsimp only
    rw [core_settle, turn]
    exact stuck
  | @release nap busy h =>
    have turn := wake_of_execution (spares nap (List.mem_singleton.mpr rfl)) h
    rw [turn] at h
    have stuck := stuck_turn h
    show (s.release nap).core.machine.step = _
    unfold Session.release
    rw [if_pos busy, core_settle, turn]
    exact stuck

end Session

end Chip8
