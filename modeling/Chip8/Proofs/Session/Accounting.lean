import Chip8.Proofs.Session.Loops
import Chip8.Proofs.Session.Splitting
import Chip8.Proofs.Session.Work

/-! # Accounting

A session counts its instructions, one by one when they are traced and by the batch otherwise. Both
counts agree with the record of works, also when a batch fails in the middle. A tick that returns
answers what it has added to the count, as long as the clock goes forwards. A failing command has
counted what completed before the failure, and leaves the machine in front of the instruction that
failed.
-/

namespace Chip8

namespace Machine

/-- A program that clears the screen and then has no instruction. -/
def clearedProgram : List UInt8 := [0x00, 0xE0, 0xFF, 0xFF]

variable {m : Machine}

theorem fault_of_unknown (inside : m.pc.toNat < 0xFFF) (unknown : m.word = 0xFFFF) :
    m.fault? = some .unknownOpcode := by
  rw [fault?, if_neg (Nat.not_le.mpr inside), unknown]
  rfl

theorem runTimed_clearedProgram (holds : m.Holds clearedProgram) (ticks : Nat → Int) :
    ∃ m', m.step = .ok m' ∧ m'.draw = true ∧
      m.runTimed ticks 2 =
        { machine := m'.countTimers (ticks 0), executed := 1,
          error := some ((m'.countTimers (ticks 0)).faultError .unknownOpcode) } := by
  have fits : clearedProgram.length ≤ maxRomSize := by decide
  have pc : m.pc.toNat = programStart := congrArg UInt16.toNat holds.pc
  have word : m.word = 0x00E0 := holds.word fits 0 rfl rfl (by decide) pc
  have clears : m.step = .ok m.clearScreen :=
    step_of_word word (pc ▸ by decide) .cls (by decide) rfl
  have next : m.pc + 2 * 1 = 0x202 := by rw [holds.pc]; decide
  have unknown : { m with pc := m.pc + 2 * 1 }.word = 0xFFFF :=
    holds.word fits 2 rfl rfl (by decide) (next ▸ by decide)
  have inside : (m.pc + 2 * 1).toNat < 0xFFF := next ▸ by decide
  have fault : (m.clearScreen.countTimers (ticks 0)).fault? = some .unknownOpcode :=
    fault_of_unknown inside unknown
  refine ⟨_, clears, rfl, ?_⟩
  rw [runTimed_of_step clears, runTimed_of_error (step_of_fault fault)]

end Machine

namespace Session

variable {τ : Type} [TimeScale τ] {s : Session τ}

/-! ## Ticks -/

theorem cycles_step (h : s.step.2 = .ok ()) : s.step.1.cycles = s.cycles + 1 := by
  have does := does_step (s := s)
  unfold stepWork at does
  generalize s.step = x at h does ⊢
  rcases x with ⟨s₁, e | _⟩
  · cases h
  · exact does.cycles

theorem cycles_decay (ticks : Quantity τ) : (s.decay ticks).1.cycles = s.cycles := by
  unfold decay
  cases s.machine.decay ticks <;> rfl

theorem cycles_decayAt (schedule : Schedule τ) (cycle : Int) :
    (s.decayAt schedule cycle).1.cycles = s.cycles := by
  unfold decayAt
  cases schedule.ticksAt cycle with
  | error e => rfl
  | ok ticks => exact cycles_decay ticks

theorem cycles_runSteps {schedule : Schedule τ} {count : Nat} {cycle : Int}
    (h : (runSteps schedule count cycle s).2 = .ok ()) :
    (runSteps schedule count cycle s).1.cycles = s.cycles + count := by
  induction count generalizing cycle s with
  | zero => rfl
  | succ count ih =>
    unfold runSteps at h ⊢
    have first := cycles_step (s := s)
    generalize s.step = x at h first ⊢
    rcases x with ⟨s₁, e | _⟩
    · cases h
    · have timers := cycles_decayAt (s := s₁) schedule cycle
      dsimp only at h timers ⊢
      generalize s₁.decayAt schedule cycle = y at h timers ⊢
      rcases y with ⟨s₂, e | _⟩
      · cases h
      · rw [ih h, timers, first rfl]
        omega

theorem cycles_runBatch {count : Int} {schedule : Schedule τ} {phase : Int}
    (h : (s.runBatch (.whole count) schedule phase).2 = .ok ()) :
    (s.runBatch (.whole count) schedule phase).1.cycles = s.cycles + count.toNat := by
  unfold runBatch at h ⊢
  cases hb : s.machine.runScheduled (.whole count) schedule (.whole phase) with
  | error e =>
    rw [hb] at h
    cases h
  | ok b =>
    rw [hb] at h
    dsimp only at h ⊢
    cases error : b.error with
    | some e =>
      rw [error] at h
      cases h
    | none =>
      dsimp only
      rcases Machine.runScheduled_eq_ok hb with ⟨none, rfl⟩ | ⟨-, n, ticks, fits, rfl⟩
      · have short : count ≤ 0 := of_decide_eq_true none
        rw [Int.toNat_of_nonpos short]
      · have whole : n = count := by
          rw [Quantity.signed32_whole] at fits
          split at fits
          · exact (Except.ok.inj fits).symm
          · cases fits
        rw [(Machine.runTimed_executed ticks n.toNat).2.mp error, whole]

theorem cycles_advance {count : Int} {schedule : Schedule τ} {phase : Int}
    (h : (s.advance count schedule phase).2 = .ok ()) :
    (s.advance count schedule phase).1.cycles = s.cycles + count.toNat := by
  unfold advance at h ⊢
  split at h
  · next traced =>
    rw [if_pos traced]
    exact cycles_runSteps h
  · next quiet =>
    rw [if_neg quiet]
    exact cycles_runBatch h

theorem cycles_tick {n : Int} (h : s.tick.2 = .ok n) :
    (∃ due, s.readClock.2 = .ok due ∧ due.cycles = n) ∧ s.tick.1.cycles = s.cycles + n.toNat := by
  unfold tick at h ⊢
  have same : s.readClock.1.cycles = s.cycles := rfl
  generalize s.readClock = x at h same ⊢
  rcases x with ⟨s₁, e | due⟩
  · cases h
  · have cycles : (s₁.loadKeypad.advance due.cycles {} 0).2 = .ok () →
        (s₁.loadKeypad.advance due.cycles {} 0).1.cycles = s₁.cycles + due.cycles.toNat :=
      cycles_advance
    dsimp only at h same ⊢
    generalize s₁.loadKeypad.advance due.cycles {} 0 = y at h cycles ⊢
    rcases y with ⟨s₂, e | _⟩
    · cases h
    · have timers := cycles_decay (s := s₂) (.whole due.ticks)
      dsimp only at h timers ⊢
      generalize s₂.decay (.whole due.ticks) = z at h timers ⊢
      rcases z with ⟨s₃, e | _⟩
      · cases h
      · obtain rfl := Except.ok.inj h
        refine ⟨⟨due, rfl, rfl⟩, ?_⟩
        calc s₃.publish.cycles = s₂.cycles := (cycles_publish s₃).trans timers
          _ = s₁.cycles + due.cycles.toNat := cycles rfl
          _ = s.cycles + due.cycles.toNat := by rw [same]

/-- A tick that returns answers by how much it has raised the count. -/
theorem tick_answers [SignedScale τ] (forward : s.clock.Forward) {n : Int}
    (h : s.tick.2 = .ok n) : (s.tick.1.cycles : Int) = s.cycles + n := by
  obtain ⟨⟨due, granted, rfl⟩, cycles⟩ := cycles_tick h
  have nonneg : 0 ≤ due.cycles := (forward.tick _ _).cycles due granted
  rw [cycles]
  omega

/-! ## Failures -/

theorem stuck_perform [FaultlessScale τ] {c : Command τ} {e : ExecutionError}
    (spares : c.Spares e) (h : (s.perform c).2 = .error (.execution e)) :
    (s.perform c).1.machine.step = .error e := by
  have raised {x : Session τ × Except Failure Unit}
      (h : (answered (fun _ => .done) x).2 = .error (.execution e)) :
      x.2 = .error (.execution e) := by
    rcases x with ⟨s, failure | _⟩
    · cases h
      rfl
    · cases h
  cases c with
  | call c => exact stuck_call h
  | run naps lag => exact stuck_run spares (raised h)
  | start lag =>
    have refused : (s.start lag).2 = .error (.execution e) := raised h
    unfold start at refused
    split at refused <;> cases refused
  | release nap => cases h
  | stop => cases h

theorem does_failed {m : Machine} (origin : s.core.origin = .ok m) {c : Command τ}
    {failure : Failure} (h : (s.perform c).2 = .error failure) :
    s.Does (s.work c) (s.perform c).1 := by
  rcases perform_cases origin c with ⟨again, -⟩ | ⟨-, does⟩
  · unfold restarts at again
    split at again
    · have failed : s.reset.2.map (fun _ => Answer.done) = .error failure := h
      cases outcome : s.reset.2 with
      | ok _ =>
        rw [outcome] at failed
        cases failed
      | error e =>
        rw [outcome] at again
        cases again
    · cases again
  · exact does

section Creation

variable {config : Config τ} {rom : List UInt8} {name : String} {seed : RandomKey}
  {start : Quantity τ}

/-- The works of a history since the session was made or last reset lead from the fresh machine to
the one that it leaves, and the session has counted their instructions. Every tick that returns
answers by how much it raises the count. A failing command does its works, counts the instructions
in them, and leaves the machine in front of the instruction that failed, if one did and the error
is not one that a sleep raised. -/
theorem cycles_accounted [FaultlessScale τ] [SignedScale τ]
    (made : create config rom name seed start = .ok s) (valid : config.violation? = none)
    (history : List (Quantity τ × Command τ)) :
    let t := s.after history
    s.machine.Works (s.worksAfter history) t.machine ∧
      t.cycles = Work.instructions (s.worksAfter history) ∧
      (∀ now n, (t.atTime now).tick.2 = .ok n →
        ((t.atTime now).tick.1.cycles : Int) = t.cycles + n) ∧
      ∀ now c failure, ((t.atTime now).perform c).2 = .error failure →
        let works := (t.atTime now).work c
        let left := ((t.atTime now).perform c).1
        t.machine.Works works left.machine ∧
          left.cycles = t.cycles + Work.instructions works ∧
          ∀ e, failure = .execution e → c.Spares e → left.machine.step = .error e := by
  intro t
  have fresh : s.core = Core.fresh s.machine := core_create made
  have none : s.cycles = 0 := congrArg Core.cycles fresh
  have whole : s.Does (s.worksAfter history) t := does_after fresh history
  have forward : t.clock.Forward := by
    obtain ⟨level, machine, output, -, rfl⟩ := create_eq_ok made
    exact (Clock.forward_create valid).ages whole.clock
  have origin : t.core.origin = .ok s.machine := (course_after fresh history).origin
  refine ⟨whole.works, ?_, fun now n h => tick_answers (s := t.atTime now) forward h, ?_⟩
  · rw [whole.cycles, none, Nat.zero_add]
  · intro now c failure h
    have does := does_failed (s := t.atTime now) origin h
    refine ⟨does.works, does.cycles, ?_⟩
    rintro e rfl spares
    exact stuck_perform spares h

end Creation

theorem exists_cleared :
    ∃ (s : Session Rat) (m : Machine) (e : ExecutionError),
      create {} Machine.clearedProgram "cleared" ⟨0, 0⟩ (.real 0) = .ok s ∧
      s.loadKeypad.machine.step = .ok m ∧ m.draw = true ∧
      (s.runCycles (.whole 2)).2 = .error (.execution e) ∧
      (s.runCycles (.whole 2)).1.cycles = 1 := by
  have info : LogLevel.ofName? ({} : Config Rat).logLevel = some .info := by decide +kernel
  obtain ⟨s, made, config, holds, quiet⟩ := exists_create_eq Machine.clearedProgram info (by decide)
    (Quantity.measurableFrom_real (0 : Rat) 0) "cleared" ⟨0, 0⟩
  have paced : s.Paced 500 60 := ⟨by rw [schedule, config], by decide, by decide, by decide⟩
  obtain ⟨m, clears, drawn, batch⟩ := Machine.runTimed_clearedProgram
    (m := s.loadKeypad.machine) ⟨holds.memory, holds.pc⟩ (tickOf 500 60)
  have run : s.runCycles (.whole 2) = _ :=
    (paced.runCycles quiet 2).trans (congrArg s.afterRun batch)
  have none : s.cycles = 0 := congrArg Core.cycles (core_create made)
  refine ⟨s, m, _, made, clears, drawn, congrArg Prod.snd run, ?_⟩
  exact (congrArg (fun x => x.1.cycles) run).trans (congrArg (· + 1) none)

/-- The failing run has counted one instruction, and the machine is left in front of the next. -/
theorem cycles_accounted_cleared :
    ∃ (s : Session Rat) (e : ExecutionError),
      create {} Machine.clearedProgram "cleared" ⟨0, 0⟩ (.real 0) = .ok s ∧
      let run := (s.atTime (.real 0)).perform (.call (.runCycles 2 false))
      run.2 = .error (.execution e) ∧ run.1.cycles = 1 ∧
        Work.instructions ((s.atTime (.real 0)).work (.call (.runCycles 2 false))) = 1 ∧
        run.1.machine.step = .error e := by
  obtain ⟨s, m, e, made, -, -, fails, cycles⟩ := exists_cleared
  have here : s.atTime (.real 0) = s := by
    obtain ⟨level, machine, output, -, rfl⟩ := create_eq_ok made
    rfl
  have raised : (s.perform (.call (.runCycles 2 false))).2 = .error (.execution e) :=
    congrArg (fun x => x.map fun _ => Answer.done) fails
  rw [← here] at raised cycles
  obtain ⟨-, none, -, failing⟩ := cycles_accounted made (by decide +kernel) []
  obtain ⟨-, counted, stuck⟩ := failing _ _ _ raised
  refine ⟨s, e, made, raised, cycles, ?_, stuck e rfl (Command.spares_call _ e)⟩
  have one : 1 = s.cycles + Work.instructions _ := cycles.symm.trans counted
  rw [show s.cycles = 0 from none, Nat.zero_add] at one
  exact one.symm

/-- A run that fails publishes what was drawn before, and so clears the draw flag that the last
completed instruction had set. -/
theorem draw_cleared_by_failure :
    ∃ (s : Session Rat) (m : Machine) (e : ExecutionError),
      create {} Machine.clearedProgram "cleared" ⟨0, 0⟩ (.real 0) = .ok s ∧
      s.loadKeypad.machine.step = .ok m ∧
      (s.runCycles (.whole 2)).2 = .error (.execution e) ∧ (s.runCycles (.whole 2)).1.cycles = 1 ∧
      ∀ keypad delay sound,
        (s.runCycles (.whole 2)).1.machine ≠ { m with keypad, delay, sound } := by
  obtain ⟨s, m, e, made, clears, drawn, fails, cycles⟩ := exists_cleared
  refine ⟨s, m, e, made, clears, fails, cycles, ?_⟩
  intro keypad delay sound same
  have dark : m.draw = false :=
    (congrArg Machine.draw same).symm.trans (draw_runCycles (s := s) (.whole 2))
  rw [drawn] at dark
  cases dark

end Session

end Chip8
