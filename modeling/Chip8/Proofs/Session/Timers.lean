import Chip8.Proofs.Clock.Timers
import Chip8.Proofs.Machine.Countdown
import Chip8.Proofs.Session.Work

/-! # Timers of a session

The instructions of a tick leave the timers to the clock, unless one of them sets a timer. So the
timers of two sessions whose clocks were reset together keep time with each other, however fast
their instructions run and whatever these are.
-/

namespace Chip8

theorem TimerRatio.wrappedTicksAt_none (c : Int) : wrappedTicksAt ⟨0, 1⟩ c = 0 := by
  simp [wrappedTicksAt, wrappedQuotient, wrap32]

namespace Session

variable {τ : Type} [TimeScale τ] {s t : Session τ}

theorem machine_step_of_ok (h : s.step = (t, .ok ())) : s.machine.step = .ok t.machine := by
  unfold step at h
  cases hf : s.machine.fetch with
  | error e =>
    rw [hf] at h
    cases h
  | ok word =>
    have machine : (s.trace word).1.machine = s.machine := rfl
    rw [hf] at h
    dsimp only at h
    generalize s.trace word = x at machine h
    rcases x with ⟨s₁, e | _⟩
    · cases h
    · dsimp only at machine h
      cases hx : s₁.machine.execute word.toNat with
      | error e =>
        rw [hx] at h
        cases h
      | ok m =>
        rw [hx] at h
        obtain rfl := (Prod.mk.inj h).1
        rw [Machine.step, hf, ← machine]
        exact hx

theorem decayAt_none (s : Session τ) (cycle : Int) : s.decayAt {} cycle = (s, .ok ()) := by
  have none : TimerRatio.ticksAt ⟨0, 1⟩ cycle = 0 := by simp [TimerRatio.ticksAt]
  rw [decayAt, Schedule.ticksAt_whole (by decide), none]
  rfl

theorem machine_runSteps {count : Nat} {cycle : Int} (h : runSteps {} count cycle s = (t, .ok ())) :
    t.machine = (s.machine.runTimed (fun _ => 0) count).machine := by
  induction count generalizing cycle s with
  | zero => exact congrArg (fun x => x.1.machine) h.symm
  | succ count ih =>
    unfold runSteps at h
    rcases first : s.step with ⟨s₁, e | _⟩
    · rw [first] at h
      cases h
    · rw [first] at h
      dsimp only at h
      rw [decayAt_none] at h
      rw [Machine.runTimed_of_step (machine_step_of_ok first), Machine.countTimers_zero]
      exact ih h

theorem machine_advance {count : Int} (h : s.advance count {} 0 = (t, .ok ())) :
    t.machine = (s.machine.runTimed (fun _ => 0) count.toNat).machine := by
  unfold advance at h
  split at h
  · exact machine_runSteps h
  · unfold runBatch at h
    rw [Machine.runScheduled_whole] at h
    cases hb : s.machine.runBatch count ⟨0, 1⟩ 0 with
    | error e =>
      rw [hb] at h
      cases h
    | ok b =>
      have timed := Machine.runBatch_eq_runTimed_batchTicks hb
      have none : Machine.batchTicks ⟨0, 1⟩ 0 = fun _ => 0 :=
        funext fun k => TimerRatio.wrappedTicksAt_none _
      rw [none] at timed
      rw [hb] at h
      dsimp only at h
      cases failed : b.error with
      | some e =>
        rw [failed] at h
        cases h
      | none =>
        rw [failed] at h
        rw [← timed]
        exact congrArg (fun x => x.1.machine) h.symm

/-- The machines in front of the instructions that a tick runs, if so many cycles are due. -/
def tickLog (s : Session τ) (due : Due) : List Machine :=
  s.loadKeypad.machine.runLog (fun _ => 0) due.cycles.toNat

theorem timers_publish (s : Session τ) :
    s.publish.machine.delay = s.machine.delay ∧ s.publish.machine.sound = s.machine.sound := by
  rw [machine_publish]
  exact ⟨rfl, rfl⟩

theorem timers_tick {due : Due} (read : s.readClock.2 = .ok due) (nonneg : 0 ≤ due.ticks)
    (passes : s.tick.2.isOk = true) (quiet : ∀ m ∈ s.tickLog due, m.setsTimer = false) :
    (s.tick.1.machine.delay.toNat : Int) = max (s.machine.delay.toNat - due.ticks) 0 ∧
      (s.tick.1.machine.sound.toNat : Int) = max (s.machine.sound.toNat - due.ticks) 0 := by
  have machine : s.readClock.1.loadKeypad.machine = s.loadKeypad.machine := rfl
  unfold tick at passes ⊢
  generalize s.readClock = x at read machine passes ⊢
  obtain ⟨s₁, r⟩ := x
  dsimp only at read machine
  subst read
  dsimp only at passes ⊢
  rcases ran : s₁.loadKeypad.advance due.cycles {} 0 with ⟨s₂, e | _⟩
  · rw [ran] at passes
    cases passes
  · have cycles := machine_advance ran
    rw [machine] at cycles
    obtain ⟨delay, sound⟩ := Machine.timers_runTimed quiet
    rw [ran] at passes
    dsimp only at passes ⊢
    unfold decay at passes ⊢
    cases counted : s₂.machine.decay (.whole due.ticks : Quantity τ) with
    | error e =>
      rw [counted] at passes
      cases passes
    | ok m =>
      obtain ⟨delayed, sounded⟩ := Machine.countedDown_decayTimers nonneg counted
      rw [cycles, delay] at delayed
      rw [cycles, sound] at sounded
      have published := timers_publish { s₂ with machine := m }
      dsimp only
      rw [published.1, published.2]
      exact ⟨delayed, sounded⟩

/-! ## Ticks -/

/-- Ticks at a list of readings, and what they find due. None of them fails, and none of their
instructions sets a timer. -/
inductive SteadyTicks : Session τ → List (Quantity τ) → List Due → Session τ → Prop where
  | nil (s : Session τ) : SteadyTicks s [] [] s
  | cons {s s' : Session τ} {now : Quantity τ} {rest : List (Quantity τ)} {due : Due}
      {dues : List Due} (read : (s.atTime now).readClock.2 = .ok due)
      (passes : (s.atTime now).tick.2.isOk = true)
      (quiet : ∀ m ∈ (s.atTime now).tickLog due, m.setsTimer = false)
      (others : SteadyTicks (s.atTime now).tick.1 rest dues s') :
      SteadyTicks s (now :: rest) (due :: dues) s'

variable {readings : List (Quantity τ)} {dues dues' : List Due} {s' t' : Session τ}

theorem SteadyTicks.timers [SignedScale τ] (h : s.SteadyTicks readings dues s')
    (forward : s.clock.Forward) :
    (s'.machine.delay.toNat : Int) = max (s.machine.delay.toNat - (Clock.total dues).ticks) 0 ∧
      (s'.machine.sound.toNat : Int) = max (s.machine.sound.toNat - (Clock.total dues).ticks) 0 ∧
      0 ≤ (Clock.total dues).ticks := by
  induction h with
  | nil s => simp [Clock.total]
  | @cons s s' now rest due dues read passes quiet _ ih =>
    have nonneg : 0 ≤ due.ticks := forward.ticks_nonneg read
    obtain ⟨delay, sound⟩ := timers_tick read nonneg passes quiet
    rw [clock_tick] at ih
    obtain ⟨delay', sound', more⟩ := ih (forward.tick s.journal.logger now).clock
    have total : (Clock.total (due :: dues)).ticks = due.ticks + (Clock.total dues).ticks := rfl
    have machine : (s.atTime now).machine = s.machine := rfl
    rw [machine] at delay sound
    omega

/-- Sessions whose clocks keep the same account for the timers are granted the same ticks. -/
theorem SteadyTicks.ticks_eq (h : s.SteadyTicks readings dues s')
    (h' : t.SteadyTicks readings dues' t') (same : Clock.SameTimers s.clock t.clock) :
    dues'.map Due.ticks = dues.map Due.ticks := by
  induction h generalizing t dues' with
  | nil =>
    cases h'
    rfl
  | @cons s s' now rest due dues read _ _ _ ih =>
    cases h' with
    | cons read' _ _ others' =>
      obtain ⟨ticks, same⟩ := same.tick read read'
      rw [clock_tick] at ih
      rw [List.map_cons, List.map_cons, ticks, ih others' (by rw [clock_tick]; exact same)]

section Creation

variable {config : Config τ} {frequency : Quantity τ} {rom rom' : List UInt8}
  {name name' : String} {seed seed' : RandomKey} {start start' : Quantity τ}

theorem ages_after (made : create config rom name seed start = .ok s)
    (history : List (Quantity τ × Command τ)) :
    (Clock.create config.cpuFrequency config.timerFrequency config.catchUp).Ages
      (s.after history).clock := by
  have ages := (does_after (core_create made) history).clock
  obtain ⟨level, machine, output, -, rfl⟩ := create_eq_ok made
  exact ages

/-- Two sessions whose settings differ in the frequency of the instructions only, and whose timers
and clocks stand the same after a reset of both clocks, are ticked at the same readings. If no tick
fails and no instruction sets a timer, their timers stay the same, and each of them is down by the
ticks that were granted. -/
theorem timers_independent [SignedScale τ] (valid : config.violation? = none)
    (valid' : { config with cpuFrequency := frequency }.violation? = none)
    (made : create config rom name seed start = .ok s)
    (made' : create { config with cpuFrequency := frequency } rom' name' seed' start' = .ok t)
    (history history' : List (Quantity τ × Command τ)) {now : Quantity τ}
    (reset : (s.after history).clock.ResetAt now) (reset' : (t.after history').clock.ResetAt now)
    (delay : (t.after history').machine.delay = (s.after history).machine.delay)
    (sound : (t.after history').machine.sound = (s.after history).machine.sound)
    {readings : List (Quantity τ)} {dues dues' : List Due} {s' t' : Session τ}
    (ticks : (s.after history).SteadyTicks readings dues s')
    (ticks' : (t.after history').SteadyTicks readings dues' t') :
    t'.machine.delay = s'.machine.delay ∧ t'.machine.sound = s'.machine.sound ∧
      (Clock.total dues').ticks = (Clock.total dues).ticks ∧
      (s'.machine.delay.toNat : Int) =
        max ((s.after history).machine.delay.toNat - (Clock.total dues).ticks) 0 ∧
      (s'.machine.sound.toNat : Int) =
        max ((s.after history).machine.sound.toNat - (Clock.total dues).ticks) 0 := by
  have ages := ages_after made history
  have ages' := ages_after made' history'
  obtain ⟨delayed, sounded, -⟩ := ticks.timers ((Clock.forward_create valid).ages ages)
  obtain ⟨delayed', sounded', -⟩ := ticks'.timers ((Clock.forward_create valid').ages ages')
  have same : Clock.SameTimers (s.after history).clock (t.after history').clock :=
    Clock.sameTimers_of_resetAt ages ages' rfl rfl reset reset'
  have granted : (Clock.total dues').ticks = (Clock.total dues).ticks :=
    congrArg List.sum (ticks.ticks_eq ticks' same)
  rw [delay, granted, ← delayed] at delayed'
  rw [sound, granted, ← sounded] at sounded'
  exact ⟨UInt8.toNat_inj.mp (Int.ofNat.inj delayed'), UInt8.toNat_inj.mp (Int.ofNat.inj sounded'),
    granted, delayed, sounded⟩

end Creation

def delayHistory : List (Quantity Rat × Command Rat) :=
  [(.real 0, .call .step), (.real 0, .call .step), (.real 0, .run [])]

theorem exists_delayHistory (config : Config Rat) (due : Due)
    (computed : (create config Machine.delayProgram "delay" ⟨0, 0⟩ (.real 0)).toOption.any
      (fun s =>
        let reset := s.after delayHistory
        let later := reset.atTime (.real (1 / 20))
        reset.clock.last = some (.real 0) ∧ reset.clock.cycleCredit = 0 ∧
          reset.clock.timerCredit = 0 ∧ reset.machine.delay = 5 ∧ reset.machine.sound = 0 ∧
          later.readClock.2.toOption = some due ∧ later.tick.2.isOk = true ∧
          ∀ m ∈ later.tickLog due, m.setsTimer = false) = true) :
    ∃ s s', create config Machine.delayProgram "delay" ⟨0, 0⟩ (.real 0) = .ok s ∧
      (s.after delayHistory).clock.ResetAt (.real 0) ∧
      (s.after delayHistory).machine.delay = 5 ∧ (s.after delayHistory).machine.sound = 0 ∧
      (s.after delayHistory).SteadyTicks [.real (1 / 20)] [due] s' := by
  cases made : create config Machine.delayProgram "delay" ⟨0, 0⟩ (.real 0) with
  | error e =>
    rw [made] at computed
    cases computed
  | ok s =>
    rw [made] at computed
    obtain ⟨last, cycles, timers, delay, sound, read, passes, quiet⟩ :=
      of_decide_eq_true computed
    refine ⟨s, _, rfl, ⟨last, cycles, timers⟩, delay, sound, .cons ?_ passes quiet (.nil _)⟩
    cases found : ((s.after delayHistory).atTime (.real (1 / 20))).readClock.2 with
    | error e =>
      rw [found] at read
      cases read
    | ok due' =>
      rw [found] at read
      rw [Option.some.inj read]

/-- Five instructions and ten take the same three ticks off a timer. -/
theorem timers_independent_delay :
    ∃ s t s' t' : Session Rat,
      create { cpuFrequency := .whole 100 } Machine.delayProgram "delay" ⟨0, 0⟩ (.real 0) = .ok s ∧
      create { cpuFrequency := .whole 200 } Machine.delayProgram "delay" ⟨0, 0⟩ (.real 0) = .ok t ∧
      (s.after delayHistory).SteadyTicks [.real (1 / 20)] [⟨5, 3⟩] s' ∧
      (t.after delayHistory).SteadyTicks [.real (1 / 20)] [⟨10, 3⟩] t' ∧
      s'.machine.delay = 2 ∧ t'.machine.delay = 2 := by
  obtain ⟨s, s', made, reset, delay, sound, ticks⟩ :=
    exists_delayHistory { cpuFrequency := .whole 100 } ⟨5, 3⟩ (by decide +kernel)
  obtain ⟨t, t', made', reset', delay', sound', ticks'⟩ :=
    exists_delayHistory { cpuFrequency := .whole 200 } ⟨10, 3⟩ (by decide +kernel)
  obtain ⟨same, -, -, down, -⟩ := timers_independent (by decide +kernel) (by decide +kernel) made
    made' delayHistory delayHistory reset reset' (delay'.trans delay.symm)
    (sound'.trans sound.symm) ticks ticks'
  rw [delay] at down
  have two : s'.machine.delay = 2 := UInt8.toNat_inj.mp (Int.ofNat.inj down)
  exact ⟨s, t, s', t', made, made', ticks, ticks', two, same.trans two⟩

end Session

end Chip8
