import Chip8.Proofs.Machine.Countdown
import Chip8.Proofs.Machine.Waiting
import Chip8.Proofs.Session.Beats
import Chip8.Proofs.Session.Keys

/-! # Ticks of a waiting machine

A session whose machine waits for a key runs the waiting instruction once in every cycle of its
ticks. None of these cycles leaves a trace as long as no key is down when a tick with cycles loads
the keys; only the timers go on. The first such tick that loads a key ends the wait in its first
cycle, whatever the cycles after it do.
-/

namespace Chip8

namespace Machine

variable {m : Machine}

theorem exists_decayTimers {ticks : Int} (fits : ticks < 2 ^ 31) :
    ∃ m', m.decayTimers ticks = .ok m' ∧ m.Alike m' ∧ m.CountedDown (max ticks 0) m' := by
  by_cases none : ticks ≤ 0
  · refine ⟨m, if_pos none, .refl m, ?_⟩
    rw [Int.max_eq_right none]
    exact .refl m
  · have nonneg : 0 ≤ ticks := by omega
    refine ⟨m.countTimers ticks, decayTimers_eq nonneg fits, .around m _ _ m.keypad m.draw, ?_⟩
    rw [Int.max_eq_left nonneg]
    exact countedDown_countTimers m nonneg fits

end Machine

namespace Session

variable {τ : Type} [TimeScale τ] {s t : Session τ} {due : Due} {dues : List Due}

/-! ## One cycle of many -/

theorem trace_of_untraced (quiet : s.traced = false) (word : UInt16) :
    s.trace word = (s, .ok ()) := by
  have silent (message : String) :
      s.journal.logger.write s.surroundings.now .debug message = .ok "" :=
    if_neg (Bool.eq_false_iff.mp quiet)
  rw [trace, say, silent]
  exact congrArg (·, _) emit_empty

theorem step_of_completes {m : Machine} (stamp : s.traced = true → s.Stampable)
    (completes : s.machine.step = .ok m) :
    ∃ text, (s.traced = false → text = "") ∧
      s.step = ({ s.emit text with machine := m, cycles := s.cycles + 1 }, .ok ()) := by
  cases traced : s.traced with
  | true =>
    obtain ⟨text, stepped⟩ := exists_step (stamp traced)
    rw [completes] at stepped
    exact ⟨text, fun quiet => (Bool.noConfusion quiet), stepped⟩
  | false =>
    refine ⟨"", fun _ => rfl, ?_⟩
    unfold Machine.step at completes
    rw [emit_empty, step]
    cases fetched : s.machine.fetch with
    | error e => simp [fetched] at completes
    | ok word =>
      rw [fetched] at completes
      simp only [trace_of_untraced traced, completes]

theorem decayAt_untimed (cycle : Int) : s.decayAt {} cycle = (s, .ok ()) := by
  have none : ({} : Schedule τ).ticksAt cycle = .ok (.whole 0) := by
    refine (Schedule.ticksAt_whole (by decide) cycle).trans ?_
    simp [TimerRatio.ticksAt]
  rw [decayAt, none]
  rfl

/-- Without ticks for the timers the number of a cycle does not matter. -/
theorem runSteps_untimed (count : Nat) (cycle cycle' : Int) :
    runSteps {} count cycle s = runSteps {} count cycle' s := by
  induction count generalizing cycle cycle' s with
  | zero => rfl
  | succ count ih =>
    unfold runSteps
    rcases s.step with ⟨s₁, e | _⟩
    · rfl
    · dsimp only
      rw [decayAt_untimed, decayAt_untimed]
      exact ih _ _

theorem advance_of_nonpos {count : Int} (none : count ≤ 0) : s.advance count {} 0 = (s, .ok ()) := by
  have zero : count.toNat = 0 := Int.toNat_of_nonpos none
  rw [advance]
  split
  · rw [zero]
    rfl
  · rw [runBatch_untimed (by omega), zero]
    rfl

theorem advance_of_step {m : Machine} (stamp : s.traced = true → s.Stampable) {count : Int}
    (some : 0 < count) (fits : count < 2 ^ 31) (completes : s.machine.step = .ok m) :
    ∃ u, s.step = (u, .ok ()) ∧
      u.core = { s.core with machine := m, cycles := s.cycles + 1 } ∧ u.setting = s.setting ∧
      s.advance count {} 0 = u.advance (count - 1) {} 0 := by
  obtain ⟨text, quiet, stepped⟩ := step_of_completes stamp completes
  refine ⟨_, stepped, rfl, rfl, ?_⟩
  have count_eq : count.toNat = (count - 1).toNat + 1 := by omega
  cases traced : s.traced with
  | true =>
    rw [advance, traced, if_pos rfl, count_eq, runSteps, stepped]
    dsimp only
    rw [decayAt_untimed, advance]
    refine Eq.trans ?_ (if_pos traced).symm
    exact runSteps_untimed _ _ _
  | false =>
    rw [quiet traced, emit_empty]
    rw [advance, traced, if_neg (by decide), runBatch_untimed fits, count_eq,
      Machine.runTimed_of_step completes, Machine.countTimers_zero, advance]
    refine Eq.trans ?_ (if_neg (Bool.eq_false_iff.mp traced)).symm
    rw [runBatch_untimed (by omega)]
    simp only [afterBatch, Nat.add_assoc, Nat.add_comm 1]

theorem advance_of_still (stamp : s.traced = true → s.Stampable) {count : Int}
    (fits : count < 2 ^ 31) (still : s.machine.step = .ok s.machine) :
    ∃ t, s.advance count {} 0 = (t, .ok ()) ∧
      t.core = { s.core with cycles := s.cycles + count.toNat } := by
  induction left : count.toNat generalizing s count with
  | zero =>
    have none : count ≤ 0 := Int.toNat_eq_zero.mp left
    exact ⟨s, advance_of_nonpos none, rfl⟩
  | succ n ih =>
    obtain ⟨u, -, core, setting, advanced⟩ := advance_of_step stamp (by omega) fits still
    have machine : u.machine = s.machine := congrArg Core.machine core
    have cycles : u.cycles = s.cycles + 1 := congrArg Core.cycles core
    have stamp' (traced : u.traced = true) : u.Stampable :=
      .of_setting (stamp (traced_of_setting setting ▸ traced)) setting
    have still' : u.machine.step = .ok u.machine := by rw [machine, still]
    have fewer : (count - 1).toNat = n := by omega
    obtain ⟨t, others, core'⟩ := ih stamp' (by omega) still' fewer
    refine ⟨t, advanced.trans others, core'.trans ?_⟩
    rw [core, cycles, Nat.add_right_comm]
    rfl

/-! ## Ticks -/

def finishTick (due : Due) (x : Session τ × Except Failure Unit) :
    Session τ × Except Failure Int :=
  match x with
  | (s, .error e) => (s, .error e)
  | (s, .ok ()) =>
    match s.decay (.whole due.ticks) with
    | (s, .error e) => (s, .error e)
    | (s, .ok ()) => (s.publish, .ok due.cycles)

/-- The next tick is granted so much, in 32 bits, and can write to the log if it traces its
instructions. -/
structure Granted (s : Session τ) (due : Due) : Prop where
  read : s.readClock.2 = .ok due
  cycles : due.cycles < 2 ^ 31
  ticks : due.ticks < 2 ^ 31
  stamp : s.traced = true → s.Stampable

theorem tick_eq (read : s.readClock.2 = .ok due) :
    s.tick = finishTick due (s.readClock.1.loadKeypad.advance due.cycles {} 0) := by
  unfold tick
  generalize s.readClock = x at read
  obtain ⟨s₁, r⟩ := x
  dsimp only at read
  subst read
  rfl

/-- What has become of a session whose machine stood still through ticks that granted so much. -/
structure Waited (s : Session τ) (dues : List Due) (t : Session τ) : Prop where
  alike : s.machine.Alike t.machine
  timers : s.machine.CountedDown (dues.map fun due => max due.ticks 0).sum t.machine
  cycles : t.cycles = s.cycles + (dues.map fun due => due.cycles.toNat).sum

theorem Waited.refl (s : Session τ) : s.Waited [] s where
  alike := .refl s.machine
  timers := .refl s.machine
  cycles := rfl

theorem Waited.held {u : Session τ} (h : s.Waited dues t) (machine : u.machine = t.machine)
    (cycles : u.cycles = t.cycles) : s.Waited dues u where
  alike := machine ▸ h.alike
  timers := machine ▸ h.timers
  cycles := cycles ▸ h.cycles

theorem Waited.does {u : Session τ} (h : s.Waited dues t) (does : t.Does [] u) :
    s.Waited dues u := by
  have cycles : u.cycles = t.cycles := does.cycles
  obtain ⟨works, -, -⟩ := does
  generalize machine : u.machine = m at works
  cases works
  exact h.held machine cycles

theorem Waited.tick {dues' : List Due} {u : Session τ} (h : s.Waited dues t)
    (h' : t.Waited dues' u) : s.Waited (dues ++ dues') u where
  alike := h.alike.trans h'.alike
  timers := by
    rw [List.map_append, List.sum_append]
    exact h.timers.trans h'.timers (List.sum_nonneg (by simp))
  cycles := by
    rw [h'.cycles, h.cycles, List.map_append, List.sum_append, Nat.add_assoc]

theorem waited_finishTick (fits : due.ticks < 2 ^ 31)
    (core : t.core = { s.loadKeypad.core with cycles := s.cycles + due.cycles.toNat }) :
    (finishTick due (t, .ok ())).2 = .ok due.cycles ∧
      s.Waited [due] (finishTick due (t, .ok ())).1 := by
  have machine : t.machine = { s.machine with keypad := s.keypad } := congrArg Core.machine core
  have cycles : t.cycles = s.cycles + due.cycles.toNat := congrArg Core.cycles core
  obtain ⟨m, decayed, alike, counted⟩ := t.machine.exists_decayTimers fits
  have decayed' : t.decay (.whole due.ticks) = ({ t with machine := m }, .ok ()) := by
    rw [decay, Machine.decay, decayed]
  rw [machine] at alike counted
  rw [finishTick, decayed']
  refine ⟨rfl, ?_, ?_, ?_⟩
  · rw [machine_publish]
    exact (Machine.Alike.around s.machine _ _ s.keypad s.machine.draw).trans
      (alike.trans (.around m _ _ m.keypad false))
  · rw [machine_publish, List.map_singleton, List.sum_singleton]
    exact ⟨counted.delay, counted.sound⟩
  · rw [cycles_publish, List.map_singleton, List.sum_singleton]
    exact cycles

variable {x : Fin 16}

theorem waited_tick (waits : s.machine.AwaitsKey x) (granted : s.Granted due)
    (idle : 0 < due.cycles → ∀ k : Fin 16, s.keypad.get k = false) :
    s.tick.2 = .ok due.cycles ∧ s.Waited [due] s.tick.1 := by
  let loaded : Session τ := s.readClock.1.loadKeypad
  have waits' : loaded.machine.AwaitsKey x := waits.alike (.around s.machine _ _ s.keypad _)
  obtain ⟨t, ran, core⟩ : ∃ t, loaded.advance due.cycles {} 0 = (t, .ok ()) ∧
      t.core = { s.loadKeypad.core with cycles := s.cycles + due.cycles.toNat } := by
    by_cases some : 0 < due.cycles
    · exact advance_of_still (s := loaded) granted.stamp granted.cycles (waits'.step_of_up (idle some))
    · have none : due.cycles ≤ 0 := Int.not_lt.mp some
      refine ⟨loaded, advance_of_nonpos none, ?_⟩
      rw [Int.toNat_of_nonpos none]
      rfl
  rw [tick_eq granted.read, ran]
  exact waited_finishTick granted.ticks core

/-- What `first` can have become through ticks that granted so much, none of which ran a cycle with
a key down, while keys were set and the clock went on in any way. -/
inductive Awaits (first : Session τ) : List Due → Session τ → Prop where
  | start : Awaits first [] first
  | clock {dues : List Due} {s : Session τ} (h : Awaits first dues s) (clock : Clock τ)
      (now : Quantity τ) : Awaits first dues ({ s with clock }.atTime now)
  | setKey {dues : List Due} {s : Session τ} (h : Awaits first dues s) (index : Quantity τ)
      (pressed : Bool) : Awaits first dues (s.setKey index pressed).1
  | setKeys {dues : List Due} {s : Session τ} (h : Awaits first dues s)
      (keys : List (Quantity τ × Bool)) : Awaits first dues (s.setKeys keys).1
  | tick {dues : List Due} {s : Session τ} {due : Due} (h : Awaits first dues s)
      (granted : s.Granted due) (idle : 0 < due.cycles → ∀ k : Fin 16, s.keypad.get k = false) :
      Awaits first (dues ++ [due]) s.tick.1

theorem Awaits.waited (h : Awaits s dues t) (waits : s.machine.AwaitsKey x) :
    s.Waited dues t := by
  induction h with
  | start => exact .refl s
  | clock _ _ _ ih => exact ih.held rfl rfl
  | setKey _ index pressed ih => exact ih.does (does_setKey index pressed)
  | setKeys _ keys ih => exact ih.does (does_setKeys keys)
  | tick _ granted idle ih =>
    exact ih.tick (waited_tick (waits.alike ih.alike) granted idle).2

/-- However often a machine that waits for a key is run without one, it stays as it is but for its
timers, its keys and the draw flag, and every cycle completes. The first tick with cycles that loads
a key ends the wait: its first cycle puts the lowest key into the register and goes on to the next
instruction, and the other cycles go on from there. -/
theorem waits_for_key {first : Session τ} (waits : first.machine.AwaitsKey x)
    (h : Awaits first dues s) :
    first.Waited dues s ∧ ∀ due, s.Granted due →
      ((0 < due.cycles → ∀ k : Fin 16, s.keypad.get k = false) → s.tick.2 = .ok due.cycles) ∧
      (0 < due.cycles → (∃ k : Fin 16, s.keypad.get k = true) →
        ∃ k u, s.keypad.Lowest k ∧ s.readClock.1.loadKeypad.step = (u, .ok ()) ∧
          u.core = { s.core with
            machine := { s.machine.setV x (UInt8.ofNat k) with
              keypad := s.keypad
              pc := s.machine.pc + 2 }
            cycles := s.cycles + 1 } ∧
          s.tick = finishTick due (u.advance (due.cycles - 1) {} 0)) := by
  have waited : first.Waited dues s := h.waited waits
  have still : s.machine.AwaitsKey x := waits.alike waited.alike
  refine ⟨waited, fun due granted => ⟨fun idle => (waited_tick still granted idle).1, ?_⟩⟩
  rintro some ⟨key, down⟩
  let loaded : Session τ := s.readClock.1.loadKeypad
  obtain ⟨k, lowest⟩ := loaded.machine.exists_lowest down
  have still' : loaded.machine.AwaitsKey x := still.alike (.around s.machine _ _ s.keypad _)
  obtain ⟨u, stepped, core, -, advanced⟩ := advance_of_step (s := loaded) granted.stamp some
    granted.cycles (still'.step_of_lowest lowest)
  exact ⟨k, u, lowest, stepped, core, (tick_eq granted.read).trans (congrArg _ advanced)⟩

/-- The session a second after its clock was started. -/
def secondLater (s : Session Rat) : Session Rat :=
  { s with clock := { Clock.create (.whole 500) (.whole 60) none with last := some (.real 0) } }.atTime
    (.real 1)

theorem granted_secondLater (s : Session Rat) : s.secondLater.Granted ⟨500, 60⟩ where
  read := by
    change (({ Clock.create (.whole 500) (.whole 60) none with last := some (.real 1) } :
      Clock Rat).accrue (Quantity.real (1 - 0)).atLeastZero).2 = _
    decide +kernel
  cycles := by decide
  ticks := by decide
  stamp _ := Logger.stamp_of_measurableFrom (Quantity.measurableFrom_rat _ _)

/-- Keys that go down after a second of waiting end the wait, and the lowest of them is taken. -/
theorem waits_for_key_seven :
    ∃ s : Session Rat, create {} [0xF3, 0x0A] "wait" ⟨0, 0⟩ (.real 0) = .ok s ∧
      s.secondLater.tick.2 = .ok 500 ∧
      let t := (s.secondLater.tick.1.setKeys [(.whole 9, true), (.whole 7, true)]).1.secondLater
      t.cycles = 500 ∧ ∃ u, t.readClock.1.loadKeypad.step = (u, .ok ()) ∧
        u.machine.getV 3 = 7 ∧ u.machine.pc = 0x202 ∧ u.cycles = 501 := by
  have info : LogLevel.ofName? ({} : Config Rat).logLevel = some .info := by decide +kernel
  obtain ⟨s, made⟩ : ∃ s : Session Rat,
      create {} [0xF3, 0x0A] "wait" ⟨0, 0⟩ (.real 0) = .ok s :=
    exists_create info (by decide) (Quantity.measurableFrom_real 0 0)
  have core : s.core = Core.fresh s.machine := core_create made
  have up : s.keypad = noKeys := congrArg Core.keypad core
  have none : s.cycles = 0 := congrArg Core.cycles core
  have start := machine_create made
  have waits : s.machine.AwaitsKey 3 := by
    rw [start]
    exact ⟨by decide, by decide +kernel⟩
  have begun : Awaits s [] s.secondLater := .clock .start _ _
  have idle (k : Fin 16) : s.secondLater.keypad.get k = false := by
    show s.keypad.get k = false
    rw [up]
    simp [noKeys, Vector.get]
  refine ⟨s, made, (waits_for_key waits begun).2 _ s.granted_secondLater |>.1 fun _ => idle, ?_⟩
  intro t
  have keypad : t.keypad = (noKeys.put 9 true).put 7 true := by
    have kept : s.secondLater.tick.1.keypad = noKeys := emulates_tick.keypad.trans up
    refine (keypad_setKeys [(9, true), (7, true)]).trans ?_
    rw [kept]
    decide
  have later : Awaits s [⟨500, 60⟩] t :=
    .clock (.setKeys (.tick begun s.granted_secondLater fun _ => idle) _) _ _
  obtain ⟨waited, ends⟩ := waits_for_key waits later
  obtain ⟨k, u, lowest, stepped, left, -⟩ := (ends _ (granted_secondLater _)).2 (by decide)
    ⟨9, by rw [keypad]; decide⟩
  have cycles : t.cycles = 500 := by
    rw [waited.cycles, none]
    rfl
  have seven : t.keypad.Lowest 7 := by
    rw [keypad]
    exact ⟨by decide, by decide⟩
  obtain rfl : k = 7 := lowest.unique seven
  have machine := congrArg Core.machine left
  refine ⟨cycles, u, stepped, ?_, ?_, ?_⟩
  · refine (congrArg (fun m => m.getV 3) machine).trans ?_
    simp [Machine.getV, Machine.setV]
  · refine (congrArg Machine.pc machine).trans ?_
    show t.machine.pc + 2 = _
    rw [← waited.alike.pc, start]
    rfl
  · exact (congrArg Core.cycles left).trans (congrArg (· + 1) cycles)

end Session

end Chip8
