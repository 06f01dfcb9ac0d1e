import Mathlib.Data.List.Induction
import Mathlib.Logic.Relation
import Chip8.Proofs.Machine.Alike
import Chip8.Proofs.Machine.Subroutines
import Chip8.Proofs.Machine.Timed
import Chip8.Proofs.Session.Commands
import Chip8.Proofs.Session.Tracing

/-! # Moves of a session

Whatever a session is asked to do, its machine, screen, keys and cycle counter change by a few
kinds of moves. An instruction completes, the timers change, the keys are handed over or the
display is published. Meanwhile keys are set and the presenter takes frames. What each of these
keeps is kept by every command but a reset, and a reset starts over.
-/

namespace Chip8

open Relation

/-- The part of a session that its emulation and its presenter work on. -/
structure Core where
  /-- The machine that a reset starts from. -/
  origin : Except Failure Machine
  machine : Machine
  screen : Screen
  keypad : Keypad
  cycles : Nat

namespace Core

inductive Move : Core → Core → Prop where
  | instruction {c : Core} {m : Machine} (h : c.machine.step = .ok m) :
      Move c { c with machine := m, cycles := c.cycles + 1 }
  | timers (c : Core) (delay sound : UInt8) :
      Move c { c with machine := { c.machine with delay, sound } }
  | loadKeypad (c : Core) : Move c { c with machine := { c.machine with keypad := c.keypad } }
  | publish {c : Core} (h : c.machine.draw = true) :
      Move c { c with
        machine := { c.machine with draw := false }
        screen := Screen.publish c.machine.display }

/-- A move of the emulation, or keys that are set meanwhile. -/
inductive Act : Core → Core → Prop where
  | move {c c' : Core} (h : Move c c') : Act c c'
  | press (c : Core) (keypad : Keypad) : Act c { c with keypad }

def Emulates : Core → Core → Prop := ReflTransGen Move

def Evolves : Core → Core → Prop := ReflTransGen Act

variable {c c₁ c' : Core}

@[refl] theorem Emulates.refl (c : Core) : c.Emulates c := ReflTransGen.refl

theorem Emulates.trans (h : c.Emulates c₁) (h' : c₁.Emulates c') : c.Emulates c' :=
  ReflTransGen.trans h h'

/-- Only an instruction changes more than what moves by itself. -/
theorem Move.alike (move : c.Move c') (same : c'.cycles = c.cycles) :
    c.machine.Alike c'.machine := by
  cases move with
  | instruction => exact absurd same (Nat.succ_ne_self _)
  | timers delay sound => exact .around c.machine delay sound c.machine.keypad c.machine.draw
  | loadKeypad =>
    exact .around c.machine c.machine.delay c.machine.sound c.keypad c.machine.draw
  | publish => exact .around c.machine c.machine.delay c.machine.sound c.machine.keypad false

theorem Move.emulates (h : c.Move c') : c.Emulates c' := ReflTransGen.single h

@[refl] theorem Evolves.refl (c : Core) : c.Evolves c := ReflTransGen.refl

theorem Evolves.trans (h : c.Evolves c₁) (h' : c₁.Evolves c') : c.Evolves c' :=
  ReflTransGen.trans h h'

theorem Emulates.evolves (h : c.Emulates c') : c.Evolves c' := by
  induction h with
  | refl => exact .refl c
  | tail _ move ih => exact ReflTransGen.tail ih (.move move)

theorem evolves_press (c : Core) (keypad : Keypad) : c.Evolves { c with keypad } :=
  ReflTransGen.single (.press c keypad)

/-- What every act keeps holds at the end if it holds at the beginning. -/
theorem Evolves.induction {P : Core → Prop} (keeps : ∀ {c c'}, P c → c.Act c' → P c')
    (h : c.Evolves c') (hc : P c) : P c' := by
  induction h with
  | refl => exact hc
  | tail _ act ih => exact keeps ih act

theorem emulates_runTimed (c : Core) (ticks : Nat → Int) (count : Nat) :
    c.Emulates { c with
      machine := (c.machine.runTimed ticks count).machine
      cycles := c.cycles + (c.machine.runTimed ticks count).executed } := by
  induction count generalizing c ticks with
  | zero => exact .refl c
  | succ count ih =>
    cases hs : c.machine.step with
    | error e =>
      rw [Machine.runTimed_of_error hs]
      exact .refl c
    | ok m =>
      have timers := Move.timers { c with machine := m, cycles := c.cycles + 1 }
        (Machine.countDown (ticks 0) m.delay) (Machine.countDown (ticks 0) m.sound)
      have first := (Move.instruction hs).emulates.trans timers.emulates
      have others := ih { c with machine := m.countTimers (ticks 0), cycles := c.cycles + 1 }
        fun k => ticks (k + 1)
      rw [Machine.runTimed_of_step hs]
      simp only [Nat.add_right_comm _ 1, ← Nat.add_assoc] at others ⊢
      exact first.trans others

def fresh (m : Machine) : Core where
  origin := .ok m
  machine := m
  screen := Screen.publish m.display
  keypad := Vector.replicate 16 false
  cycles := 0

def taken (c : Core) : Core := { c with screen := c.screen.consume.2 }

/-- What has become of `first`, with a presenter that takes frames. -/
inductive Course (first : Core) : Core → Prop where
  | start : Course first first
  | act {c c' : Core} (h : Course first c) (a : c.Act c') : Course first c'
  | take {c : Core} (h : Course first c) : Course first c.taken

variable {first : Core}

theorem Course.evolves (h : first.Course c) (h' : c.Evolves c') : first.Course c' := by
  induction h' with
  | refl => exact h
  | tail _ a ih => exact ih.act a

theorem Course.origin (h : first.Course c) : c.origin = first.origin := by
  induction h with
  | start => rfl
  | act _ a ih =>
    cases a with
    | move move => cases move <;> exact ih
    | press => exact ih
  | take _ ih => exact ih

theorem Course.executes (h : first.Course c) :
    ∃ trace, first.machine.Executes trace c.machine ∧ c.cycles = first.cycles + trace.length := by
  induction h with
  | start => exact ⟨[], .start, rfl⟩
  | take _ ih => exact ih
  | @act c c' _ a ih =>
    obtain ⟨trace, executes, count⟩ := ih
    cases a with
    | press => exact ⟨trace, executes, count⟩
    | move move =>
      cases move with
      | instruction completes =>
        refine ⟨_, executes.instruction completes, ?_⟩
        rw [List.length_append, count]
        rfl
      | timers delay sound =>
        exact ⟨trace, executes.around delay sound c.machine.keypad c.machine.draw, count⟩
      | loadKeypad =>
        exact ⟨trace, executes.around c.machine.delay c.machine.sound c.keypad c.machine.draw,
          count⟩
      | publish =>
        exact ⟨trace, executes.around c.machine.delay c.machine.sound c.machine.keypad false,
          count⟩

end Core

namespace Machine

variable {τ : Type} [TimeScale τ] {m m' : Machine}

theorem decay_eq_ok {ticks : Quantity τ} (h : m.decay ticks = .ok m') :
    ∃ delay sound, m' = { m with delay, sound } := by
  cases ticks with
  | whole n =>
    change m.decayTimers n = .ok m' at h
    unfold decayTimers at h
    split at h
    · cases h
      exact ⟨m.delay, m.sound, rfl⟩
    · split at h <;> cases h
      exact ⟨_, _, rfl⟩
  | real x =>
    dsimp only [decay] at h
    split at h <;> cases h
    · exact ⟨m.delay, m.sound, rfl⟩
    · exact ⟨_, _, rfl⟩

theorem runScheduled_eq_ok {count phase : Quantity τ} {schedule : Schedule τ} {b : Batch}
    (h : m.runScheduled count schedule phase = .ok b) :
    count.isNotPositive = true ∧ b = { machine := m, executed := 0 } ∨
      count.isNotPositive = false ∧ ∃ (n : Int) (ticks : Nat → Int), count.signed32 = .ok n ∧
        b = m.runTimed ticks n.toNat := by
  unfold runScheduled at h
  split at h
  · next none => exact .inl ⟨none, (Except.ok.inj h).symm⟩
  · next some =>
    right
    refine ⟨by simpa using some, ?_⟩
    cases hn : count.signed32 with
    | error e => simp [hn, bind, Except.bind] at h
    | ok n =>
      cases hr : schedule.ratio with
      | error e => simp [hn, hr, bind, Except.bind] at h
      | ok r =>
        cases hp : schedule.start phase with
        | error e => simp [hn, hr, hp, bind, Except.bind] at h
        | ok start =>
          simp only [hn, hr, hp, bind, Except.bind, pure, Except.pure, Except.ok.injEq] at h
          exact ⟨n, _, rfl, by rw [← h, runFrom_eq_runTimed]⟩

end Machine

namespace Session

variable {τ : Type} [TimeScale τ]

def core (s : Session τ) : Core where
  origin := freshMachine s.config s.rom s.name s.seed
  machine := s.machine
  screen := s.screen
  keypad := s.keypad
  cycles := s.cycles

variable {s : Session τ}

/-! ## Emulation -/

theorem core_trace (word : UInt16) : (s.trace word).1.core = s.core := rfl

theorem emulates_step : s.core.Emulates s.step.1.core := by
  unfold step
  cases hf : s.machine.fetch with
  | error e => exact .refl _
  | ok word =>
    have same := core_trace (s := s) word
    dsimp only
    generalize s.trace word = x at same ⊢
    rcases x with ⟨s₁, e | _⟩
    · exact same ▸ .refl _
    · have machine : s₁.machine = s.machine := congrArg Core.machine same
      dsimp only
      cases hx : s₁.machine.execute word.toNat with
      | error e => exact same ▸ .refl _
      | ok m =>
        have completes : s₁.core.machine.step = .ok m := by
          show s₁.machine.step = _
          rw [Machine.step, machine, hf, ← machine]
          exact hx
        exact same ▸ (Core.Move.instruction completes).emulates

theorem core_step {m : Machine} (h : s.Stampable) (completes : s.machine.step = .ok m) :
    s.step.1.core = { s.core with machine := m, cycles := s.cycles + 1 } := by
  obtain ⟨text, stepped⟩ := exists_step h
  rw [stepped, completes]
  rfl

theorem emulates_decay (ticks : Quantity τ) : s.core.Emulates (s.decay ticks).1.core := by
  unfold decay
  cases hd : s.machine.decay ticks with
  | error e => exact .refl _
  | ok m =>
    obtain ⟨delay, sound, rfl⟩ := Machine.decay_eq_ok hd
    exact (Core.Move.timers s.core delay sound).emulates

theorem emulates_decayAt (schedule : Schedule τ) (cycle : Int) :
    s.core.Emulates (s.decayAt schedule cycle).1.core := by
  unfold decayAt
  cases schedule.ticksAt cycle with
  | error e => exact .refl _
  | ok ticks => exact emulates_decay ticks

theorem emulates_runSteps (schedule : Schedule τ) (count : Nat) (cycle : Int) :
    s.core.Emulates (runSteps schedule count cycle s).1.core := by
  induction count generalizing cycle s with
  | zero => exact .refl _
  | succ count ih =>
    unfold runSteps
    have first := emulates_step (s := s)
    generalize s.step = x at first ⊢
    rcases x with ⟨s₁, e | _⟩
    · exact first
    · have timers := emulates_decayAt (s := s₁) schedule cycle
      dsimp only
      generalize s₁.decayAt schedule cycle = y at timers ⊢
      rcases y with ⟨s₂, e | _⟩
      · exact first.trans timers
      · exact (first.trans timers).trans (ih (cycle + 1))

theorem emulates_runBatch (count : Quantity τ) (schedule : Schedule τ) (phase : Int) :
    s.core.Emulates (s.runBatch count schedule phase).1.core := by
  unfold runBatch
  cases hb : s.machine.runScheduled count schedule (.whole phase) with
  | error e => exact .refl _
  | ok b =>
    have run : s.core.Emulates
        { s.core with machine := b.machine, cycles := s.cycles + b.executed } := by
      rcases Machine.runScheduled_eq_ok hb with ⟨-, rfl⟩ | ⟨-, n, ticks, -, rfl⟩
      · exact .refl _
      · exact Core.emulates_runTimed s.core ticks n.toNat
    dsimp only
    cases b.error <;> exact run

theorem emulates_advance (count : Int) (schedule : Schedule τ) (phase : Int) :
    s.core.Emulates (s.advance count schedule phase).1.core := by
  unfold advance
  split
  · exact emulates_runSteps schedule count.toNat phase
  · exact emulates_runBatch (.whole count) schedule phase

theorem emulates_loadKeypad : s.core.Emulates s.loadKeypad.core :=
  (Core.Move.loadKeypad s.core).emulates

theorem machine_publish (s : Session τ) : s.publish.machine = { s.machine with draw := false } := by
  unfold publish
  split
  · rfl
  · next dark =>
    have down : s.machine.draw = false := Bool.eq_false_iff.mpr dark
    show s.machine = _
    rw [← down]

theorem cycles_publish (s : Session τ) : s.publish.cycles = s.cycles := by
  unfold publish
  split <;> rfl

theorem emulates_publish : s.core.Emulates s.publish.core := by
  unfold publish
  split
  · next drawn => exact (Core.Move.publish (c := s.core) drawn).emulates
  · exact .refl _

theorem core_readClock : s.readClock.1.core = s.core := rfl

theorem emulates_tick : s.core.Emulates s.tick.1.core := by
  unfold tick
  have same := core_readClock (s := s)
  generalize s.readClock = x at same ⊢
  rcases x with ⟨s₁, e | due⟩
  · exact same ▸ .refl _
  · have cycles := emulates_advance (s := s₁.loadKeypad) due.cycles {} 0
    dsimp only at same ⊢
    rw [← same]
    generalize s₁.loadKeypad.advance due.cycles {} 0 = y at cycles ⊢
    rcases y with ⟨s₂, e | _⟩
    · exact emulates_loadKeypad.trans cycles
    · have timers := emulates_decay (s := s₂) (.whole due.ticks)
      dsimp only
      generalize s₂.decay (.whole due.ticks) = z at timers ⊢
      have before := (emulates_loadKeypad.trans cycles).trans timers
      rcases z with ⟨s₃, e | _⟩
      · exact before
      · exact before.trans emulates_publish

theorem emulates_runChunks {size : Nat} (sizePos : 0 < size) (schedule : Schedule τ)
    (done remaining : Nat) :
    s.core.Emulates (runChunks size sizePos schedule done remaining s).1.core := by
  induction remaining using Nat.strongRecOn generalizing done s with
  | ind remaining ih =>
    unfold runChunks
    split
    · exact .refl _
    · have chunk := emulates_advance (s := s) (min remaining size : Nat) schedule done
      dsimp only
      generalize s.advance (min remaining size : Nat) schedule done = x at chunk ⊢
      rcases x with ⟨s₁, e | _⟩
      · exact chunk
      · exact chunk.trans (ih _ (by omega) _)

theorem emulates_runCycles (count : Int) :
    s.core.Emulates (s.runCycles (.whole count)).1.core :=
  (emulates_loadKeypad.trans
    (emulates_runChunks (s := s.loadKeypad) (by decide) s.schedule 0 count.toNat)).trans
    emulates_publish

theorem emulates_runWithProgress (count : Int) :
    s.core.Emulates (s.runWithProgress (.whole count)).1.core := by
  unfold runWithProgress
  cases ProgressBar.create (.whole count : Quantity τ) none none with
  | error e => exact .refl _
  | ok bar => exact emulates_runCycles count

/-! ## Keys -/

theorem evolves_setKey (index : Quantity τ) (pressed : Bool) :
    s.core.Evolves (s.setKey index pressed).1.core := by
  unfold setKey
  cases key index with
  | error e => exact .refl _
  | ok k => exact Core.evolves_press s.core _

/-! ## Runs -/

theorem evolves_lasting (c : Core) : Lasting fun s : Session τ => c.Evolves s.core where
  beside h same := h.trans (congrArg core same ▸ .refl _)
  started h := h
  tick h := h.trans emulates_tick.evolves
  publish h := h.trans emulates_publish.evolves
  setKey index pressed h := h.trans (evolves_setKey index pressed)
  elapse span h := by
    unfold elapse
    split <;> exact h

@[simp] theorem fst_conclude (outcome : Except Failure Unit) (x : Session τ × Except Failure Unit) :
    (conclude outcome x).1 = x.1 := by
  rcases x with ⟨s, e | _⟩ <;> rfl

/-- Besides a text in the log, only an execution error leaves anything behind on the way out. -/
theorem session_leave (s : Session τ) (reason : Except Raised Unit) :
    (∃ text, (∀ e, reason ≠ .error (.error (.execution e))) ∧ (s.leave reason).1 = s.emit text) ∨
      ∃ e text, reason = .error (.error (.execution e)) ∧
        (s.leave reason).1 = { s with error := some (.execution e) }.publish.emit text := by
  rcases reason with (failure | _) | _
  · cases failure with
    | execution e => exact .inr ⟨e, _, rfl, fst_conclude _ _⟩
    | _ => exact .inl ⟨"", by rintro e ⟨⟩, emit_empty.symm⟩
  · exact .inl ⟨"", by rintro e ⟨⟩, emit_empty.symm⟩
  · exact .inl ⟨_, by rintro e ⟨⟩, fst_conclude _ _⟩

theorem core_settle (x : Session τ × Turn) : (settle x).core = x.1.core := by
  rcases x with ⟨s, _ | (e | _) | _⟩
  · rfl
  · cases e <;> rfl
  · rfl
  · rfl

theorem evolves_setKeys (keys : List (Quantity τ × Bool)) :
    s.core.Evolves (s.setKeys keys).1.core := by
  unfold setKeys
  split
  · exact .refl _
  · exact (evolves_lasting s.core).setEachKey keys (.refl _)

end Session

/-! ## Commands -/

/-- Neither a reset nor the presenter's taking of the frame. -/
def Command.isLive {τ : Type} : Command τ → Bool
  | .call .reset | .call .consumeDraw => false
  | _ => true

namespace Session

variable {τ : Type} [TimeScale τ] {s : Session τ}

theorem evolves_perform {c : Command τ} (live : c.isLive = true) :
    s.core.Evolves (s.perform c).1.core := by
  have lasting : Lasting fun t : Session τ => s.core.Evolves t.core := evolves_lasting s.core
  match c with
  | .call .step => exact emulates_step.evolves
  | .call .tick => exact emulates_tick.evolves
  | .call (.runCycles count true) => exact (emulates_runWithProgress count).evolves
  | .call (.runCycles count false) => exact (emulates_runCycles count).evolves
  | .call (.setKey index pressed) => exact evolves_setKey index pressed
  | .call (.setKeys keys) => exact evolves_setKeys keys
  | .call .frame => exact .refl _
  | .run naps lag => exact lasting.run naps lag (.refl _)
  | .start lag => exact lasting.start lag (.refl _)
  | .release nap => exact lasting.release nap (.refl _)
  | .stop => exact lasting.stop (.refl _)

variable {first : Core}

theorem course_perform (h : first.Course s.core) {c : Command τ} (noReset : c ≠ .call .reset) :
    first.Course (s.perform c).1.core := by
  cases live : c.isLive with
  | true => exact h.evolves (evolves_perform live)
  | false =>
    unfold Command.isLive at live
    split at live
    · exact absurd rfl noReset
    · exact h.take
    · cases live

theorem core_reset {m : Machine} (h : s.core.origin = .ok m) :
    s.reset.1.core = s.core ∨ s.reset.1.core = Core.fresh m := by
  change freshMachine s.config s.rom s.name s.seed = .ok m at h
  unfold reset
  split
  · exact .inl rfl
  · right
    rw [h]
    exact congrArg (fun origin => { Core.fresh m with origin }) h

theorem core_create {config : Config τ} {rom : List UInt8} {name : String} {seed : RandomKey}
    {start : Quantity τ} (h : create config rom name seed start = .ok s) :
    s.core = Core.fresh s.machine := by
  obtain ⟨level, machine, output, fresh, rfl⟩ := create_eq_ok h
  exact congrArg (fun origin => { Core.fresh machine with origin }) fresh

theorem machine_create {config : Config τ} {rom : List UInt8} {name : String} {seed : RandomKey}
    {start : Quantity τ} (h : create config rom name seed start = .ok s) :
    s.machine = { Machine.fresh seed config.maskRegister with
      memory := (Machine.fresh seed config.maskRegister).memory.store programStart rom } := by
  obtain ⟨level, machine, output, fresh, rfl⟩ := create_eq_ok h
  unfold freshMachine Machine.loadRom at fresh
  split at fresh
  · next loaded =>
    obtain rfl := Except.ok.inj fresh
    split at loaded
    · cases loaded
    · exact (Except.ok.inj loaded).symm
  · cases fresh

/-- Every history is a course that begins with the session's creation or its last reset. -/
theorem course_after {m : Machine} (fresh : s.core = Core.fresh m)
    (history : List (Quantity τ × Command τ)) :
    (Core.fresh m).Course (s.after history).core := by
  induction history using List.reverseRecOn with
  | nil => exact fresh ▸ .start
  | append_singleton history e ih =>
    rw [after_concat]
    -- After a reset that is not refused, nothing of the course so far matters.
    by_cases reset : e.2 = .call .reset
    · rw [reset]
      rcases core_reset (s := (s.after history).atTime e.1) ih.origin with refused | again
      · exact refused.symm ▸ ih
      · exact again.symm ▸ .start
    · exact course_perform (s := (s.after history).atTime e.1) ih reset

/-- A session's machine has executed what the session counts, whatever was done with it. -/
theorem executes_after {m : Machine} (fresh : s.core = Core.fresh m)
    (history : List (Quantity τ × Command τ)) :
    ∃ trace, m.Executes trace (s.after history).machine ∧
      (s.after history).cycles = trace.length := by
  obtain ⟨trace, executes, count⟩ := (course_after fresh history).executes
  exact ⟨trace, executes, count.trans (Nat.zero_add _)⟩

end Session

end Chip8
