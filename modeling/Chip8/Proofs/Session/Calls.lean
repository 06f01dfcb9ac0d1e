import Mathlib.Algebra.Group.Int.Defs
import Chip8.Session

/-! # Calls to a session

A driver makes calls to a session, each at a reading of the clock. A history of calls is what a
driver does in one go, and what it observes is the answer to every call together with the state
in which the call left the session.
-/

namespace Chip8

inductive Call (τ : Type) where
  | step
  | tick
  | runCycles (count : Int) (progress : Bool)
  | setKey (index : Quantity τ) (pressed : Bool)
  | setKeys (keys : List (Quantity τ × Bool))
  | consumeDraw
  | frame
  | reset

inductive Answer where
  | done
  /-- The cycles of a tick. -/
  | cycles (count : Int)
  | flag (ready : Bool)
  | picture (frame : Display)

structure Observation where
  outcome : Except Failure Answer
  machine : Machine
  cycles : Nat
  keypad : Keypad
  frame : Display
  ready : Bool

namespace Session

variable {τ : Type} [TimeScale τ]

/-- The session at another reading of the clock. -/
def atTime (s : Session τ) (now : Quantity τ) : Session τ :=
  { s with surroundings := { s.surroundings with now } }

def answered {α : Type} (answer : α → Answer) (x : Session τ × Except Failure α) :
    Session τ × Except Failure Answer :=
  (x.1, x.2.map answer)

def call (s : Session τ) : Call τ → Session τ × Except Failure Answer
  | .step => answered (fun _ => .done) s.step
  | .tick => answered .cycles s.tick
  | .runCycles count true => answered (fun _ => .done) (s.runWithProgress (.whole count))
  | .runCycles count false => answered (fun _ => .done) (s.runCycles (.whole count))
  | .setKey index pressed => answered (fun _ => .done) (s.setKey index pressed)
  | .setKeys keys => answered (fun _ => .done) (s.setKeys keys)
  | .consumeDraw => (s.consumeDraw.1, .ok (.flag s.consumeDraw.2))
  | .frame => (s, .ok (.picture s.frame))
  | .reset => answered (fun _ => .done) s.reset

def observation (x : Session τ × Except Failure Answer) : Observation where
  outcome := x.2
  machine := x.1.machine
  cycles := x.1.cycles
  keypad := x.1.keypad
  frame := x.1.frame
  ready := x.1.screen.ready

def observe : List (Quantity τ × Call τ) → Session τ → List Observation
  | [], _ => []
  | (now, c) :: rest, s =>
    let x := (s.atTime now).call c
    observation x :: observe rest x.1

/-- Every tick of a history grants fewer than `2 ^ 31` cycles and timer ticks. -/
def Moderate : List (Quantity τ × Call τ) → Session τ → Prop
  | [], _ => True
  | (now, c) :: rest, s =>
    (c = .tick → ∀ due, (s.atTime now).readClock.2 = .ok due →
      due.cycles < 2 ^ 31 ∧ due.ticks < 2 ^ 31) ∧
    Moderate rest ((s.atTime now).call c).1

/-! ## What calls leave alone -/

variable {s : Session τ}

def setting (s : Session τ) : Config τ × Journal τ × Clock τ × Quantity τ :=
  (s.config, s.journal, s.clock, s.surroundings.now)

theorem traced_of_setting {t : Session τ} (same : t.setting = s.setting) :
    t.traced = s.traced := by
  simp only [setting, Prod.mk.injEq] at same
  rw [traced, same.2.1, traced]

theorem setting_step : s.step.1.setting = s.setting := by
  unfold step
  cases s.machine.fetch with
  | error e => rfl
  | ok word =>
    dsimp only [trace, say, emitReport]
    cases (Report.ofLine _).outcome with
    | error e => rfl
    | ok _ =>
      dsimp only
      cases (s.emit _).machine.execute word.toNat <;> rfl

theorem setting_decay (ticks : Quantity τ) : (s.decay ticks).1.setting = s.setting := by
  unfold decay
  cases s.machine.decay ticks <;> rfl

theorem setting_decayAt (schedule : Schedule τ) (cycle : Int) :
    (s.decayAt schedule cycle).1.setting = s.setting := by
  unfold decayAt
  cases schedule.ticksAt cycle with
  | error e => rfl
  | ok ticks => exact setting_decay ticks

theorem setting_runSteps (schedule : Schedule τ) (count : Nat) (cycle : Int) :
    (runSteps schedule count cycle s).1.setting = s.setting := by
  induction count generalizing cycle s with
  | zero => rfl
  | succ count ih =>
    unfold runSteps
    have first := setting_step (s := s)
    generalize s.step = x at first ⊢
    rcases x with ⟨s₁, e | _⟩
    · exact first
    · have timers := setting_decayAt (s := s₁) schedule cycle
      dsimp only
      generalize s₁.decayAt schedule cycle = y at timers ⊢
      rcases y with ⟨s₂, e | _⟩
      · exact timers.trans first
      · exact (ih (cycle + 1)).trans (timers.trans first)

theorem setting_runBatch (count : Quantity τ) (schedule : Schedule τ) (phase : Int) :
    (s.runBatch count schedule phase).1.setting = s.setting := by
  unfold runBatch
  cases s.machine.runScheduled count schedule (.whole phase) with
  | error e => rfl
  | ok batch =>
    dsimp only
    cases batch.error <;> rfl

theorem setting_advance (count : Int) (schedule : Schedule τ) (phase : Int) :
    (s.advance count schedule phase).1.setting = s.setting := by
  unfold advance
  split
  · exact setting_runSteps schedule count.toNat phase
  · exact setting_runBatch (.whole count) schedule phase

theorem setting_runChunks {size : Nat} (sizePos : 0 < size) (schedule : Schedule τ)
    (done remaining : Nat) :
    (runChunks size sizePos schedule done remaining s).1.setting = s.setting := by
  induction remaining using Nat.strongRecOn generalizing done s with
  | ind remaining ih =>
    unfold runChunks
    split
    · rfl
    · have chunk := setting_advance (s := s) (min remaining size : Nat) schedule done
      dsimp only
      generalize s.advance (min remaining size : Nat) schedule done = x at chunk ⊢
      rcases x with ⟨s₁, e | _⟩
      · exact chunk
      · exact (ih _ (by omega) _).trans chunk

theorem setting_publish : s.publish.setting = s.setting := by
  unfold publish
  split <;> rfl

theorem setting_tick : s.tick.1.setting = s.readClock.1.setting := by
  unfold tick
  generalize s.readClock = x
  rcases x with ⟨s₁, e | due⟩
  · rfl
  · have cycles := setting_advance (s := s₁.loadKeypad) due.cycles {} 0
    dsimp only
    generalize s₁.loadKeypad.advance due.cycles {} 0 = y at cycles ⊢
    rcases y with ⟨s₂, e | _⟩
    · exact cycles
    · have timers := setting_decay (s := s₂) (.whole due.ticks)
      dsimp only
      generalize s₂.decay (.whole due.ticks) = z at timers ⊢
      rcases z with ⟨s₃, e | _⟩
      · exact timers.trans cycles
      · exact setting_publish.trans (timers.trans cycles)

theorem clock_tick : s.tick.1.clock = s.readClock.1.clock := by
  have same := setting_tick (s := s)
  simp only [setting, Prod.mk.injEq] at same
  exact same.2.2.1

theorem setting_runCycles (count : Int) : (s.runCycles (.whole count)).1.setting = s.setting :=
  setting_publish.trans (setting_runChunks (s := s.loadKeypad) (by decide) s.schedule 0 count.toNat)

theorem setting_runWithProgress (count : Int) :
    (s.runWithProgress (.whole count)).1.setting = s.setting := by
  unfold runWithProgress
  cases ProgressBar.create (.whole count : Quantity τ) none none with
  | error e => rfl
  | ok bar => exact setting_runCycles count

theorem setting_setKey (index : Quantity τ) (pressed : Bool) :
    (s.setKey index pressed).1.setting = s.setting := by
  unfold setKey
  cases key index <;> rfl

theorem setting_setEachKey (keys : List (Quantity τ × Bool)) :
    (s.setEachKey keys).1.setting = s.setting := by
  induction keys generalizing s with
  | nil => rfl
  | cons k rest ih =>
    unfold setEachKey
    have first := setting_setKey (s := s) k.1 k.2
    generalize s.setKey k.1 k.2 = x at first ⊢
    rcases x with ⟨s₁, e | _⟩
    · exact first
    · exact ih.trans first

theorem setting_setKeys (keys : List (Quantity τ × Bool)) :
    (s.setKeys keys).1.setting = s.setting := by
  unfold setKeys
  split
  · rfl
  · exact setting_setEachKey keys

theorem setting_call {c : Call τ} (noTick : c ≠ .tick) (noReset : c ≠ .reset) :
    (s.call c).1.setting = s.setting := by
  match c with
  | .step => exact setting_step
  | .tick => exact absurd rfl noTick
  | .runCycles count true => exact setting_runWithProgress count
  | .runCycles count false => exact setting_runCycles count
  | .setKey index pressed => exact setting_setKey index pressed
  | .setKeys keys => exact setting_setKeys keys
  | .consumeDraw => rfl
  | .frame => rfl
  | .reset => exact absurd rfl noReset

theorem call_keeps (c : Call τ) :
    (s.call c).1.config = s.config ∧ (s.call c).1.journal = s.journal ∧
      (s.call c).1.surroundings.now = s.surroundings.now := by
  by_cases tick : c = .tick
  · subst tick
    have same : s.tick.1.setting = s.readClock.1.setting := setting_tick
    simp only [setting, Prod.mk.injEq] at same
    exact ⟨same.1, same.2.1, same.2.2.2⟩
  by_cases reset : c = .reset
  · subst reset
    dsimp only [call, answered]
    unfold Session.reset
    split
    · exact ⟨rfl, rfl, rfl⟩
    · cases freshMachine s.config s.rom s.name s.seed <;> exact ⟨rfl, rfl, rfl⟩
  have same := setting_call (s := s) tick reset
  simp only [setting, Prod.mk.injEq] at same
  exact ⟨same.1, same.2.1, same.2.2.2⟩

end Session

end Chip8
