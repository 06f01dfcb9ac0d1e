import Chip8.Proofs.Session.Commands

/-! # Control

How the run of a session stands is told by the failure kept, the stop flag, the thread and the
sleeps asked for. Nothing that a session emulates or presents looks at these or touches them, so
it commutes with their exchange. Only a test reads the flag, and only a sleep raises it.
-/

namespace Chip8

/-- How the run of a session stands. -/
structure Control (τ : Type) where
  error : Option Failure
  stopRequested : Bool
  thread : Thread
  sleeps : Array τ

namespace Session

variable {τ : Type} [TimeScale τ] {s : Session τ} {α : Type}

def control (s : Session τ) : Control τ :=
  ⟨s.error, s.stopRequested, s.thread, s.surroundings.sleeps⟩

/-- The session with its run standing otherwise. -/
def under (s : Session τ) (c : Control τ) : Session τ :=
  { s with
    error := c.error
    stopRequested := c.stopRequested
    thread := c.thread
    surroundings := { s.surroundings with sleeps := c.sleeps } }

/-- What an operation returned, with the run standing otherwise. -/
def steered (c : Control τ) (x : Session τ × α) : Session τ × α := (x.1.under c, x.2)

@[simp] theorem machine_under (c : Control τ) : (s.under c).machine = s.machine := rfl

/-- What commutes with every exchange of the control leaves the control as it is. -/
theorem control_of_steered {f : Session τ → Session τ × α}
    (h : ∀ c, f (s.under c) = steered c (f s)) : (f s).1.control = s.control :=
  congrArg (fun x => x.1.control) (h s.control)

/-! ## Emulation -/

variable (c : Control τ)

theorem step_under : (s.under c).step = steered c s.step := by
  unfold step
  rw [machine_under]
  cases s.machine.fetch with
  | error e => rfl
  | ok word =>
    have written : (s.under c).trace word = steered c (s.trace word) := rfl
    dsimp only
    rw [written]
    generalize s.trace word = x
    rcases x with ⟨s₁, e | _⟩
    · rfl
    · dsimp only [steered]
      rw [machine_under]
      cases s₁.machine.execute word.toNat <;> rfl

theorem decay_under (ticks : Quantity τ) : (s.under c).decay ticks = steered c (s.decay ticks) := by
  unfold decay
  rw [machine_under]
  cases s.machine.decay ticks <;> rfl

theorem decayAt_under (schedule : Schedule τ) (cycle : Int) :
    (s.under c).decayAt schedule cycle = steered c (s.decayAt schedule cycle) := by
  unfold decayAt
  cases schedule.ticksAt cycle with
  | error e => rfl
  | ok ticks => exact decay_under c ticks

theorem runSteps_under (schedule : Schedule τ) (count : Nat) (cycle : Int) :
    runSteps schedule count cycle (s.under c) = steered c (runSteps schedule count cycle s) := by
  induction count generalizing cycle s with
  | zero => rfl
  | succ count ih =>
    unfold runSteps
    rw [step_under]
    generalize s.step = x
    rcases x with ⟨s₁, e | _⟩
    · rfl
    · dsimp only [steered]
      rw [decayAt_under]
      generalize s₁.decayAt schedule cycle = y
      rcases y with ⟨s₂, e | _⟩
      · rfl
      · exact ih (cycle + 1)

theorem runBatch_under (count : Quantity τ) (schedule : Schedule τ) (phase : Int) :
    (s.under c).runBatch count schedule phase = steered c (s.runBatch count schedule phase) := by
  unfold runBatch
  rw [machine_under]
  cases s.machine.runScheduled count schedule (.whole phase) with
  | error e => rfl
  | ok batch =>
    dsimp only
    cases batch.error <;> rfl

theorem advance_under (count : Int) (schedule : Schedule τ) (phase : Int) :
    (s.under c).advance count schedule phase = steered c (s.advance count schedule phase) := by
  unfold advance
  rw [show (s.under c).traced = s.traced from rfl]
  split
  · exact runSteps_under c schedule count.toNat phase
  · exact runBatch_under c (.whole count) schedule phase

theorem publish_under : (s.under c).publish = s.publish.under c := by
  unfold publish
  rw [machine_under]
  split <;> rfl

theorem tick_under : (s.under c).tick = steered c s.tick := by
  have read : (s.under c).readClock = steered c s.readClock := rfl
  unfold tick
  rw [read]
  generalize s.readClock = x
  rcases x with ⟨s₁, e | due⟩
  · rfl
  · have cycles : (s₁.under c).loadKeypad.advance due.cycles {} 0 =
        steered c (s₁.loadKeypad.advance due.cycles {} 0) :=
      advance_under (s := s₁.loadKeypad) c due.cycles {} 0
    dsimp only [steered] at cycles ⊢
    rw [cycles]
    generalize s₁.loadKeypad.advance due.cycles {} 0 = y
    rcases y with ⟨s₂, e | _⟩
    · rfl
    · dsimp only
      rw [decay_under]
      generalize s₂.decay (.whole due.ticks) = z
      rcases z with ⟨s₃, e | _⟩
      · rfl
      · dsimp only [steered]
        rw [publish_under]

theorem runChunks_under {size : Nat} (sizePos : 0 < size) (schedule : Schedule τ)
    (done remaining : Nat) :
    runChunks size sizePos schedule done remaining (s.under c) =
      steered c (runChunks size sizePos schedule done remaining s) := by
  induction remaining using Nat.strongRecOn generalizing done s with
  | ind remaining ih =>
    unfold runChunks
    split
    · rfl
    · dsimp only
      rw [advance_under]
      generalize s.advance (min remaining size : Nat) schedule done = x
      rcases x with ⟨s₁, e | _⟩
      · rfl
      · exact ih _ (by omega) _

theorem runCycles_under (count : Int) :
    (s.under c).runCycles (.whole count) = steered c (s.runCycles (.whole count)) := by
  have chunks := runChunks_under (s := s.loadKeypad) c (show 0 < chunkSize by decide) s.schedule 0
    count.toNat
  unfold runCycles
  dsimp only [runWhole]
  rw [show (s.under c).loadKeypad = s.loadKeypad.under c from rfl,
    show (s.loadKeypad.under c).schedule = s.schedule from rfl,
    show s.loadKeypad.schedule = s.schedule from rfl, chunks, steered, steered, publish_under]

theorem runWithProgress_under (count : Int) :
    (s.under c).runWithProgress (.whole count) = steered c (s.runWithProgress (.whole count)) := by
  unfold runWithProgress
  rw [runCycles_under]
  split <;> rfl

/-! ## Presentation -/

theorem setKey_under (index : Quantity τ) (pressed : Bool) :
    (s.under c).setKey index pressed = steered c (s.setKey index pressed) := by
  unfold setKey
  cases key index <;> rfl

theorem setEachKey_under (keys : List (Quantity τ × Bool)) :
    (s.under c).setEachKey keys = steered c (s.setEachKey keys) := by
  induction keys generalizing s with
  | nil => rfl
  | cons k rest ih =>
    unfold setEachKey
    rw [setKey_under]
    generalize s.setKey k.1 k.2 = x
    rcases x with ⟨s₁, e | _⟩
    · rfl
    · exact ih

theorem setKeys_under (keys : List (Quantity τ × Bool)) :
    (s.under c).setKeys keys = steered c (s.setKeys keys) := by
  unfold setKeys
  split
  · rfl
  · exact setEachKey_under c keys

theorem call_under {call : Call τ} (noReset : call ≠ .reset) :
    (s.under c).call call = steered c (s.call call) := by
  have answers {α : Type} (answer : α → Answer) {x y : Session τ × Except Failure α}
      (h : x = steered c y) : answered answer x = steered c (answered answer y) :=
    h ▸ rfl
  match call with
  | .step => exact answers _ (step_under c)
  | .tick => exact answers _ (tick_under c)
  | .runCycles count true => exact answers _ (runWithProgress_under c count)
  | .runCycles count false => exact answers _ (runCycles_under c count)
  | .setKey index pressed => exact answers _ (setKey_under c index pressed)
  | .setKeys keys => exact answers _ (setKeys_under c keys)
  | .consumeDraw => rfl
  | .frame => rfl
  | .reset => exact absurd rfl noReset

theorem control_call {call : Call τ} (noReset : call ≠ .reset) :
    (s.call call).1.control = s.control :=
  control_of_steered (f := fun s => s.call call) fun c => call_under c noReset

theorem control_tick : s.tick.1.control = s.control := control_of_steered tick_under

theorem control_publish : s.publish.control = s.control := by
  unfold publish
  split <;> rfl

/-! ## Sleeps -/

theorem elapse_under (span : Quantity τ) : (s.under c).elapse span = steered c (s.elapse span) := by
  unfold elapse
  rw [show (s.under c).surroundings.now = s.surroundings.now from rfl]
  split <;> rfl

theorem elapseIn_under (nap : Nap τ) : (s.under c).elapseIn nap = steered c (s.elapseIn nap) := by
  unfold elapseIn
  split
  · exact elapse_under c _
  · rfl

theorem prepareRun_under (lag : Option (Quantity τ)) :
    (s.under c).prepareRun lag = steered c (s.prepareRun lag) := by
  have told :
      reportStart { s.under c with
        clock := (s.under c).clock.reset (s.under c).surroundings.now } =
      steered c (reportStart { s with clock := s.clock.reset s.surroundings.now }) := rfl
  unfold prepareRun
  rw [told]
  generalize reportStart { s with clock := s.clock.reset s.surroundings.now } = x
  rcases x with ⟨s₁, e | _⟩
  · rfl
  · exact elapseIn_under c _

theorem control_prepareRun (lag : Option (Quantity τ)) :
    (s.prepareRun lag).1.control = s.control :=
  control_of_steered (f := fun s => s.prepareRun lag) fun c => prepareRun_under c lag

/-- A sleep passes whatever the flag, and leaves it raised if it was raised before or is raised
meanwhile. -/
theorem sleepThrough_under (nap : Nap τ) :
    (s.under c).sleepThrough nap =
      steered { c with stopRequested := c.stopRequested || nap.stop } (s.sleepThrough nap) := by
  let asked : Control τ := { c with stopRequested := c.stopRequested || nap.stop }
  have keys : Session.setEachKey { s.under c with stopRequested := c.stopRequested || nap.stop }
      nap.keys = steered asked
        (Session.setEachKey { s with stopRequested := s.stopRequested || nap.stop } nap.keys) :=
    setEachKey_under (s := { s with stopRequested := s.stopRequested || nap.stop }) asked nap.keys
  unfold sleepThrough
  rw [show (s.under c).stopRequested = c.stopRequested from rfl, keys]
  generalize Session.setEachKey { s with stopRequested := s.stopRequested || nap.stop } nap.keys = x
  rcases x with ⟨s₁, e | _⟩
  · rfl
  · dsimp only [steered]
    rw [elapseIn_under]
    generalize s₁.elapseIn nap = y
    rcases y with ⟨s₂, e | _⟩
    · rfl
    · dsimp only [steered]
      split <;> rfl

theorem control_sleepThrough (nap : Nap τ) :
    (s.sleepThrough nap).1.control =
      { s.control with stopRequested := s.stopRequested || nap.stop } :=
  congrArg (fun x => x.1.control) (sleepThrough_under s.control nap)

end Session

end Chip8
