import Chip8.Proofs.Session.Chunks
import Chip8.Proofs.Session.Exits
import Chip8.Proofs.Session.Stuck

/-! # Halted sessions

A session that has met an execution error is halted until it is reset. Whatever it is asked to do
leaves its machine as it is, and whatever attempts an instruction fails with the same error. A
failing run also reports the error, so the times in its log must be given on the time scale.
-/

namespace Chip8

variable {τ : Type} [TimeScale τ]

namespace Session

variable {s t : Session τ}

/-! ## Attempts -/

variable {e : ExecutionError}

/-- The next instruction is not given up for a line of the log that cannot be written. -/
def Begins (s : Session τ) : Prop :=
  ∀ word, s.machine.fetch = .ok word → (s.trace word).2 = .ok ()

/-- A batch has an instruction to begin with, and can be set up unless its instructions are
traced one by one. -/
def Advances (s : Session τ) (count : Int) (schedule : Schedule τ) (phase : Int) : Prop :=
  0 < count ∧ s.Begins ∧
    (s.traced = true ∨ ∃ b, s.machine.runScheduled (.whole count) schedule (.whole phase) = .ok b)

def TickAdvances (s : Session τ) : Prop :=
  ∃ due, s.readClock.2 = .ok due ∧ s.readClock.1.loadKeypad.Advances due.cycles {} 0

/-- The first chunk of a run of cycles begins. -/
def CyclesAdvance (s : Session τ) (count : Int) : Prop :=
  0 < count ∧ s.loadKeypad.Advances (min count.toNat chunkSize : Nat) s.schedule 0

def TurnAdvances (s : Session τ) : Prop := s.stopRequested = false ∧ s.TickAdvances

def WakeAdvances (s : Session τ) (nap : Nap τ) : Prop :=
  (s.sleepThrough nap).2 = .ok () ∧ (s.sleepThrough nap).1.TurnAdvances

def BeginAdvances (s : Session τ) (lag : Option (Quantity τ)) : Prop :=
  (s.prepareRun lag).2 = .ok () ∧ (s.prepareRun lag).1.TurnAdvances

/-- Some turn after one of the naps begins an instruction. -/
def FollowAdvances : List (Nap τ) → Session τ × Turn → Prop
  | nap :: rest, (s, .asleep) => s.WakeAdvances nap ∨ FollowAdvances rest (s.wake nap)
  | _, _ => False

/-- A command begins an instruction, or the thread that it lets run does. -/
inductive Attempts (s : Session τ) : Command τ → Prop where
  | step (h : s.Begins) : Attempts s (.call .step)
  | tick (h : s.TickAdvances) : Attempts s (.call .tick)
  | runCycles {count : Int} (h : s.CyclesAdvance count) :
      Attempts s (.call (.runCycles count false))
  | runWithProgress {count : Int} {bar : ProgressBar τ}
      (shown : ProgressBar.create (.whole count) none none = .ok bar)
      (h : s.CyclesAdvance count) : Attempts s (.call (.runCycles count true))
  | run {naps : List (Nap τ)} {lag : Option (Quantity τ)}
      (h : s.BeginAdvances lag ∨ FollowAdvances naps (s.beginRun lag)) :
      Attempts s (.run naps lag)
  | start {lag : Option (Quantity τ)} (idle : s.running = false)
      (h : BeginAdvances { s with error := none, stopRequested := false } lag) :
      Attempts s (.start lag)
  | release {nap : Nap τ} (busy : s.running = true) (h : s.WakeAdvances nap) :
      Attempts s (.release nap)

theorem OnScale.begins (h : s.OnScale) : s.Begins := by
  intro word _
  obtain ⟨text, said⟩ := exists_say h.stampable .debug _
  exact congrArg Prod.snd said

theorem step_of_stuck (stuck : s.machine.step = .error e) (begins : s.Begins) :
    s.step.2 = .error (.execution e) := by
  unfold step
  cases hf : s.machine.fetch with
  | error e' =>
    rw [Machine.step, hf] at stuck
    cases stuck
    rfl
  | ok word =>
    have same := core_trace (s := s) word
    have written := begins word hf
    dsimp only
    generalize s.trace word = x at same written ⊢
    rcases x with ⟨s₁, failure | _⟩
    · cases written
    · have machine : s₁.machine = s.machine := congrArg Core.machine same
      rw [Machine.step, hf, ← machine] at stuck
      have fails : s₁.machine.execute word.toNat = .error e := stuck
      dsimp only
      rw [fails]

theorem advance_of_stuck (stuck : s.machine.step = .error e) {count : Int}
    {schedule : Schedule τ} {phase : Int} (advances : s.Advances count schedule phase) :
    (s.advance count schedule phase).2 = .error (.execution e) := by
  obtain ⟨positive, begins, possible⟩ := advances
  unfold advance
  split
  · obtain ⟨k, hk⟩ := Nat.exists_eq_succ_of_ne_zero (show count.toNat ≠ 0 by omega)
    have first := step_of_stuck stuck begins
    rw [hk, runSteps]
    generalize s.step = x at first ⊢
    rcases x with ⟨s₁, failure | _⟩
    · exact first
    · cases first
  · next quiet =>
    obtain traced | ⟨b, hb⟩ := possible
    · exact absurd traced quiet
    rw [runBatch, hb]
    rcases Machine.runScheduled_eq_ok hb with ⟨none, -⟩ | ⟨-, n, ticks, fits, rfl⟩
    · simp only [Quantity.isNotPositive, decide_eq_true_eq] at none
      omega
    · have whole : n = count := by
        rw [Quantity.signed32_whole] at fits
        split at fits
        · exact (Except.ok.inj fits).symm
        · cases fits
      obtain ⟨k, hk⟩ := Nat.exists_eq_succ_of_ne_zero (show n.toNat ≠ 0 by omega)
      rw [hk, Machine.runTimed_of_error stuck]

theorem tick_of_stuck (stuck : s.machine.step = .error e) (advances : s.TickAdvances) :
    s.tick.2 = .error (.execution e) := by
  obtain ⟨due, granted, advances⟩ := advances
  have loaded : s.readClock.1.loadKeypad.machine.step = .error e :=
    (emulates_loadKeypad (s := s.readClock.1)).evolves.stuck stuck
  have fails := advance_of_stuck loaded advances
  unfold tick
  generalize s.readClock = x at granted fails ⊢
  rcases x with ⟨s₁, failure | _⟩
  · cases granted
  · cases granted
    dsimp only at fails ⊢
    generalize s₁.loadKeypad.advance due.cycles {} 0 = y at fails ⊢
    rcases y with ⟨s₂, failure | _⟩
    · cases fails
      rfl
    · cases fails

theorem runCycles_of_stuck (stuck : s.machine.step = .error e) {count : Int}
    (advances : s.CyclesAdvance count) :
    (s.runCycles (.whole count)).2 = .error (.execution e) := by
  obtain ⟨positive, advances⟩ := advances
  have loaded : s.loadKeypad.machine.step = .error e := emulates_loadKeypad.evolves.stuck stuck
  have fails := advance_of_stuck loaded advances
  show (s.loadKeypad.runWhole count.toNat).2 = _
  unfold runWhole runChunks
  rw [dif_neg (by omega)]
  dsimp only
  change (s.loadKeypad.advance _ s.loadKeypad.schedule 0).2 = _ at fails
  generalize s.loadKeypad.advance _ s.loadKeypad.schedule _ = x at fails ⊢
  rcases x with ⟨s₁, failure | _⟩
  · exact fails
  · cases fails

/-! ## Runs -/

/-- What a run needs to know of a session to fail as its machine is bound to. -/
structure Halted (s : Session τ) (e : ExecutionError) : Prop where
  stuck : s.machine.step = .error e
  scale : s.OnScale
  told : Tellable τ s.cycles

theorem Halted.evolves (h : s.Halted e) (evolves : s.core.Evolves t.core) (scale : t.OnScale) :
    t.Halted e := by
  obtain ⟨alike, cycles⟩ := evolves.halted h.stuck
  have same : t.cycles = s.cycles := cycles
  exact ⟨alike.step_error h.stuck, scale, same ▸ h.told⟩

theorem halted_lasting (e : ExecutionError) : Lasting fun s : Session τ => s.Halted e where
  beside h same := h.evolves (congrArg core same ▸ .refl _) (onScale_lasting.beside h.scale same)
  started h := ⟨h.stuck, onScale_lasting.started h.scale, h.told⟩
  tick h := h.evolves emulates_tick.evolves h.scale.tick
  publish h := h.evolves emulates_publish.evolves h.scale.publish
  setKey index pressed h :=
    h.evolves (evolves_setKey index pressed) (h.scale.call (.setKey index pressed))
  elapse span h :=
    h.evolves ((evolves_lasting _).elapse span (.refl _)) (h.scale.elapse span)

theorem turn_of_halted (h : s.Halted e) (advances : s.TurnAdvances) :
    s.turn.2 = .ended (.error (.execution e)) := by
  obtain ⟨go, advances⟩ := advances
  have fails := tick_of_stuck h.stuck advances
  have after : s.tick.1.Halted e := h.evolves emulates_tick.evolves h.scale.tick
  unfold turn
  rw [if_neg (by simp [go])]
  generalize s.tick = x at fails after ⊢
  rcases x with ⟨s₁, failure | _⟩
  · cases fails
    -- The error is raised only after its report, which needs the times and the cycles.
    exact outcome_leave after.scale e after.told
  · cases fails

theorem wake_of_halted (h : s.Halted e) {nap : Nap τ} (advances : s.WakeAdvances nap) :
    (s.wake nap).2 = .ended (.error (.execution e)) := by
  obtain ⟨slept, advances⟩ := advances
  have after : (s.sleepThrough nap).1.Halted e := (halted_lasting e).sleepThrough nap h
  unfold Session.wake
  generalize s.sleepThrough nap = x at slept advances after ⊢
  rcases x with ⟨s₁, failure | _⟩
  · cases slept
  · exact turn_of_halted after advances

theorem beginRun_of_halted (h : s.Halted e) {lag : Option (Quantity τ)}
    (advances : s.BeginAdvances lag) : (s.beginRun lag).2 = .ended (.error (.execution e)) := by
  obtain ⟨prepared, advances⟩ := advances
  have after : (s.prepareRun lag).1.Halted e := (halted_lasting e).prepareRun lag h
  unfold Session.beginRun
  generalize s.prepareRun lag = x at prepared advances after ⊢
  rcases x with ⟨s₁, failure | _⟩
  · cases prepared
  · exact turn_of_halted after advances

theorem follow_of_ended {naps : List (Nap τ)} {x : Session τ × Turn}
    (h : x.2 = .ended (.error (.execution e))) : (follow naps x).2 = .error (.execution e) := by
  rcases x with ⟨s, _ | _ | _⟩
  · cases h
  · cases h
    cases naps <;> rfl
  · cases h

theorem follow_of_halted {naps : List (Nap τ)} {x : Session τ × Turn} (h : x.1.Halted e)
    (advances : FollowAdvances naps x) : (follow naps x).2 = .error (.execution e) := by
  induction naps generalizing x with
  | nil => cases advances
  | cons nap rest ih =>
    rcases x with ⟨s, _ | _ | _⟩
    · rcases advances with first | later
      · show (follow rest (s.wake nap)).2 = _
        exact follow_of_ended (wake_of_halted h first)
      · exact ih ((halted_lasting e).wake nap h) later
    · cases advances
    · cases advances

theorem Attempts.raises_call {c : Call τ} (h : s.Attempts (.call c))
    (stuck : s.machine.step = .error e) : s.Raises e (.call c) := by
  have failed {α : Type} {answer : α → Answer} {x : Session τ × Except Failure α}
      (h : x.2 = .error (.execution e)) : (answered answer x).2 = .error (.execution e) := by
    show x.2.map answer = _
    rw [h]
    rfl
  cases h with
  | step h => exact .call (failed (step_of_stuck stuck h))
  | tick h => exact .call (failed (tick_of_stuck stuck h))
  | runCycles h => exact .call (failed (runCycles_of_stuck stuck h))
  | @runWithProgress count bar shown h =>
    have run : s.runWithProgress (.whole count) = s.runCycles (.whole count) := by
      rw [Session.runWithProgress, shown]
    refine .call (failed (x := s.runWithProgress (.whole count)) ?_)
    rw [run]
    exact runCycles_of_stuck stuck h

/-- Whatever attempts an instruction of a halted session fails as the session did before. -/
theorem Attempts.raises {c : Command τ} (h : s.Attempts c) (halted : s.Halted e) :
    s.Raises e c := by
  cases c with
  | call c => exact h.raises_call halted.stuck
  | run naps lag =>
    cases h with
    | run h =>
      rcases h with first | later
      · exact .run (follow_of_ended (beginRun_of_halted halted first))
      · have begun : (s.beginRun lag).1.Halted e := (halted_lasting e).beginRun lag halted
        exact .run (follow_of_halted begun later)
  | start lag =>
    cases h with
    | start idle h =>
      let cleared : Session τ := { s with error := none, stopRequested := false }
      have halted' : cleared.Halted e :=
        ⟨halted.stuck, ⟨halted.scale.journal, halted.scale.now⟩, halted.told⟩
      exact .start idle (beginRun_of_halted halted' h)
  | release nap =>
    cases h with
    | release busy h => exact .release busy (wake_of_halted halted h)
  | stop => cases h

/-! ## Until a reset -/

theorem Raises.ne_reset {c : Command τ} (h : s.Raises e c) : c ≠ .call .reset := by
  rintro rfl
  cases h with
  | call h =>
    have never : Faultless (s.call .reset).2 := faultless_reset.map _
    exact never e h

section Creation

variable [FaultlessScale τ] {config : Config τ} {rom : List UInt8} {name : String}
  {seed : RandomKey} {start : Quantity τ}

end Creation

end Session

end Chip8
