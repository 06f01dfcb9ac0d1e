import Chip8.Proofs.Session.Moves

/-! # Resetting

A session that is reset differs from a new one in its clock and its log alone. Only a tick asks the
clock, so everything else that is asked of the two has the same outcome and leaves them alike.
-/

namespace Chip8

namespace Session

variable {τ : Type} [TimeScale τ] {s t s' t' : Session τ} {α : Type}

/-- Sessions that only the clock and the log tell apart. -/
structure Alike (s t : Session τ) : Prop where
  core : s.core = t.core
  config : s.config = t.config
  level : s.journal.logger.level = t.journal.logger.level
  stampable : s.Stampable ∧ t.Stampable

/-- The same outcome in sessions that are alike. -/
inductive Agree : Session τ × Except Failure α → Session τ × Except Failure α → Prop where
  | intro {s t : Session τ} (h : s.Alike t) (outcome : Except Failure α) :
      Agree (s, outcome) (t, outcome)

namespace Alike

theorem machine (h : s.Alike t) : s.machine = t.machine := congrArg Core.machine h.core

theorem screen (h : s.Alike t) : s.screen = t.screen := congrArg Core.screen h.core

theorem map (h : s.Alike t) (f : Core → Core) (hs : s'.core = f s.core) (ht : t'.core = f t.core)
    (left : s'.setting = s.setting) (right : t'.setting = t.setting) : s'.Alike t' := by
  have stampable := And.intro (h.stampable.1.of_setting left) (h.stampable.2.of_setting right)
  simp only [setting, Prod.mk.injEq] at left right
  refine ⟨?_, ?_, ?_, stampable⟩
  · rw [hs, ht, h.core]
  · rw [left.1, right.1, h.config]
  · rw [left.2.1, right.2.1, h.level]

theorem step (h : s.Alike t) : Agree s.step t.step := by
  obtain ⟨text, hs⟩ := exists_step h.stampable.1
  obtain ⟨text', ht⟩ := exists_step h.stampable.2
  rw [hs, ht, h.machine]
  cases t.machine.step with
  | error e =>
    constructor
    exact h.map id rfl rfl rfl rfl
  | ok machine =>
    constructor
    exact h.map (fun c => { c with machine, cycles := c.cycles + 1 }) rfl rfl rfl rfl

theorem decay (h : s.Alike t) (ticks : Quantity τ) : Agree (s.decay ticks) (t.decay ticks) := by
  unfold Session.decay
  rw [h.machine]
  cases t.machine.decay ticks with
  | error e => exact ⟨h, _⟩
  | ok machine =>
    constructor
    exact h.map (fun c => { c with machine }) rfl rfl rfl rfl

theorem decayAt (h : s.Alike t) (schedule : Schedule τ) (cycle : Int) :
    Agree (s.decayAt schedule cycle) (t.decayAt schedule cycle) := by
  unfold Session.decayAt
  cases schedule.ticksAt cycle with
  | error e => exact ⟨h, _⟩
  | ok ticks => exact h.decay ticks

theorem runSteps (h : s.Alike t) (schedule : Schedule τ) (count : Nat) (cycle : Int) :
    Agree (runSteps schedule count cycle s) (runSteps schedule count cycle t) := by
  induction count generalizing cycle s t with
  | zero => exact ⟨h, _⟩
  | succ count ih =>
    unfold Session.runSteps
    have first := h.step
    generalize s.step = x at first ⊢
    generalize t.step = y at first ⊢
    rcases first with ⟨stepped, e | _⟩
    · exact ⟨stepped, _⟩
    · have timers := stepped.decayAt schedule cycle
      dsimp only
      generalize Session.decayAt _ schedule cycle = x at timers ⊢
      generalize Session.decayAt _ schedule cycle = y at timers ⊢
      rcases timers with ⟨decayed, e | _⟩
      · exact ⟨decayed, _⟩
      · exact ih decayed (cycle + 1)

theorem runBatch (h : s.Alike t) (count : Quantity τ) (schedule : Schedule τ) (phase : Int) :
    Agree (s.runBatch count schedule phase) (t.runBatch count schedule phase) := by
  unfold Session.runBatch
  rw [h.machine]
  cases t.machine.runScheduled count schedule (.whole phase) with
  | error e => exact ⟨h, _⟩
  | ok batch =>
    dsimp only
    cases batch.error
    all_goals
      constructor
      exact h.map (fun c => { c with
        machine := batch.machine
        cycles := c.cycles + batch.executed }) rfl rfl rfl rfl

theorem traced_eq (h : s.Alike t) : s.traced = t.traced := by
  rw [traced, traced, Logger.isEnabled, Logger.isEnabled, h.level]

theorem advance (h : s.Alike t) (count : Int) (schedule : Schedule τ) (phase : Int) :
    Agree (s.advance count schedule phase) (t.advance count schedule phase) := by
  unfold Session.advance
  rw [h.traced_eq]
  split
  · exact h.runSteps schedule count.toNat phase
  · exact h.runBatch (.whole count) schedule phase

theorem runChunks (h : s.Alike t) {size : Nat} (sizePos : 0 < size) (schedule : Schedule τ)
    (done remaining : Nat) :
    Agree (runChunks size sizePos schedule done remaining s)
      (runChunks size sizePos schedule done remaining t) := by
  induction remaining using Nat.strongRecOn generalizing done s t with
  | ind remaining ih =>
    unfold Session.runChunks
    split
    · exact ⟨h, _⟩
    · have chunk := h.advance (min remaining size : Nat) schedule done
      dsimp only
      generalize s.advance (min remaining size : Nat) schedule done = x at chunk ⊢
      generalize t.advance (min remaining size : Nat) schedule done = y at chunk ⊢
      rcases chunk with ⟨advanced, e | _⟩
      · exact ⟨advanced, _⟩
      · exact ih _ (by omega) advanced _

theorem loadKeypad (h : s.Alike t) : s.loadKeypad.Alike t.loadKeypad :=
  h.map (fun c => { c with machine := { c.machine with keypad := c.keypad } }) rfl rfl rfl rfl

theorem publish (h : s.Alike t) : s.publish.Alike t.publish := by
  unfold Session.publish
  rw [h.machine]
  split
  · exact h.map (fun c => { c with
      machine := { t.machine with draw := false }
      screen := Screen.publish t.machine.display }) rfl rfl rfl rfl
  · exact h

theorem runCycles (h : s.Alike t) (count : Int) :
    Agree (s.runCycles (.whole count)) (t.runCycles (.whole count)) := by
  have schedule : s.loadKeypad.schedule = t.loadKeypad.schedule := by
    simp only [Session.schedule, Session.loadKeypad, h.config]
  have positive : 0 < chunkSize := by decide
  have chunks := h.loadKeypad.runChunks positive t.loadKeypad.schedule 0 count.toNat
  unfold Session.runCycles runWhole
  dsimp only
  rw [schedule]
  generalize Session.runChunks _ _ _ _ _ s.loadKeypad = x at chunks ⊢
  generalize Session.runChunks _ _ _ _ _ t.loadKeypad = y at chunks ⊢
  rcases chunks with ⟨ran, outcome⟩
  exact ⟨ran.publish, outcome⟩

theorem runWithProgress (h : s.Alike t) (count : Int) :
    Agree (s.runWithProgress (.whole count)) (t.runWithProgress (.whole count)) := by
  unfold Session.runWithProgress
  split
  · exact ⟨h, _⟩
  · exact h.runCycles count

theorem setKey (h : s.Alike t) (index : Quantity τ) (pressed : Bool) :
    Agree (s.setKey index pressed) (t.setKey index pressed) := by
  unfold Session.setKey
  cases key index with
  | error e => exact ⟨h, _⟩
  | ok k =>
    constructor
    exact h.map (fun c => { c with keypad := c.keypad.put k pressed }) rfl rfl rfl rfl

theorem setEachKey (h : s.Alike t) (keys : List (Quantity τ × Bool)) :
    Agree (s.setEachKey keys) (t.setEachKey keys) := by
  induction keys generalizing s t with
  | nil => exact ⟨h, _⟩
  | cons k rest ih =>
    unfold Session.setEachKey
    have first := h.setKey k.1 k.2
    generalize s.setKey k.1 k.2 = x at first ⊢
    generalize t.setKey k.1 k.2 = y at first ⊢
    rcases first with ⟨set, e | _⟩
    · exact ⟨set, _⟩
    · exact ih set

theorem setKeys (h : s.Alike t) (keys : List (Quantity τ × Bool)) :
    Agree (s.setKeys keys) (t.setKeys keys) := by
  unfold Session.setKeys
  split
  · exact ⟨h, _⟩
  · exact h.setEachKey keys

theorem consumeDraw (h : s.Alike t) : Agree (s.consumeDraw.1, (.ok s.consumeDraw.2))
    (t.consumeDraw.1, .ok t.consumeDraw.2) := by
  have ready : s.consumeDraw.2 = t.consumeDraw.2 := congrArg Screen.ready h.screen
  rw [ready]
  constructor
  exact h.map Core.taken rfl rfl rfl rfl

end Alike

namespace Agree

variable {x y : Session τ × Except Failure α}

theorem alike (h : Agree x y) : x.1.Alike y.1 := by
  rcases h with ⟨h, -⟩
  exact h

theorem answered (h : Agree x y) (answer : α → Answer) :
    Agree (answered answer x) (answered answer y) := by
  rcases h with ⟨h, outcome⟩
  exact ⟨h, outcome.map answer⟩

theorem observation_eq {x y : Session τ × Except Failure Answer} (h : Agree x y) :
    observation x = observation y := by
  rcases h with ⟨h, outcome⟩
  exact congrArg (fun c : Core => Observation.mk outcome c.machine c.cycles c.keypad
    c.screen.frame c.screen.ready) h.core

end Agree

theorem Alike.call (h : s.Alike t) {c : Call τ} (noTick : c ≠ .tick) (noReset : c ≠ .reset) :
    Agree (s.call c) (t.call c) := by
  match c with
  | .step => exact h.step.answered _
  | .tick => exact absurd rfl noTick
  | .runCycles count true => exact (h.runWithProgress count).answered _
  | .runCycles count false => exact (h.runCycles count).answered _
  | .setKey index pressed => exact (h.setKey index pressed).answered _
  | .setKeys keys => exact (h.setKeys keys).answered _
  | .consumeDraw => exact h.consumeDraw.answered .flag
  | .frame =>
    have frame : s.frame = t.frame := congrArg Screen.frame h.screen
    dsimp only [Session.call]
    rw [frame]
    exact ⟨h, _⟩
  | .reset => exact absurd rfl noReset

theorem observe_eq_of_core (core : s.core = t.core) (config : s.config = t.config)
    (level : s.journal.logger.level = t.journal.logger.level)
    {calls : List (Quantity τ × Call τ)} (untimed : ∀ e ∈ calls, e.2 ≠ .tick ∧ e.2 ≠ .reset)
    (stamps : ∀ e ∈ calls,
      (s.journal.logger.stamp e.1).isOk ∧ (t.journal.logger.stamp e.1).isOk) :
    observe calls s = observe calls t := by
  induction calls generalizing s t with
  | nil => rfl
  | cons e rest ih =>
    obtain ⟨⟨noTick, noReset⟩, others⟩ := List.forall_mem_cons.mp untimed
    obtain ⟨stamp, later⟩ := List.forall_mem_cons.mp stamps
    have alike : (s.atTime e.1).Alike (t.atTime e.1) := ⟨core, config, level, stamp⟩
    have agree := alike.call noTick noReset
    obtain ⟨-, left, -⟩ := call_keeps (s := s.atTime e.1) e.2
    obtain ⟨-, right, -⟩ := call_keeps (s := t.atTime e.1) e.2
    have same := ih agree.alike.core agree.alike.config agree.alike.level others
      (by rw [left, right]; exact later)
    simp only [observe, agree.observation_eq, same]

theorem reset_of_idle {m : Machine} (idle : s.running = false) (h : s.core.origin = .ok m) :
    s.reset.2 = .ok () ∧ s.reset.1.core = Core.fresh m ∧ s.reset.1.error = none ∧
      s.reset.1.fixtures = s.fixtures := by
  change freshMachine s.config s.rom s.name s.seed = .ok m at h
  unfold reset
  rw [idle, h]
  exact ⟨rfl, congrArg (fun origin => { Core.fresh m with origin }) h, rfl, rfl⟩

section Creation

variable {config : Config τ} {rom : List UInt8} {name : String} {seed : RandomKey}
  {start start' : Quantity τ}

theorem fixtures_create (h : create config rom name seed start = .ok s) :
    ∃ level, LogLevel.ofName? config.logLevel = some level ∧
      s.fixtures = (config, { name := "chipax.driver", level, start }) := by
  cases hl : LogLevel.ofName? config.logLevel with
  | none => simp [create, Logger.create, hl, bind, Except.bind] at h
  | some level =>
    refine ⟨level, rfl, ?_⟩
    cases hm : freshMachine config rom name seed with
    | error e => simp [create, Logger.create, hl, hm, bind, Except.bind] at h
    | ok machine =>
      simp only [create, Logger.create, hl, hm, bind, Except.bind, pure, Except.pure] at h
      split at h
      · cases h
      · obtain rfl := Except.ok.inj h
        rfl

/-- Whatever was done with a session whose thread has ended, a reset makes it what a new session
with the same arguments is, and it answers as a new session does for as long as neither is asked
to tick. The readings can be measured from the creation of both. -/
theorem reset_starts_over (made : create config rom name seed start = .ok s)
    (anew : create config rom name seed start' = .ok t)
    (history : List (Quantity τ × Command τ)) (idle : (s.after history).running = false)
    (now : Quantity τ) :
    let again := ((s.after history).atTime now).reset
    again.2 = .ok () ∧ again.1.machine = t.machine ∧ again.1.cycles = t.cycles ∧
      again.1.error = t.error ∧ again.1.keypad = t.keypad ∧ again.1.screen = t.screen ∧
      ∀ calls : List (Quantity τ × Call τ), (∀ e ∈ calls, e.2 ≠ .tick ∧ e.2 ≠ .reset) →
        (∀ e ∈ calls, start.MeasurableFrom e.1 ∧ start'.MeasurableFrom e.1) →
        observe calls again.1 = observe calls t := by
  have machine : s.machine = t.machine := (machine_create made).trans (machine_create anew).symm
  have origin : (s.after history).core.origin = .ok t.machine := by
    have fresh := core_create made
    rw [(course_after fresh history).origin, machine]
    rfl
  obtain ⟨done, core, error, fixtures⟩ :=
    reset_of_idle (s := (s.after history).atTime now) idle origin
  obtain ⟨level, hl, left⟩ := fixtures_create made
  obtain ⟨level', hl', right⟩ := fixtures_create anew
  obtain rfl : level = level' := Option.some.inj (hl.symm.trans hl')
  have kept := (fixtures.trans (fixtures_after history)).trans left
  have same : ((s.after history).atTime now).reset.1.core = t.core :=
    core.trans (core_create anew).symm
  have clean : t.error = none := by
    obtain ⟨_, _, _, _, rfl⟩ := create_eq_ok anew
    rfl
  refine ⟨done, congrArg Core.machine same, congrArg Core.cycles same, error.trans clean.symm,
    congrArg Core.keypad same, congrArg Core.screen same, ?_⟩
  simp only [Session.fixtures, Prod.mk.injEq] at kept right
  intro calls untimed readings
  refine observe_eq_of_core same (kept.1.trans right.1.symm) ?_ untimed ?_
  · rw [kept.2, right.2]
  · rintro e he
    obtain ⟨measurable, measurable'⟩ := readings e he
    rw [kept.2, right.2]
    exact ⟨Logger.stamp_of_measurableFrom measurable, Logger.stamp_of_measurableFrom measurable'⟩

/-- A program that draws a random number and stores it, reset after its first instruction. -/
theorem reset_starts_over_random :
    ∃ s : Session Rat,
      create {} [0xC0, 0xFF, 0xF0, 0x55] "random" ⟨0, 0⟩ (.whole 0) = .ok s ∧
      let history : List (Quantity Rat × Command Rat) :=
        [(.whole 1, .call (.setKey (.whole 5) true)), (.whole 1, .call .consumeDraw),
          (.whole 2, .call .step)]
      let again := ((s.after history).atTime (.whole 3)).reset
      let calls : List (Quantity Rat × Call Rat) :=
        [(.whole 4, .step), (.whole 4, .step), (.whole 5, .runCycles 3 false), (.whole 5, .frame)]
      again.1.machine = s.machine ∧ observe calls again.1 = observe calls s := by
  have info : LogLevel.ofName? ({} : Config Rat).logLevel = some .info := by decide +kernel
  have start := Quantity.measurableFrom_rat (.whole 0) (.whole 0)
  obtain ⟨s, made⟩ : ∃ s : Session Rat,
      create {} [0xC0, 0xFF, 0xF0, 0x55] "random" ⟨0, 0⟩ (.whole 0) = .ok s :=
    exists_create info (by decide) start
  refine ⟨s, made, ?_⟩
  intro history again calls
  have idle : (s.after history).running = false := by
    obtain ⟨level, machine, output, -, rfl⟩ := create_eq_ok made
    obtain ⟨text, stepped⟩ := exists_step
      (Logger.stamp_of_measurableFrom (Quantity.measurableFrom_rat _ _))
    show (step _).1.running = false
    rw [stepped]
    split <;> rfl
  obtain ⟨-, machine, -, -, -, -, observed⟩ := reset_starts_over made made history idle (.whole 3)
  refine ⟨machine, observed calls ?_ ?_⟩
  · simp [calls]
  · exact fun e _ => ⟨Quantity.measurableFrom_rat _ _, Quantity.measurableFrom_rat _ _⟩

end Creation

end Session

end Chip8
