import Chip8.Proofs.Machine.Reachability
import Chip8.Proofs.Session.Calls
import Chip8.Time.Exact

/-! # Tracing

A session that traces its instructions runs them one at a time, and any other session runs them
in batches. Muting a session switches its log off and forgets what was logged. Every call
commutes with muting, so two sessions that differ in their log levels only cannot be told apart.
-/

namespace Chip8

variable {τ : Type} [TimeScale τ]

/-! ## Loggers -/

/-- The time since a start lies on the time scale. -/
def Quantity.MeasurableFrom (start now : Quantity τ) : Prop :=
  ∃ span, now.sub start = .ok span ∧ span.toReal.isOk

/-- Only integers can lie too far apart. -/
theorem Quantity.measurableFrom_real (start now : τ) : MeasurableFrom (.real start) (.real now) :=
  ⟨.real (now - start), rfl, rfl⟩

theorem Quantity.measurableFrom_rat (start now : Quantity Rat) : MeasurableFrom start now := by
  cases start <;> cases now <;> exact ⟨_, rfl, rfl⟩

namespace Logger

variable {l : Logger τ} {now : Quantity τ}

theorem ofName?_name (level : LogLevel) : LogLevel.ofName? level.name = some level := by
  cases level <;> decide +kernel

omit [TimeScale τ] in
theorem isEnabled_name (level : LogLevel) :
    l.isEnabled level.name = decide (l.level.order ≤ level.order) := by
  rw [isEnabled, ofName?_name]
  rfl

theorem stamp_of_measurableFrom (h : l.start.MeasurableFrom now) : (l.stamp now).isOk := by
  obtain ⟨span, hs, hr⟩ := h
  unfold stamp Quantity.fixed
  split
  · cases hx : span.toReal with
    | error e =>
      rw [hx] at hr
      cases hr
    | ok x => simp [hs, hx, bind, Except.bind, pure, Except.pure, Except.isOk, Except.toBool]
  · rfl

theorem exists_write (h : (l.stamp now).isOk) (level : LogLevel) (message : String) :
    ∃ text, l.write now level message = .ok text := by
  unfold write log line
  split
  · cases hs : l.stamp now with
    | error e =>
      rw [hs] at h
      cases h
    | ok stamp => exact ⟨_, rfl⟩
  · exact ⟨"", rfl⟩

/-- A logger for critical messages only writes nothing else. -/
theorem write_critical {level : LogLevel} (h : level ≠ .critical) (message : String) :
    { l with level := .critical }.write now level message = .ok "" := by
  unfold write log
  rw [isEnabled_name, if_neg]
  cases level <;> simp_all [LogLevel.order]

end Logger

namespace Clock

/-- What a tick does to the clock and what it grants do not depend on the log level. -/
theorem tick_critical (c : Clock τ) {l : Logger τ} {now : Quantity τ}
    (h : (l.stamp now).isOk) :
    c.tick { l with level := .critical } now = { c.tick l now with output := "" } := by
  unfold tick
  cases c.last with
  | none => rfl
  | some last =>
    dsimp only
    cases now.sub last with
    | error e => rfl
    | ok elapsed =>
      dsimp only [tickAfter]
      generalize ({ c with last := some now } : Clock τ) = c'
      rcases c'.grant elapsed.atLeastZero with e | ⟨span, _ | shortfall⟩
      · rfl
      · rfl
      · dsimp only
        cases shortfall.message with
        | error e => rfl
        | ok message =>
          obtain ⟨text, ht⟩ := Logger.exists_write h .warning message
          have quiet : { l with level := .critical }.write now .warning message = .ok "" :=
            Logger.write_critical (by decide) message
          simp only [bind, Except.bind, ht, quiet]

end Clock

namespace Session

variable {s : Session τ} {α : Type}

/-- The session with its log switched off and what was logged forgotten. -/
def mute (s : Session τ) : Session τ :=
  { s with
    config := { s.config with logLevel := "" }
    journal := { s.journal with logger := { s.journal.logger with level := .critical } }
    surroundings := { s.surroundings with output := "" } }

def muted (x : Session τ × Except Failure α) : Session τ × Except Failure α := (x.1.mute, x.2)

@[simp] theorem machine_mute : s.mute.machine = s.machine := rfl

@[simp] theorem clock_mute : s.mute.clock = s.clock := rfl

def Stampable (s : Session τ) : Prop := (s.journal.logger.stamp s.surroundings.now).isOk

theorem Stampable.of_setting {t : Session τ} (h : s.Stampable) (ht : t.setting = s.setting) :
    t.Stampable := by
  simp only [setting, Prod.mk.injEq] at ht
  rwa [Stampable, ht.2.1, ht.2.2.2]

theorem traced_mute : s.mute.traced = false := by
  rw [traced, Logger.isEnabled_name]
  rfl

theorem exists_say (h : s.Stampable) (level : LogLevel) (message : String) :
    ∃ text, s.say level message = (s.emit text, .ok ()) := by
  obtain ⟨text, ht⟩ := Logger.exists_write h level message
  refine ⟨"" ++ text, ?_⟩
  rw [say, ht]
  rfl

theorem emit_empty : s.emit "" = s := by
  simp only [emit, String.append_empty]

theorem trace_mute (word : UInt16) : s.mute.trace word = (s.mute, .ok ()) := by
  have quiet (message : String) : s.mute.say .debug message = (s.mute.emit "", .ok ()) := by
    rw [say, mute, Logger.write_critical (by decide)]
    rfl
  rw [trace, quiet, emit_empty]

/-! ## Running -/

theorem exists_step (h : s.Stampable) :
    ∃ text, s.step = match s.machine.step with
      | .error e => (s.emit text, .error (.execution e))
      | .ok machine => ({ s.emit text with machine, cycles := s.cycles + 1 }, .ok ()) := by
  unfold step Machine.step
  cases s.machine.fetch with
  | error e => exact ⟨"", by rw [emit_empty]⟩
  | ok word =>
    obtain ⟨text, ht⟩ : ∃ text, s.trace word = (s.emit text, .ok ()) := exists_say h _ _
    refine ⟨text, ?_⟩
    simp only [ht]
    rfl

theorem step_mute (h : s.Stampable) : s.mute.step = muted s.step := by
  obtain ⟨text, ht⟩ := exists_step h
  rw [ht]
  unfold step Machine.step
  rw [machine_mute]
  cases s.machine.fetch with
  | error e => rfl
  | ok word =>
    simp only [trace_mute]
    rw [machine_mute]
    cases s.machine.execute word.toNat <;> rfl

theorem decay_mute (ticks : Quantity τ) : s.mute.decay ticks = muted (s.decay ticks) := by
  unfold decay
  rw [machine_mute]
  cases s.machine.decay ticks <;> rfl

def afterBatch (s : Session τ) (b : Batch) : Session τ × Except Failure Unit :=
  ({ s with machine := b.machine, cycles := s.cycles + b.executed },
    match b.error with
    | some e => .error (.execution e)
    | none => .ok ())

theorem runBatch_eq {count a b phase : Int} {batch : Batch}
    (h : s.machine.runBatch count ⟨a, b⟩ phase = .ok batch) :
    s.runBatch (.whole count) ⟨.whole a, .whole b⟩ phase = s.afterBatch batch := by
  rw [runBatch, Machine.runScheduled_whole, h, afterBatch]
  dsimp only
  cases batch.error <;> rfl

theorem runSteps_muted {a b : Int} (hb : b ≠ 0) (h : s.Stampable) {count : Nat} {cycle : Int}
    {batch : Batch} (hm : s.machine.runSteps ⟨a, b⟩ count cycle = .ok batch) :
    muted (runSteps ⟨.whole a, .whole b⟩ count cycle s) = muted (s.afterBatch batch) := by
  induction count generalizing cycle s batch with
  | zero =>
    cases hm
    rfl
  | succ count ih =>
    obtain ⟨text, ht⟩ := exists_step h
    rw [runSteps, ht]
    rcases Machine.runSteps_succ_eq_ok hm with ⟨e, hs, rfl⟩ | ⟨m₁, m₂, rest, hs, hd, hr, rfl⟩
    · rw [hs]
      rfl
    · rw [hs]
      dsimp only
      rw [decayAt, Schedule.ticksAt_whole hb]
      dsimp only [decay, Machine.decay]
      rw [hd]
      have total : s.cycles + 1 + rest.executed = s.cycles + (rest.executed + 1) := by omega
      -- A step touches neither the journal nor the reading, so the next line has its stamp too.
      refine (ih (by exact h) hr).trans ?_
      simp only [afterBatch, total]
      rfl

/-- Running instructions one at a time or in a batch makes no difference to a muted session. -/
theorem advance_mute (h : s.Stampable) {a b count : Int} (ha : 0 ≤ a) (ha' : a < 2 ^ 31)
    (hb : 0 < b) (hb' : b < 2 ^ 31) (hcount : count < 2 ^ 31) (phase : Int)
    (fits : (phase.fmod b + count.toNat) * a < 2 ^ 31) :
    s.mute.advance count ⟨.whole a, .whole b⟩ phase
      = muted (s.advance count ⟨.whole a, .whole b⟩ phase) := by
  obtain ⟨batch, hm, steps⟩ :=
    s.machine.runBatch_runSteps (r := ⟨a, b⟩) hb hb' ha ha' hcount phase fits
  have quiet : s.mute.runBatch (.whole count) ⟨.whole a, .whole b⟩ phase
      = s.mute.afterBatch batch := runBatch_eq hm
  rw [advance, traced_mute, if_neg (by decide), quiet, advance]
  split
  · exact (runSteps_muted (by omega) h steps).symm
  · rw [runBatch_eq hm]
    rfl

/-! ## Calls -/

theorem loadKeypad_mute : s.mute.loadKeypad = s.loadKeypad.mute := rfl

theorem publish_mute : s.mute.publish = s.publish.mute := by
  unfold publish
  rw [machine_mute]
  split <;> rfl

theorem readClock_mute (h : s.Stampable) : s.mute.readClock = muted s.readClock := by
  have quiet := Clock.tick_critical s.clock h
  rw [readClock, clock_mute, show s.mute.surroundings.now = s.surroundings.now from rfl, mute,
    quiet]
  rfl

theorem tick_mute (h : s.Stampable)
    (moderate : ∀ due, s.readClock.2 = .ok due → due.cycles < 2 ^ 31) :
    s.mute.tick = muted s.tick := by
  have stamp : s.readClock.1.Stampable := h
  rw [tick, readClock_mute h, tick]
  generalize s.readClock = x at moderate stamp ⊢
  rcases x with ⟨s₁, e | due⟩
  · rfl
  · have same := advance_mute (s := s₁.loadKeypad) stamp (a := 0) (b := 1) (by decide)
      (by decide) (by decide) (by decide) (moderate due rfl) 0 (by simp)
    dsimp only [muted]
    rw [loadKeypad_mute, show ({} : Schedule τ) = ⟨.whole 0, .whole 1⟩ from rfl, same]
    generalize s₁.loadKeypad.advance due.cycles ⟨.whole 0, .whole 1⟩ 0 = y
    rcases y with ⟨s₂, e | _⟩
    · rfl
    · dsimp only [muted]
      rw [decay_mute]
      generalize s₂.decay (.whole due.ticks) = z
      rcases z with ⟨s₃, e | _⟩
      · rfl
      · dsimp only [muted]
        rw [publish_mute]

/-- Both frequencies are integers, `f` and `g`, and stay within 32 bits throughout a chunk. -/
structure Paced (s : Session τ) (f g : Int) : Prop where
  schedule : s.schedule = ⟨.whole g, .whole f⟩
  cpu : 0 < f
  timer : 0 < g
  fits : (f + chunkSize) * g < 2 ^ 31

variable {f g : Int}

theorem Paced.products (paced : s.Paced f g) :
    f < 2 ^ 31 ∧ g < 2 ^ 31 ∧ ∀ (phase : Int) (count : Nat), count ≤ chunkSize →
      (phase.fmod f + count) * g < 2 ^ 31 := by
  obtain ⟨-, hf, hg, fits⟩ := paced
  have frequency : (f + chunkSize) * 1 ≤ (f + chunkSize) * g :=
    Int.mul_le_mul_of_nonneg_left (by omega) (by omega)
  have ticks : 1 * g ≤ (f + chunkSize) * g := Int.mul_le_mul_of_nonneg_right (by omega) (by omega)
  refine ⟨by omega, by omega, ?_⟩
  intro phase count hcount
  have start := Int.fmod_lt_of_pos phase hf
  have product : (phase.fmod f + count) * g ≤ (f + chunkSize) * g :=
    Int.mul_le_mul_of_nonneg_right (by omega) (by omega)
  omega

theorem runChunks_mute (h : s.Stampable) (paced : s.Paced f g) (sizePos : 0 < chunkSize)
    (done remaining : Nat) :
    runChunks chunkSize sizePos ⟨.whole g, .whole f⟩ done remaining s.mute
      = muted (runChunks chunkSize sizePos ⟨.whole g, .whole f⟩ done remaining s) := by
  obtain ⟨hf', hg', products⟩ := paced.products
  obtain ⟨-, hf, hg, -⟩ := paced
  induction remaining using Nat.strongRecOn generalizing done s with
  | ind remaining ih =>
    unfold runChunks
    split
    · rfl
    · have size : min remaining chunkSize ≤ chunkSize := Nat.min_le_right _ _
      have small : ((min remaining chunkSize : Nat) : Int) < 2 ^ 31 := by
        have : chunkSize = 10000 := rfl
        omega
      have same := advance_mute h (Int.le_of_lt hg) hg' hf hf' small done
        (by simpa using products done _ size)
      have keeps := setting_advance (s := s) (min remaining chunkSize : Nat)
        ⟨.whole g, .whole f⟩ done
      dsimp only
      rw [same]
      generalize s.advance (min remaining chunkSize : Nat) ⟨.whole g, .whole f⟩ done = x at keeps ⊢
      rcases x with ⟨s₁, e | _⟩
      · rfl
      · exact ih _ (by omega) (h.of_setting keeps) _

theorem runCycles_mute (h : s.Stampable) (paced : s.Paced f g) (count : Int) :
    s.mute.runCycles (.whole count) = muted (s.runCycles (.whole count)) := by
  have loaded : s.loadKeypad.Paced f g := ⟨paced.schedule, paced.cpu, paced.timer, paced.fits⟩
  have same := runChunks_mute (s := s.loadKeypad) h loaded (by decide) 0 count.toNat
  have schedule : s.loadKeypad.schedule = ⟨.whole g, .whole f⟩ := paced.schedule
  have schedule' : s.mute.loadKeypad.schedule = ⟨.whole g, .whole f⟩ := paced.schedule
  unfold runCycles
  dsimp only [runWhole]
  rw [schedule, schedule', loadKeypad_mute, same, muted, muted, publish_mute]

theorem runWithProgress_mute (h : s.Stampable) (paced : s.Paced f g) (count : Int) :
    s.mute.runWithProgress (.whole count) = muted (s.runWithProgress (.whole count)) := by
  unfold runWithProgress
  rw [runCycles_mute h paced]
  split <;> rfl

theorem setKey_mute (index : Quantity τ) (pressed : Bool) :
    s.mute.setKey index pressed = muted (s.setKey index pressed) := by
  unfold setKey
  split <;> rfl

theorem setEachKey_mute (keys : List (Quantity τ × Bool)) :
    s.mute.setEachKey keys = muted (s.setEachKey keys) := by
  induction keys generalizing s with
  | nil => rfl
  | cons k rest ih =>
    unfold setEachKey
    rw [setKey_mute]
    generalize s.setKey k.1 k.2 = x
    rcases x with ⟨s₁, e | _⟩
    · rfl
    · exact ih

theorem setKeys_mute (keys : List (Quantity τ × Bool)) :
    s.mute.setKeys keys = muted (s.setKeys keys) := by
  unfold setKeys
  split
  · rfl
  · exact setEachKey_mute keys

theorem reset_mute : s.mute.reset = muted s.reset := by
  unfold reset
  rw [show s.mute.running = s.running from rfl,
    show freshMachine s.mute.config s.mute.rom s.mute.name s.mute.seed
      = freshMachine s.config s.rom s.name s.seed from rfl]
  split
  · rfl
  · cases freshMachine s.config s.rom s.name s.seed <;> rfl

theorem answered_muted (answer : α → Answer) (x : Session τ × Except Failure α) :
    answered answer (muted x) = muted (answered answer x) := rfl

theorem call_mute (h : s.Stampable) (paced : s.Paced f g) {c : Call τ}
    (moderate : c = .tick → ∀ due, s.readClock.2 = .ok due → due.cycles < 2 ^ 31) :
    s.mute.call c = muted (s.call c) := by
  match c with
  | .step => simp only [call, step_mute h, answered_muted]
  | .tick => simp only [call, tick_mute h (moderate rfl), answered_muted]
  | .runCycles count true => simp only [call, runWithProgress_mute h paced, answered_muted]
  | .runCycles count false => simp only [call, runCycles_mute h paced, answered_muted]
  | .setKey index pressed => simp only [call, setKey_mute, answered_muted]
  | .setKeys keys => simp only [call, setKeys_mute, answered_muted]
  | .consumeDraw => rfl
  | .frame => rfl
  | .reset => simp only [call, reset_mute, answered_muted]

/-! ## Histories -/

theorem atTime_mute (now : Quantity τ) : s.mute.atTime now = (s.atTime now).mute := rfl

theorem observation_muted (x : Session τ × Except Failure Answer) :
    observation (muted x) = observation x := rfl

/-- A muted session grants what the session itself grants, and is observed as it is. -/
theorem observe_mute (paced : s.Paced f g) {history : List (Quantity τ × Call τ)}
    (stamps : ∀ e ∈ history, (s.journal.logger.stamp e.1).isOk) :
    (Moderate history s.mute ↔ Moderate history s) ∧
      (Moderate history s → observe history s.mute = observe history s) := by
  -- Both at once: what a later tick grants depends on the state that the calls before it leave.
  induction history generalizing s with
  | nil => exact ⟨Iff.rfl, fun _ => rfl⟩
  | cons e rest ih =>
    obtain ⟨now, c⟩ := e
    have stamp : (s.atTime now).Stampable := stamps (now, c) List.mem_cons_self
    have clock : (s.mute.atTime now).readClock.2 = (s.atTime now).readClock.2 := by
      rw [atTime_mute, readClock_mute stamp]
      rfl
    have same (grant : c = .tick → ∀ due, (s.atTime now).readClock.2 = .ok due →
        due.cycles < 2 ^ 31 ∧ due.ticks < 2 ^ 31) :
        (s.mute.atTime now).call c = muted ((s.atTime now).call c) :=
      call_mute stamp ⟨paced.schedule, paced.cpu, paced.timer, paced.fits⟩
        fun tick due hdue => (grant tick due hdue).1
    obtain ⟨config, journal, -⟩ := call_keeps (s := s.atTime now) c
    have next : ((s.atTime now).call c).1.Paced f g :=
      ⟨by rw [schedule, config]; exact paced.schedule, paced.cpu, paced.timer, paced.fits⟩
    obtain ⟨others, observed⟩ := ih next
      (by rw [journal]; exact fun e he => stamps e (List.mem_cons_of_mem _ he))
    constructor
    · unfold Moderate
      rw [clock]
      refine and_congr_right fun grant => ?_
      rw [same grant]
      exact others
    · rintro ⟨grant, moderate⟩
      simp only [observe, same grant, observation_muted]
      exact congrArg _ (observed moderate)

theorem create_eq_ok {config : Config τ} {rom : List UInt8} {name : String} {seed : RandomKey}
    {now : Quantity τ} (h : create config rom name seed now = .ok s) :
    ∃ level machine output, freshMachine config rom name seed = .ok machine ∧
      s = {
        config, rom, name, seed, machine
        journal := { logger := { name := "chipax.driver", level, start := now } }
        clock := Clock.create config.cpuFrequency config.timerFrequency config.catchUp
        screen := Screen.publish machine.display
        surroundings := { now, output } } := by
  unfold create Logger.create at h
  cases hl : LogLevel.ofName? config.logLevel with
  | none => simp [hl, bind, Except.bind] at h
  | some level =>
    cases hm : freshMachine config rom name seed with
    | error e => simp [hl, hm, bind, Except.bind] at h
    | ok machine =>
      simp only [hl, hm, bind, Except.bind, pure, Except.pure] at h
      split at h
      · cases h
      · next output _ => exact ⟨level, machine, output, rfl, (Except.ok.inj h).symm⟩

section Creation

variable {config : Config τ} {rom : List UInt8} {name : String} {seed : RandomKey}
  {start : Quantity τ} {history : List (Quantity τ × Call τ)}

theorem exists_create {level : LogLevel} (hl : LogLevel.ofName? config.logLevel = some level)
    (fits : rom.length ≤ maxRomSize) (readable : start.MeasurableFrom start) :
    ∃ s, create config rom name seed start = .ok s := by
  obtain ⟨machine, hm⟩ : ∃ machine, freshMachine config rom name seed = .ok machine := by
    rw [freshMachine, Machine.loadRom_of_le _ fits]
    exact ⟨_, rfl⟩
  have stamp := Logger.stamp_of_measurableFrom (l := { name := "chipax.driver", level, start })
    readable
  obtain ⟨text, ht⟩ := Logger.exists_write stamp .info
    ("Loaded ROM '" ++ name ++ "' (" ++ toString rom.length ++ " bytes)")
  simp only [create, Logger.create, hl, hm, ht, bind, Except.bind, pure, Except.pure]
  exact ⟨_, rfl⟩

theorem mute_eq_of_create {level level' : String} {t : Session τ}
    (hs : create { config with logLevel := level } rom name seed start = .ok s)
    (ht : create { config with logLevel := level' } rom name seed start = .ok t) :
    s.mute = t.mute := by
  obtain ⟨l, m, output, hm, rfl⟩ := create_eq_ok hs
  obtain ⟨l', m', output', hm', rfl⟩ := create_eq_ok ht
  obtain rfl : m = m' := Except.ok.inj (hm.symm.trans hm')
  rfl

theorem observe_mute_of_create (hs : create config rom name seed start = .ok s)
    (cpu : config.cpuFrequency = .whole f) (timer : config.timerFrequency = .whole g)
    (hf : 0 < f) (hg : 0 < g) (fits : (f + chunkSize) * g < 2 ^ 31)
    (readings : ∀ e ∈ history, start.MeasurableFrom e.1) :
    (Moderate history s.mute ↔ Moderate history s) ∧
      (Moderate history s → observe history s.mute = observe history s) := by
  obtain ⟨l, m, output, hm, rfl⟩ := create_eq_ok hs
  refine observe_mute ⟨?_, hf, hg, fits⟩ fun e he => ?_
  · rw [schedule, cpu, timer]
  · exact Logger.stamp_of_measurableFrom (l := { name := "chipax.driver", level := l, start })
      (readings e he)

/-- Sessions that differ in their log levels only are observed alike through every history of
moderate ticks. Its readings can be measured from the creation on, as those on the time scale
always can, so that a line of the log can be stamped at each of them. -/
theorem observe_eq_of_logLevel (config : Config τ) (cpu : config.cpuFrequency = .whole f)
    (timer : config.timerFrequency = .whole g) (hf : 0 < f) (hg : 0 < g)
    (fits : (f + 10000) * g < 2 ^ 31) {level level' : String} {s t : Session τ}
    (hs : create { config with logLevel := level } rom name seed start = .ok s)
    (ht : create { config with logLevel := level' } rom name seed start = .ok t)
    (readings : ∀ e ∈ history, start.MeasurableFrom e.1) (moderate : Moderate history s) :
    observe history s = observe history t := by
  obtain ⟨left, left'⟩ := observe_mute_of_create hs cpu timer hf hg fits readings
  obtain ⟨right, right'⟩ := observe_mute_of_create ht cpu timer hf hg fits readings
  have same : s.mute = t.mute := mute_eq_of_create hs ht
  have moderate' : Moderate history t := right.mp (same ▸ left.mpr moderate)
  calc observe history s = observe history s.mute := (left' moderate).symm
    _ = observe history t.mute := by rw [same]
    _ = observe history t := right' moderate'

end Creation

/-- A program that sets the delay timer, ticked twice, run on and stepped, with and without a
trace. -/
theorem observe_eq_of_logLevel_delay :
    let rom : List UInt8 := [0x60, 0x05, 0xF0, 0x15, 0x12, 0x04]
    let history : List (Quantity Rat × Call Rat) := [(.whole 0, .tick), (.whole 1, .tick),
      (.real (5 / 2), .runCycles 20000 true), (.real (5 / 2), .step)]
    ∃ s t, create { logLevel := "DEBUG" } rom "delay" ⟨0, 0⟩ (.whole 0) = .ok s ∧
      create { logLevel := "info" } rom "delay" ⟨0, 0⟩ (.whole 0) = .ok t ∧
      Moderate history s ∧ observe history s = observe history t := by
  intro rom history
  have debug : LogLevel.ofName? "DEBUG" = some .debug := by decide +kernel
  have info : LogLevel.ofName? "info" = some .info := by decide +kernel
  have made {level : String} {known : LogLevel} (h : LogLevel.ofName? level = some known) :
      ∃ s : Session Rat, create { logLevel := level } rom "delay" ⟨0, 0⟩ (.whole 0) = .ok s :=
    exists_create h (show 6 ≤ maxRomSize by decide) (Quantity.measurableFrom_rat _ _)
  obtain ⟨s, hs⟩ := made debug
  obtain ⟨t, ht⟩ := made info
  have fresh : s.clock = Clock.create (.whole 500) (.whole 60) none := by
    obtain ⟨l, m, output, -, rfl⟩ := create_eq_ok hs
    rfl
  have started : ((s.atTime (.whole 0)).call .tick).1.clock
      = { Clock.create (.whole 500) (.whole 60) none with last := some (.whole 0) } := by
    refine clock_tick.trans ?_
    change (s.clock.tick _ _).clock = _
    rw [fresh]
    rfl
  have granted (l : Logger Rat) : (({ Clock.create (.whole 500) (.whole 60) none with
      last := some (.whole 0) } : Clock Rat).tick l (.whole 1)).due
        = .ok ⟨Exact.truncate (0 + (500 : Int)), Exact.truncate (0 + (60 : Int))⟩ := rfl
  have moderate : Moderate history s := by
    refine ⟨fun _ due hdue => ?_, fun _ due hdue => ?_, nofun, nofun, trivial⟩
    · change (s.clock.tick _ _).due = _ at hdue
      rw [fresh] at hdue
      obtain rfl := Except.ok.inj hdue
      decide
    · change (((s.atTime (.whole 0)).call .tick).1.clock.tick _ _).due = _ at hdue
      rw [started] at hdue
      obtain rfl := Except.ok.inj ((granted _).symm.trans hdue)
      decide +kernel
  exact ⟨s, t, hs, ht, moderate, observe_eq_of_logLevel {} (f := 500) (g := 60) rfl rfl (by decide)
    (by decide) (by decide) hs ht (fun e _ => Quantity.measurableFrom_rat _ e.1) moderate⟩

end Session

end Chip8
