import Chip8.Proofs.Machine.ChunkTicks
import Chip8.Proofs.Machine.Programs
import Chip8.Proofs.Session.Tracing

/-! # Runs in chunks

A session without a trace runs its cycles in chunks, each of them one batch. As long as the
frequencies fit in 32 bits such a run is one timed run of the machine, and where the products
fit too it is one batch, whatever the size of the chunks.
-/

namespace Chip8

namespace Machine

variable {m : Machine} {num den a b : Int}

/-- Consecutive batches compose: a batch that completes is followed by the rest of the long batch,
and one that fails is all there is of the long batch. -/
theorem runBatch_add (ha : 0 ≤ a) (hb : 0 ≤ b) (total : a + b < 2 ^ 31) (hnum : 0 ≤ num)
    (hnum' : num < 2 ^ 31) (hden : 1 ≤ den) (hden' : den < 2 ^ 31)
    (fits : (den + a + b) * num < 2 ^ 31) (phase : Int) :
    ∃ first, m.runBatch a ⟨num, den⟩ phase = .ok first ∧
      (first.error = none → first.executed = a ∧
        ∃ second, first.machine.runBatch b ⟨num, den⟩ (phase + a) = .ok second ∧
          m.runBatch (a + b) ⟨num, den⟩ phase =
            .ok { second with executed := first.executed + second.executed }) ∧
      (first.error ≠ none → m.runBatch (a + b) ⟨num, den⟩ phase = .ok first) := by
  obtain ⟨a, rfl⟩ := Int.eq_ofNat_of_zero_le ha
  obtain ⟨b, rfl⟩ := Int.eq_ofNat_of_zero_le hb
  have timed (m : Machine) {count : Nat} (le : count ≤ a + b) (phase : Int) :
      m.runBatch count ⟨num, den⟩ phase =
        .ok (m.runTimed (fun k => TimerRatio.ticksAt ⟨num, den⟩ (phase + k)) count) := by
    have start := Int.fmod_lt_of_pos phase (show 0 < den by omega)
    have product : (phase.fmod den + count) * num ≤ (den + a + b) * num :=
      Int.mul_le_mul_of_nonneg_right (by omega) hnum
    exact runBatch_eq_runTimed (r := ⟨num, den⟩) (by omega) (show 0 < den by omega) hden' hnum hnum'
      phase (Int.lt_of_le_of_lt product fits)
  have long := timed m (Nat.le_refl (a + b)) phase
  rw [Int.natCast_add, runTimed_add] at long
  obtain ⟨-, complete⟩ :=
    m.runTimed_executed (fun k => TimerRatio.ticksAt ⟨num, den⟩ (phase + k)) a
  refine ⟨_, timed m (by omega) phase, fun completes => ⟨?_, _, timed _ (by omega) _, ?_⟩,
    fun fails => ?_⟩
  · exact_mod_cast complete.mp completes
  · have shift : (fun k : Nat => TimerRatio.ticksAt ⟨num, den⟩ (phase + (a + k : Nat))) =
        fun k : Nat => TimerRatio.ticksAt ⟨num, den⟩ (phase + a + k) :=
      funext fun k => congrArg _ (by omega)
    rw [long, Batch.andThen_of_none completes, shift]
  · rw [long, Batch.andThen_of_ne_none fails]

end Machine

namespace Session

variable {τ : Type} [TimeScale τ] {s : Session τ} {f g : Int} {size : Nat}

theorem afterBatch_andThen (b : Batch) (next : Machine → Batch) :
    s.afterBatch (b.andThen next) =
      match s.afterBatch b with
      | (s, .error e) => (s, .error e)
      | (s, .ok ()) => s.afterBatch (next s.machine) := by
  obtain ⟨machine, executed, _ | e⟩ := b
  · simp only [Batch.andThen, afterBatch, Nat.add_assoc]
  · rfl

theorem advance_chunk (quiet : s.traced = false) (hf : 0 < f) (hf' : f < 2 ^ 31) (hg : 0 ≤ g)
    (hg' : g < 2 ^ 31) {done chunk : Nat} (some : 0 < chunk) (small : chunk < 2 ^ 31)
    (begins : size ∣ done) (le : chunk ≤ size) :
    s.advance chunk ⟨.whole g, .whole f⟩ done =
      s.afterBatch (s.machine.runTimed (fun k => TimerRatio.chunkTicks ⟨g, f⟩ size (done + k))
        chunk) := by
  have batch := s.machine.runBatch_eq_runFrom (r := ⟨g, f⟩) (show 0 < (chunk : Int) by omega)
    (by omega) hf hf' hg hg' done
  rw [Int.toNat_natCast, Machine.runFrom_eq_runTimed] at batch
  rw [advance, quiet, if_neg (by decide), runBatch_eq batch]
  refine congrArg s.afterBatch (Machine.runTimed_congr fun k hk => congrArg Machine.countDown ?_)
  exact (TimerRatio.chunkTicks_add begins (by omega)).symm

/-- Chunks that begin at multiples of their size make one timed run. -/
theorem runChunks_eq (quiet : s.traced = false) (hf : 0 < f) (hf' : f < 2 ^ 31) (hg : 0 ≤ g)
    (hg' : g < 2 ^ 31) (sizePos : 0 < size) {done remaining : Nat}
    (small : min remaining size < 2 ^ 31) (begins : remaining ≠ 0 → size ∣ done) :
    runChunks size sizePos ⟨.whole g, .whole f⟩ done remaining s =
      s.afterBatch (s.machine.runTimed (fun k => TimerRatio.chunkTicks ⟨g, f⟩ size (done + k))
        remaining) := by
  -- Only the last chunk is shorter than the others, so each begins at a multiple of their size.
  induction remaining using Nat.strongRecOn generalizing done s with
  | ind remaining ih =>
    unfold runChunks
    split
    · next none =>
      subst none
      rfl
    · next some =>
      have chunk := advance_chunk quiet hf hf' hg hg' (show 0 < min remaining size by omega) small
        (begins some) (Nat.min_le_right _ _)
      dsimp only
      rw [chunk]
      generalize hn : min remaining size = n
      obtain ⟨rest, rfl⟩ : ∃ rest, remaining = n + rest := ⟨remaining - n, by omega⟩
      rw [Machine.runTimed_add, afterBatch_andThen, Nat.add_sub_cancel_left]
      generalize s.machine.runTimed (fun k => TimerRatio.chunkTicks ⟨g, f⟩ size (done + k)) n = b
      have next : rest ≠ 0 → size ∣ done + n := fun more => by
        rw [show n = size by omega]
        exact Nat.dvd_add (begins some) (Nat.dvd_refl _)
      have later := ih rest (by omega) (s := (s.afterBatch b).1) quiet (by omega) next
      cases hb : b.error with
      | none => simpa only [afterBatch, hb, Nat.add_assoc] using later
      | some e => simp only [afterBatch, hb]

/-- Runs cycles as `runCycles` does, in chunks of at most `size`. -/
def runCyclesIn (s : Session τ) (size : Nat) (sizePos : 0 < size) (count : Int) :
    Session τ × Except Failure Unit :=
  let (s, outcome) := runChunks size sizePos s.schedule 0 count.toNat s.loadKeypad
  (s.publish, outcome)

theorem runCycles_whole (count : Int) :
    s.runCycles (.whole count) = s.runCyclesIn chunkSize (by decide) count := rfl

/-- The session after a run whose cycles went as a batch, with its frame published. -/
def afterRun (s : Session τ) (b : Batch) : Session τ × Except Failure Unit :=
  ({ s with
      machine := { b.machine with draw := false }
      cycles := s.cycles + b.executed
      screen := if b.machine.draw then Screen.publish b.machine.display else s.screen },
    match b.error with
    | none => .ok ()
    | some e => .error (.execution e))

theorem publish_afterBatch (b : Batch) :
    ((s.loadKeypad.afterBatch b).1.publish, (s.loadKeypad.afterBatch b).2) = s.afterRun b := by
  have dark (h : ¬b.machine.draw = true) : { b.machine with draw := false } = b.machine := by
    rw [← Bool.eq_false_iff.mpr h]
  unfold afterRun publish afterBatch
  dsimp only
  split
  · cases b.error <;> rfl
  · next h =>
    rw [dark h]
    cases b.error <;> rfl

theorem afterRun_eq_ok_iff {b : Batch} : (s.afterRun b).2 = .ok () ↔ b.error = none := by
  unfold afterRun
  cases b.error <;> simp

theorem runCyclesIn_of_nonpos (sizePos : 0 < size) {count : Int} (none : count ≤ 0) :
    s.runCyclesIn size sizePos count =
      s.afterRun { machine := s.loadKeypad.machine, executed := 0 } := by
  rw [runCyclesIn, Int.toNat_of_nonpos none, runChunks, dif_pos rfl, ← publish_afterBatch]
  rfl

theorem runCyclesIn_eq_runTimed {count : Int} (quiet : s.traced = false)
    (pace : s.schedule = ⟨.whole g, .whole f⟩) (hf : 0 < f) (hf' : f < 2 ^ 31) (hg : 0 ≤ g)
    (hg' : g < 2 ^ 31) (sizePos : 0 < size) (small : min count.toNat size < 2 ^ 31) :
    s.runCyclesIn size sizePos count =
      s.afterRun (s.loadKeypad.machine.runTimed (TimerRatio.chunkTicks ⟨g, f⟩ size)
        count.toNat) := by
  have chunks := runChunks_eq (s := s.loadKeypad) quiet hf hf' hg hg' sizePos small
    fun _ => Nat.dvd_zero size
  simp only [Nat.zero_add] at chunks
  rw [runCyclesIn, pace, chunks]
  exact publish_afterBatch _

theorem runCycles_eq_runTimed (quiet : s.traced = false)
    (pace : s.schedule = ⟨.whole g, .whole f⟩) (hf : 0 < f) (hf' : f < 2 ^ 31) (hg : 0 ≤ g)
    (hg' : g < 2 ^ 31) (count : Int) :
    s.runCycles (.whole count) =
      s.afterRun (s.loadKeypad.machine.runTimed (TimerRatio.chunkTicks ⟨g, f⟩ chunkSize)
        count.toNat) := by
  have size : chunkSize = 10000 := rfl
  exact runCyclesIn_eq_runTimed quiet pace hf hf' hg hg' (by decide) (by omega)

theorem runCyclesIn_eq {count : Int} (quiet : s.traced = false)
    (cpu : s.config.cpuFrequency = .whole f) (timer : s.config.timerFrequency = .whole g)
    (hf : 0 < f) (hg : 0 < g) (fits : (f + count) * g < 2 ^ 31) :
    ∃ b, s.loadKeypad.machine.runBatch count ⟨g, f⟩ 0 = .ok b ∧
      ∀ {size : Nat} (sizePos : 0 < size), s.runCyclesIn size sizePos count = s.afterRun b := by
  have pace : s.schedule = ⟨.whole g, .whole f⟩ := by rw [schedule, cpu, timer]
  by_cases some : 0 < count
  · have cycles : (f + count) * 1 ≤ (f + count) * g :=
      Int.mul_le_mul_of_nonneg_left (by omega) (by omega)
    have decrements : 1 * g ≤ (f + count) * g :=
      Int.mul_le_mul_of_nonneg_right (by omega) (by omega)
    have products {n : Int} (h : n ≤ f + count) : n * g < 2 ^ 31 :=
      Int.lt_of_le_of_lt (Int.mul_le_mul_of_nonneg_right h (by omega)) fits
    have hf' : f < 2 ^ 31 := by omega
    have hg' : g < 2 ^ 31 := by omega
    refine ⟨_, Machine.runBatch_eq_runTimed (r := ⟨g, f⟩) (by omega) hf hf' (Int.le_of_lt hg) hg' 0
      (products ?_), fun {size} sizePos => ?_⟩
    · dsimp only
      rw [Int.zero_fmod]
      omega
    · have exact : ∀ k < count.toNat, TimerRatio.chunkTicks ⟨g, f⟩ size k
          = TimerRatio.ticksAt ⟨g, f⟩ (0 + k) := fun k hk => by
        have start := Int.fmod_lt_of_pos ((k / size * size : Nat) : Int) hf
        have offset := Nat.mod_le k size
        rw [Int.zero_add]
        refine TimerRatio.chunkTicks_eq_ticksAt hf (Int.le_of_lt hg) k (products ?_)
        dsimp only
        omega
      rw [runCyclesIn_eq_runTimed quiet pace hf hf' (Int.le_of_lt hg) hg' sizePos (by omega),
        Machine.runTimed_congr fun k hk => congrArg Machine.countDown (exact k hk)]
  · refine ⟨_, if_pos (by omega), fun sizePos => ?_⟩
    exact runCyclesIn_of_nonpos sizePos (by omega)

theorem exists_create_eq {config : Config τ} {level : LogLevel} {start : Quantity τ}
    (rom : List UInt8) (hl : LogLevel.ofName? config.logLevel = some level)
    (fits : rom.length ≤ maxRomSize) (readable : start.MeasurableFrom start) (name : String)
    (seed : RandomKey) :
    ∃ s, create config rom name seed start = .ok s ∧ s.config = config ∧
      s.loadKeypad.machine.Holds rom ∧ s.traced = decide (level = .debug) := by
  have machine := Machine.loadRom_of_le (Machine.fresh seed config.maskRegister) fits name
  have stamp := Logger.stamp_of_measurableFrom (l := { name := "chipax.driver", level, start })
    readable
  obtain ⟨text, ht⟩ := Logger.exists_write stamp .info
    ("Loaded ROM '" ++ name ++ "' (" ++ toString rom.length ++ " bytes)")
  have trace : ({ name := "chipax.driver", level, start } : Logger τ).isEnabled LogLevel.debug.name
      = decide (level = .debug) := by
    rw [Logger.isEnabled_name]
    cases level <;> rfl
  simp only [create, Logger.create, freshMachine, hl, machine, ht, bind, Except.bind, pure,
    Except.pure]
  exact ⟨_, rfl, rfl, ⟨⟨_, rfl⟩, rfl⟩, trace⟩

/-- Consecutive batches compose like one long batch. So a run of a session without a trace is one
batch of its machine at phase zero, whatever the size of its chunks, after which the frame is
published. -/
theorem batches_compose (τ : Type) [TimeScale τ] :
    (∀ (m : Machine) {num den a b : Int} (phase : Int), 0 ≤ a → 0 ≤ b → a + b < 2 ^ 31 → 0 ≤ num →
      num < 2 ^ 31 → 1 ≤ den → den < 2 ^ 31 → (den + a + b) * num < 2 ^ 31 →
      ∃ first, m.runBatch a ⟨num, den⟩ phase = .ok first ∧
        (first.error = none → first.executed = a ∧
          ∃ second, first.machine.runBatch b ⟨num, den⟩ (phase + a) = .ok second ∧
            m.runBatch (a + b) ⟨num, den⟩ phase =
              .ok { second with executed := first.executed + second.executed }) ∧
        (first.error ≠ none → m.runBatch (a + b) ⟨num, den⟩ phase = .ok first)) ∧
    (∀ (s : Session τ) {f g count : Int}, s.traced = false → s.config.cpuFrequency = .whole f →
      s.config.timerFrequency = .whole g → 0 < f → 0 < g → (f + count) * g < 2 ^ 31 →
      ∃ b, s.loadKeypad.machine.runBatch count ⟨g, f⟩ 0 = .ok b ∧
        (s.runCycles (.whole count)).1.machine = { b.machine with draw := false } ∧
        (s.runCycles (.whole count)).1.cycles = s.cycles + b.executed ∧
        (s.runCycles (.whole count)).2 =
          (match b.error with
            | none => .ok ()
            | some e => .error (.execution e)) ∧
        ∀ {size : Nat} (sizePos : 0 < size),
          s.runCyclesIn size sizePos count = s.runCycles (.whole count)) := by
  refine ⟨fun m num den a b phase ha hb total hnum hnum' hden hden' fits =>
    Machine.runBatch_add ha hb total hnum hnum' hden hden' fits phase, ?_⟩
  intro s f g count quiet cpu timer hf hg fits
  obtain ⟨b, batch, run⟩ := runCyclesIn_eq quiet cpu timer hf hg fits
  refine ⟨b, batch, ?_⟩
  rw [runCycles_whole, run (by decide)]
  exact ⟨rfl, rfl, rfl, fun sizePos => run sizePos⟩

/-- Two empty instructions before the end of memory, in batches of two and three cycles, and a
program that runs for longer than a chunk. -/
theorem batches_compose_delay :
    let m : Machine := { rng := ⟨0, 0⟩, pc := 0xFFB }
    (∃ first, m.runBatch 2 ⟨60, 500⟩ 498 = .ok first ∧
      (first.error = none → first.executed = (2 : Int) ∧
        ∃ second, first.machine.runBatch 3 ⟨60, 500⟩ (498 + 2) = .ok second ∧
          m.runBatch (2 + 3) ⟨60, 500⟩ 498 =
            .ok { second with executed := first.executed + second.executed }) ∧
      (first.error ≠ none → m.runBatch (2 + 3) ⟨60, 500⟩ 498 = .ok first)) ∧
    ∃ s : Session Rat, create {} Machine.delayProgram "delay" ⟨0, 0⟩ (.whole 0) = .ok s ∧
      s.traced = false ∧ (500 + 20000) * 60 < (2 : Int) ^ 31 ∧
      ∃ b, s.loadKeypad.machine.runBatch 20000 ⟨60, 500⟩ 0 = .ok b ∧
        (s.runCycles (.whole 20000)).1.machine = { b.machine with draw := false } ∧
        s.runCyclesIn 7 (by decide) 20000 = s.runCycles (.whole 20000) := by
  obtain ⟨batches, chunks⟩ := batches_compose Rat
  have info : LogLevel.ofName? ({} : Config Rat).logLevel = some .info := by decide +kernel
  obtain ⟨s, made, config, -, quiet⟩ := exists_create_eq Machine.delayProgram info
    (by decide) (Quantity.measurableFrom_rat (.whole 0) (.whole 0)) "delay" ⟨0, 0⟩
  have cpu : s.config.cpuFrequency = .whole 500 := by rw [config]
  have timer : s.config.timerFrequency = .whole 60 := by rw [config]
  obtain ⟨b, batch, machine, -, -, sizes⟩ :=
    chunks s quiet cpu timer (by decide) (by decide) (show (500 + 20000) * 60 < 2 ^ 31 by decide)
  exact ⟨batches _ 498 (by decide) (by decide) (by decide) (by decide) (by decide) (by decide)
    (by decide) (by decide), s, made, quiet, by decide, b, batch, machine, sizes (by decide)⟩

end Session

end Chip8
