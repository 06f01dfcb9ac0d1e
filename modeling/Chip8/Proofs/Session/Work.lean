import Chip8.Proofs.Clock.Signs
import Chip8.Proofs.Session.Exits
import Chip8.Proofs.Session.Stuck

/-! # Work

What a session does to its machine is written down as a list of works. Instructions complete, the
timers are counted down, the keys are loaded and the draw flag is cleared, one after the other.
Every part of a session has a record of its works, which follows the part branch by branch. It
leads from the machine before to the machine afterwards, and the session counts its instructions.
-/

namespace Chip8

inductive Work where
  /-- An instruction completes. -/
  | instruction
  /-- Both timers are counted down. -/
  | decay (count : UInt8 → UInt8)
  /-- The driver's keys are copied to the machine. -/
  | keys (keypad : Keypad)
  /-- The draw flag is cleared. -/
  | publish

namespace Work

def isInstruction : Work → Bool
  | instruction => true
  | _ => false

def instructions (w : List Work) : Nat := w.countP isInstruction

@[simp] theorem instructions_append (w w' : List Work) :
    instructions (w ++ w') = instructions w + instructions w' := List.countP_append

@[simp] theorem instructions_cons_instruction (w : List Work) :
    instructions (.instruction :: w) = instructions w + 1 := List.countP_cons_of_pos rfl

@[simp] theorem instructions_cons_decay (count : UInt8 → UInt8) (w : List Work) :
    instructions (.decay count :: w) = instructions w :=
  List.countP_cons_of_neg Bool.false_ne_true

end Work

namespace Machine

/-- Works lead from one machine to another. -/
inductive Works : Machine → List Work → Machine → Prop where
  | done (m : Machine) : Works m [] m
  | instruction {m m₁ m' : Machine} {w : List Work} (completes : m.step = .ok m₁)
      (rest : Works m₁ w m') : Works m (.instruction :: w) m'
  | decay {m m' : Machine} {w : List Work} (count : UInt8 → UInt8)
      (rest : Works { m with delay := count m.delay, sound := count m.sound } w m') :
      Works m (.decay count :: w) m'
  | keys {m m' : Machine} {w : List Work} (keypad : Keypad)
      (rest : Works { m with keypad } w m') : Works m (.keys keypad :: w) m'
  | publish {m m' : Machine} {w : List Work} (rest : Works { m with draw := false } w m') :
      Works m (.publish :: w) m'

variable {m m₁ m' : Machine} {w w' : List Work}

theorem Works.trans (h : m.Works w m₁) (h' : m₁.Works w' m') : m.Works (w ++ w') m' := by
  induction h with
  | done => exact h'
  | instruction completes _ ih => exact .instruction completes (ih h')
  | decay count _ ih => exact .decay count (ih h')
  | keys keypad _ ih => exact .keys keypad (ih h')
  | publish _ ih => exact .publish (ih h')

/-- The works of a batch, whose next cycle is numbered `phase + executed`. -/
def cyclesWork (r : TimerRatio) (phase : Int) : Nat → Nat → Machine → List Work
  | 0, _, _ => []
  | count + 1, executed, m =>
    let ticks := r.wrappedTicksAt (wrap32 (phase + executed))
    match m.cycle m.bus ticks with
    | .ok m' =>
      .instruction :: .decay (countDown ticks) :: cyclesWork r phase count (executed + 1) m'
    | .error _ => []

theorem works_cycles (m : Machine) (r : TimerRatio) (phase : Int) (count executed : Nat) :
    m.Works (cyclesWork r phase count executed m) (m.cycles r phase count executed).1 ∧
      (m.cycles r phase count executed).2.1 =
        executed + Work.instructions (cyclesWork r phase count executed m) := by
  induction count generalizing m executed with
  | zero => exact ⟨.done m, rfl⟩
  | succ count ih =>
    unfold cycles cyclesWork
    dsimp only
    cases hs : m.step with
    | error e =>
      obtain ⟨f, hf, rfl⟩ := step_eq_error_iff.mp hs
      rw [cycle_of_fault hf]
      exact ⟨.done m, rfl⟩
    | ok m₁ =>
      rw [cycle_of_step hs]
      obtain ⟨works, counted⟩ :=
        ih (m₁.countTimers (r.wrappedTicksAt (wrap32 (phase + executed)))) (executed + 1)
      refine ⟨.instruction hs (.decay _ works), counted.trans ?_⟩
      simp only [Work.instructions_cons_instruction, Work.instructions_cons_decay]
      omega

theorem works_runFrom (m : Machine) (r : TimerRatio) (start : Int) (count : Nat) :
    m.Works (cyclesWork r start count 0 m) (m.runFrom r start count).machine ∧
      (m.runFrom r start count).executed = Work.instructions (cyclesWork r start count 0 m) := by
  obtain ⟨works, counted⟩ := m.works_cycles r start count 0
  exact ⟨works, counted.trans (Nat.zero_add _)⟩

def decayed {τ : Type} [TimeScale τ] : Quantity τ → UInt8 → UInt8
  | .whole ticks, timer => if ticks ≤ 0 then timer else countDown ticks timer
  | .real ticks, timer =>
    if TimeScale.le ticks TimeScale.zero then timer else TimeScale.countDown ticks timer

theorem decayed_of_ok {τ : Type} [TimeScale τ] {ticks : Quantity τ}
    (h : m.decay ticks = .ok m') :
    m' = { m with delay := decayed ticks m.delay, sound := decayed ticks m.sound } := by
  cases ticks with
  | whole n =>
    simp only [decay, decayTimers] at h
    by_cases none : n ≤ 0
    · rw [if_pos none] at h
      simp [decayed, none, Except.ok.inj h]
    · rw [if_neg none] at h
      split at h
      · simp [decayed, none, ← Except.ok.inj h, countTimers]
      · cases h
  | real x =>
    simp only [decay] at h
    by_cases none : TimeScale.le x TimeScale.zero = true
    · rw [if_pos none] at h
      simp [decayed, none, Except.ok.inj h]
    · rw [if_neg none] at h
      simp [decayed, none, ← Except.ok.inj h]

end Machine

namespace Session

variable {τ : Type} [TimeScale τ]

/-- The works of what comes after something that succeeds. -/
def onward {ε α : Type} (x : Session τ × Except ε α) (next : α → Session τ → List Work) :
    List Work :=
  match x with
  | (s, .ok a) => next a s
  | (_, .error _) => []

/-- The works lead from one session's machine to the other's, and their instructions are
counted. The clock ticks and is reset meanwhile. -/
structure Does (s : Session τ) (w : List Work) (t : Session τ) : Prop where
  works : s.machine.Works w t.machine
  cycles : t.cycles = s.cycles + Work.instructions w
  clock : s.clock.Ages t.clock

variable {s s₁ t : Session τ} {w w' : List Work}

theorem Does.trans (h : s.Does w s₁) (h' : s₁.Does w' t) : s.Does (w ++ w') t where
  works := h.works.trans h'.works
  cycles := by rw [h'.cycles, h.cycles, Work.instructions_append, Nat.add_assoc]
  clock := h.clock.trans h'.clock

theorem Does.idle (machine : t.machine = s.machine) (cycles : t.cycles = s.cycles)
    (clock : t.clock = s.clock) : s.Does [] t := ⟨machine ▸ .done _, cycles, clock ▸ .start⟩

/-! ## Calls -/

def stepWork (s : Session τ) : List Work := onward s.step fun _ _ => [.instruction]

theorem does_step : s.Does s.stepWork s.step.1 := by
  unfold stepWork step
  cases hf : s.machine.fetch with
  | error e => exact .idle rfl rfl rfl
  | ok word =>
    have traced : s.Does [] (s.trace word).1 := .idle rfl rfl rfl
    have machine : (s.trace word).1.machine = s.machine := rfl
    dsimp only
    generalize s.trace word = x at traced machine ⊢
    rcases x with ⟨s₁, e | _⟩
    · exact traced
    · dsimp only at machine ⊢
      cases hx : s₁.machine.execute word.toNat with
      | error e => exact traced
      | ok m =>
        have completes : s₁.machine.step = .ok m := by
          rw [Machine.step, machine, hf, ← machine]
          exact hx
        exact traced.trans ⟨.instruction completes (.done m), rfl, .start⟩

def decayWork (s : Session τ) (ticks : Quantity τ) : List Work :=
  onward (s.decay ticks) fun _ _ => [.decay (Machine.decayed ticks)]

theorem does_decay (ticks : Quantity τ) : s.Does (s.decayWork ticks) (s.decay ticks).1 := by
  unfold decayWork decay
  cases hd : s.machine.decay ticks with
  | error e => exact .idle rfl rfl rfl
  | ok m =>
    obtain rfl := Machine.decayed_of_ok hd
    exact ⟨.decay _ (.done _), rfl, .start⟩

def decayAtWork (s : Session τ) (schedule : Schedule τ) (cycle : Int) : List Work :=
  match schedule.ticksAt cycle with
  | .error _ => []
  | .ok ticks => s.decayWork ticks

theorem does_decayAt (schedule : Schedule τ) (cycle : Int) :
    s.Does (s.decayAtWork schedule cycle) (s.decayAt schedule cycle).1 := by
  unfold decayAtWork decayAt
  cases schedule.ticksAt cycle with
  | error e => exact .idle rfl rfl rfl
  | ok ticks => exact does_decay ticks

def runStepsWork (schedule : Schedule τ) : Nat → Int → Session τ → List Work
  | 0, _, _ => []
  | count + 1, cycle, s =>
    s.stepWork ++ onward s.step fun _ s =>
      s.decayAtWork schedule cycle ++ onward (s.decayAt schedule cycle) fun _ s =>
        runStepsWork schedule count (cycle + 1) s

theorem does_runSteps (schedule : Schedule τ) (count : Nat) (cycle : Int) :
    s.Does (runStepsWork schedule count cycle s) (runSteps schedule count cycle s).1 := by
  induction count generalizing cycle s with
  | zero => exact .idle rfl rfl rfl
  | succ count ih =>
    unfold runStepsWork runSteps
    have first := does_step (s := s)
    generalize s.step = x at first ⊢
    refine first.trans ?_
    rcases x with ⟨s₁, e | _⟩
    · exact .idle rfl rfl rfl
    · have timers := does_decayAt (s := s₁) schedule cycle
      simp only [onward]
      generalize s₁.decayAt schedule cycle = y at timers ⊢
      refine timers.trans ?_
      rcases y with ⟨s₂, e | _⟩
      · exact .idle rfl rfl rfl
      · exact ih (cycle + 1)

def runBatchWork (s : Session τ) (count : Quantity τ) (schedule : Schedule τ) (phase : Int) :
    List Work :=
  if count.isNotPositive then []
  else
    match count.signed32, schedule.ratio, schedule.start (.whole phase) with
    | .ok count, .ok ratio, .ok start => s.machine.cyclesWork ratio start count.toNat 0
    | _, _, _ => []

theorem does_runBatch (count : Quantity τ) (schedule : Schedule τ) (phase : Int) :
    s.Does (s.runBatchWork count schedule phase) (s.runBatch count schedule phase).1 := by
  unfold runBatchWork runBatch Machine.runScheduled
  split
  · exact .idle rfl rfl rfl
  · cases count.signed32 with
    | error e => exact .idle rfl rfl rfl
    | ok count =>
      cases schedule.ratio with
      | error e => exact .idle rfl rfl rfl
      | ok ratio =>
        cases schedule.start (.whole phase) with
        | error e => exact .idle rfl rfl rfl
        | ok start =>
          obtain ⟨works, counted⟩ := s.machine.works_runFrom ratio start count.toNat
          simp only [bind, Except.bind, pure, Except.pure]
          generalize s.machine.runFrom ratio start count.toNat = b at works counted ⊢
          cases b.error <;> exact ⟨works, congrArg (s.cycles + ·) counted, .start⟩

def advanceWork (s : Session τ) (count : Int) (schedule : Schedule τ) (phase : Int) : List Work :=
  if s.traced then runStepsWork schedule count.toNat phase s
  else s.runBatchWork (.whole count) schedule phase

theorem does_advance (count : Int) (schedule : Schedule τ) (phase : Int) :
    s.Does (s.advanceWork count schedule phase) (s.advance count schedule phase).1 := by
  unfold advanceWork advance
  split
  · exact does_runSteps schedule count.toNat phase
  · exact does_runBatch (.whole count) schedule phase

theorem does_loadKeypad : s.Does [.keys s.keypad] s.loadKeypad :=
  ⟨.keys _ (.done _), rfl, .start⟩

theorem does_publish : s.Does [.publish] s.publish where
  works := .publish (s.machine_publish ▸ .done _)
  cycles := s.cycles_publish
  clock := by
    have same : s.publish.setting = s.setting := setting_publish
    simp only [setting, Prod.mk.injEq] at same
    rw [same.2.2.1]
    exact .start

theorem does_readClock : s.Does [] s.readClock.1 :=
  ⟨.done _, rfl, .tick .start s.journal.logger s.surroundings.now⟩

def tickWork (s : Session τ) : List Work :=
  onward s.readClock fun due s =>
    .keys s.keypad :: s.loadKeypad.advanceWork due.cycles {} 0 ++
      onward (s.loadKeypad.advance due.cycles {} 0) fun _ s =>
        s.decayWork (.whole due.ticks) ++ onward (s.decay (.whole due.ticks)) fun _ _ => [.publish]

theorem does_tick : s.Does s.tickWork s.tick.1 := by
  unfold tickWork tick
  have read := does_readClock (s := s)
  generalize s.readClock = x at read ⊢
  rcases x with ⟨s₁, e | due⟩
  · exact read
  · have cycles := does_advance (s := s₁.loadKeypad) due.cycles {} 0
    simp only [onward]
    generalize s₁.loadKeypad.advance due.cycles {} 0 = y at cycles ⊢
    refine ((read.trans does_loadKeypad).trans cycles).trans ?_
    rcases y with ⟨s₂, e | _⟩
    · exact .idle rfl rfl rfl
    · have timers := does_decay (s := s₂) (.whole due.ticks)
      dsimp only
      generalize s₂.decay (.whole due.ticks) = z at timers ⊢
      refine timers.trans ?_
      rcases z with ⟨s₃, e | _⟩
      · exact .idle rfl rfl rfl
      · exact does_publish

def runChunksWork (size : Nat) (sizePos : 0 < size) (schedule : Schedule τ)
    (done remaining : Nat) (s : Session τ) : List Work :=
  if _h : remaining = 0 then []
  else
    let chunk := min remaining size
    s.advanceWork chunk schedule done ++ onward (s.advance chunk schedule done) fun _ s =>
      runChunksWork size sizePos schedule (done + chunk) (remaining - chunk) s
termination_by remaining
decreasing_by omega

theorem does_runChunks {size : Nat} (sizePos : 0 < size) (schedule : Schedule τ)
    (done remaining : Nat) :
    s.Does (runChunksWork size sizePos schedule done remaining s)
      (runChunks size sizePos schedule done remaining s).1 := by
  induction remaining using Nat.strongRecOn generalizing done s with
  | ind remaining ih =>
    unfold runChunksWork runChunks
    split
    · exact .idle rfl rfl rfl
    · have chunk := does_advance (s := s) (min remaining size : Nat) schedule done
      dsimp only
      generalize s.advance (min remaining size : Nat) schedule done = x at chunk ⊢
      refine chunk.trans ?_
      rcases x with ⟨s₁, e | _⟩
      · exact .idle rfl rfl rfl
      · exact ih _ (by omega) _

def runCyclesWork (s : Session τ) (count : Int) : List Work :=
  .keys s.keypad ::
    runChunksWork chunkSize (Nat.succ_pos 9999) s.schedule 0 count.toNat s.loadKeypad ++ [.publish]

theorem does_runCycles (count : Int) :
    s.Does (s.runCyclesWork count) (s.runCycles (.whole count)).1 :=
  (does_loadKeypad.trans
    (does_runChunks (s := s.loadKeypad) (by decide) s.schedule 0 count.toNat)).trans does_publish

def runWithProgressWork (s : Session τ) (count : Int) : List Work :=
  match ProgressBar.create (.whole count : Quantity τ) none none with
  | .error _ => []
  | .ok _ => s.runCyclesWork count

theorem does_runWithProgress (count : Int) :
    s.Does (s.runWithProgressWork count) (s.runWithProgress (.whole count)).1 := by
  unfold runWithProgressWork runWithProgress
  cases ProgressBar.create (.whole count : Quantity τ) none none with
  | error e => exact .idle rfl rfl rfl
  | ok bar => exact does_runCycles count

/-! ## Runs -/

/-- An execution error has what was drawn before it published. -/
def leaveWork : Except Raised Unit → List Work
  | .error (.error (.execution _)) => [.publish]
  | _ => []

theorem does_leave (reason : Except Raised Unit) :
    s.Does (leaveWork reason) (s.leave reason).1 := by
  rcases s.session_leave reason with ⟨text, other, left⟩ | ⟨e, text, rfl, left⟩
  · have none : leaveWork reason = [] := by
      unfold leaveWork
      split
      · next e => exact absurd rfl (other e)
      · rfl
    rw [left, none]
    exact .idle rfl rfl rfl
  · have halted : s.Does [] { s with error := some (.execution e) } := .idle rfl rfl rfl
    rw [left]
    exact (halted.trans does_publish).trans (.idle rfl rfl rfl)

def turnWork (s : Session τ) : List Work :=
  if s.stopRequested then []
  else
    s.tickWork ++
      match s.tick.2 with
      | .error e => leaveWork (.error (.error e))
      | .ok _ => []

theorem does_turn : s.Does s.turnWork s.turn.1 := by
  unfold turnWork turn
  split
  · exact does_leave (.ok ())
  · have ticked := does_tick (s := s)
    generalize s.tick = x at ticked ⊢
    refine ticked.trans ?_
    rcases x with ⟨s₁, failure | _⟩
    · exact does_leave _
    · dsimp only
      unfold fallAsleep
      split
      · exact .idle rfl rfl rfl
      · next failure h =>
        have faultless : Faultless (.error failure : Except Failure Unit) :=
          (Quantity.faultless_toReal _).error h
        rw [leave_of_faultless faultless]
        exact .idle rfl rfl rfl

theorem does_elapseIn (nap : Nap τ) : s.Does [] (s.elapseIn nap).1 := by
  unfold elapseIn elapse
  split
  · split <;> exact .idle rfl rfl rfl
  · exact .idle rfl rfl rfl

theorem does_prepareRun (lag : Option (Quantity τ)) : s.Does [] (s.prepareRun lag).1 := by
  unfold prepareRun
  have begun : s.Does [] ({ s with clock := s.clock.reset s.surroundings.now }.reportStart).1 :=
    ⟨.done _, rfl, .reset .start s.surroundings.now⟩
  generalize reportStart { s with clock := s.clock.reset s.surroundings.now } = x at begun ⊢
  rcases x with ⟨s₁, e | _⟩
  · exact begun
  · exact begun.trans (does_elapseIn { time := lag })

def beginRunWork (s : Session τ) (lag : Option (Quantity τ)) : List Work :=
  onward (s.prepareRun lag) fun _ s => s.turnWork

theorem does_beginRun (lag : Option (Quantity τ)) :
    s.Does (s.beginRunWork lag) (s.beginRun lag).1 := by
  unfold beginRunWork beginRun
  have prepared := does_prepareRun (s := s) lag
  generalize s.prepareRun lag = x at prepared ⊢
  refine prepared.trans ?_
  rcases x with ⟨s₁, e | _⟩
  · exact .idle rfl rfl rfl
  · exact does_turn

theorem does_setKey (index : Quantity τ) (pressed : Bool) :
    s.Does [] (s.setKey index pressed).1 := by
  unfold setKey
  cases key index <;> exact .idle rfl rfl rfl

theorem does_setEachKey (keys : List (Quantity τ × Bool)) : s.Does [] (s.setEachKey keys).1 := by
  induction keys generalizing s with
  | nil => exact .idle rfl rfl rfl
  | cons k rest ih =>
    unfold setEachKey
    have first := does_setKey (s := s) k.1 k.2
    generalize s.setKey k.1 k.2 = x at first ⊢
    rcases x with ⟨s₁, e | _⟩
    · exact first
    · exact first.trans ih

theorem does_setKeys (keys : List (Quantity τ × Bool)) : s.Does [] (s.setKeys keys).1 := by
  unfold setKeys
  split
  · exact .idle rfl rfl rfl
  · exact does_setEachKey keys

theorem does_sleepThrough (nap : Nap τ) : s.Does [] (s.sleepThrough nap).1 := by
  unfold sleepThrough
  have asked : s.Does [] { s with stopRequested := s.stopRequested || nap.stop } := .idle rfl rfl rfl
  have keys := asked.trans (does_setEachKey nap.keys)
  generalize setEachKey _ nap.keys = x at keys ⊢
  rcases x with ⟨s₁, e | _⟩
  · exact keys
  · have passed := keys.trans (does_elapseIn (s := s₁) nap)
    dsimp only at passed ⊢
    generalize s₁.elapseIn nap = y at passed ⊢
    rcases y with ⟨s₂, e | _⟩
    · exact passed
    · dsimp only
      split <;> exact passed

def wakeWork (s : Session τ) (nap : Nap τ) : List Work :=
  match s.sleepThrough nap with
  | (s, .ok ()) => s.turnWork
  | (_, .error r) => leaveWork (.error r)

theorem does_wake (nap : Nap τ) : s.Does (s.wakeWork nap) (s.wake nap).1 := by
  unfold wakeWork wake
  have slept := does_sleepThrough (s := s) nap
  generalize s.sleepThrough nap = x at slept ⊢
  refine slept.trans ?_
  rcases x with ⟨s₁, raised | _⟩
  · exact does_leave _
  · exact does_turn

def followWork : List (Nap τ) → Session τ × Turn → List Work
  | _, (_, .ended _) => []
  | _, (_, .interrupted _) => []
  | [], (s, .asleep) => s.wakeWork stopNap
  | nap :: rest, (s, .asleep) => s.wakeWork nap ++ followWork rest (s.wake nap)

theorem does_follow (naps : List (Nap τ)) (x : Session τ × Turn) :
    x.1.Does (followWork naps x) (follow naps x).1 := by
  induction naps generalizing x with
  | nil =>
    rcases x with ⟨s, _ | _ | _⟩
    · exact does_wake stopNap
    · exact .idle rfl rfl rfl
    · exact .idle rfl rfl rfl
  | cons nap rest ih =>
    rcases x with ⟨s, _ | _ | _⟩
    · exact (does_wake nap).trans (ih (s.wake nap))
    · exact .idle rfl rfl rfl
    · exact .idle rfl rfl rfl

def runWork (s : Session τ) (naps : List (Nap τ)) (lag : Option (Quantity τ)) : List Work :=
  s.beginRunWork lag ++ followWork naps (s.beginRun lag)

theorem does_run (naps : List (Nap τ)) (lag : Option (Quantity τ)) :
    s.Does (s.runWork naps lag) (s.run naps lag).1 :=
  (does_beginRun lag).trans (does_follow naps (s.beginRun lag))

theorem does_settle (x : Session τ × Turn) : x.1.Does [] (settle x) := by
  rcases x with ⟨s, _ | (e | _) | _⟩
  · exact .idle rfl rfl rfl
  · cases e <;> exact .idle rfl rfl rfl
  · exact .idle rfl rfl rfl
  · exact .idle rfl rfl rfl

def startWork (s : Session τ) (lag : Option (Quantity τ)) : List Work :=
  if s.running then [] else beginRunWork { s with error := none, stopRequested := false } lag

theorem does_start (lag : Option (Quantity τ)) : s.Does (s.startWork lag) (s.start lag).1 := by
  unfold startWork start
  split
  · exact .idle rfl rfl rfl
  · have asked : s.Does [] { s with error := none, stopRequested := false } := .idle rfl rfl rfl
    simpa using (asked.trans (does_beginRun lag)).trans (does_settle _)

def releaseWork (s : Session τ) (nap : Nap τ) : List Work :=
  if s.running then s.wakeWork nap else []

theorem does_release (nap : Nap τ) : s.Does (s.releaseWork nap) (s.release nap) := by
  unfold releaseWork release
  split
  · simpa using (does_wake nap).trans (does_settle _)
  · exact .idle rfl rfl rfl

/-! ## Commands -/

/-- The works of a command, which are none for a reset. -/
def work (s : Session τ) : Command τ → List Work
  | .call .step => s.stepWork
  | .call .tick => s.tickWork
  | .call (.runCycles count true) => s.runWithProgressWork count
  | .call (.runCycles count false) => s.runCyclesWork count
  | .call _ => []
  | .run naps lag => s.runWork naps lag
  | .start lag => s.startWork lag
  | .release nap => s.releaseWork nap
  | .stop => releaseWork { s with stopRequested := true } {}

theorem does_perform {c : Command τ} (noReset : c ≠ .call .reset) :
    s.Does (s.work c) (s.perform c).1 := by
  match c with
  | .call .step => exact does_step
  | .call .tick => exact does_tick
  | .call (.runCycles count true) => exact does_runWithProgress count
  | .call (.runCycles count false) => exact does_runCycles count
  | .call (.setKey index pressed) => exact does_setKey index pressed
  | .call (.setKeys keys) => exact does_setKeys keys
  | .call .consumeDraw | .call .frame => exact .idle rfl rfl rfl
  | .call .reset => exact absurd rfl noReset
  | .run naps lag => exact does_run naps lag
  | .start lag => exact does_start lag
  | .release nap => exact does_release nap
  | .stop =>
    have asked : s.Does [] { s with stopRequested := true } := .idle rfl rfl rfl
    exact asked.trans (does_release {})

/-! ## Histories -/

def restarts (s : Session τ) : Command τ → Bool
  | .call .reset => s.reset.2.isOk
  | _ => false

/-- Takes a session, with its works since it was made or last reset, one command on. -/
def account (x : Session τ × List Work) (e : Quantity τ × Command τ) : Session τ × List Work :=
  let t := x.1.atTime e.1
  ((t.perform e.2).1, if t.restarts e.2 then [] else x.2 ++ t.work e.2)

def worksAfter (s : Session τ) (history : List (Quantity τ × Command τ)) : List Work :=
  (history.foldl account (s, [])).2

theorem account_fst (x : Session τ × List Work) (history : List (Quantity τ × Command τ)) :
    (history.foldl account x).1 = x.1.after history := by
  induction history generalizing x with
  | nil => rfl
  | cons e rest ih => exact ih (account x e)

theorem worksAfter_concat (s : Session τ) (history : List (Quantity τ × Command τ))
    (e : Quantity τ × Command τ) :
    let t := (s.after history).atTime e.1
    s.worksAfter (history ++ [e]) =
      if t.restarts e.2 then [] else s.worksAfter history ++ t.work e.2 := by
  simp only [worksAfter, List.foldl_append, List.foldl_cons, List.foldl_nil, account, account_fst]

theorem perform_cases {m : Machine} (h : s.core.origin = .ok m) (c : Command τ) :
    s.restarts c = true ∧ (s.perform c).1.core = Core.fresh m ∧
        s.clock.Ages (s.perform c).1.clock ∨
      s.restarts c = false ∧ s.Does (s.work c) (s.perform c).1 := by
  by_cases reset : c = .call .reset
  · subst reset
    change freshMachine s.config s.rom s.name s.seed = .ok m at h
    show s.reset.2.isOk = true ∧ s.reset.1.core = Core.fresh m ∧ s.clock.Ages s.reset.1.clock ∨
      s.reset.2.isOk = false ∧ s.Does [] s.reset.1
    unfold Session.reset
    split
    · exact .inr ⟨rfl, .idle rfl rfl rfl⟩
    · rw [h]
      exact .inl ⟨rfl, congrArg (fun origin => { Core.fresh m with origin }) h,
        .reset .start s.surroundings.now⟩
  · refine .inr ⟨?_, does_perform reset⟩
    unfold restarts
    split
    · exact absurd rfl reset
    · rfl

/-- The works of a history lead from the fresh machine to the one that it leaves. -/
theorem does_after {m : Machine} (fresh : s.core = Core.fresh m)
    (history : List (Quantity τ × Command τ)) :
    s.Does (s.worksAfter history) (s.after history) := by
  induction history using List.reverseRecOn with
  | nil => exact .idle rfl rfl rfl
  | append_singleton history e ih =>
    have origin : ((s.after history).atTime e.1).core.origin = .ok m :=
      (course_after fresh history).origin
    rw [after_concat, worksAfter_concat]
    rcases perform_cases origin e.2 with ⟨restarts, again, clock⟩ | ⟨goes, does⟩
    · rw [restarts, if_pos rfl]
      have same := again.trans fresh.symm
      have machine : (((s.after history).atTime e.1).perform e.2).1.machine = s.machine :=
        congrArg Core.machine same
      exact ⟨machine ▸ .done _, congrArg Core.cycles same, ih.clock.trans clock⟩
    · rw [goes, if_neg (by decide)]
      have before : s.Does (s.worksAfter history) ((s.after history).atTime e.1) :=
        ⟨ih.works, ih.cycles, ih.clock⟩
      exact before.trans does

end Session

end Chip8
