import Chip8.Proofs.Machine.Bounds
import Chip8.Proofs.Session.Chunks
import Chip8.Proofs.Session.Failures
import Chip8.Proofs.Session.Moves

/-! # Frames

Until an instruction draws, the published frame is the display. Every tick that returns, every
run of cycles and every run that an execution error ends leaves the draw flag lowered, so the
frame then shows what the last completed instruction left. A presenter that finds no frame ready
has taken the very same frame before.
-/

namespace Chip8

namespace Core

variable {c c' d first : Core}

def Shown (c : Core) : Prop := c.machine.draw = false → c.screen.frame = c.machine.display

theorem Act.shown (a : c.Act c') (h : c.Shown) : c'.Shown := by
  intro dark
  cases a with
  | press => exact h dark
  | move move =>
    cases move with
    | timers | loadKeypad => exact h dark
    | publish => rfl
    | @instruction m completes =>
      obtain ⟨drawn, same, flag⟩ := Machine.step_draw completes
      have raised : m = { m with draw := drawn || c.machine.draw } :=
        Except.ok.inj (completes.symm.trans (flag c.machine.draw))
      have lowered : (drawn || c.machine.draw) = false := by
        rw [← dark]
        exact (congrArg Machine.draw raised).symm
      obtain ⟨undrawn, before⟩ := Bool.or_eq_false_iff.mp lowered
      exact (h before).trans (same undrawn).symm

theorem Course.shown (h : first.Course c) (shown : first.Shown) : c.Shown := by
  induction h with
  | start => exact shown
  | act _ a ih => exact a.shown ih
  | take _ ih => exact ih

/-- In the course from `first` to `c`, the last instruction completed in the state `d`, or none
has completed since `first`. -/
inductive LastCompleted (first : Core) : Core → Core → Prop where
  | start : LastCompleted first first first
  | instruction {d c : Core} {m : Machine} (h : LastCompleted first d c)
      (completes : c.machine.step = .ok m) :
      LastCompleted first { c with machine := m, cycles := c.cycles + 1 }
        { c with machine := m, cycles := c.cycles + 1 }
  | act {d c c' : Core} (h : LastCompleted first d c) (a : c.Act c')
      (idle : c'.cycles = c.cycles) : LastCompleted first d c'
  | take {d c : Core} (h : LastCompleted first d c) : LastCompleted first d c.taken

theorem Course.exists_lastCompleted (h : first.Course c) : ∃ d, first.LastCompleted d c := by
  induction h with
  | start => exact ⟨first, .start⟩
  | take _ ih =>
    obtain ⟨d, hd⟩ := ih
    exact ⟨d, hd.take⟩
  | act _ a ih =>
    obtain ⟨d, hd⟩ := ih
    cases a with
    | press keypad => exact ⟨d, hd.act (.press _ keypad) rfl⟩
    | move move =>
      cases move with
      | instruction completes => exact ⟨_, hd.instruction completes⟩
      | timers delay sound => exact ⟨d, hd.act (.move (.timers _ delay sound)) rfl⟩
      | loadKeypad => exact ⟨d, hd.act (.move (.loadKeypad _)) rfl⟩
      | publish drawn => exact ⟨d, hd.act (.move (.publish drawn)) rfl⟩

theorem Act.display (a : c.Act c') (idle : c'.cycles = c.cycles) :
    c'.machine.display = c.machine.display := by
  cases a with
  | press => rfl
  | move move =>
    cases move with
    | instruction => exact absurd idle (Nat.succ_ne_self _)
    | timers | loadKeypad | publish => rfl

theorem LastCompleted.display (h : first.LastCompleted d c) :
    c.machine.display = d.machine.display := by
  induction h with
  | start => rfl
  | instruction => rfl
  | act _ a idle ih => exact (a.display idle).trans ih
  | take _ ih => exact ih

theorem Evolves.screen (h : c.Evolves c') : c'.screen = c.screen ∨ c'.screen.ready = true := by
  refine h.induction (P := fun c' => c'.screen = c.screen ∨ c'.screen.ready = true) ?_ (.inl rfl)
  rintro c₁ c₂ kept (⟨move⟩ | _)
  · cases move with
    | publish => exact .inr rfl
    | instruction | timers | loadKeypad => exact kept
  · exact kept

end Core

namespace Session

variable {τ : Type} [TimeScale τ] {s : Session τ}

/-! ## Commands that hand the frame over -/

theorem draw_publish : s.publish.machine.draw = false :=
  congrArg Machine.draw s.machine_publish

theorem draw_tick {n : Int} (h : s.tick.2 = .ok n) : s.tick.1.machine.draw = false := by
  unfold tick at h ⊢
  split at h
  · cases h
  · split at h
    · cases h
    · split at h
      · cases h
      · exact draw_publish

theorem draw_runCycles (count : Quantity τ) : (s.runCycles count).1.machine.draw = false :=
  draw_publish

theorem draw_runWithProgress {count : Quantity τ} {bar : ProgressBar τ}
    (h : ProgressBar.create count none none = .ok bar) :
    (s.runWithProgress count).1.machine.draw = false := by
  rw [runWithProgress, h]
  exact draw_runCycles count

theorem runWithProgress_of_error {count : Quantity τ} {e : Failure}
    (h : ProgressBar.create count none none = .error e) :
    s.runWithProgress count = (s, .error e) := by
  rw [runWithProgress, h]

theorem runWithProgress_of_uncountable {count : Int} (writable : Text.isWritable count = true)
    (h : TimeScale.ofInt? count = (none : Option τ)) :
    s.runWithProgress (.whole count) = (s, .error (.outOfRange (.float count))) := by
  apply runWithProgress_of_error
  have title : (Quantity.whole count : Quantity τ).text Quantity.grouped = .ok _ :=
    if_pos writable
  have large :
      (Quantity.whole count : Quantity τ).toReal = .error (.outOfRange (.float count)) := by
    rw [Quantity.toReal, TimeScale.ofInt, h]
  rw [ProgressBar.create, ProgressBar.titled, ProgressBar.counted, title, large]
  rfl

theorem draw_leave {reason : Except Raised Unit} {e : ExecutionError}
    (h : (s.leave reason).2 = .ended (.error (.execution e))) :
    (s.leave reason).1.machine.draw = false := by
  obtain rfl := reason_of_leave h
  rw [show (s.leave _).1.machine = _ from congrArg Core.machine (leave_halted s e).1]
  exact draw_publish

theorem draw_turn {e : ExecutionError} (h : s.turn.2 = .ended (.error (.execution e))) :
    s.turn.1.machine.draw = false := by
  obtain ⟨s₁, -, core, -⟩ := exists_tick_of_turn h
  rw [show s.turn.1.machine = _ from congrArg Core.machine core]
  exact draw_publish

theorem draw_wake {nap : Nap τ} {e : ExecutionError}
    (h : (s.wake nap).2 = .ended (.error (.execution e))) :
    (s.wake nap).1.machine.draw = false := by
  unfold wake at h ⊢
  generalize s.sleepThrough nap = x at h ⊢
  rcases x with ⟨s₁, raised | _⟩
  · exact draw_leave h
  · exact draw_turn h

theorem draw_run {naps : List (Nap τ)} {lag : Option (Quantity τ)} {e : ExecutionError}
    (h : (s.run naps lag).2 = .error (.execution e)) :
    (s.run naps lag).1.machine.draw = false := by
  refine follow_induction (P := fun t => t.machine.draw = false) (fun s nap _ => draw_wake) ?_ h
  intro ended
  obtain ⟨s', begun⟩ := exists_turn_of_beginRun ended
  rw [begun] at ended ⊢
  exact draw_turn ended

/-- The commands that hand over what was drawn. -/
inductive HandsOver (s : Session τ) : Command τ → Prop where
  | tick {n : Int} (returns : s.tick.2 = .ok n) : HandsOver s (.call .tick)
  | runCycles (count : Int) : HandsOver s (.call (.runCycles count false))
  | runWithProgress {count : Int} {bar : ProgressBar τ}
      (shown : ProgressBar.create (.whole count) none none = .ok bar) :
      HandsOver s (.call (.runCycles count true))
  | run {naps : List (Nap τ)} {lag : Option (Quantity τ)} {e : ExecutionError}
      (fails : (s.run naps lag).2 = .error (.execution e)) : HandsOver s (.run naps lag)

theorem HandsOver.draw {c : Command τ} (h : s.HandsOver c) :
    (s.perform c).1.machine.draw = false := by
  cases h with
  | tick returns => exact draw_tick returns
  | runCycles count => exact draw_runCycles (.whole count)
  | runWithProgress shown => exact draw_runWithProgress shown
  | run fails => exact draw_run fails

theorem HandsOver.ne_reset {c : Command τ} (h : s.HandsOver c) : c ≠ .call .reset := by
  rintro rfl
  cases h

/-! ## Taking frames -/

theorem screen_perform {c : Command τ} (h : c ≠ .call .consumeDraw) :
    (s.perform c).1.screen = s.screen ∨ (s.perform c).1.screen.ready = true := by
  by_cases reset : c = .call .reset
  · subst reset
    show s.reset.1.screen = s.screen ∨ s.reset.1.screen.ready = true
    unfold Session.reset
    split
    · exact .inl rfl
    · split
      · exact .inl rfl
      · exact .inr rfl
  · have live : c.isLive = true := by
      unfold Command.isLive
      split
      · exact absurd rfl reset
      · exact absurd rfl h
      · rfl
    exact (evolves_perform live).screen

theorem exists_consumeDraw (h : s.screen.ready = true) {history : List (Quantity τ × Command τ)}
    (notReady : (s.after history).screen.ready = false) :
    ∃ before now later, history = before ++ (now, .call .consumeDraw) :: later ∧
      (∀ e ∈ later, e.2 ≠ .call .consumeDraw) ∧
      (s.after before).frame = (s.after history).frame := by
  induction history using List.reverseRecOn with
  | nil =>
    rw [after_nil, h] at notReady
    cases notReady
  | append_singleton history e ih =>
    obtain ⟨now, c⟩ := e
    rw [after_concat] at notReady
    -- Anything but a taking of the frame leaves the screen as it is or makes a frame ready.
    by_cases take : c = .call .consumeDraw
    · subst take
      exact ⟨history, now, [], rfl, by simp, by rw [after_concat]; rfl⟩
    · rcases screen_perform (s := (s.after history).atTime now) take with same | ready
      · obtain ⟨before, past, later, rfl, others, frame⟩ :=
          ih ((congrArg Screen.ready same).symm.trans notReady)
        refine ⟨before, past, later ++ [(now, c)], by simp, ?_, ?_⟩
        · intro e he
          rcases List.mem_append.mp he with he | he
          · exact others e he
          · rw [List.mem_singleton.mp he]
            exact take
        · rw [after_concat]
          exact frame.trans (congrArg Screen.frame same).symm
      · exact absurd (ready.symm.trans notReady) (by decide)

section Creation

variable {config : Config τ} {rom : List UInt8} {name : String} {seed : RandomKey}
  {start : Quantity τ}

/-- Whatever a new session is asked to do, its frame is the display while the draw flag is
lowered, the commands that hand frames over lower it, a run of cycles without room for its
progress bar changes nothing, and a frame is announced unless it is the one taken last. -/
theorem frames_handed_over (h : create config rom name seed start = .ok s)
    (history : List (Quantity τ × Command τ)) :
    ((s.after history).machine.draw = false →
        (s.after history).frame = (s.after history).machine.display) ∧
      (∀ now c, ((s.after history).atTime now).HandsOver c →
        let t := (((s.after history).atTime now).perform c).1
        t.machine.draw = false ∧ t.frame = t.machine.display ∧
          (∃ d, s.core.LastCompleted d t.core) ∧
          ∀ d, s.core.LastCompleted d t.core → t.frame = d.machine.display) ∧
      (∀ now count e, ProgressBar.create (.whole count : Quantity τ) none none = .error e →
        ((s.after history).atTime now).perform (.call (.runCycles count true)) =
          ((s.after history).atTime now, .error e)) ∧
      ∀ now, ((s.after history).atTime now).consumeDraw.2 = false →
        ∃ before past later, history = before ++ (past, .call .consumeDraw) :: later ∧
          (∀ e ∈ later, e.2 ≠ .call .consumeDraw) ∧
          (s.after before).frame = ((s.after history).atTime now).consumeDraw.1.frame := by
  have fresh : s.core = Core.fresh s.machine := core_create h
  have shown : s.core.Shown := by
    rw [fresh]
    exact fun _ => rfl
  have course : s.core.Course (s.after history).core := by
    rw [fresh]
    exact course_after fresh history
  refine ⟨course.shown shown, ?_, ?_, ?_⟩
  · intro now c hands
    have next : s.core.Course (((s.after history).atTime now).perform c).1.core :=
      course_perform (s := (s.after history).atTime now) course hands.ne_reset
    have frame := next.shown shown hands.draw
    exact ⟨hands.draw, frame, next.exists_lastCompleted, fun d hd => frame.trans hd.display⟩
  · intro now count e he
    show answered _ (runWithProgress _ _) = _
    rw [runWithProgress_of_error he]
    rfl
  · intro now notReady
    have ready : s.screen.ready = true := by
      rw [show s.screen = _ from congrArg Core.screen fresh]
      rfl
    exact exists_consumeDraw ready notReady

/-- A program that clears the screen, stepped and then run for no cycles at all. -/
theorem frames_handed_over_clear :
    ∃ s : Session Rat, create {} [0x00, 0xE0] "clear" ⟨0, 0⟩ (.whole 0) = .ok s ∧
      let t := s.after [(.whole 0, .call .step), (.whole 0, .call (.runCycles 0 false))]
      t.machine.draw = false ∧ t.frame = t.machine.display := by
  have info : LogLevel.ofName? ({} : Config Rat).logLevel = some .info := by decide +kernel
  obtain ⟨s, made, -, -, -⟩ := exists_create_eq [0x00, 0xE0] info (by decide)
    (Quantity.measurableFrom_rat (.whole 0) (.whole 0)) "clear" ⟨0, 0⟩
  obtain ⟨-, hands, -, -⟩ := frames_handed_over made [(.whole 0, .call .step)]
  obtain ⟨draw, frame, -⟩ := hands (.whole 0) _ (.runCycles 0)
  exact ⟨s, made, draw, frame⟩

end Creation

end Session

namespace Machine

/-- A program that draws the upper row of the digit zero in the corner of the screen. -/
def rowProgram : List UInt8 := [0xD0, 0x01]

variable {m : Machine}

theorem display_drawRow (dark : m.display = Vector.replicate 2048 0) (corner : m.getV 0 = 0)
    (index : m.i = 0) (glyph : m.memory[0] = 0xF0) (bus : OpenBus) :
    (m.perform .drw bus (Operands.ofWord 0xD001)).display[0] = 1 := by
  have row : m.spriteMask bus (Operands.ofWord 0xD001) =
      Sprite.mask (Sprite.rowsDots 0 0 [0xF0]) := by
    unfold spriteMask
    rw [Sprite.mask_dots _ _ _ _ _ (by decide), show (Operands.ofWord 0xD001).x = 0 by decide,
      show (Operands.ofWord 0xD001).y = 0 by decide, corner, index]
    show Sprite.mask (Sprite.rowsDots 0 0 [m.memory.read bus.memory 0]) = _
    rw [Memory.read_of_lt (by decide), glyph]
  have first : Sprite.rowsDots 0 0 [0xF0] = ⟨0, 1, true⟩ :: (Sprite.rowsDots 0 0 [0xF0]).tail := by
    decide
  rw [display_perform, Vector.getElem_zipWith, row, first, Sprite.mask, List.foldl_cons,
    Sprite.getElem_foldl_of_forall_ne _ (by decide), dark]
  simp

theorem step_rowProgram {rng : RandomKey} {maskRegister : Bool}
    (hm : { fresh rng maskRegister with
      memory := (fresh rng maskRegister).memory.store programStart rowProgram } = m) :
    m.display[0] = 0 ∧ ∃ m', m.step = .ok m' ∧ m'.draw = true ∧ m'.display[0] = 1 := by
  have fits : rowProgram.length ≤ maxRomSize := by decide
  have holds : m.Holds rowProgram := hm ▸ ⟨⟨_, rfl⟩, rfl⟩
  have pc : m.pc.toNat = programStart := congrArg UInt16.toNat holds.pc
  have word : m.word = 0xD001 := holds.word fits 0 rfl rfl (by decide) pc
  have index : m.i = 0 := hm ▸ rfl
  have dark : m.display = Vector.replicate 2048 0 := hm ▸ rfl
  have glyph : m.memory[0] = 0xF0 := by
    rw [← hm, Memory.getElem_store, if_neg (by decide), fresh, Memory.getElem_store]
    rfl
  have passed : m.check .drw (Operands.ofWord 0xD001) = none := by
    rw [check, index]
    decide
  refine ⟨by simp [dark], _, step_of_word word (pc ▸ by decide) .drw (by decide) passed, rfl, ?_⟩
  exact display_drawRow dark (hm ▸ rfl) index glyph m.bus

end Machine

namespace Session

/-- A run of more cycles than a double can count fails before it begins, with the row that was
drawn before still to be published. -/
theorem frame_kept_without_bar :
    ∃ s : Session Double,
      create {} Machine.rowProgram "row" ⟨0, 0⟩ (.real TimeScale.zero) = .ok s ∧
      let step := (Quantity.real TimeScale.zero, Command.call Call.step)
      let run := (Quantity.real TimeScale.zero, Command.call (Call.runCycles (2 ^ 1024) true))
      (((s.after [step]).atTime run.1).perform run.2).2 =
          .error (.outOfRange (.float (2 ^ 1024))) ∧
        (s.after [step, run]).machine.draw = true ∧
        (s.after [step, run]).frame ≠ (s.after [step, run]).machine.display := by
  have info : LogLevel.ofName? ({} : Config Double).logLevel = some .info := by decide +kernel
  have uncountable : Double.ofInt? (2 ^ 1024) = none := by decide +kernel
  have writable : Text.isWritable (2 ^ 1024) = true := by decide +kernel
  have now : (Quantity.real (TimeScale.zero : Double)).MeasurableFrom (.real TimeScale.zero) :=
    Quantity.measurableFrom_real _ _
  obtain ⟨s, made⟩ : ∃ s, create ({} : Config Double) Machine.rowProgram "row" ⟨0, 0⟩
      (.real TimeScale.zero) = .ok s := exists_create info (by decide) now
  generalize (2 : Int) ^ 1024 = count at uncountable writable ⊢
  refine ⟨s, made, ?_⟩
  intro step run
  have refused : ((s.after [step]).atTime run.1).runWithProgress (.whole count) =
      ((s.after [step]).atTime run.1, .error (.outOfRange (.float count))) :=
    runWithProgress_of_uncountable writable uncountable
  have core : s.core = Core.fresh s.machine := core_create made
  obtain ⟨dark, m', completes, raised, lit⟩ :=
    Machine.step_rowProgram (machine_create made).symm
  have stamp : (s.atTime step.1).Stampable := by
    obtain ⟨level, m, output, -, rfl⟩ := create_eq_ok made
    exact Logger.stamp_of_measurableFrom now
  have left : (s.after [step, run]).core =
      { Core.fresh s.machine with machine := m', cycles := 1 } := by
    have drawn : (s.after [step]).core =
        { s.core with machine := m', cycles := s.core.cycles + 1 } :=
      core_step stamp completes
    rw [core] at drawn
    show (((s.after [step]).atTime run.1).runWithProgress (.whole count)).1.core = _
    rw [refused]
    exact drawn
  refine ⟨?_, ?_, ?_⟩
  · show (((s.after [step]).atTime run.1).runWithProgress (.whole count)).2.map _ = _
    rw [refused]
    rfl
  · exact (congrArg (fun c => c.machine.draw) left).trans raised
  · intro same
    have shown : s.machine.display = m'.display :=
      (congrArg (fun c => c.screen.frame) left).symm.trans
        (same.trans (congrArg (fun c => c.machine.display) left))
    rw [← shown, dark] at lit
    cases lit

end Session

end Chip8
