import Chip8.Proofs.Session.Chunks

/-! # Runs in several calls

Every call that runs cycles numbers them from zero on, so the fraction of a timer tick that one
call leaves over is lost to the next. Two calls are one timed run whose ticks start over in
between. They can be told from a single call if and only if some tick differs after the shift.
-/

namespace Chip8

def tickOf (f g : Int) (c : Nat) : Int := TimerRatio.ticksAt ⟨g, f⟩ c

theorem tickOf_add_of_dvd {f g : Int} (hf : 0 < f) {a : Nat} (h : f ∣ a * g) (c : Nat) :
    tickOf f g (a + c) = tickOf f g c := by
  obtain ⟨rounds, hr⟩ := h
  have shift (x : Int) : (a + x) * g / f = x * g / f + rounds := by
    rw [Int.add_mul, hr, Int.add_comm, Int.add_mul_ediv_left _ _ (Int.ne_of_gt hf)]
  have next : ((a + c : Nat) + 1 : Int) = a + (c + 1) := by omega
  rw [tickOf, tickOf, TimerRatio.ticksAt_eq hf, TimerRatio.ticksAt_eq hf]
  dsimp only
  rw [next, Int.natCast_add, shift, shift]
  omega

namespace Machine

theorem countDown_congr {ticks ticks' : Int} (low : 0 ≤ ticks) (high : ticks < 2 ^ 31)
    (low' : 0 ≤ ticks') (high' : ticks' < 2 ^ 31) (h : min 255 ticks = min 255 ticks') :
    countDown ticks = countDown ticks' := by
  funext timer
  have := timer.toNat_lt
  apply UInt8.toNat_inj.mp
  rw [toNat_countDown low high, toNat_countDown low' high']
  omega

/-- The largest timer tells all others apart. -/
theorem min_eq_of_countDown {ticks ticks' : Int} (low : 0 ≤ ticks) (high : ticks < 2 ^ 31)
    (low' : 0 ≤ ticks') (high' : ticks' < 2 ^ 31) (h : countDown ticks 255 = countDown ticks' 255) :
    min 255 ticks = min 255 ticks' := by
  have left := toNat_countDown low high 255
  have right := toNat_countDown low' high' 255
  have full : (255 : UInt8).toNat = 255 := rfl
  rw [h, right, full] at left
  omega

end Machine

namespace Session

variable {τ : Type} [TimeScale τ] {s : Session τ}

/-- The ticks of a run of `a` cycles and of a run after it, which starts over. -/
def restarted (ticks : Nat → Int) (a k : Nat) : Int :=
  ticks (if k < a then k else k - a)

theorem afterRun_afterRun (first : Batch) (completed : first.error = none)
    (keys : first.machine.keypad = s.keypad) (ticks : Nat → Int) (count : Nat) :
    (s.afterRun first).1.afterRun
        ((s.afterRun first).1.loadKeypad.machine.runTimed ticks count) =
      s.afterRun (first.andThen (Machine.runTimed ticks count)) := by
  have machine : (s.afterRun first).1.loadKeypad.machine =
      { first.machine with draw := false } := by
    rw [afterRun, loadKeypad, ← keys]
  obtain ⟨drawn, shown, flag⟩ := first.machine.runTimed_draw ticks count
  have raised : (first.machine.runTimed ticks count).machine.draw = (drawn || first.machine.draw) :=
    congrArg (fun b => b.machine.draw) (flag first.machine.draw)
  rw [machine, flag, Batch.andThen_of_none completed]
  generalize first.machine.runTimed ticks count = second at shown raised
  simp only [afterRun, raised, Bool.or_false, Nat.add_assoc]
  cases drawn with
  | true => rfl
  | false =>
    rw [shown rfl]
    rfl

variable {f g : Int} {a b : Nat}

theorem Paced.of_setting {t : Session τ} (paced : s.Paced f g) (h : t.setting = s.setting) :
    t.Paced f g := by
  simp only [setting, Prod.mk.injEq] at h
  have pace : t.schedule = s.schedule := by rw [Session.schedule, h.1, Session.schedule]
  exact ⟨pace.trans paced.schedule, paced.cpu, paced.timer, paced.fits⟩

theorem Paced.runCycles (paced : s.Paced f g) (quiet : s.traced = false) (count : Nat) :
    s.runCycles (.whole count) =
      s.afterRun (s.loadKeypad.machine.runTimed (tickOf f g) count) := by
  obtain ⟨hf', hg', products⟩ := paced.products
  rw [runCycles_eq_runTimed quiet paced.schedule paced.cpu hf' (Int.le_of_lt paced.timer) hg']
  refine congrArg s.afterRun (Machine.runTimed_congr fun k _ => congrArg Machine.countDown ?_)
  refine TimerRatio.chunkTicks_eq_ticksAt paced.cpu (Int.le_of_lt paced.timer) k ?_
  have offset : k % chunkSize < chunkSize := Nat.mod_lt k (by decide)
  have := products (k / chunkSize * chunkSize : Nat) (k % chunkSize + 1) offset
  rwa [Int.natCast_add, ← Int.add_assoc] at this

theorem Paced.runCycles_runCycles (paced : s.Paced f g) (quiet : s.traced = false)
    (completes : (s.loadKeypad.machine.runTimed (tickOf f g) a).error = none) :
    (s.runCycles (.whole a)).1.runCycles (.whole b) =
      s.afterRun (s.loadKeypad.machine.runTimed (restarted (tickOf f g) a) (a + b)) := by
  have same : (s.runCycles (.whole a)).1.setting = s.setting := setting_runCycles a
  have before : s.loadKeypad.machine.runTimed (restarted (tickOf f g) a) a
      = s.loadKeypad.machine.runTimed (tickOf f g) a :=
    Machine.runTimed_congr fun k hk => by rw [restarted, if_pos hk]
  have after : (fun k => restarted (tickOf f g) a (a + k)) = tickOf f g :=
    funext fun k => by rw [restarted, if_neg (by omega), Nat.add_sub_cancel_left]
  rw [(paced.of_setting same).runCycles ((traced_of_setting same).trans quiet),
    paced.runCycles quiet, afterRun_afterRun _ completes (Machine.keypad_runTimed _ _),
    Machine.runTimed_add, before, after]

theorem Paced.tick_fits (paced : s.Paced f g) (c : Nat) :
    0 ≤ tickOf f g c ∧ tickOf f g c < 2 ^ 31 := by
  obtain ⟨-, hg', -⟩ := paced.products
  have decrements := Int.le_of_lt paced.timer
  exact ⟨TimerRatio.ticksAt_nonneg paced.cpu decrements c,
    Int.lt_of_le_of_lt (TimerRatio.ticksAt_le (r := ⟨g, f⟩) paced.cpu decrements c) hg'⟩

/-- Where no timer can tell the ticks apart, a run in two parts is one run. -/
theorem Paced.runCycles_add (paced : s.Paced f g) (quiet : s.traced = false)
    (same : ∀ c, min 255 (tickOf f g (a + c)) = min 255 (tickOf f g c))
    (completes : (s.runCycles (.whole (a + b : Nat))).2 = .ok ()) :
    (s.runCycles (.whole a)).1.runCycles (.whole b) = s.runCycles (.whole (a + b : Nat)) := by
  rw [paced.runCycles quiet, afterRun_eq_ok_iff] at completes
  rw [paced.runCycles_runCycles quiet (Machine.runTimed_error_of_add completes),
    paced.runCycles quiet]
  refine congrArg s.afterRun (Machine.runTimed_congr fun k _ => ?_)
  unfold restarted
  split
  · rfl
  · next late =>
    have low := paced.tick_fits (k - a)
    have low' := paced.tick_fits k
    refine Machine.countDown_congr low.1 low.2 low'.1 low'.2 ?_
    rw [← same (k - a), Nat.add_sub_cancel' (Nat.le_of_not_lt late)]

/-! ## Traced runs -/

theorem Stampable.of_step (traced : s.traced = true) (h : s.step.2 = .ok ()) : s.Stampable := by
  unfold Session.step at h
  cases hf : s.machine.fetch with
  | error e =>
    rw [hf] at h
    cases h
  | ok word =>
    cases hs : s.journal.logger.stamp s.surroundings.now with
    | ok stamp =>
      rw [Stampable, hs]
      rfl
    | error e =>
      have silent : (s.trace word).2 = .error e := by
        unfold trace say Logger.write Logger.log Logger.line
        rw [if_pos (show s.journal.logger.isEnabled LogLevel.debug.name = true from traced), hs]
        rfl
      rw [hf] at h
      dsimp only at h
      generalize s.trace word = x at silent h
      obtain ⟨s₁, outcome⟩ := x
      dsimp only at silent
      subst silent
      cases h

theorem Stampable.of_runCycles (traced : s.traced = true) {count : Nat} (some : 0 < count)
    (h : (s.runCycles (.whole count)).2 = .ok ()) : s.Stampable := by
  have traced' : s.loadKeypad.traced = true := traced
  obtain ⟨steps, hsteps⟩ : ∃ steps, min count chunkSize = steps + 1 :=
    ⟨min count chunkSize - 1, by have : chunkSize = 10000 := rfl; omega⟩
  refine Stampable.of_step (s := s.loadKeypad) traced' ?_
  rw [runCycles_whole, runCyclesIn, Int.toNat_natCast, runChunks, dif_neg (by omega)] at h
  dsimp only at h
  rw [advance, if_pos traced', hsteps, Int.toNat_natCast, runSteps] at h
  generalize s.loadKeypad.step = x at h ⊢
  obtain ⟨s₁, e | _⟩ := x
  · cases h
  · rfl

theorem Paced.runCycles_add_muted (paced : s.Paced f g)
    (same : ∀ c, min 255 (tickOf f g (a + c)) = min 255 (tickOf f g c))
    (completes : (s.runCycles (.whole (a + b : Nat))).2 = .ok ()) :
    muted ((s.runCycles (.whole a)).1.runCycles (.whole b)) =
      muted (s.runCycles (.whole (a + b : Nat))) := by
  by_cases quiet : s.traced = false
  · rw [paced.runCycles_add quiet same completes]
  · by_cases none : a + b = 0
    · obtain ⟨rfl, rfl⟩ : a = 0 ∧ b = 0 := by omega
      have idle (s : Session τ) : s.runCycles (.whole (0 : Nat)) = _ :=
        runCyclesIn_of_nonpos (by decide) (Int.le_refl 0)
      rw [idle, idle]
      exact congrArg muted (afterRun_afterRun { machine := s.loadKeypad.machine, executed := 0 } rfl
        rfl (tickOf f g) 0)
    · -- Muted, the session runs without a trace, and nothing is lost but the log.
      have stamp := Stampable.of_runCycles (by simpa using quiet) (by omega) completes
      have setting : (s.runCycles (.whole a)).1.setting = s.setting := setting_runCycles a
      have pacedMute : s.mute.Paced f g := ⟨paced.schedule, paced.cpu, paced.timer, paced.fits⟩
      have whole := runCycles_mute stamp paced (a + b : Nat)
      have first := runCycles_mute stamp paced a
      have second := runCycles_mute (stamp.of_setting setting) (paced.of_setting setting) b
      rw [← second, ← whole]
      have split := pacedMute.runCycles_add (b := b) traced_mute same
        (by rw [whole]; exact completes)
      rw [← split, first]
      rfl

/-! ## Splitting a run -/

/-- Whatever the session, running `a` cycles and then others is observed as running all of them in
one call, if none of them fails. -/
def SplitsAt (τ : Type) [TimeScale τ] (f g : Int) (a : Nat) : Prop :=
  ∀ (s : Session τ) (b : Nat), s.Paced f g → (s.runCycles (.whole (a + b : Nat))).2 = .ok () →
    observation ((s.call (.runCycles a false)).1.call (.runCycles b false)) =
      observation (s.call (.runCycles (a + b : Nat) false))

theorem splitsAt_of_same (same : ∀ c, min 255 (tickOf f g (a + c)) = min 255 (tickOf f g c)) :
    SplitsAt τ f g a := by
  intro s b paced completes
  have split := congrArg (answered fun _ => .done) (paced.runCycles_add_muted same completes)
  rw [answered_muted, answered_muted] at split
  have observed := congrArg observation split
  rwa [observation_muted, observation_muted] at observed

theorem same_of_splitsAt (hf : 0 < f) (hg : 0 < g) (fits : (f + chunkSize) * g < 2 ^ 31)
    (h : SplitsAt τ f g a) (c : Nat) : min 255 (tickOf f g (a + c)) = min 255 (tickOf f g c) := by
  by_cases start : a = 0
  · rw [start, Nat.zero_add]
  obtain ⟨n, hn⟩ : ∃ n, a + c = n + 1 := ⟨a + c - 1, by omega⟩
  obtain ⟨rom, small, sets⟩ := Machine.exists_setsAt n
  let config : Config τ := { cpuFrequency := .whole f, timerFrequency := .whole g }
  have info : LogLevel.ofName? config.logLevel = some .info :=
    show LogLevel.ofName? "INFO" = some .info by decide +kernel
  obtain ⟨s, -, hs, holds, quiet⟩ := exists_create_eq rom info small
    (Quantity.measurableFrom_real TimeScale.zero TimeScale.zero) "" ⟨0, 0⟩
  have paced : s.Paced f g := ⟨by rw [schedule, hs], hf, hg, fits⟩
  -- In both ways the last cycle sets the timer, and its tick counts that down.
  have sets' : s.loadKeypad.machine.SetsAt (a + c) := hn ▸ sets _ holds
  obtain ⟨completes, delay⟩ := sets' (tickOf f g)
  obtain ⟨-, delay'⟩ := sets' (restarted (tickOf f g) a)
  rw [Nat.add_assoc] at completes delay delay'
  rw [restarted, if_neg (by omega), Nat.add_sub_cancel_left] at delay'
  have whole := paced.runCycles quiet (a + (c + 1))
  have parts := paced.runCycles_runCycles (b := c + 1) quiet
    (Machine.runTimed_error_of_add completes)
  have same := h s (c + 1) paced (by rw [whole, afterRun_eq_ok_iff]; exact completes)
  have delays : (s.afterRun (s.loadKeypad.machine.runTimed (restarted (tickOf f g) a)
      (a + (c + 1)))).1.machine.delay =
      (s.afterRun (s.loadKeypad.machine.runTimed (tickOf f g) (a + (c + 1)))).1.machine.delay := by
    rw [← parts, ← whole]
    exact congrArg (fun o => o.machine.delay) same
  simp only [afterRun, delay, delay'] at delays
  have shifted := paced.tick_fits (a + c)
  have tick := paced.tick_fits c
  exact (Machine.min_eq_of_countDown tick.1 tick.2 shifted.1 shifted.2 delays).symm

/-- Running `a` cycles in a call of their own makes no difference to any session if and only if no
timer can tell the ticks of the cycles after them from those of a run that starts over. It makes
none if the decrements of `a` cycles are an integer. -/
theorem splitsAt_iff (τ : Type) [TimeScale τ] (hf : 0 < f) (hg : 0 < g)
    (fits : (f + 10000) * g < 2 ^ 31) (a : Nat) :
    (SplitsAt τ f g a ↔ ∀ c, min 255 (tickOf f g (a + c)) = min 255 (tickOf f g c)) ∧
      (f ∣ a * g → SplitsAt τ f g a) :=
  ⟨⟨same_of_splitsAt hf hg fits, splitsAt_of_same⟩,
    fun integer => splitsAt_of_same fun c => by rw [tickOf_add_of_dvd hf integer]⟩

/-- At the default frequencies twenty-five cycles take three decrements, and eight take less than
one. -/
theorem splitsAt_iff_default : SplitsAt Rat 500 60 25 ∧ ¬SplitsAt Rat 500 60 8 := by
  have fits : (500 + 10000) * 60 < (2 : Int) ^ 31 := by decide
  obtain ⟨-, integer⟩ := splitsAt_iff Rat (by decide) (by decide) fits 25
  obtain ⟨same, -⟩ := splitsAt_iff Rat (by decide) (by decide) fits 8
  refine ⟨integer (by decide), fun splits => ?_⟩
  have first : min 255 (tickOf 500 60 8) = min 255 (tickOf 500 60 0) := same.mp splits 0
  exact absurd first (by decide)

/-- At the default frequencies the ninth cycle takes a tick, but not in a call of its own. -/
theorem ninth_cycle_of_split_run :
    ∃ s : Session Rat, create {} Machine.delayProgram "delay" ⟨0, 0⟩ (.whole 0) = .ok s ∧
      s.Paced 500 60 ∧ (s.runCycles (.whole 9)).2 = .ok () ∧
      (s.runCycles (.whole 9)).1.machine.delay = 4 ∧
      ((s.runCycles (.whole 8)).1.runCycles (.whole 1)).1.machine.delay = 5 := by
  have info : LogLevel.ofName? ({} : Config Rat).logLevel = some .info := by decide +kernel
  obtain ⟨s, made, config, holds, quiet⟩ := exists_create_eq Machine.delayProgram info (by decide)
    (Quantity.measurableFrom_rat (.whole 0) (.whole 0)) "delay" ⟨0, 0⟩
  have paced : s.Paced 500 60 := ⟨by rw [schedule, config], by decide, by decide, by decide⟩
  obtain ⟨completes, delay⟩ := Machine.runTimed_delayProgram holds (tickOf 500 60) 7
  obtain ⟨-, delay'⟩ := Machine.runTimed_delayProgram holds (restarted (tickOf 500 60) 8) 7
  have whole : s.runCycles (.whole 9) = _ := paced.runCycles quiet (8 + 1)
  have parts : (s.runCycles (.whole 8)).1.runCycles (.whole 1) = _ :=
    paced.runCycles_runCycles (a := 8) (b := 1) quiet
      (Machine.runTimed_error_of_add (b := 1) completes)
  refine ⟨s, made, paced, ?_, ?_, ?_⟩
  · rw [whole, afterRun_eq_ok_iff]
    exact completes
  · rw [whole]
    exact delay.trans (by decide +kernel)
  · rw [parts]
    exact delay'.trans (by decide +kernel)

end Session

end Chip8
