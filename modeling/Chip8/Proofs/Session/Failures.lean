import Chip8.Proofs.Session.Moves
import Chip8.Time.Exact
import Chip8.Time.Rounded

/-! # Failures that are no faults

Only an instruction that faults gives an execution error. Whatever else a session does, such as
computing with times, writing its log or looking up a key, may fail, but never in this way.
-/

namespace Chip8

/-- Is no execution error, whether it fails otherwise or not. -/
def Faultless {α : Type} (x : Except Failure α) : Prop := ∀ e, x ≠ .error (.execution e)

/-- A time scale whose numbers may lack an integer part, but not because of a fault. -/
class FaultlessScale (τ : Type) [TimeScale τ] : Prop where
  faultless_truncate : ∀ x : τ, Faultless (TimeScale.truncate x)

instance : FaultlessScale Rat where
  faultless_truncate _ := nofun

instance : FaultlessScale Double where
  faultless_truncate x := by
    show Faultless (Double.truncate x)
    unfold Double.truncate
    split <;> rintro e ⟨⟩

namespace Faultless

variable {α β : Type}

theorem ok (a : α) : Faultless (.ok a) := by
  rintro e ⟨⟩

theorem error {x : Except Failure α} {failure : Failure} (hx : Faultless x)
    (h : x = .error failure) : Faultless (.error failure : Except Failure β) := by
  intro e he
  cases he
  exact hx e h

theorem bind {x : Except Failure α} {f : α → Except Failure β} (hx : Faultless x)
    (hf : ∀ a, Faultless (f a)) : Faultless (x >>= f) := by
  cases x with
  | error failure => exact hx.error rfl
  | ok a => exact hf a

theorem map {x : Except Failure α} (hx : Faultless x) (f : α → β) : Faultless (x.map f) := by
  cases x with
  | error failure => exact hx.error rfl
  | ok a => exact .ok _

end Faultless

variable {τ : Type} [TimeScale τ]

/-! ## Times -/

namespace Quantity

theorem faultless_toReal (q : Quantity τ) : Faultless q.toReal := by
  cases q with
  | whole n =>
    show Faultless (TimeScale.ofInt n)
    unfold TimeScale.ofInt
    split <;> rintro e ⟨⟩
  | real x => exact .ok x

theorem faultless_combine (exact : Int → Int → Int) (scaled : τ → τ → τ) (p q : Quantity τ) :
    Faultless (combine exact scaled p q) := by
  unfold combine
  split
  · exact .ok _
  · split
    · exact .ok _
    · next hp => exact (faultless_toReal _).error hp
    · next hq _ => exact (faultless_toReal _).error hq

theorem faultless_combineNonzero (exact : Int → Int → Int) (scaled : τ → τ → τ)
    (p q : Quantity τ) : Faultless (combineNonzero exact scaled p q) := by
  unfold combineNonzero
  split
  · split <;> rintro e ⟨⟩
  · next hc => exact (faultless_combine _ _ _ _).error hc

theorem faultless_div (p q : Quantity τ) : Faultless (p.div q) := by
  unfold div
  split
  · split <;> rintro e ⟨⟩
  · exact p.faultless_toReal.bind fun _ => q.faultless_toReal.bind fun _ => .ok _

theorem faultless_fixed (places : Nat) (q : Quantity τ) : Faultless (q.fixed places) := by
  unfold fixed
  split
  · exact .ok _
  · next hq => exact q.faultless_toReal.error hq

omit [TimeScale τ] in
theorem faultless_text (write : Quantity τ → String) (q : Quantity τ) :
    Faultless (q.text write) := by
  unfold text
  split <;> rintro e ⟨⟩

theorem faultless_truncate [FaultlessScale τ] (q : Quantity τ) : Faultless q.truncate := by
  cases q with
  | whole n => exact .ok n
  | real x => exact FaultlessScale.faultless_truncate x

theorem faultless_signed32 [FaultlessScale τ] (q : Quantity τ) : Faultless q.signed32 := by
  unfold signed32
  split
  · split <;> rintro e ⟨⟩
  · next hq => exact q.faultless_truncate.error hq

end Quantity

namespace Schedule

theorem faultless_ticksAt (s : Schedule τ) (c : Int) : Faultless (s.ticksAt c) := by
  have due (c : Int) : Faultless (s.dueBefore c) :=
    (Quantity.faultless_combine _ _ _ _).bind fun _ => Quantity.faultless_combineNonzero _ _ _ _
  exact (due _).bind fun _ => (due c).bind fun _ => Quantity.faultless_combine _ _ _ _

theorem faultless_ratio [FaultlessScale τ] (s : Schedule τ) : Faultless s.ratio :=
  s.decrements.faultless_signed32.bind fun _ => s.cycles.faultless_signed32.bind fun _ => .ok _

theorem faultless_start [FaultlessScale τ] (s : Schedule τ) (phase : Quantity τ) :
    Faultless (s.start phase) :=
  (Quantity.faultless_combineNonzero _ _ _ _).bind fun first => first.faultless_signed32

end Schedule

namespace Machine

theorem faultless_decay (m : Machine) (ticks : Quantity τ) : Faultless (m.decay ticks) := by
  cases ticks with
  | whole n =>
    show Faultless (m.decayTimers n)
    unfold decayTimers
    split
    · exact .ok _
    · split <;> rintro e ⟨⟩
  | real x =>
    dsimp only [decay]
    split <;> rintro e ⟨⟩

theorem faultless_runScheduled [FaultlessScale τ] (m : Machine) (count phase : Quantity τ)
    (s : Schedule τ) : Faultless (m.runScheduled count s phase) := by
  unfold runScheduled
  split
  · exact .ok _
  · exact count.faultless_signed32.bind fun _ => s.faultless_ratio.bind fun _ =>
      (s.faultless_start phase).bind fun _ => .ok _

end Machine

/-! ## Reports -/

theorem Logger.faultless_write (l : Logger τ) (now : Quantity τ) (level : LogLevel)
    (message : String) : Faultless (l.write now level message) := by
  have stamp : Faultless (l.stamp now) := by
    unfold Logger.stamp
    split
    · exact (Quantity.faultless_combine _ _ _ _).bind fun span =>
        (span.faultless_fixed 2).bind fun _ => .ok _
    · exact .ok _
  unfold Logger.write Logger.log
  split
  · exact stamp.bind fun _ => .ok _
  · exact .ok _

namespace Report

theorem faultless_line {r : Report} {line : Except Failure String} (hr : Faultless r.outcome)
    (hl : Faultless line) : Faultless (r.line line).outcome := by
  unfold Report.line
  split
  · exact .ok _
  · exact hl.error rfl
  · exact hr

theorem faultless_ofLine {line : Except Failure String} (h : Faultless line) :
    Faultless (ofLine line).outcome :=
  faultless_line (.ok _) h

end Report

namespace Journal

variable (j : Journal τ) (now : Quantity τ)

theorem faultless_begin (romName : String) (settings : List (String × String))
    {unreadable : Option Failure} (h : ∀ e, unreadable ≠ some (.execution e)) :
    Faultless (j.begin now romName settings unreadable).outcome := by
  have last : Faultless (unreadable.elim (j.logger.write now .info rule) .error) := by
    cases unreadable with
    | none => exact j.logger.faultless_write now .info rule
    | some failure =>
      rintro e ⟨⟩
      exact h e rfl
  unfold Journal.begin
  refine Report.faultless_line ?_ last
  generalize opening romName settings = messages
  have start : Faultless ({} : Report).outcome := .ok ()
  generalize ({} : Report) = r at start ⊢
  induction messages generalizing r with
  | nil => exact start
  | cons message rest ih =>
    exact ih _ (Report.faultless_line start (j.logger.faultless_write now .info message))

theorem faultless_finish (cycles : Quantity τ) (error : Option String) :
    Faultless (j.finish now cycles error).outcome := by
  have rate (elapsed : Quantity τ) : Faultless (rate cycles elapsed) := by
    unfold Journal.rate
    split
    · exact cycles.faultless_div elapsed
    · exact .ok _
  have measured : Faultless (j.measure now cycles) :=
    (Quantity.faultless_combine _ _ _ _).bind fun elapsed => (rate elapsed).bind fun _ => .ok _
  unfold finish
  split
  · next hm => exact measured.error hm
  · next elapsed rate _ =>
    refine Report.faultless_line ?_ ((cycles.faultless_text _).bind fun _ =>
      (elapsed.faultless_fixed 1).bind fun _ => j.logger.faultless_write now .info _)
    cases error with
    | none => exact .ok _
    | some message => exact Report.faultless_ofLine (j.logger.faultless_write now .error _)

end Journal

/-! ## The clock -/

namespace Clock

variable [FaultlessScale τ] (c : Clock τ)

theorem faultless_grant (elapsed : Quantity τ) : Faultless (c.grant elapsed) := by
  have beyond (limit : Quantity τ) : Faultless (c.cyclesBeyond limit elapsed) :=
    (Quantity.faultless_combine _ _ _ _).bind fun _ =>
      (Quantity.faultless_combine _ _ _ _).bind fun cycles => cycles.faultless_truncate
  unfold grant
  split
  · exact .ok _
  · next limit _ =>
    split
    · split
      · exact .ok _
      · next hb => exact (beyond limit).error hb
    · exact .ok _

omit [FaultlessScale τ] in
theorem faultless_debited (credit : τ) (whole : Int) : Faultless (debited credit whole) :=
  (Quantity.faultless_toReal (.whole whole)).bind fun _ => .ok _

omit [FaultlessScale τ] in
theorem faultless_credited (credit : τ) (span frequency : Quantity τ) :
    Faultless (credited credit span frequency) :=
  (Quantity.faultless_combine _ _ _ _).bind fun product =>
    product.faultless_toReal.bind fun _ => .ok _

theorem faultless_withdraw : Faultless c.withdraw.2 := by
  unfold withdraw
  split
  · split
    · next hd => exact (faultless_debited _ _).error hd
    · dsimp only
      split
      · next hd => exact (faultless_debited _ _).error hd
      · exact .ok _
  · next ht => exact (FaultlessScale.faultless_truncate _).error ht
  · next ht _ => exact (FaultlessScale.faultless_truncate _).error ht

theorem faultless_accrue (span : Quantity τ) : Faultless (c.accrue span).2 := by
  unfold accrue
  split
  · next hc => exact (faultless_credited _ _ _).error hc
  · dsimp only
    split
    · next hc => exact (faultless_credited _ _ _).error hc
    · exact faultless_withdraw _

theorem faultless_tickAfter (logger : Logger τ) (now elapsed : Quantity τ) :
    Faultless (c.tickAfter logger now elapsed).due := by
  have warned (s : Shortfall τ) : Faultless (s.message >>= logger.write now .warning) :=
    ((s.covered.faultless_fixed 3).bind fun _ => (s.limit.faultless_fixed 3).bind fun _ =>
      .ok _).bind fun _ => logger.faultless_write now .warning _
  unfold tickAfter
  split
  · next hg => exact (c.faultless_grant elapsed).error hg
  · exact faultless_accrue _ _
  · dsimp only
    split
    · next hw => exact (warned _).error hw
    · exact faultless_accrue _ _

theorem faultless_tick (logger : Logger τ) (now : Quantity τ) :
    Faultless (c.tick logger now).due := by
  unfold tick
  split
  · exact .ok _
  · split
    · next hs => exact (Quantity.faultless_combine _ _ _ _).error hs
    · exact faultless_tickAfter _ _ _ _

end Clock

/-! ## Sessions -/

theorem ProgressBar.faultless_create (total : Quantity τ) (title unit : Option String) :
    Faultless (ProgressBar.create total title unit) := by
  have counted : Faultless (counted total) := (total.faultless_text _).bind fun _ => .ok _
  have titled : Faultless (titled total title) := by
    unfold ProgressBar.titled
    split
    · split
      · exact counted
      · exact .ok _
    · exact counted
  exact titled.bind fun _ => total.faultless_toReal.bind fun _ => .ok _

namespace Config

omit [TimeScale τ] in
theorem readable_ne {entries : List (String × Except Failure String)}
    (h : ∀ x ∈ entries, Faultless x.2) (e : ExecutionError) :
    (readable entries).2 ≠ some (.execution e) := by
  induction entries with
  | nil => nofun
  | cons x rest ih =>
    obtain ⟨name, failure | text⟩ := x
    · rintro ⟨⟩
      exact h _ List.mem_cons_self e rfl
    · exact ih fun x hx => h x (List.mem_cons_of_mem _ hx)

theorem faultless_entries {c : Config τ} {x : String × Except Failure String}
    (h : x ∈ c.entries) : Faultless x.2 := by
  simp only [entries, List.mem_cons, List.not_mem_nil, or_false] at h
  rcases h with rfl | rfl | rfl | rfl | rfl | rfl
  · exact Quantity.faultless_text _ _
  · exact Quantity.faultless_text _ _
  · exact Quantity.faultless_text _ _
  · cases c.catchUp with
    | none => exact .ok _
    | some limit => exact Quantity.faultless_text _ limit
  · exact .ok _
  · exact .ok _

end Config

namespace Session

variable {s : Session τ}

theorem faultless_say (level : LogLevel) (message : String) : Faultless (s.say level message).2 :=
  Report.faultless_ofLine (s.journal.logger.faultless_write s.surroundings.now level message)

theorem faultless_decay (ticks : Quantity τ) : Faultless (s.decay ticks).2 := by
  unfold decay
  split
  · next hd => exact (s.machine.faultless_decay ticks).error hd
  · exact .ok _

theorem faultless_decayAt (schedule : Schedule τ) (cycle : Int) :
    Faultless (s.decayAt schedule cycle).2 := by
  unfold decayAt
  split
  · next ht => exact (schedule.faultless_ticksAt cycle).error ht
  · exact faultless_decay _

theorem faultless_readClock [FaultlessScale τ] : Faultless s.readClock.2 :=
  s.clock.faultless_tick s.journal.logger s.surroundings.now

theorem faultless_reset : Faultless s.reset.2 := by
  have fresh : Faultless (freshMachine s.config s.rom s.name s.seed) := by
    unfold freshMachine
    split <;> rintro e ⟨⟩
  unfold reset
  split
  · rintro e ⟨⟩
  · split
    · next hf => exact fresh.error hf
    · exact .ok _

theorem faultless_setKey (index : Quantity τ) (pressed : Bool) :
    Faultless (s.setKey index pressed).2 := by
  have found : Faultless (key index) := by
    unfold key
    split
    · split <;> rintro e ⟨⟩
    · split <;> rintro e ⟨⟩
  unfold setKey
  split
  · exact .ok _
  · next hk => exact found.error hk

theorem faultless_setEachKey (keys : List (Quantity τ × Bool)) :
    Faultless (s.setEachKey keys).2 := by
  induction keys generalizing s with
  | nil => exact .ok _
  | cons k rest ih =>
    unfold setEachKey
    have first := faultless_setKey (s := s) k.1 k.2
    generalize s.setKey k.1 k.2 = x at first ⊢
    rcases x with ⟨s₁, e | _⟩
    · exact first
    · exact ih

theorem faultless_setKeys (keys : List (Quantity τ × Bool)) :
    Faultless (s.setKeys keys).2 := by
  unfold setKeys
  split
  · rintro e ⟨⟩
  · exact faultless_setEachKey keys

theorem faultless_elapseIn (nap : Nap τ) : Faultless (s.elapseIn nap).2 := by
  unfold elapseIn elapse
  split
  · split
    · exact .ok _
    · next ha => exact (Quantity.faultless_combine _ _ _ _).error ha
  · exact .ok _

theorem raises_of_sleepThrough (nap : Nap τ) {r : Raised}
    (h : (s.sleepThrough nap).2 = .error r) :
    (∃ e, r = .error e ∧ Faultless (.error e : Except Failure Unit)) ∨ nap.raises = some r := by
  unfold sleepThrough at h
  have keys := faultless_setEachKey
    (s := { s with stopRequested := s.stopRequested || nap.stop }) nap.keys
  generalize Session.setEachKey _ nap.keys = x at h keys
  rcases x with ⟨s₁, e | _⟩
  · cases h
    exact .inl ⟨e, rfl, keys⟩
  · have passed := faultless_elapseIn (s := s₁) nap
    dsimp only at h
    generalize s₁.elapseIn nap = y at h passed
    rcases y with ⟨s₂, e | _⟩
    · cases h
      exact .inl ⟨e, rfl, passed⟩
    · dsimp only at h
      split at h
      · next raised =>
        cases h
        exact .inr raised
      · cases h

theorem faultless_reportStart : Faultless s.reportStart.2 :=
  Journal.faultless_begin _ _ _ _ (Config.readable_ne fun _ => Config.faultless_entries)

theorem faultless_prepareRun (lag : Option (Quantity τ)) : Faultless (s.prepareRun lag).2 := by
  unfold prepareRun
  have told := faultless_reportStart (s := { s with clock := s.clock.reset s.surroundings.now })
  generalize Session.reportStart { s with clock := s.clock.reset s.surroundings.now } = x at told ⊢
  rcases x with ⟨s₁, e | _⟩
  · exact told
  · exact faultless_elapseIn _

theorem faultless_reportEnd (error : Option String) : Faultless (s.reportEnd error).2 :=
  Journal.faultless_finish _ _ _ _

end Session

/-! ## Runs that an execution error ends -/

/-- The sleep does not itself raise the execution error. -/
def Nap.Spares {τ : Type} (nap : Nap τ) (e : ExecutionError) : Prop :=
  nap.raises ≠ some (.error (.execution e))

namespace Command

variable {τ : Type}

/-- The sleeps of the run that a command is or lets go on. -/
def naps : Command τ → List (Nap τ)
  | .run naps _ => naps
  | .release nap => [nap]
  | _ => []

/-- No sleep during the command itself raises the execution error. -/
def Spares (c : Command τ) (e : ExecutionError) : Prop := ∀ nap ∈ c.naps, nap.Spares e

theorem spares_call (c : Call τ) (e : ExecutionError) : (call c).Spares e := by
  intro nap mem
  cases mem

end Command

namespace Session

variable {s : Session τ} {e : ExecutionError}

theorem outcome_of_conclude {outcome : Except Failure Unit} {x : Session τ × Except Failure Unit}
    (written : Faultless x.2) (h : (conclude outcome x).2 = .ended (.error (.execution e))) :
    outcome = .error (.execution e) := by
  rcases x with ⟨s, failure | _⟩
  · cases h
    exact absurd rfl (written e)
  · exact Turn.ended.inj h


theorem reason_of_leave {reason : Except Raised Unit}
    (h : (s.leave reason).2 = .ended (.error (.execution e))) :
    reason = .error (.error (.execution e)) := by
  rcases reason with (failure | _) | _
  · cases failure with
    | execution met =>
      cases outcome_of_conclude (faultless_reportEnd _) h
      rfl
    | _ => cases h
  · cases h
  · cases outcome_of_conclude (faultless_reportEnd none) h

theorem fallAsleep_ne (s : Session τ) : s.fallAsleep.2 ≠ .ended (.error (.execution e)) := by
  intro h
  have slept := s.config.tickSleep.faultless_toReal
  unfold fallAsleep at h
  split at h
  · cases h
  · next failed =>
    cases reason_of_leave h
    exact slept e failed

theorem publish_halted (s : Session τ) (failure : Option Failure) :
    { s with error := failure }.publish.core = s.publish.core ∧
      { s with error := failure }.publish.error = failure := by
  unfold publish
  split <;> exact ⟨rfl, rfl⟩

theorem leave_halted (s : Session τ) (e : ExecutionError) :
    (s.leave (.error (.error (.execution e)))).1.core = s.publish.core ∧
      (s.leave (.error (.error (.execution e)))).1.error = some (.execution e) := by
  obtain ⟨core, error⟩ := publish_halted s (some (.execution e))
  unfold leave
  rw [fst_conclude]
  exact ⟨core, error⟩

theorem exists_tick_of_turn (h : s.turn.2 = .ended (.error (.execution e))) :
    ∃ s₁, s.tick = (s₁, .error (.execution e)) ∧ s.turn.1.core = s₁.publish.core ∧
      s.turn.1.error = some (.execution e) := by
  unfold turn at h ⊢
  split at h
  · cases reason_of_leave h
  · next go =>
    rw [if_neg go]
    generalize s.tick = x at h ⊢
    rcases x with ⟨s₁, failure | _⟩
    · cases reason_of_leave h
      exact ⟨s₁, rfl, leave_halted s₁ e⟩
    · exact absurd h (fallAsleep_ne s₁)

theorem wake_of_execution {nap : Nap τ} (spares : nap.Spares e)
    (h : (s.wake nap).2 = .ended (.error (.execution e))) :
    s.wake nap = (s.sleepThrough nap).1.turn := by
  unfold wake at h ⊢
  have slept := raises_of_sleepThrough (s := s) nap (r := .error (.execution e))
  generalize s.sleepThrough nap = x at h slept ⊢
  rcases x with ⟨s₁, raised | _⟩
  · cases reason_of_leave h
    obtain ⟨failure, same, faultless⟩ | own := slept rfl
    · cases same
      exact absurd rfl (faultless e)
    · exact absurd own spares
  · rfl

theorem exists_turn_of_beginRun {lag : Option (Quantity τ)}
    (h : (s.beginRun lag).2 = .ended (.error (.execution e))) :
    ∃ s' : Session τ, s.beginRun lag = s'.turn := by
  unfold beginRun at h ⊢
  have prepared := faultless_prepareRun (s := s) lag
  generalize s.prepareRun lag = x at h prepared ⊢
  rcases x with ⟨s₁, failure | _⟩
  · cases h
    exact absurd rfl (prepared e)
  · exact ⟨s₁, rfl⟩

theorem follow_induction {P : Session τ → Prop} {naps : List (Nap τ)}
    (woken : ∀ (s : Session τ), ∀ nap ∈ naps ++ [stopNap],
      (s.wake nap).2 = .ended (.error (.execution e)) → P (s.wake nap).1)
    {x : Session τ × Turn} (first : x.2 = .ended (.error (.execution e)) → P x.1)
    (h : (follow naps x).2 = .error (.execution e)) : P (follow naps x).1 := by
  induction naps generalizing x with
  | nil =>
    rcases x with ⟨s, _ | outcome | text⟩
    · have last := woken s stopNap (List.mem_singleton.mpr rfl)
      unfold follow at h ⊢
      generalize s.wake stopNap = y at h last ⊢
      rcases y with ⟨s₁, _ | outcome | text⟩
      · cases h
      · exact last (congrArg Turn.ended h)
      · cases h
    · exact first (congrArg Turn.ended h)
    · cases h
  | cons nap rest ih =>
    rcases x with ⟨s, _ | outcome | text⟩
    · exact ih (fun s nap hn => woken s nap (List.mem_cons_of_mem _ hn))
        (woken s nap List.mem_cons_self) h
    · exact first (congrArg Turn.ended h)
    · cases h

/-- Only a turn can end a run with an execution error that no sleep raises. -/
theorem exists_turn_of_run {naps : List (Nap τ)} {lag : Option (Quantity τ)}
    (spares : ∀ nap ∈ naps, nap.Spares e) (h : (s.run naps lag).2 = .error (.execution e)) :
    ∃ s' : Session τ, s'.turn = ((s.run naps lag).1, .ended (.error (.execution e))) := by
  let Turned (t : Session τ) : Prop := ∃ s' : Session τ, s'.turn = (t, .ended (.error (.execution e)))
  have turned {x : Session τ × Turn} (ended : x.2 = .ended (.error (.execution e)))
      (turn : ∃ s' : Session τ, x = s'.turn) : Turned x.1 := by
    obtain ⟨s', rfl⟩ := turn
    exact ⟨s', Prod.ext rfl ended⟩
  refine follow_induction (P := Turned)
    (fun s nap hn ended => turned ended ⟨_, wake_of_execution ?_ ended⟩)
    (fun ended => turned ended (exists_turn_of_beginRun ended)) h
  rcases List.mem_append.mp hn with hn | hn
  · exact spares nap hn
  · rw [List.mem_singleton.mp hn]
    rintro ⟨⟩

end Session

end Chip8
