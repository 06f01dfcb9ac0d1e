import Chip8.Proofs.Session.Control
import Chip8.Proofs.Session.Frames
import Chip8.Proofs.Session.Readings

/-! # The ends of runs

A run is left because it was asked to stop or because something was raised. An execution error is
kept and reported, any other error only ends the run, and an interruption passes through. On the
session's thread every error that ends the run is kept, and nothing else.
-/

namespace Chip8

/-- The error that ends a run, unless it returns, goes on or is interrupted. -/
def Turn.failure? : Turn → Option Failure
  | ended (.error e) => some e
  | _ => none

namespace Session

variable {τ : Type} [TimeScale τ] {s t : Session τ} {x : Session τ × Turn} {e : ExecutionError}

/-! ## Ways out -/

/-- The session with an execution error kept, and what was drawn before it published. -/
def keep (s : Session τ) (e : ExecutionError) : Session τ :=
  { s with error := some (.execution e) }.publish

theorem leave_execution (s : Session τ) (e : ExecutionError) :
    s.leave (.error (.error (.execution e))) =
      conclude (.error (.execution e)) ((s.keep e).reportEnd (some e.message)) := rfl

theorem leave_ne_asleep (s : Session τ) (reason : Except Raised Unit) :
    (s.leave reason).2 ≠ .asleep := by
  have concluded (outcome : Except Failure Unit) (x : Session τ × Except Failure Unit) :
      (conclude outcome x).2 ≠ .asleep := by
    rcases x with ⟨s, e | _⟩ <;> rintro ⟨⟩
  rcases reason with (failure | _) | _
  · cases failure with
    | execution => exact concluded _ _
    | _ => rintro ⟨⟩
  · rintro ⟨⟩
  · exact concluded _ _

theorem leave_of_faultless {failure : Failure}
    (h : Faultless (.error failure : Except Failure Unit)) :
    s.leave (.error (.error failure)) = (s, .ended (.error failure)) := by
  cases failure with
  | execution e => exact absurd rfl (h e)
  | _ => rfl

theorem leave_ok (s : Session τ) :
    (s.leave (.ok ())).1.core = s.core ∧ (s.leave (.ok ())).1.error = s.error := by
  unfold leave
  rw [fst_conclude]
  exact ⟨rfl, rfl⟩

theorem exists_control_leave (s : Session τ) (reason : Except Raised Unit) :
    ∃ error, (s.leave reason).1.control = { s.control with error } := by
  rcases s.session_leave reason with ⟨text, -, left⟩ | ⟨e, text, -, left⟩
  · rw [left]
    exact ⟨s.error, rfl⟩
  · rw [left]
    exact ⟨_, control_publish (s := { s with error := some (.execution e) })⟩

theorem thread_leave (reason : Except Raised Unit) : (s.leave reason).1.thread = s.thread := by
  obtain ⟨error, control⟩ := exists_control_leave s reason
  exact congrArg Control.thread control

theorem leave_of_lowered (lowered : s.machine.draw = false) (reason : Except Raised Unit) :
    (s.leave reason).1.core = s.core ∧ (s.leave reason).1.clock = s.clock := by
  rcases s.session_leave reason with ⟨text, -, left⟩ | ⟨e, text, -, left⟩
  · rw [left]
    exact ⟨rfl, rfl⟩
  · have quiet : { s with error := some (.execution e) }.publish =
        { s with error := some (.execution e) } := if_neg (by simp [lowered])
    rw [left, quiet]
    exact ⟨rfl, rfl⟩

theorem outcome_leave (h : s.OnScale) (e : ExecutionError) (told : Tellable τ s.cycles) :
    (s.leave (.error (.error (.execution e)))).2 = .ended (.error (.execution e)) := by
  let halted : Session τ := { s with error := some (.execution e) }
  have kept : (s.keep e).OnScale := OnScale.publish (s := halted) ⟨h.journal, h.now⟩
  have cycles : (s.keep e).cycles = s.cycles := cycles_publish halted
  have reported : ((s.keep e).reportEnd (some e.message)).2 = .ok () :=
    kept.journal.outcome_finish kept.now (cycles ▸ told) _
  rw [leave_execution]
  generalize (s.keep e).reportEnd (some e.message) = y at reported ⊢
  rcases y with ⟨t, failure | _⟩
  · cases reported
  · rfl

theorem error_leave {reason : Except Raised Unit} (h : (s.leave reason).2.failure? = none) :
    (s.leave reason).1.error = s.error := by
  rcases reason with (failure | _) | _
  · cases failure with
    | execution e =>
      rw [leave_execution] at h
      generalize (s.keep e).reportEnd (some e.message) = y at h
      rcases y with ⟨t, failure | _⟩ <;> cases h
    | _ => cases h
  · rfl
  · exact (leave_ok s).2

/-! ## The failure that a run leaves -/

/-- A run that stood at `s` and takes the turn `x` has its execution errors kept, and keeps nothing
if no error ends it. -/
structure Keeps (s : Session τ) (x : Session τ × Turn) : Prop where
  fault : ∀ e, x.2 = .ended (.error (.execution e)) → x.1.error = some (.execution e)
  quiet : x.2.failure? = none → x.1.error = s.error

theorem Keeps.of_leave {reason : Except Raised Unit} (h : t.error = s.error) :
    s.Keeps (t.leave reason) := by
  constructor
  · intro e raised
    obtain rfl := reason_of_leave raised
    exact (leave_halted t e).2
  · intro quiet
    exact (error_leave quiet).trans h

theorem Keeps.congr (h : t.Keeps x) (same : t.error = s.error) : s.Keeps x :=
  ⟨h.fault, fun quiet => (h.quiet quiet).trans same⟩

theorem keeps_fallAsleep (s : Session τ) : s.Keeps s.fallAsleep := by
  unfold fallAsleep
  split
  · exact ⟨nofun, fun _ => rfl⟩
  · exact .of_leave rfl

theorem keeps_turn (s : Session τ) : s.Keeps s.turn := by
  unfold turn
  split
  · exact .of_leave rfl
  · have control := control_tick (s := s)
    generalize s.tick = y at control ⊢
    rcases y with ⟨t, failure | _⟩
    · exact .of_leave (congrArg Control.error control)
    · exact (keeps_fallAsleep t).congr (congrArg Control.error control)

theorem keeps_wake (s : Session τ) (nap : Nap τ) : s.Keeps (s.wake nap) := by
  have control := control_sleepThrough (s := s) nap
  unfold wake
  generalize s.sleepThrough nap = y at control ⊢
  rcases y with ⟨t, raised | _⟩
  · exact .of_leave (congrArg Control.error control)
  · exact (keeps_turn t).congr (congrArg Control.error control)

theorem keeps_beginRun (s : Session τ) (lag : Option (Quantity τ)) : s.Keeps (s.beginRun lag) := by
  have control := control_prepareRun (s := s) lag
  have faultless := faultless_prepareRun (s := s) lag
  unfold beginRun
  generalize s.prepareRun lag = y at control faultless ⊢
  rcases y with ⟨t, failure | _⟩
  · have left : t.leave (.error (.error failure)) = (t, .ended (.error failure)) :=
      leave_of_faultless faultless
    dsimp only
    rw [← left]
    exact .of_leave (congrArg Control.error control)
  · exact (keeps_turn t).congr (congrArg Control.error control)

theorem Keeps.error_settle (h : s.Keeps x) : (settle x).error = x.2.failure?.or s.error := by
  rcases x with ⟨t, _ | (failure | _) | _⟩
  · exact h.quiet rfl
  · cases failure with
    | execution e => exact h.fault e rfl
    | _ => rfl
  · exact h.quiet rfl
  · exact h.quiet rfl

/-! ## Turn by turn -/

/-- Takes a run through a nap, unless it has ended. -/
def resume (x : Session τ × Turn) (nap : Nap τ) : Session τ × Turn :=
  match x with
  | (s, .asleep) => s.wake nap
  | x => x

/-- The turn that ends a run which meets the given naps. -/
def lastTurn (naps : List (Nap τ)) (x : Session τ × Turn) : Session τ × Turn :=
  resume (naps.foldl resume x) stopNap

def outcome (x : Session τ × Turn) : Session τ × Except Failure Unit := (x.1, x.2.outcome)

theorem resume_of_ne (h : x.2 ≠ .asleep) (nap : Nap τ) : resume x nap = x := by
  rcases x with ⟨s, _ | _ | _⟩
  · exact absurd rfl h
  · rfl
  · rfl

theorem lastTurn_of_ne (h : x.2 ≠ .asleep) (naps : List (Nap τ)) : lastTurn naps x = x := by
  induction naps with
  | nil => exact resume_of_ne h stopNap
  | cons nap rest ih =>
    unfold lastTurn at ih ⊢
    rw [List.foldl_cons, resume_of_ne h, ih]

theorem follow_eq_outcome (naps : List (Nap τ)) (x : Session τ × Turn) :
    follow naps x = outcome (lastTurn naps x) := by
  induction naps generalizing x with
  | nil => rcases x with ⟨s, _ | _ | _⟩ <;> rfl
  | cons nap rest ih =>
    rcases x with ⟨s, _ | _ | _⟩
    · exact ih (s.wake nap)
    · rw [lastTurn_of_ne (by rintro ⟨⟩)]
      rfl
    · rw [lastTurn_of_ne (by rintro ⟨⟩)]
      rfl

theorem exists_wake_stopNap (s : Session τ) :
    ∃ (t : Session τ) (reason : Except Raised Unit), s.wake stopNap = t.leave reason := by
  refine ⟨{ s with stopRequested := s.stopRequested || true }, .ok (), ?_⟩
  have flag : ({ s with stopRequested := s.stopRequested || true } : Session τ).stopRequested =
      true := Bool.or_true _
  exact if_pos flag

theorem Keeps.resume (h : s.Keeps x) (nap : Nap τ) : s.Keeps (resume x nap) := by
  rcases x with ⟨t, _ | _ | _⟩
  · exact (keeps_wake t nap).congr (h.quiet rfl)
  · exact h
  · exact h

theorem Keeps.lastTurn (h : s.Keeps x) (naps : List (Nap τ)) : s.Keeps (lastTurn naps x) := by
  induction naps generalizing x with
  | nil => exact h.resume stopNap
  | cons nap rest ih => exact ih (h.resume nap)

/-! ## The thread -/

def onThread (s : Session τ) (thread : Thread) : Session τ := { s with thread }

def moved {α : Type} (thread : Thread) (x : Session τ × α) : Session τ × α :=
  (x.1.onThread thread, x.2)

variable (thread : Thread)

theorem moved_eq_steered {α : Type} {c : Control τ} {x : Session τ × α} (h : x.1.control = c) :
    moved thread x = steered { c with thread } x := by
  subst h
  rfl

theorem tick_onThread : (s.onThread thread).tick = moved thread s.tick :=
  (tick_under _).trans (moved_eq_steered thread control_tick).symm

theorem publish_onThread : (s.onThread thread).publish = s.publish.onThread thread := by
  refine (publish_under { s.control with thread }).trans ?_
  rw [← control_publish (s := s)]
  rfl

theorem prepareRun_onThread (lag : Option (Quantity τ)) :
    (s.onThread thread).prepareRun lag = moved thread (s.prepareRun lag) :=
  (prepareRun_under { s.control with thread } lag).trans
    (moved_eq_steered thread (control_prepareRun lag)).symm

theorem leave_onThread (reason : Except Raised Unit) :
    (s.onThread thread).leave reason = moved thread (s.leave reason) := by
  have concluded (outcome : Except Failure Unit) (x : Session τ × Except Failure Unit) :
      conclude outcome (moved thread x) = moved thread (conclude outcome x) := by
    rcases x with ⟨t, e | _⟩ <;> rfl
  rcases reason with (failure | _) | _
  · cases failure with
    | execution e =>
      have kept : (s.onThread thread).keep e = (s.keep e).onThread thread :=
        publish_onThread (s := { s with error := some (.execution e) }) thread
      rw [leave_execution, kept, leave_execution]
      exact concluded _ ((s.keep e).reportEnd (some e.message))
    | _ => rfl
  · rfl
  · exact concluded _ (s.reportEnd none)

theorem turn_onThread : (s.onThread thread).turn = moved thread s.turn := by
  unfold turn
  rw [show (s.onThread thread).stopRequested = s.stopRequested from rfl, tick_onThread]
  split
  · exact leave_onThread thread _
  · generalize s.tick = y
    rcases y with ⟨t, failure | _⟩
    · exact leave_onThread thread _
    · show fallAsleep (t.onThread thread) = moved thread t.fallAsleep
      unfold fallAsleep
      rw [show (t.onThread thread).config = t.config from rfl]
      split
      · rfl
      · exact leave_onThread thread _

theorem beginRun_onThread (lag : Option (Quantity τ)) :
    (s.onThread thread).beginRun lag = moved thread (s.beginRun lag) := by
  unfold beginRun
  rw [prepareRun_onThread]
  generalize s.prepareRun lag = y
  rcases y with ⟨t, failure | _⟩
  · rfl
  · exact turn_onThread thread

/-- A thread stands where its last turn left it, whatever it was noted to be before. -/
theorem settle_moved (x : Session τ × Turn) : settle (moved thread x) = settle x := by
  rcases x with ⟨s, _ | (failure | _) | _⟩
  · rfl
  · cases failure <;> rfl
  · rfl
  · rfl

theorem thread_settle (h : x.2 ≠ .asleep) : (settle x).thread = .ended := by
  rcases x with ⟨s, _ | (failure | _) | _⟩
  · exact absurd rfl h
  · cases failure <;> rfl
  · rfl
  · rfl

/-- A session that was asked to run, with the failure and the request of earlier runs forgotten. -/
def asked (s : Session τ) : Session τ := { s with error := none, stopRequested := false }

end Session

end Chip8
