import Chip8.Proofs.Session.Lifecycle

/-! # What others see of a thread

Whoever shares a session with its thread finds it changed from one look to the next. Whatever the
thread does in between, at however fine a grain, a request to stop stands until the next start, a
thread that has ended stays ended and keeps its failure, and it ends without a failure only on a
request.
-/

namespace Chip8

/-- Nothing interrupts the sleep, though it may raise an error. -/
def Nap.Uninterrupted {τ : Type} (nap : Nap τ) : Prop :=
  ∀ text, nap.raises ≠ some (.interruption text)

namespace Session

variable {τ : Type} [TimeScale τ] {s t u : Session τ} {x : Session τ × Turn}

/-- The thread has come to its end and has left this failure, or none. -/
def EndedWith (s : Session τ) (failure : Option Failure) : Prop :=
  s.footing = (failure, .ended)

theorem EndedWith.error {failure : Option Failure} (h : s.EndedWith failure) :
    s.error = failure := congrArg Prod.fst h

theorem EndedWith.rests {failure : Option Failure} (h : s.EndedWith failure) :
    s.running = false := by
  have thread : s.thread = .ended := congrArg Prod.snd h
  rw [running, thread]
  rfl

theorem EndedWith.unique {failure failure' : Option Failure} (h : s.EndedWith failure)
    (h' : s.EndedWith failure') : failure = failure' := h.error.symm.trans h'.error

theorem endedWith_of_rests (started : s.thread ≠ .absent) (rests : s.running = false) :
    s.EndedWith s.error := by
  have thread : s.thread = .ended := by
    unfold running at rests
    cases h : s.thread with
    | absent => exact absurd h started
    | asleep => simp [h] at rests
    | ended => rfl
  rw [EndedWith, footing, thread]

theorem EndedWith.join {failure : Option Failure} (h : s.EndedWith failure) :
    s.join = failure.elim (.ok ()) .error := by
  rw [Session.join, h.error]
  cases failure <;> rfl

/-- What can become of a session between two looks at it. -/
structure Drifts (s t : Session τ) : Prop where
  flag : s.stopRequested = true → t.stopRequested = true
  idle : s.running = false → t.footing = s.footing
  alive : s.running = true → t.running = true ∨
    t.thread = .ended ∧ (t.error = none → t.stopRequested = true)

theorem Drifts.refl (s : Session τ) : s.Drifts s :=
  ⟨id, fun _ => rfl, .inl⟩

theorem EndedWith.drifts {failure : Option Failure} (h : s.EndedWith failure)
    (drifts : s.Drifts t) : t.EndedWith failure := (drifts.idle h.rests).trans h

theorem Drifts.started (h : s.Drifts t) (started : s.thread ≠ .absent) : t.thread ≠ .absent := by
  intro absent
  cases runs : s.running with
  | false => exact started ((congrArg Prod.snd (h.idle runs)).symm.trans absent)
  | true =>
    rcases h.alive runs with lives | ⟨ended, -⟩
    · simp [running, absent] at lives
    · rw [absent] at ended
      cases ended

/-- A session that finds its thread ended without a failure finds it asked to stop. -/
theorem Drifts.asked (h : s.Drifts t) (before : s.EndedWith none → s.stopRequested = true)
    (ended : t.EndedWith none) : t.stopRequested = true := by
  cases runs : s.running with
  | false => exact h.flag (before ((h.idle runs).symm.trans ended))
  | true =>
    rcases h.alive runs with lives | ⟨-, asked⟩
    · rw [ended.rests] at lives
      cases lives
    · exact asked ended.error

/-! ## Turns of the thread -/

/-- A run that stood at `s` and takes the turn `x` does not lose a request to stop, and ends without
an error only on a request. -/
structure Heeds (s : Session τ) (x : Session τ × Turn) : Prop where
  flag : s.stopRequested = true → x.1.stopRequested = true
  returned : x.2 ≠ .asleep → x.2.failure? = none → x.1.stopRequested = true

theorem stopRequested_leave (s : Session τ) (reason : Except Raised Unit) :
    (s.leave reason).1.stopRequested = s.stopRequested := by
  obtain ⟨error, control⟩ := exists_control_leave s reason
  exact congrArg Control.stopRequested control

theorem failure?_leave_error (s : Session τ) (e : Failure) :
    (s.leave (.error (.error e))).2.failure? ≠ none := by
  cases e with
  | execution e =>
    rw [leave_execution]
    generalize (s.keep e).reportEnd (some e.message) = y
    rcases y with ⟨t, failure | _⟩ <;> rintro ⟨⟩
  | _ => rintro ⟨⟩

theorem Heeds.congr (h : t.Heeds x) (flag : s.stopRequested = true → t.stopRequested = true) :
    s.Heeds x :=
  ⟨fun asked => h.flag (flag asked), h.returned⟩

theorem heeds_leave_error (s : Session τ) (e : Failure) : s.Heeds (s.leave (.error (.error e))) :=
  ⟨(stopRequested_leave s _).trans, fun _ quiet => absurd quiet (failure?_leave_error s e)⟩

theorem heeds_turn (s : Session τ) : s.Heeds s.turn := by
  cases flag : s.stopRequested with
  | true =>
    have kept : s.turn.1.stopRequested = true := by
      rw [(turn_stopped flag).1]
      exact (stopRequested_leave s _).trans flag
    exact ⟨fun _ => kept, fun _ _ => kept⟩
  | false =>
    have unasked {t : Session τ} : s.stopRequested = true → t.stopRequested = true := by
      rw [flag]
      rintro ⟨⟩
    rcases ticks : s.tick with ⟨t, e | n⟩
    · rw [(turn_failed flag ticks).1]
      exact (heeds_leave_error t e).congr unasked
    · rw [(turn_ticked flag ticks).1]
      rcases slumber_cases t {} with ⟨span, -, asleep, -⟩ | ⟨e, -, fails, -⟩
      · rw [asleep]
        exact ⟨unasked, fun woken => absurd rfl woken⟩
      · rw [fails]
        exact (heeds_leave_error t e).congr unasked

theorem heeds_wake (s : Session τ) {nap : Nap τ} (steady : nap.Uninterrupted) :
    s.Heeds (s.wake nap) := by
  have control := congrArg Control.stopRequested (control_sleepThrough (s := s) nap)
  have raises (text : String) :=
    raises_of_sleepThrough (s := s) nap (r := .interruption text)
  unfold wake
  generalize s.sleepThrough nap = y at control raises ⊢
  have flag : s.stopRequested = true → y.1.stopRequested = true := by
    intro asked
    exact control.trans (by simp [asked])
  rcases y with ⟨t, (e | text) | _⟩
  · exact (heeds_leave_error t e).congr flag
  · rcases raises text rfl with ⟨e, same, -⟩ | given
    · cases same
    · exact absurd given (steady text)
  · exact (heeds_turn t).congr flag

theorem heeds_beginRun (s : Session τ) (lag : Option (Quantity τ)) : s.Heeds (s.beginRun lag) := by
  have control := congrArg Control.stopRequested (control_prepareRun (s := s) lag)
  have faultless := faultless_prepareRun (s := s) lag
  unfold beginRun
  generalize s.prepareRun lag = y at control faultless ⊢
  rcases y with ⟨t, e | _⟩
  · exact ⟨control.trans, fun _ quiet => nomatch quiet⟩
  · exact (heeds_turn t).congr control.trans

theorem stopRequested_settle (x : Session τ × Turn) :
    (settle x).stopRequested = x.1.stopRequested := by
  rcases x with ⟨s, _ | (e | _) | _⟩
  · rfl
  · cases e <;> rfl
  · rfl
  · rfl

theorem Keeps.drifts (keeps : s.Keeps x) (heeds : s.Heeds x) (runs : s.running = true) :
    s.Drifts (settle x) where
  flag asked := (stopRequested_settle x).trans (heeds.flag asked)
  idle rests := by
    rw [runs] at rests
    cases rests
  alive _ := by
    by_cases asleep : x.2 = .asleep
    · left
      rw [Roles.running_settle, asleep]
      rfl
    · refine .inr ⟨thread_settle asleep, ?_⟩
      intro unfailed
      rw [keeps.error_settle, Option.or_eq_none_iff] at unfailed
      exact (stopRequested_settle x).trans (heeds.returned asleep unfailed.1)

theorem drifts_release (s : Session τ) {nap : Nap τ} (steady : nap.Uninterrupted) :
    s.Drifts (s.release nap) := by
  unfold release
  split
  · next runs => exact (keeps_wake s nap).drifts (heeds_wake s steady) runs
  · exact .refl s

/-! ## Starting and stopping -/

/-- A start whose thread has yet to take its first turn. -/
def spawn (s : Session τ) : Session τ × Except Failure Unit :=
  if s.running then (s, .error (.misuse .alreadyRunning)) else (s.asked.onThread .asleep, .ok ())

theorem spawn_of_rests (rests : s.running = false) :
    s.spawn = (s.asked.onThread .asleep, .ok ()) := if_neg (by simp [rests])

/-- A start is the call and the first turn of the thread. -/
theorem spawn_start (s : Session τ) (lag : Option (Quantity τ)) :
    s.spawn.2 = (s.start lag).2 ∧ s.spawn.1.Drifts (s.start lag).1 := by
  unfold spawn start
  split
  · exact ⟨rfl, .refl s⟩
  · refine ⟨rfl, ?_⟩
    have turn := Keeps.drifts (keeps_beginRun (s.asked.onThread .asleep) lag)
      (heeds_beginRun (s.asked.onThread .asleep) lag) rfl
    rw [beginRun_onThread, settle_moved] at turn
    exact turn

/-- A request to stop, of which the thread has yet to take notice. -/
def warned (s : Session τ) : Session τ := { s with stopRequested := true }

theorem running_stop (s : Session τ) : s.stop.running = false := by
  have warned : s.stop = s.warned.release {} := rfl
  rw [warned]
  unfold release
  split
  · have woken : s.warned.wake {} = s.warned.turn := by
      simp [wake, sleepThrough, setEachKey, elapseIn, Nap.raises, Session.warned]
    rw [woken, (turn_stopped (s := s.warned) rfl).1, running,
      thread_settle (leave_ne_asleep s.warned (.ok ()))]
    rfl
  · next rests => simpa using rests

end Session

end Chip8
