import Mathlib.Data.List.Induction
import Chip8.Proofs.Session.Loops

/-! # The lifecycle of a session

A driver starts, stops, joins, runs and resets a session, while the threads that it has started
go on at their own pace, from one sleep to the next. A start is refused as long as the last thread
is alive, so no two of them ever are, and the failure kept is always the last one since the session
was started or reset.
-/

namespace Chip8

inductive ThreadStage where
  /-- Started, and nothing run yet. -/
  | beginning
  /-- In the sleep between two ticks. -/
  | sleeping
  | ended
  deriving DecidableEq, Repr

def ThreadStage.isAlive : ThreadStage → Bool
  | beginning | sleeping => true
  | ended => false

@[simp] theorem ThreadStage.isAlive_ended : ended.isAlive = false := rfl

def Turn.stage : Turn → ThreadStage
  | asleep => .sleeping
  | ended _ | interrupted _ => .ended

/-- A session and all threads that were ever started on it, of which it knows the last. -/
structure Roles (τ : Type) [OfScientific τ] where
  session : Session τ
  threads : List ThreadStage := []

inductive Action (τ : Type) where
  | call (c : Call τ)
  /-- A run that blocks its caller, whose sleeps are the naps. -/
  | run (naps : List (Nap τ)) (lag : Option (Quantity τ) := none)
  | start
  | stop
  | join
  /-- A thread goes on to its next sleep or to its end, through the sleep in which it is. One that
  begins lets the time of the nap pass before its first turn. -/
  | proceed (thread : Nat) (nap : Nap τ)

namespace Roles

variable {τ : Type} [TimeScale τ]

def atTime (r : Roles τ) (now : Quantity τ) : Roles τ := { r with session := r.session.atTime now }

def turn? (r : Roles τ) (thread : Nat) (nap : Nap τ) : Option (Session τ × Turn) :=
  match r.threads[thread]? with
  | some .beginning => some (r.session.beginRun nap.time)
  | some .sleeping => some (r.session.wake nap)
  | _ => none

def proceed (r : Roles τ) (thread : Nat) (nap : Nap τ) : Roles τ :=
  match r.turn? thread nap with
  | none => r
  | some x =>
    { session :=
        if thread + 1 = r.threads.length then Session.settle x
        else (Session.settle x).onThread r.session.thread
      threads := r.threads.set thread x.2.stage }

def perform (r : Roles τ) : Action τ → Roles τ × Except Failure Answer
  | .call c => ({ r with session := (r.session.call c).1 }, (r.session.call c).2)
  | .run naps lag =>
    ({ r with session := (r.session.run naps lag).1 },
      (r.session.run naps lag).2.map fun _ => .done)
  | .start =>
    if r.session.running then (r, .error (.misuse .alreadyRunning))
    else
      ({ session := r.session.asked.onThread .asleep, threads := r.threads ++ [.beginning] },
        .ok .done)
  | .stop => ({ r with session := { r.session with stopRequested := true } }, .ok .done)
  | .join => (r, r.session.join.map fun _ => .done)
  | .proceed thread nap => (r.proceed thread nap, .ok .done)

/-! ## Failures -/

/-- The execution error of the tick or of the sleep that came last. The sleeps pass as the naps
say. -/
def lastFault (naps : List (Nap τ)) (events : List (RunEvent τ)) : Option ExecutionError :=
  match events.getLast? with
  | some ⟨.tick, s⟩ =>
    match s.tick.2 with
    | .error (.execution e) => some e
    | _ => none
  | some ⟨.sleep, s⟩ =>
    match naps[(events.map RunEvent.deed).count .sleep - 1]?.map s.slumber with
    | some (_, .error (.error (.execution e))) => some e
    | _ => none
  | _ => none

/-- What ends a run that an action goes on with. Of a run that blocks its caller only an execution
error counts. -/
def raised (r : Roles τ) : Action τ → Option Failure
  | .run naps lag =>
    (lastFault (naps ++ [Session.stopNap]) (r.session.runEvents naps lag)).map .execution
  | .proceed thread nap => (r.turn? thread nap).bind fun x => x.2.failure?
  | _ => none

def clears (r : Roles τ) (a : Action τ) : Bool :=
  match a with
  | .start | .call .reset => (r.perform a).2.isOk
  | _ => false

/-- Performs an action at a reading of the clock, and notes what ends a run until the next start
or reset. -/
def follow (x : Roles τ × List Failure) (e : Quantity τ × Action τ) : Roles τ × List Failure :=
  let r := x.1.atTime e.1
  ((r.perform e.2).1, if r.clears e.2 then [] else x.2 ++ (r.raised e.2).toList)

def after (s : Session τ) (history : List (Quantity τ × Action τ)) : Roles τ × List Failure :=
  history.foldl follow ({ session := s }, [])

end Roles

namespace Session

variable {τ : Type} [TimeScale τ] {s t : Session τ}

/-! ## The failure that a run leaves -/

variable {naps : List (Nap τ)} {lag : Option (Quantity τ)} {events : List (RunEvent τ)}
  {y : Session τ × Except Raised Unit}

theorem Loops.fault (h : s.Loops naps events y) {e : ExecutionError}
    (fails : y.2 = .error (.error (.execution e))) :
    (∃ t, events.getLast? = some ⟨.tick, t⟩ ∧ t.tick.2 = .error (.execution e)) ∨
      ∃ t, events.getLast? = some ⟨.sleep, t⟩ := by
  induction h with
  | stopped => cases fails
  | @failed s t naps failure go halts =>
    cases fails
    exact .inl ⟨s, rfl, congrArg Prod.snd halts⟩
  | @raised s t u n nap naps r go ticks raises => exact .inr ⟨t, rfl⟩
  | @round s t u n nap naps events y go ticks sleeps later ih =>
    rw [show ⟨.test, s⟩ :: ⟨.tick, s⟩ :: ⟨.sleep, t⟩ :: events =
      [⟨.test, s⟩, ⟨.tick, s⟩, ⟨.sleep, t⟩] ++ events from rfl, later.getLast?_append]
    exact ih fails

theorem Runs.fault (h : s.Runs naps lag events y) {e : ExecutionError}
    (fails : y.2 = .error (.error (.execution e))) :
    (∃ t, events.getLast? = some ⟨.tick, t⟩ ∧ t.tick.2 = .error (.execution e)) ∨
      ∃ t, events.getLast? = some ⟨.sleep, t⟩ := by
  cases h with
  | unprepared prepared =>
    have faultless := faultless_prepareRun (s := s) lag
    rw [prepared] at faultless
    cases fails
    exact absurd rfl (faultless e)
  | @loop t events y begins loops =>
    rw [show ⟨.begin, s⟩ :: events = [⟨.begin, s⟩] ++ events from rfl, loops.getLast?_append]
    exact loops.fault fails

/-- An execution error leaves the loop of a run exactly if the tick or the sleep that came last has
failed with it. -/
theorem Runs.lastFault_eq_some_iff (h : s.Runs naps lag events y) {e : ExecutionError} :
    Roles.lastFault (naps ++ [stopNap]) events = some e ↔
      y.2 = .error (.error (.execution e)) := by
  have asleep {t : Session τ} (last : events.getLast? = some ⟨.sleep, t⟩) :
      (naps ++ [stopNap])[(events.map RunEvent.deed).count .sleep - 1]?.map t.slumber =
        some y := by
    obtain ⟨k, nap, r, count, here, raises, left⟩ := h.last_sleep last
    rw [count, Nat.add_sub_cancel, here, Option.map_some, raises, ← left]
  constructor
  · intro found
    unfold Roles.lastFault at found
    split at found
    · next t last =>
      split at found
      · next failure halts =>
        cases found
        obtain ⟨-, left⟩ := h.failed_tick (List.mem_of_getLast? last)
          (show t.tick = (t.tick.1, .error (.execution e)) by rw [← halts])
        rw [left]
      · cases found
    · next t last =>
      rw [asleep last] at found
      obtain ⟨u, reason⟩ := y
      split at found
      · next same =>
        cases found
        cases same
        rfl
      · cases found
    · cases found
  · intro fails
    rcases h.fault fails with ⟨t, last, halts⟩ | ⟨t, last⟩
    · simp only [Roles.lastFault, last, halts]
    · have slept := asleep last
      obtain ⟨u, reason⟩ := y
      cases fails
      simp only [Roles.lastFault, last, slept]

theorem error_leave_of_ne {reason : Except Raised Unit}
    (h : ∀ e, reason ≠ .error (.error (.execution e))) : (s.leave reason).1.error = s.error := by
  rcases s.session_leave reason with ⟨text, -, left⟩ | ⟨e, -, fault, -⟩
  · rw [left]
    rfl
  · exact absurd fault (h e)

theorem error_run (s : Session τ) (naps : List (Nap τ)) (lag : Option (Quantity τ)) :
    (s.run naps lag).1.error =
      ((Roles.lastFault (naps ++ [stopNap]) (s.runEvents naps lag)).map Failure.execution).or
        s.error := by
  obtain ⟨y, runs, last⟩ := exists_runs s naps lag
  rw [run_of_lastTurn last]
  cases found : Roles.lastFault (naps ++ [stopNap]) (s.runEvents naps lag) with
  | some e =>
    obtain ⟨t, r⟩ := y
    obtain rfl : r = .error (.error (.execution e)) := runs.lastFault_eq_some_iff.mp found
    exact (leave_halted t e).2
  | none =>
    have other (e : ExecutionError) : y.2 ≠ .error (.error (.execution e)) := by
      intro fails
      rw [runs.lastFault_eq_some_iff.mpr fails] at found
      cases found
    exact (error_leave_of_ne other).trans runs.error

/-! ## The thread that is known -/

theorem thread_call (s : Session τ) (c : Call τ) : (s.call c).1.thread = s.thread := by
  by_cases reset : c = .reset
  · subst reset
    dsimp only [call, answered]
    unfold Session.reset
    split
    · rfl
    · cases freshMachine s.config s.rom s.name s.seed <;> rfl
  · exact congrArg Control.thread (control_call reset)

theorem thread_run (s : Session τ) (naps : List (Nap τ)) (lag : Option (Quantity τ)) :
    (s.run naps lag).1.thread = s.thread := by
  obtain ⟨y, runs, last⟩ := exists_runs s naps lag
  rw [run_of_lastTurn last]
  exact (thread_leave y.2).trans (congrArg Prod.snd runs.footing)

end Session

namespace Roles

variable {τ : Type} [TimeScale τ] {r : Roles τ}

/-- All threads have ended but possibly the last, and the session runs exactly if that one lives. -/
inductive Orderly : Roles τ → Prop where
  | idle {s : Session τ} (n : Nat) (rests : s.running = false) :
      Orderly ⟨s, List.replicate n .ended⟩
  | busy {s : Session τ} (n : Nat) {stage : ThreadStage} (alive : stage.isAlive = true)
      (runs : s.running = true) : Orderly ⟨s, List.replicate n .ended ++ [stage]⟩

theorem Orderly.countP_le (h : r.Orderly) : r.threads.countP ThreadStage.isAlive ≤ 1 := by
  cases h with
  | idle n => simp [List.countP_replicate]
  | busy n alive => simp [List.countP_replicate, alive]

theorem Orderly.running_iff (h : r.Orderly) :
    r.session.running = true ↔ ∃ stage ∈ r.threads, stage.isAlive = true := by
  cases h with
  | idle n rests => simp +contextual [rests]
  | @busy s n stage alive runs =>
    constructor
    · intro _
      exact ⟨stage, by simp, alive⟩
    · intro _
      exact runs

theorem Orderly.of_running {s : Session τ} (h : r.Orderly) (same : s.running = r.session.running) :
    Orderly { r with session := s } := by
  cases h with
  | idle n rests => exact .idle n (same.trans rests)
  | busy n alive runs => exact .busy n alive (same.trans runs)

theorem Orderly.threads_eq (h : r.Orderly) {thread : Nat} {stage : ThreadStage}
    (here : r.threads[thread]? = some stage) (alive : stage.isAlive = true) :
    r.threads = List.replicate thread .ended ++ [stage] := by
  cases h with
  | idle n =>
    obtain ⟨-, rfl⟩ : thread < n ∧ ThreadStage.ended = stage := by
      simpa [List.getElem?_replicate] using here
    cases alive
  | @busy s n last living runs =>
    rcases Nat.lt_trichotomy thread n with before | rfl | beyond
    · rw [List.getElem?_append_left (by simpa using before)] at here
      obtain rfl : ThreadStage.ended = stage := by
        simpa [List.getElem?_replicate, before] using here
      cases alive
    · obtain rfl : last = stage := by simpa using here
      rfl
    · rw [List.getElem?_eq_none (by simpa using Nat.succ_le_of_lt beyond)] at here
      cases here

theorem exists_stage_of_turn? {thread : Nat} {nap : Nap τ} {x : Session τ × Turn}
    (h : r.turn? thread nap = some x) :
    ∃ stage, r.threads[thread]? = some stage ∧ stage.isAlive = true ∧ r.session.Keeps x := by
  unfold turn? at h
  split at h
  · next here =>
    cases h
    exact ⟨_, here, rfl, Session.keeps_beginRun r.session nap.time⟩
  · next here =>
    cases h
    exact ⟨_, here, rfl, Session.keeps_wake r.session nap⟩
  · cases h

theorem running_settle (x : Session τ × Turn) :
    (Session.settle x).running = x.2.stage.isAlive := by
  rcases x with ⟨s, _ | (e | _) | _⟩
  · rfl
  · cases e <;> rfl
  · rfl
  · rfl

theorem Orderly.proceed_eq (h : r.Orderly) {thread : Nat} {nap : Nap τ} {x : Session τ × Turn}
    (turn : r.turn? thread nap = some x) :
    r.proceed thread nap =
      { session := Session.settle x, threads := List.replicate thread .ended ++ [x.2.stage] } := by
  obtain ⟨stage, here, alive, -⟩ := exists_stage_of_turn? turn
  have threads := h.threads_eq here alive
  have last : thread + 1 = r.threads.length := by simp [threads]
  unfold Roles.proceed
  rw [turn]
  dsimp only
  rw [if_pos last, threads, List.set_append_right _ _ (by simp)]
  simp

theorem Orderly.proceed (h : r.Orderly) (thread : Nat) (nap : Nap τ) :
    (r.proceed thread nap).Orderly := by
  cases turn : r.turn? thread nap with
  | none =>
    unfold Roles.proceed
    rw [turn]
    exact h
  | some x =>
    rw [h.proceed_eq turn]
    have lives := running_settle x
    cases stage : x.2.stage with
    | ended =>
      rw [stage] at lives
      rw [← List.replicate_succ']
      exact .idle _ lives
    | _ =>
      rw [stage] at lives
      exact .busy _ rfl lives

theorem start_refused (h : r.session.running = true) :
    r.perform .start = (r, .error (.misuse .alreadyRunning)) := if_pos h

theorem start_granted (h : r.session.running = false) :
    r.perform .start =
      ({ session := r.session.asked.onThread .asleep, threads := r.threads ++ [.beginning] },
        .ok .done) := if_neg (by simp [h])

theorem Orderly.perform (h : r.Orderly) (a : Action τ) : (r.perform a).1.Orderly := by
  have same {s : Session τ} (thread : s.thread = r.session.thread) :
      s.running = r.session.running := by
    rw [Session.running, thread, Session.running]
  cases a with
  | call c => exact h.of_running (same (Session.thread_call r.session c))
  | run naps lag => exact h.of_running (same (Session.thread_run r.session naps lag))
  | start =>
    cases runs : r.session.running with
    | true =>
      rw [start_refused runs]
      exact h
    | false =>
      rw [start_granted runs]
      cases h with
      | idle n => exact .busy n rfl rfl
      | busy n alive busy =>
        rw [busy] at runs
        cases runs
  | stop => exact h.of_running rfl
  | join => exact h
  | proceed thread nap => exact h.proceed thread nap

/-! ## The failure kept -/

theorem reset_refused (h : r.session.running = true) :
    r.perform (.call .reset) = (r, .error (.misuse .resetWhileRunning)) := by
  have refused : r.session.reset = (r.session, .error (.misuse .resetWhileRunning)) := by
    rw [Session.reset, if_pos h]
  unfold perform Session.call Session.answered
  dsimp only
  rw [refused]
  rfl

theorem error_call {s : Session τ} {c : Call τ} (h : c ≠ .reset) :
    (s.call c).1.error = s.error := congrArg Control.error (Session.control_call h)

theorem reset_cases (s : Session τ) :
    (s.reset.2.isOk = true ∧ s.reset.1.error = none) ∨
      (s.reset.2.isOk = false ∧ s.reset.1.error = s.error) := by
  unfold Session.reset
  split
  · exact .inr ⟨rfl, rfl⟩
  · split
    · exact .inr ⟨rfl, rfl⟩
    · exact .inl ⟨rfl, rfl⟩

theorem error_proceed (r : Roles τ) (thread : Nat) (nap : Nap τ) :
    (r.proceed thread nap).session.error =
      (r.raised (.proceed thread nap)).or r.session.error := by
  have raised : r.raised (.proceed thread nap) = (r.turn? thread nap).bind fun x => x.2.failure? :=
    rfl
  rw [raised]
  unfold proceed
  cases turn : r.turn? thread nap with
  | none => rfl
  | some x =>
    obtain ⟨stage, -, -, keeps⟩ := exists_stage_of_turn? turn
    rw [Option.bind_some]
    dsimp only
    split
    · exact keeps.error_settle
    · exact keeps.error_settle

theorem isOk_map {α β : Type} (x : Except Failure α) (f : α → β) : (x.map f).isOk = x.isOk := by
  cases x <;> rfl

/-- An action that clears leaves no failure, and any other leaves the one that it has raised or
else the one before. -/
theorem error_perform (r : Roles τ) (a : Action τ) :
    (r.perform a).1.session.error =
      if r.clears a then none else (r.raised a).or r.session.error := by
  cases a with
  | call c =>
    by_cases reset : c = .reset
    · subst reset
      have outcome : r.clears (.call .reset) = r.session.reset.2.isOk := isOk_map _ _
      show r.session.reset.1.error = _
      rw [outcome]
      rcases reset_cases r.session with ⟨ok, forgot⟩ | ⟨refused, same⟩
      · rw [ok, forgot, if_pos rfl]
      · rw [refused, same, if_neg (by decide)]
        rfl
    · have kept : r.clears (.call c) = false := by
        unfold clears
        split
        · next h => cases h
        · next h => exact absurd (Action.call.inj h) reset
        · rfl
      rw [kept, if_neg (by decide)]
      exact error_call reset
  | run naps lag => exact Session.error_run r.session naps lag
  | start =>
    cases runs : r.session.running with
    | true =>
      rw [clears, start_refused runs]
      rfl
    | false =>
      rw [clears, start_granted runs]
      rfl
  | stop => rfl
  | join => rfl
  | proceed thread nap => exact error_proceed r thread nap

theorem error_follow {x : Roles τ × List Failure} (h : x.1.session.error = x.2.getLast?)
    (e : Quantity τ × Action τ) : (follow x e).1.session.error = (follow x e).2.getLast? := by
  have kept : (x.1.atTime e.1).session.error = x.2.getLast? := h
  unfold follow
  dsimp only
  rw [error_perform, kept]
  split
  · rfl
  · rw [List.getLast?_append]
    cases (x.1.atTime e.1).raised e.2 <;> rfl

/-- What holds of the roles at all times, with the failures noted since the last start or reset. -/
structure Sound (x : Roles τ × List Failure) : Prop where
  orderly : x.1.Orderly
  error : x.1.session.error = x.2.getLast?

theorem Sound.follow {x : Roles τ × List Failure} (h : Sound x) (e : Quantity τ × Action τ) :
    Sound (follow x e) := by
  have timed : (x.1.atTime e.1).Orderly := h.orderly.of_running rfl
  exact ⟨timed.perform e.2, error_follow h.error e⟩

theorem sound_after {s : Session τ} (rests : s.running = false) (unfailed : s.error = none)
    (history : List (Quantity τ × Action τ)) : Sound (after s history) := by
  induction history using List.reverseRecOn with
  | nil => exact ⟨.idle 0 rests, unfailed⟩
  | append_singleton history e ih =>
    rw [after, List.foldl_append]
    exact ih.follow e

section Creation

variable {config : Config τ} {rom : List UInt8} {name : String} {seed : RandomKey}
  {start : Quantity τ} {s : Session τ}

/-- Whatever a driver does with a new session and however far its threads have come, at most one of
them is alive. While one is, a start and a reset are refused and change nothing. The failure kept
is the last one that has ended a run since the session was started or reset, and once no thread is
alive a join raises it or returns. -/
theorem lifecycle_safe (h : Session.create config rom name seed start = .ok s)
    (history : List (Quantity τ × Action τ)) :
    let r := (after s history).1
    let failures := (after s history).2
    r.threads.countP ThreadStage.isAlive ≤ 1 ∧
      (∀ now, (∃ stage ∈ r.threads, stage.isAlive = true) →
        (r.atTime now).perform .start = (r.atTime now, .error (.misuse .alreadyRunning)) ∧
          (r.atTime now).perform (.call .reset) =
            (r.atTime now, .error (.misuse .resetWhileRunning))) ∧
      (r.session.error.isSome = true ↔ failures ≠ []) ∧
      (∀ e, r.session.error = some e ↔ failures.getLast? = some e) ∧
      ((∀ stage ∈ r.threads, stage.isAlive = false) → ∀ now,
        (∀ e, ((r.atTime now).perform .join).2 = .error e ↔ failures.getLast? = some e) ∧
          (((r.atTime now).perform .join).2 = .ok .done ↔ failures = [])) := by
  intro r failures
  have made : s.running = false ∧ s.error = none := by
    obtain ⟨level, machine, output, -, rfl⟩ := Session.create_eq_ok h
    exact ⟨rfl, rfl⟩
  obtain ⟨orderly, error⟩ := sound_after made.1 made.2 history
  change r.Orderly at orderly
  change r.session.error = failures.getLast? at error
  refine ⟨orderly.countP_le, ?_, ?_, ?_, ?_⟩
  · rintro now alive
    have runs : (r.atTime now).session.running = true := orderly.running_iff.mpr alive
    exact ⟨start_refused runs, reset_refused runs⟩
  · rw [error]
    simp
  · intro e
    rw [error]
  · rintro - now
    have joined : ((r.atTime now).perform .join).2 = r.session.join.map fun _ => .done := rfl
    rw [joined, Session.join, error]
    cases last : failures.getLast? with
    | none =>
      have none : failures = [] := List.getLast?_eq_none_iff.mp last
      exact ⟨by simp [Except.map], by simp [Except.map, none]⟩
    | some e =>
      have some : failures ≠ [] := by
        rintro empty
        rw [empty] at last
        cases last
      exact ⟨by simp [Except.map], by simp [Except.map, some]⟩

/-- A program without an instruction, started twice and left to its thread. -/
theorem lifecycle_safe_unknown :
    ∃ s : Session Rat, Session.create {} [0xFF, 0xFF] "unknown" ⟨0, 0⟩ (.real 0) = .ok s ∧
      let history : List (Quantity Rat × Action Rat) :=
        [(.real 0, .start), (.real 0, .start), (.real 0, .proceed 0 {})]
      let r := (after s history).1
      let later := (after s (history ++ [(.real 0, .proceed 0 { time := some (.real 1) })])).1
      r.threads = [.sleeping] ∧ later.threads = [.ended] ∧
        (r.atTime (.real 0)).perform .start =
          (r.atTime (.real 0), .error (.misuse .alreadyRunning)) ∧
        ∃ e, ((later.atTime (.real 2)).perform .join).2 = .error e := by
  have info : LogLevel.ofName? ({} : Config Rat).logLevel = some .info := by decide +kernel
  obtain ⟨s, made⟩ : ∃ s : Session Rat,
      Session.create {} [0xFF, 0xFF] "unknown" ⟨0, 0⟩ (.real 0) = .ok s :=
    Session.exists_create info (by decide) (Quantity.measurableFrom_real 0 0)
  refine ⟨s, made, ?_⟩
  intro history r later
  let ending := history ++ [(.real 0, .proceed 0 { time := some (.real 1) })]
  obtain ⟨sleeping, ended, failed⟩ : r.threads = [.sleeping] ∧ later.threads = [.ended] ∧
      (after s ending).2.length = 1 := by
    have run : (Session.create {} [0xFF, 0xFF] "unknown" ⟨0, 0⟩ (.real 0)).toOption.all
        (fun s : Session Rat => (after s history).1.threads == [.sleeping] &&
          (after s ending).1.threads == [.ended] && (after s ending).2.length == 1) = true := by
      decide +kernel
    rw [made] at run
    simpa [Except.toOption, and_assoc] using run
  obtain ⟨-, refused, -⟩ := lifecycle_safe made history
  obtain ⟨-, -, -, -, joins⟩ := lifecycle_safe made ending
  obtain ⟨failure, last⟩ : ∃ e, (after s ending).2.getLast? = some e := by
    cases last : (after s ending).2.getLast? with
    | none =>
      rw [List.getLast?_eq_none_iff.mp last] at failed
      cases failed
    | some e => exact ⟨e, rfl⟩
  have alive : ∃ stage ∈ r.threads, stage.isAlive = true := by
    rw [sleeping]
    exact ⟨.sleeping, List.mem_cons_self, rfl⟩
  have finished : ∀ stage ∈ later.threads, stage.isAlive = false := by
    rw [ended]
    simp
  exact ⟨sleeping, ended, (refused (.real 0) alive).1, failure,
    ((joins finished (.real 2)).1 failure).mpr last⟩

end Creation

/-! ## The driver's commands -/

theorem Orderly.start_proceed (h : r.Orderly) (rests : r.session.running = false) (nap : Nap τ) :
    ((r.perform .start).1.proceed r.threads.length nap).session =
      (r.session.start nap.time).1 := by
  have started := h.perform .start
  have begins := Session.beginRun_onThread (s := r.session.asked) .asleep nap.time
  rw [start_granted rests] at started ⊢
  have turn : Roles.turn? ⟨r.session.asked.onThread .asleep, r.threads ++ [.beginning]⟩
      r.threads.length nap = some ((r.session.asked.onThread .asleep).beginRun nap.time) := by
    simp [turn?]
  rw [started.proceed_eq turn, begins, Session.settle_moved, Session.start, if_neg (by simp [rests])]
  rfl

theorem Orderly.proceed_of_sleeping (h : r.Orderly) {thread : Nat}
    (here : r.threads[thread]? = some .sleeping) (nap : Nap τ) :
    (r.proceed thread nap).session = r.session.release nap := by
  have runs : r.session.running = true :=
    h.running_iff.mpr ⟨.sleeping, List.mem_of_getElem? here, rfl⟩
  have turn : r.turn? thread nap = some (r.session.wake nap) := by
    rw [turn?, here]
  rw [h.proceed_eq turn, Session.release, if_pos runs]

theorem Orderly.stop_proceed (h : r.Orderly) {thread : Nat}
    (here : r.threads[thread]? = some .sleeping) :
    ((r.perform .stop).1.proceed thread {}).session = r.session.stop :=
  (h.perform .stop).proceed_of_sleeping here {}

end Roles

end Chip8
