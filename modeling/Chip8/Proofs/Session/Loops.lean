import Chip8.Proofs.Session.Exits

/-! # The loop of a run

A run goes round a loop: it tests the stop flag, ticks and sleeps. It leaves the loop when the
flag is found raised, when a tick fails or when the sleep raises, and each of these has its own
way out. On the session's thread the same loop runs from one sleep to the next.
-/

namespace Chip8

/-- What a run does. -/
inductive Deed where
  | begin
  /-- The stop flag is looked at. -/
  | test
  | tick
  | sleep
  deriving DecidableEq, Repr

structure RunEvent (τ : Type) [OfScientific τ] where
  deed : Deed
  session : Session τ

namespace Session

variable {τ : Type} [TimeScale τ]

/-! ## Events -/

def turnEvents (s : Session τ) : List (RunEvent τ) :=
  if s.stopRequested then [⟨.test, s⟩]
  else
    match s.tick with
    | (t, .ok _) => [⟨.test, s⟩, ⟨.tick, s⟩, ⟨.sleep, t⟩]
    | (_, .error _) => [⟨.test, s⟩, ⟨.tick, s⟩]

def wakeEvents (s : Session τ) (nap : Nap τ) : List (RunEvent τ) :=
  match s.sleepThrough nap with
  | (s, .ok ()) => s.turnEvents
  | (_, .error _) => []

def beginEvents (s : Session τ) (lag : Option (Quantity τ)) : List (RunEvent τ) :=
  ⟨.begin, s⟩ ::
    match s.prepareRun lag with
    | (s, .ok ()) => s.turnEvents
    | (_, .error _) => []

def followEvents : List (Nap τ) → Session τ × Turn → List (RunEvent τ)
  | [], (s, .asleep) => s.wakeEvents stopNap
  | nap :: rest, (s, .asleep) => s.wakeEvents nap ++ followEvents rest (s.wake nap)
  | _, _ => []

def runEvents (s : Session τ) (naps : List (Nap τ)) (lag : Option (Quantity τ) := none) :
    List (RunEvent τ) :=
  s.beginEvents lag ++ followEvents naps (s.beginRun lag)

/-! ## The loop and its exits -/

/-- The session once it has called for a sleep of a span. -/
def drowsy (s : Session τ) (span : τ) : Session τ :=
  { s with surroundings := { s.surroundings with sleeps := s.surroundings.sleeps.push span } }

def slumber (s : Session τ) (nap : Nap τ) : Session τ × Except Raised Unit :=
  match s.config.tickSleep.toReal with
  | .ok span => (s.drowsy span).sleepThrough nap
  | .error e => (s, .error (.error e))

/-- The loop, entered in a session, is left for a reason when it meets the given naps. -/
inductive Loops :
    Session τ → List (Nap τ) → List (RunEvent τ) → Session τ × Except Raised Unit → Prop where
  | stopped {s : Session τ} {naps : List (Nap τ)} (flag : s.stopRequested = true) :
      Loops s naps [⟨.test, s⟩] (s, .ok ())
  | failed {s t : Session τ} {naps : List (Nap τ)} {e : Failure} (go : s.stopRequested = false)
      (fails : s.tick = (t, .error e)) :
      Loops s naps [⟨.test, s⟩, ⟨.tick, s⟩] (t, .error (.error e))
  | raised {s t u : Session τ} {n : Int} {nap : Nap τ} {naps : List (Nap τ)} {r : Raised}
      (go : s.stopRequested = false) (ticks : s.tick = (t, .ok n))
      (raises : t.slumber nap = (u, .error r)) :
      Loops s (nap :: naps) [⟨.test, s⟩, ⟨.tick, s⟩, ⟨.sleep, t⟩] (u, .error r)
  | round {s t u : Session τ} {n : Int} {nap : Nap τ} {naps : List (Nap τ)}
      {events : List (RunEvent τ)} {x : Session τ × Except Raised Unit}
      (go : s.stopRequested = false) (ticks : s.tick = (t, .ok n))
      (sleeps : t.slumber nap = (u, .ok ())) (later : Loops u naps events x) :
      Loops s (nap :: naps) (⟨.test, s⟩ :: ⟨.tick, s⟩ :: ⟨.sleep, t⟩ :: events) x

/-- A run restarts the clock, reports its start and enters the loop. When the naps are used up
it is asked to stop. -/
inductive Runs (s : Session τ) (naps : List (Nap τ)) (lag : Option (Quantity τ)) :
    List (RunEvent τ) → Session τ × Except Raised Unit → Prop where
  | unprepared {t : Session τ} {e : Failure} (fails : s.prepareRun lag = (t, .error e)) :
      Runs s naps lag [⟨.begin, s⟩] (t, .error (.error e))
  | loop {t : Session τ} {events : List (RunEvent τ)} {x : Session τ × Except Raised Unit}
      (begins : s.prepareRun lag = (t, .ok ())) (loops : t.Loops (naps ++ [stopNap]) events x) :
      Runs s naps lag (⟨.begin, s⟩ :: events) x

variable {s t u : Session τ} {nap : Nap τ} {naps : List (Nap τ)} {lag : Option (Quantity τ)}
  {events : List (RunEvent τ)} {x : Session τ × Except Raised Unit}

theorem followEvents_of_ne {y : Session τ × Turn} (h : y.2 ≠ .asleep) (naps : List (Nap τ)) :
    followEvents naps y = [] := by
  rcases y with ⟨s, _ | _ | _⟩
  · exact absurd rfl h
  · cases naps <;> rfl
  · cases naps <;> rfl

theorem lastTurn_leave (naps : List (Nap τ)) (s : Session τ) (reason : Except Raised Unit) :
    lastTurn naps (s.leave reason) = s.leave reason ∧
      followEvents naps (s.leave reason) = [] :=
  ⟨lastTurn_of_ne (leave_ne_asleep s reason) naps,
    followEvents_of_ne (leave_ne_asleep s reason) naps⟩

theorem turn_stopped (flag : s.stopRequested = true) :
    s.turn = s.leave (.ok ()) ∧ s.turnEvents = [⟨.test, s⟩] := by
  rw [turn, turnEvents, if_pos flag, if_pos flag]
  exact ⟨rfl, rfl⟩

theorem turn_failed {e : Failure} (go : s.stopRequested = false) (fails : s.tick = (t, .error e)) :
    s.turn = t.leave (.error (.error e)) ∧ s.turnEvents = [⟨.test, s⟩, ⟨.tick, s⟩] := by
  rw [turn, turnEvents, if_neg (by simp [go]), if_neg (by simp [go]), fails]
  exact ⟨rfl, rfl⟩

theorem turn_ticked {n : Int} (go : s.stopRequested = false) (ticks : s.tick = (t, .ok n)) :
    s.turn = t.fallAsleep ∧ s.turnEvents = [⟨.test, s⟩, ⟨.tick, s⟩, ⟨.sleep, t⟩] := by
  rw [turn, turnEvents, if_neg (by simp [go]), if_neg (by simp [go]), ticks]
  exact ⟨rfl, rfl⟩

/-- A sleep of a span on the time scale passes as its nap lets it. Any other is refused. -/
theorem slumber_cases (s : Session τ) (nap : Nap τ) :
    (∃ span, s.config.tickSleep.toReal = .ok span ∧ s.fallAsleep = (s.drowsy span, .asleep) ∧
        s.slumber nap = (s.drowsy span).sleepThrough nap) ∨
      ∃ e, s.config.tickSleep.toReal = .error e ∧
        s.fallAsleep = s.leave (.error (.error e)) ∧ s.slumber nap = (s, .error (.error e)) := by
  unfold slumber fallAsleep
  cases s.config.tickSleep.toReal with
  | ok span => exact .inl ⟨span, rfl, rfl, rfl⟩
  | error e => exact .inr ⟨e, rfl, rfl, rfl⟩

theorem stopRequested_slumber (slept : s.slumber nap = (t, .ok ())) :
    t.stopRequested = (s.stopRequested || nap.stop) := by
  rcases slumber_cases s nap with ⟨span, -, -, sleeps⟩ | ⟨e, -, -, fails⟩
  · have control := control_sleepThrough (s := s.drowsy span) nap
    rw [← sleeps, slept] at control
    exact congrArg Control.stopRequested control
  · rw [fails] at slept
    cases slept

/-- A turn is settled by the flag, by its tick or by the sleep after it, and by the rest of the
loop if the sleep passes. -/
theorem exists_loops_round {later rest : List (Nap τ)}
    (resumes : ∀ u : Session τ, lastTurn naps (u, .asleep) = lastTurn later (u.wake nap) ∧
      followEvents naps (u, .asleep) = u.wakeEvents nap ++ followEvents later (u.wake nap))
    (next : ∀ t u : Session τ, t.slumber nap = (u, .ok ()) → ∃ x,
      u.Loops rest (u.turnEvents ++ followEvents later u.turn) x ∧
        lastTurn later u.turn = x.1.leave x.2) :
    ∃ x, s.Loops (nap :: rest) (s.turnEvents ++ followEvents naps s.turn) x ∧
      lastTurn naps s.turn = x.1.leave x.2 := by
  cases flag : s.stopRequested with
  | true =>
    obtain ⟨turn, events⟩ := turn_stopped flag
    obtain ⟨last, none⟩ := lastTurn_leave naps s (.ok ())
    rw [turn, events, last, none]
    exact ⟨(s, .ok ()), .stopped flag, rfl⟩
  | false =>
    rcases ticks : s.tick with ⟨t, e | n⟩
    · obtain ⟨turn, events⟩ := turn_failed flag ticks
      obtain ⟨last, none⟩ := lastTurn_leave naps t (.error (.error e))
      rw [turn, events, last, none]
      exact ⟨(t, .error (.error e)), .failed flag ticks, rfl⟩
    · obtain ⟨turn, events⟩ := turn_ticked flag ticks
      rw [turn, events]
      rcases slumber_cases t nap with ⟨span, -, asleep, slumber⟩ | ⟨e, -, fails, slumber⟩
      · obtain ⟨follows, logs⟩ := resumes (t.drowsy span)
        rw [asleep, follows, logs]
        unfold wake wakeEvents
        generalize (t.drowsy span).sleepThrough nap = y at slumber ⊢
        rcases y with ⟨u, r | _⟩
        · obtain ⟨last, none⟩ := lastTurn_leave later u (.error r)
          dsimp only
          rw [last, none]
          exact ⟨(u, .error r), .raised flag ticks slumber, rfl⟩
        · obtain ⟨x, loops, left⟩ := next t u slumber
          exact ⟨x, .round flag ticks slumber loops, left⟩
      · obtain ⟨last, none⟩ := lastTurn_leave naps t (.error (.error e))
        rw [fails, last, none]
        exact ⟨(t, .error (.error e)), .raised flag ticks slumber, rfl⟩

theorem exists_loops_turn (s : Session τ) (naps : List (Nap τ)) :
    ∃ x, s.Loops (naps ++ [stopNap]) (s.turnEvents ++ followEvents naps s.turn) x ∧
      lastTurn naps s.turn = x.1.leave x.2 := by
  induction naps generalizing s with
  | nil =>
    -- The last nap asks for the stop that the next test of the flag finds.
    have resumed (u : Session τ) : (u.wake stopNap).2 ≠ .asleep := by
      obtain ⟨t, reason, left⟩ := exists_wake_stopNap u
      rw [left]
      exact leave_ne_asleep t reason
    apply exists_loops_round
    · intro u
      constructor
      · exact (lastTurn_of_ne (resumed u) []).symm
      · rw [followEvents_of_ne (resumed u), List.append_nil]
        rfl
    · intro t u slept
      have flag : u.stopRequested = true := by
        rw [stopRequested_slumber slept]
        exact Bool.or_true _
      obtain ⟨turn, events⟩ := turn_stopped flag
      obtain ⟨last, none⟩ := lastTurn_leave [] u (.ok ())
      rw [turn, events, last, none]
      exact ⟨(u, .ok ()), .stopped flag, rfl⟩
  | cons nap rest ih =>
    apply exists_loops_round
    · intro u
      exact ⟨rfl, rfl⟩
    · rintro t u -
      exact ih u

theorem exists_runs (s : Session τ) (naps : List (Nap τ)) (lag : Option (Quantity τ)) :
    ∃ x, s.Runs naps lag (s.runEvents naps lag) x ∧
      lastTurn naps (s.beginRun lag) = x.1.leave x.2 := by
  have faultless := faultless_prepareRun (s := s) lag
  unfold runEvents beginEvents beginRun
  generalize prepared : s.prepareRun lag = y at faultless ⊢
  rcases y with ⟨t, e | _⟩
  · have left : t.leave (.error (.error e)) = (t, .ended (.error e)) :=
      leave_of_faultless faultless
    obtain ⟨last, none⟩ := lastTurn_leave naps t (.error (.error e))
    dsimp only
    rw [← left, last, none]
    exact ⟨(t, .error (.error e)), .unprepared prepared, rfl⟩
  · obtain ⟨x, loops, left⟩ := exists_loops_turn t naps
    exact ⟨x, .loop prepared loops, left⟩

/-- A blocking run answers with the way out that it takes. -/
theorem run_of_lastTurn (left : lastTurn naps (s.beginRun lag) = x.1.leave x.2) :
    s.run naps lag = outcome (x.1.leave x.2) := by
  rw [run, follow_eq_outcome, left]

/-! ## What the events tell -/

theorem config_slumber (s : Session τ) (nap : Nap τ) : (s.slumber nap).1.config = s.config := by
  rcases slumber_cases s nap with ⟨span, -, -, sleeps⟩ | ⟨e, -, -, fails⟩
  · rw [sleeps]
    have fixed := (fixtures_lasting s.fixtures).sleepThrough (s := s.drowsy span) nap rfl
    exact congrArg Prod.fst fixed
  · rw [fails]

theorem Loops.lasting {P : Session τ → Prop} (lasting : Lasting P) (h : s.Loops naps events x)
    (hs : P s) : P x.1 := by
  have ticked {s t : Session τ} {r : Except Failure Int} (ticks : s.tick = (t, r)) (hs : P s) :
      P t := by
    have kept := lasting.tick hs
    rwa [ticks] at kept
  have slept {s t : Session τ} {nap : Nap τ} {r : Except Raised Unit}
      (sleeps : s.slumber nap = (t, r)) (hs : P s) : P t := by
    have kept : P (s.slumber nap).1 := by
      rcases slumber_cases s nap with ⟨span, -, -, passes⟩ | ⟨e, -, -, fails⟩
      · rw [passes]
        exact lasting.sleepThrough nap (lasting.beside hs rfl)
      · rwa [fails]
    rwa [sleeps] at kept
  induction h with
  | stopped => exact hs
  | failed _ fails => exact ticked fails hs
  | raised _ ticks raises => exact slept raises (ticked ticks hs)
  | round _ ticks sleeps _ ih => exact ih (slept sleeps (ticked ticks hs))

/-- The deeds of one time round the loop. -/
def lap : List Deed := [.test, .tick, .sleep]

theorem sleeps_tick {r : Except Failure Int} (h : s.tick = (t, r)) :
    t.surroundings.sleeps = s.surroundings.sleeps := by
  have control := control_tick (s := s)
  rw [h] at control
  exact congrArg Control.sleeps control

theorem sleeps_slumber {span : τ} (real : s.config.tickSleep.toReal = .ok span)
    {r : Except Raised Unit} (h : s.slumber nap = (t, r)) :
    t.surroundings.sleeps = s.surroundings.sleeps.push span := by
  rcases slumber_cases s nap with ⟨span', real', -, sleeps⟩ | ⟨e, fails, -, -⟩
  · have control := control_sleepThrough (s := s.drowsy span') nap
    rw [← sleeps, h] at control
    rw [real] at real'
    cases real'
    exact congrArg Control.sleeps control
  · rw [real] at fails
    cases fails

theorem config_tick {r : Except Failure Int} (h : s.tick = (t, r)) : t.config = s.config := by
  obtain ⟨config, -⟩ := call_keeps (s := s) .tick
  exact (congrArg (fun x => x.1.config) h).symm.trans config

theorem Loops.sleeps (h : s.Loops naps events x) {span : τ}
    (real : s.config.tickSleep.toReal = .ok span) :
    x.1.surroundings.sleeps.toList = s.surroundings.sleeps.toList ++
      List.replicate ((events.map RunEvent.deed).count .sleep) span := by
  induction h with
  | stopped => simp
  | failed _ fails => simp [sleeps_tick fails]
  | raised _ ticks raises =>
    rw [← config_tick ticks] at real
    simp [sleeps_slumber real raises, sleeps_tick ticks]
  | @round s t u n nap naps events x go ticks sleeps later ih =>
    have config : u.config = t.config := by
      rw [← config_slumber t nap, sleeps]
    rw [← config_tick ticks] at real
    rw [ih (config ▸ real), sleeps_slumber real sleeps, sleeps_tick ticks]
    simp [List.replicate_succ]

/-- What the loop of a run leaves alone: the failure kept and the thread. -/
def footing (s : Session τ) : Option Failure × Thread := (s.error, s.thread)

theorem footing_of_control {c : Control τ} (h : s.control = c) :
    s.footing = (c.error, c.thread) := by
  subst h
  rfl

theorem footing_tick {r : Except Failure Int} (h : s.tick = (t, r)) : t.footing = s.footing := by
  have control := control_tick (s := s)
  rw [h] at control
  exact footing_of_control control

theorem footing_slumber {r : Except Raised Unit} (h : s.slumber nap = (t, r)) :
    t.footing = s.footing := by
  rcases slumber_cases s nap with ⟨span, -, -, sleeps⟩ | ⟨e, -, -, fails⟩
  · have control := control_sleepThrough (s := s.drowsy span) nap
    rw [← sleeps, h] at control
    exact footing_of_control control
  · rw [fails] at h
    cases h
    rfl

theorem Loops.footing (h : s.Loops naps events x) : x.1.footing = s.footing := by
  induction h with
  | stopped => rfl
  | failed _ fails => exact footing_tick fails
  | raised _ ticks raises => exact (footing_slumber raises).trans (footing_tick ticks)
  | round _ ticks sleeps _ ih =>
    exact ih.trans ((footing_slumber sleeps).trans (footing_tick ticks))

theorem Loops.getLast?_append (h : s.Loops naps events x) (before : List (RunEvent τ)) :
    (before ++ events).getLast? = events.getLast? := by
  have some : events ≠ [] := by
    cases h <;> simp
  simp [List.getLast?_append, List.getLast?_eq_some_getLast some]

theorem Loops.failed_tick (h : s.Loops naps events x) {e : Failure}
    (mem : ⟨.tick, t⟩ ∈ events) (fails : t.tick = (u, .error e)) :
    events.getLast? = some ⟨.tick, t⟩ ∧ x = (u, .error (.error e)) := by
  induction h with
  | stopped => simp at mem
  | failed _ fails' =>
    obtain rfl : t = _ := by simpa using mem
    rw [fails] at fails'
    cases fails'
    exact ⟨rfl, rfl⟩
  | raised _ ticks =>
    obtain rfl : t = _ := by simpa using mem
    rw [fails] at ticks
    cases ticks
  | @round s v w n nap naps events x go ticks sleeps later ih =>
    obtain rfl | mem : t = s ∨ ⟨.tick, t⟩ ∈ events := by simpa using mem
    · rw [fails] at ticks
      cases ticks
    · obtain ⟨last, left⟩ := ih mem
      exact ⟨(later.getLast?_append [⟨.test, s⟩, ⟨.tick, s⟩, ⟨.sleep, v⟩]).trans last, left⟩

theorem Loops.last_sleep (h : s.Loops naps events x) (last : events.getLast? = some ⟨.sleep, t⟩) :
    ∃ k nap r, (events.map RunEvent.deed).count .sleep = k + 1 ∧ naps[k]? = some nap ∧
      t.slumber nap = (x.1, .error r) ∧ x.2 = .error r := by
  induction h with
  | stopped => cases last
  | failed => cases last
  | raised _ _ raises =>
    cases last
    exact ⟨0, _, _, rfl, rfl, raises, rfl⟩
  | @round s v u n nap naps events x go ticks sleeps later ih =>
    obtain ⟨k, nap', r, count, here, raises, left⟩ :=
      ih ((later.getLast?_append [⟨.test, s⟩, ⟨.tick, s⟩, ⟨.sleep, v⟩]).symm.trans last)
    exact ⟨k + 1, nap', r, by simp [count], here, raises, left⟩

/-! ## Whole runs -/

theorem config_prepareRun {r : Except Failure Unit} (h : s.prepareRun lag = (t, r)) :
    t.config = s.config := by
  have fixed := (fixtures_lasting s.fixtures).prepareRun lag (s := s) rfl
  rw [h] at fixed
  exact congrArg Prod.fst fixed

theorem control_of_prepareRun {r : Except Failure Unit} (h : s.prepareRun lag = (t, r)) :
    t.control = s.control := by
  have control := control_prepareRun (s := s) lag
  rwa [h] at control

theorem Runs.sleeps (h : s.Runs naps lag events x) {span : τ}
    (real : s.config.tickSleep.toReal = .ok span) :
    x.1.surroundings.sleeps.toList = s.surroundings.sleeps.toList ++
      List.replicate ((events.map RunEvent.deed).count .sleep) span := by
  cases h with
  | unprepared fails =>
    have same := congrArg Control.sleeps (control_of_prepareRun fails)
    simp only [Session.control] at same
    simp [same]
  | @loop t events x begins loops =>
    have same := congrArg Control.sleeps (control_of_prepareRun begins)
    simp only [Session.control] at same
    rw [loops.sleeps (config_prepareRun begins ▸ real), same]
    simp

theorem Runs.footing (h : s.Runs naps lag events x) : x.1.footing = s.footing := by
  cases h with
  | unprepared fails => exact footing_of_control (control_of_prepareRun fails)
  | loop begins loops =>
    exact loops.footing.trans (footing_of_control (control_of_prepareRun begins))

theorem Runs.error (h : s.Runs naps lag events x) : x.1.error = s.error := congrArg Prod.fst h.footing

theorem Runs.failed_tick (h : s.Runs naps lag events x) {e : Failure} (mem : ⟨.tick, t⟩ ∈ events)
    (fails : t.tick = (u, .error e)) :
    events.getLast? = some ⟨.tick, t⟩ ∧ x = (u, .error (.error e)) := by
  cases h with
  | unprepared => simp at mem
  | loop _ loops =>
    simp only [List.mem_cons, RunEvent.mk.injEq, reduceCtorEq, false_and, false_or] at mem
    obtain ⟨last, left⟩ := loops.failed_tick mem fails
    exact ⟨(loops.getLast?_append [⟨.begin, s⟩]).trans last, left⟩

theorem Runs.last_sleep (h : s.Runs naps lag events x) (last : events.getLast? = some ⟨.sleep, t⟩) :
    ∃ k nap r, (events.map RunEvent.deed).count .sleep = k + 1 ∧
      (naps ++ [stopNap])[k]? = some nap ∧ t.slumber nap = (x.1, .error r) ∧ x.2 = .error r := by
  cases h with
  | unprepared => cases last
  | loop _ loops =>
    obtain ⟨k, nap, r, count, found⟩ :=
      loops.last_sleep ((loops.getLast?_append [⟨.begin, s⟩]).symm.trans last)
    exact ⟨k, nap, r, by simp [count], found⟩

theorem Runs.lasting {P : Session τ → Prop} (lasting : Lasting P) (h : s.Runs naps lag events x)
    (hs : P s) : P x.1 := by
  have prepared := lasting.prepareRun lag hs
  cases h with
  | unprepared fails => rwa [fails] at prepared
  | loop begins loops =>
    rw [begins] at prepared
    exact loops.lasting lasting prepared

/-! ## Tests of the flag -/

section Creation

variable {config : Config τ} {rom : List UInt8} {name : String} {seed : RandomKey}
  {start : Quantity τ}

end Creation

end Session

end Chip8
