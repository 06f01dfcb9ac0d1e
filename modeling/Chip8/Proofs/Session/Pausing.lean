import Chip8.Proofs.Clock.Stretches
import Chip8.Proofs.Session.Beats
import Chip8.Proofs.Session.Driving

/-! # Pausing

Every run restarts the clock, so the runs of a session are the stretches of time that its clock
measures. A session that is driven by runs executes in each of them the floor of frequency times
the time up to its last tick, however long it is stopped between them.
-/

namespace Chip8

open Stretch

/-! ## Runs as stretches -/

/-- Restarts the clock or reads it. -/
def Deed.readsClock : Deed → Bool
  | begin | tick => true
  | test | sleep => false

namespace RunEvent

def reading (e : RunEvent Rat) : Rat := e.session.surroundings.now.value

/-- A run begins a stretch, and its ticks extend it. -/
def noted (stretches : List Stretch) (e : RunEvent Rat) : List Stretch :=
  match e.deed with
  | .begin => ⟨e.reading, e.reading⟩ :: stretches
  | .tick => extend stretches e.reading
  | .test | .sleep => stretches

def stretches (events : List (RunEvent Rat)) : List Stretch := events.foldl noted []

def readings (events : List (RunEvent Rat)) : List Rat :=
  (events.filter fun e => e.deed.readsClock).map reading

def grants (events : List (RunEvent Rat)) : List (Except Failure Due) :=
  (events.filter fun e => e.deed == .tick).map fun e => e.session.readClock.2

theorem stretches_concat (events : List (RunEvent Rat)) (e : RunEvent Rat) :
    stretches (events ++ [e]) = noted (stretches events) e := by
  simp [stretches]

theorem stretches_run (events : List (RunEvent Rat)) (s : Session Rat)
    {later : List (RunEvent Rat)} (same : ∀ e ∈ later, e.deed ≠ .begin) :
    stretches (events ++ ⟨.begin, s⟩ :: later) =
      ⟨s.surroundings.now.value, (readings later).getLast?.getD s.surroundings.now.value⟩ ::
        stretches events := by
  induction later using List.reverseRecOn with
  | nil => exact stretches_concat events ⟨.begin, s⟩
  | append_singleton later e ih =>
    have before := ih fun e mem => same e (List.mem_append_left _ mem)
    obtain ⟨deed, t⟩ := e
    rw [← List.cons_append, ← List.append_assoc, stretches_concat, before]
    cases deed with
    | begin => exact absurd rfl (same ⟨.begin, t⟩ (by simp))
    | test | sleep => simp [noted, readings, Deed.readsClock]
    | tick => simp [noted, extend, readings, Deed.readsClock, reading]

end RunEvent

/-! ## Settings -/

theorem Quantity.value_pos {q : Quantity Rat} (h : ¬q.isNotPositive = true) : 0 < q.value := by
  cases q with
  | whole n => simpa [isNotPositive, value] using h
  | real x =>
    have positive : ¬x ≤ 0 := by simpa [isNotPositive, TimeScale.le, TimeScale.zero] using h
    exact not_le.mp positive

theorem Config.frequencies_pos {config : Config Rat} (valid : config.violation? = none) :
    0 < config.cpuFrequency.value ∧ 0 < config.timerFrequency.value := by
  unfold violation? at valid
  split at valid
  · cases valid
  · next cpu =>
    split at valid
    · cases valid
    · next timer => exact ⟨Quantity.value_pos cpu, Quantity.value_pos timer⟩

/-! ## Calm ticks -/

namespace Session

open RunEvent

/-- A tick has a budget that fits in 32 bits and meets no fault. -/
def Calm (s : Session Rat) : Prop :=
  (∀ due, s.readClock.2 = .ok due → due.cycles < 2 ^ 31 ∧ due.ticks < 2 ^ 31) ∧ Faultless s.tick.2

def staysCalm (s : Session Rat) : Bool :=
  (s.readClock.2.toOption.all fun due => due.cycles < 2 ^ 31 && due.ticks < 2 ^ 31) &&
    s.tick.2.isOk

theorem calm_of_staysCalm {s : Session Rat} (h : s.staysCalm = true) : s.Calm := by
  simp only [staysCalm, Bool.and_eq_true] at h
  obtain ⟨budget, ticks⟩ := h
  constructor
  · intro due granted
    rw [granted] at budget
    simpa [Except.toOption] using budget
  · intro e fails
    rw [fails] at ticks
    cases ticks

/-- The clock of the runs never goes back, and their ticks are calm. -/
structure Undisturbed (events : List (RunEvent Rat)) : Prop where
  forward : (readings events).Pairwise (· ≤ ·)
  calm : ∀ t, ⟨.tick, t⟩ ∈ events → t.Calm

theorem Undisturbed.left {events later : List (RunEvent Rat)} (h : Undisturbed (events ++ later)) :
    Undisturbed events := by
  obtain ⟨forward, calm⟩ := h
  constructor
  · rw [readings, List.filter_append, List.map_append] at forward
    exact (List.pairwise_append.mp forward).1
  · intro t mem
    exact calm t (List.mem_append_left _ mem)

/-! ## Keys -/

/-- The session `t` is `s` after keys were set, as far as the clock and the core tell. -/
def Pressed (s t : Session Rat) : Prop :=
  t.clock = s.clock ∧ ∃ keypad, t.core = { s.core with keypad }

namespace Pressed

variable {s t u : Session Rat}

theorem of_core (clock : t.clock = s.clock) (core : t.core = s.core) : s.Pressed t :=
  ⟨clock, s.keypad, core⟩

theorem trans (h : s.Pressed t) (h' : t.Pressed u) : s.Pressed u := by
  obtain ⟨clock, keypad, core⟩ := h
  obtain ⟨clock', keypad', core'⟩ := h'
  refine ⟨clock'.trans clock, keypad', ?_⟩
  rw [core', core]

theorem setKey (s : Session Rat) (index : Quantity Rat) (pressed : Bool) :
    s.Pressed (s.setKey index pressed).1 := by
  unfold Session.setKey
  split
  · exact ⟨rfl, _, rfl⟩
  · exact .of_core rfl rfl

theorem setEachKey (s : Session Rat) (keys : List (Quantity Rat × Bool)) :
    s.Pressed (s.setEachKey keys).1 := by
  induction keys generalizing s with
  | nil => exact .of_core rfl rfl
  | cons k rest ih =>
    unfold Session.setEachKey
    have first := setKey s k.1 k.2
    generalize s.setKey k.1 k.2 = x at first ⊢
    rcases x with ⟨t, e | _⟩
    · exact first
    · exact first.trans (ih t)

theorem setKeys (s : Session Rat) (keys : List (Quantity Rat × Bool)) :
    s.Pressed (s.setKeys keys).1 := by
  unfold Session.setKeys
  split
  · exact .of_core rfl rfl
  · exact setEachKey s keys

theorem elapseIn (s : Session Rat) (nap : Nap Rat) : s.Pressed (s.elapseIn nap).1 := by
  unfold Session.elapseIn elapse
  split
  · split <;> exact .of_core rfl rfl
  · exact .of_core rfl rfl

theorem sleepThrough (s : Session Rat) (nap : Nap Rat) : s.Pressed (s.sleepThrough nap).1 := by
  have asked : s.Pressed { s with stopRequested := s.stopRequested || nap.stop } :=
    .of_core rfl rfl
  have keys := asked.trans (setEachKey _ nap.keys)
  unfold Session.sleepThrough
  generalize Session.setEachKey _ nap.keys = x at keys ⊢
  rcases x with ⟨t, e | _⟩
  · exact keys
  · have passed := keys.trans (elapseIn t nap)
    dsimp only
    generalize t.elapseIn nap = y at passed ⊢
    rcases y with ⟨u, e | _⟩
    · exact passed
    · dsimp only
      split <;> exact passed

end Pressed

/-! ## Runs -/

/-- What the runs have made of `s`, after these events. -/
structure Metered (s : Session Rat) (events : List (RunEvent Rat)) (t : Session Rat) : Prop where
  sound : t.clock.Sound
  settings : t.clock.cpuFrequency = s.clock.cpuFrequency ∧
    t.clock.timerFrequency = s.clock.timerFrequency ∧ t.clock.catchUp = none
  /-- What was drawn has been handed over. -/
  lowered : t.machine.draw = false
  measures : t.clock.Measures (stretches events)
  read : ∀ r, (stretches events).head? = some r → r.last ∈ readings events
  dues : ∃ dues, s.core.Beats dues t.core ∧ grants events = dues.map .ok ∧
    Gauge s.clock.cpuFrequency.value t.clock.cycleCredit (dues.map Due.cycles).sum
      (stretches events) ∧
    Gauge s.clock.timerFrequency.value t.clock.timerCredit (dues.map Due.ticks).sum
      (stretches events)

namespace Metered

variable {s t t' : Session Rat} {events : List (RunEvent Rat)}

theorem idle (h : Metered s events t) (clock : t'.clock = t.clock)
    (machine : t'.machine = t.machine)
    (beats : ∀ dues, s.core.Beats dues t.core → s.core.Beats dues t'.core) :
    Metered s events t' := by
  obtain ⟨sound, settings, lowered, measures, read, dues, kept, found, cycles, ticks⟩ := h
  rw [← clock] at sound settings measures cycles ticks
  exact ⟨sound, settings, machine ▸ lowered, measures, read, dues, beats dues kept, found, cycles,
    ticks⟩

theorem congr (h : Metered s events t) (clock : t'.clock = t.clock) (core : t'.core = t.core) :
    Metered s events t' := by
  apply h.idle clock (congrArg Core.machine core)
  intro dues beats
  rwa [core]

theorem press (h : Metered s events t) (pressed : t.Pressed t') : Metered s events t' := by
  obtain ⟨clock, keypad, core⟩ := pressed
  apply h.idle clock (congrArg Core.machine core)
  intro dues beats
  rw [core]
  exact beats.press keypad

theorem leave (h : Metered s events t) (reason : Except Raised Unit) :
    Metered s events (t.leave reason).1 := by
  obtain ⟨core, clock⟩ := leave_of_lowered h.lowered reason
  exact h.congr clock core

theorem append_quiet (h : Metered s events t) {e : RunEvent Rat}
    (quiet : e.deed.readsClock = false) : Metered s (events ++ [e]) t := by
  obtain ⟨deed, u⟩ := e
  have same : stretches (events ++ [⟨deed, u⟩]) = stretches events ∧
      readings (events ++ [⟨deed, u⟩]) = readings events ∧
      grants (events ++ [⟨deed, u⟩]) = grants events := by
    cases deed with
    | test | sleep => simp [stretches, readings, grants, noted, Deed.readsClock]
    | begin | tick => cases quiet
  obtain ⟨sound, settings, lowered, measures, read, dues⟩ := h
  rw [← same.1] at measures
  refine ⟨sound, settings, lowered, measures, ?_, ?_⟩
  · rw [same.1, same.2.1]
    exact read
  · rw [same.1, same.2.2]
    exact dues

theorem append_begin (h : Metered s events t) :
    Metered s (events ++ [⟨.begin, t⟩])
      { t with clock := t.clock.reset t.surroundings.now } := by
  obtain ⟨sound, settings, lowered, measures, read, dues, kept, found, cycles, ticks⟩ := h
  have note : stretches (events ++ [⟨.begin, t⟩]) =
      ⟨t.surroundings.now.value, t.surroundings.now.value⟩ :: stretches events :=
    stretches_concat events ⟨.begin, t⟩
  have none : grants (events ++ [⟨.begin, t⟩]) = grants events := by
    simp [grants]
  have restarted : Clock.Started t.journal.logger t.surroundings.now
      (t.clock.reset t.surroundings.now) := .reset t.clock
  refine ⟨restarted.sound sound.cpu sound.timer sound.limit, settings, lowered, ?_, ?_, dues, kept,
    none.trans found, ?_, ?_⟩
  · rw [note]
    rfl
  · rw [note]
    rintro r ⟨⟩
    simp [readings, Deed.readsClock, reading]
  · rw [note]
    exact cycles.begin _
  · rw [note]
    exact ticks.begin _

/-- A calm tick makes the latest stretch longer and executes what that grants. -/
theorem tick (h : Metered s events t) (undisturbed : Undisturbed (events ++ [⟨.tick, t⟩])) :
    ∃ n, t.tick.2 = .ok n ∧ Metered s (events ++ [⟨.tick, t⟩]) t.tick.1 := by
  obtain ⟨sound, settings, -, measures, read, dues, kept, found, cycles, ticks⟩ := h
  let now := t.surroundings.now
  have note : stretches (events ++ [⟨.tick, t⟩]) = extend (stretches events) now.value :=
    stretches_concat events ⟨.tick, t⟩
  have taken : readings (events ++ [⟨.tick, t⟩]) = readings events ++ [now.value] := by
    simp [readings, Deed.readsClock, reading, now]
  -- The latest stretch ends at one of the readings before this one.
  have forward : ∀ r, (stretches events).head? = some r → r.last ≤ now.value := by
    intro r last
    have ordered := undisturbed.forward
    rw [taken, List.pairwise_append] at ordered
    exact ordered.2.2 r.last (read r last) now.value (by simp)
  obtain ⟨due, granted, ⟨lost, grants⟩, measures'⟩ :=
    sound.exists_grants settings.2.2 measures t.journal.logger forward
  have stamp : t.Stampable := Logger.stamp_of_measurableFrom (Quantity.measurableFrom_rat _ _)
  obtain ⟨budget, unfaulted⟩ := undisturbed.calm t (by simp)
  obtain ⟨fits, fits'⟩ := budget due granted
  obtain ⟨m, steps, outcome, core⟩ :=
    exists_steps_of_tick stamp granted fits ⟨grants.nonneg.2, fits'⟩ unfaulted
  refine ⟨due.cycles, outcome, ?_⟩
  have clock : t.tick.1.clock = (t.clock.tick t.journal.logger now).clock := clock_tick
  rw [← clock] at grants measures'
  refine ⟨grants.sound, ?_, draw_tick outcome, ?_, ?_, dues ++ [due], ?_, ?_, ?_, ?_⟩
  · obtain ⟨cpu, timer, limit⟩ := grants.settings
    exact ⟨cpu.trans settings.1, timer.trans settings.2.1, limit.trans settings.2.2⟩
  · rw [note]
    exact measures'
  · rw [note, taken]
    intro r last
    simp [last_of_head?_extend last]
  · rw [core]
    exact kept.tick grants.nonneg steps
  · have more : RunEvent.grants (events ++ [⟨.tick, t⟩]) =
        RunEvent.grants events ++ [t.readClock.2] := by
      simp [RunEvent.grants]
    have read : t.readClock.2 = .ok due := granted
    simp [more, found, read]
  · have more := grants.cycles
    rw [settings.1] at more
    simpa [note] using cycles.extend more grants.sound.cycleCredit
  · have more := grants.ticks
    rw [settings.2.1] at more
    simpa [note] using ticks.extend more grants.sound.timerCredit

theorem turn (h : Metered s events t) (undisturbed : Undisturbed (events ++ t.turnEvents)) :
    Metered s (events ++ t.turnEvents) t.turn.1 := by
  have tested : Metered s (events ++ [⟨.test, t⟩]) t := h.append_quiet rfl
  cases flag : t.stopRequested with
  | true =>
    obtain ⟨turn, deeds⟩ := turn_stopped flag
    rw [turn, deeds]
    exact tested.leave _
  | false =>
    rcases ticks : t.tick with ⟨u, e | n⟩
    · obtain ⟨-, deeds⟩ := turn_failed flag ticks
      rw [deeds] at undisturbed
      obtain ⟨n, outcome, -⟩ := tested.tick (by simpa using undisturbed)
      rw [ticks] at outcome
      cases outcome
    · obtain ⟨turn, deeds⟩ := turn_ticked flag ticks
      rw [deeds] at undisturbed ⊢
      have whole : Undisturbed (events ++ [⟨.test, t⟩] ++ [⟨.tick, t⟩] ++ [⟨.sleep, u⟩]) := by
        simpa using undisturbed
      obtain ⟨-, -, ticked⟩ := tested.tick whole.left
      rw [ticks] at ticked
      have called : Metered s (events ++ [⟨.test, t⟩, ⟨.tick, t⟩, ⟨.sleep, u⟩]) u := by
        simpa using ticked.append_quiet (show Deed.sleep.readsClock = false from rfl)
      rw [turn]
      rcases slumber_cases u {} with ⟨span, -, asleep, -⟩ | ⟨e, -, fails, -⟩
      · rw [asleep]
        exact called.congr rfl rfl
      · rw [fails]
        exact called.leave _

theorem wake (h : Metered s events t) (nap : Nap Rat)
    (undisturbed : Undisturbed (events ++ t.wakeEvents nap)) :
    Metered s (events ++ t.wakeEvents nap) (t.wake nap).1 := by
  have slept := h.press (.sleepThrough t nap)
  unfold wakeEvents at undisturbed ⊢
  unfold Session.wake
  generalize t.sleepThrough nap = x at slept undisturbed ⊢
  rcases x with ⟨u, raised | _⟩
  · simpa using slept.leave (.error raised)
  · exact slept.turn undisturbed

theorem prepareRun (h : Metered s events t) (lag : Option (Quantity Rat)) :
    Metered s (events ++ [⟨.begin, t⟩]) (t.prepareRun lag).1 := by
  have told : Metered s (events ++ [⟨.begin, t⟩])
      (reportStart { t with clock := t.clock.reset t.surroundings.now }).1 :=
    h.append_begin.congr rfl rfl
  unfold Session.prepareRun
  generalize Session.reportStart { t with clock := t.clock.reset t.surroundings.now } = x at told ⊢
  rcases x with ⟨u, e | _⟩
  · exact told
  · exact told.press (.elapseIn u _)

theorem beginRun (h : Metered s events t) (lag : Option (Quantity Rat))
    (undisturbed : Undisturbed (events ++ t.beginEvents lag)) :
    Metered s (events ++ t.beginEvents lag) (t.beginRun lag).1 := by
  have prepared := h.prepareRun lag
  unfold beginEvents at undisturbed ⊢
  unfold Session.beginRun
  generalize t.prepareRun lag = x at prepared undisturbed ⊢
  rcases x with ⟨u, e | _⟩
  · exact prepared
  · rw [List.append_cons] at undisturbed ⊢
    exact prepared.turn undisturbed

theorem follow (naps : List (Nap Rat)) {x : Session Rat × Turn} (h : Metered s events x.1)
    (undisturbed : Undisturbed (events ++ followEvents naps x)) :
    Metered s (events ++ followEvents naps x) (follow naps x).1 := by
  induction naps generalizing x events with
  | nil =>
    rcases x with ⟨t, _ | _ | _⟩
    · exact h.wake stopNap undisturbed
    · simpa [followEvents, Session.follow] using h
    · simpa [followEvents, Session.follow] using h
  | cons nap rest ih =>
    rcases x with ⟨t, _ | _ | _⟩
    · unfold followEvents at undisturbed ⊢
      rw [← List.append_assoc] at undisturbed ⊢
      exact ih (h.wake nap undisturbed.left) undisturbed
    · simpa [followEvents, Session.follow] using h
    · simpa [followEvents, Session.follow] using h

theorem run (h : Metered s events t) (naps : List (Nap Rat)) (lag : Option (Quantity Rat))
    (undisturbed : Undisturbed (events ++ t.runEvents naps lag)) :
    Metered s (events ++ t.runEvents naps lag) (t.run naps lag).1 := by
  unfold runEvents at undisturbed ⊢
  rw [← List.append_assoc] at undisturbed ⊢
  exact (h.beginRun lag undisturbed.left).follow naps undisturbed

/-! ## Drivers -/

theorem settle {x : Session Rat × Turn} (h : Metered s events x.1) :
    Metered s events (settle x) := by
  apply h.congr
  · rcases x with ⟨u, _ | (e | _) | _⟩
    · rfl
    · cases e <;> rfl
    · rfl
    · rfl
  · exact core_settle x

theorem present (h : Metered s events t) {c : Call Rat} (presenting : c.isPresenting = true) :
    Metered s events (t.call c).1 := by
  unfold Call.isPresenting at presenting
  split at presenting
  · next index pressed => exact h.press (.setKey t index pressed)
  · next keys => exact h.press (.setKeys t keys)
  · exact h.idle rfl rfl fun _ beats => beats.take
  · exact h
  · cases presenting

theorem proceed {r : Roles Rat} (h : Metered s events r.session) (thread : Nat) (nap : Nap Rat)
    (undisturbed : Undisturbed (events ++ r.events (.proceed thread nap))) :
    Metered s (events ++ r.events (.proceed thread nap)) (r.proceed thread nap).session := by
  have onward {x : Session Rat × Turn} (turn : r.turn? thread nap = some x)
      {log : List (RunEvent Rat)} (taken : Metered s log x.1) :
      Metered s log (r.proceed thread nap).session := by
    unfold Roles.proceed
    rw [turn]
    dsimp only
    split
    · exact taken.settle
    · exact taken.settle.congr rfl rfl
  have resting (turn : r.turn? thread nap = none)
      (silent : r.events (.proceed thread nap) = []) :
      Metered s (events ++ r.events (.proceed thread nap)) (r.proceed thread nap).session := by
    have same : r.proceed thread nap = r := by
      rw [Roles.proceed, turn]
    simpa [same, silent] using h
  cases here : r.threads[thread]? with
  | none =>
    apply resting
    · simp [Roles.turn?, here]
    · simp [Roles.events, here]
  | some stage =>
    cases stage with
    | beginning =>
      have deeds : r.events (.proceed thread nap) = r.session.beginEvents nap.time := by
        simp [Roles.events, here]
      rw [deeds] at undisturbed ⊢
      apply onward _ (h.beginRun nap.time undisturbed)
      simp [Roles.turn?, here]
    | sleeping =>
      have deeds : r.events (.proceed thread nap) = r.session.wakeEvents nap := by
        simp [Roles.events, here]
      rw [deeds] at undisturbed ⊢
      apply onward _ (h.wake nap undisturbed)
      simp [Roles.turn?, here]
    | ended =>
      apply resting
      · simp [Roles.turn?, here]
      · simp [Roles.events, here]

theorem act {r : Roles Rat} (h : Metered s events r.session) {a : Action Rat}
    (running : (Cue.act a).isRunning = true) (undisturbed : Undisturbed (events ++ r.events a)) :
    Metered s (events ++ r.events a) (r.perform a).1.session := by
  have silent {u : Session Rat} (h : Metered s events u) : Metered s (events ++ []) u := by
    simpa using h
  cases a with
  | call c => exact silent (h.present running)
  | run naps lag => exact h.run naps lag undisturbed
  | start =>
    cases runs : r.session.running with
    | true =>
      rw [Roles.start_refused runs]
      exact silent h
    | false =>
      rw [Roles.start_granted runs]
      exact silent (h.congr rfl rfl)
  | stop => exact silent (h.congr rfl rfl)
  | join => exact silent h
  | proceed thread nap => exact h.proceed thread nap undisturbed

theorem perform {d : Driven Rat} (h : Metered s events d.session) {c : Cue Rat}
    (running : c.isRunning = true) (undisturbed : Undisturbed (events ++ d.events c)) :
    Metered s (events ++ d.events c) (d.perform c).session := by
  cases c with
  | act a => exact act h running undisturbed
  | enter lag => exact h.beginRun lag undisturbed
  | wake nap =>
    cases asleep : d.asleep with
    | true =>
      simp only [Driven.events, Driven.perform, asleep, if_true] at undisturbed ⊢
      exact h.wake nap undisturbed
    | false => simpa [Driven.events, Driven.perform, asleep] using h

theorem after (history : List (Quantity Rat × Cue Rat)) {d : Driven Rat}
    (h : Metered s events d.session) (running : ∀ e ∈ history, e.2.isRunning = true)
    (undisturbed : Undisturbed (events ++ d.eventsOf history)) :
    Metered s (events ++ d.eventsOf history) (d.after history).session := by
  induction history generalizing d events with
  | nil => simpa [Driven.eventsOf, Driven.after] using h
  | cons e rest ih =>
    have timed : Metered s events (d.atTime e.1).session := h.congr rfl rfl
    obtain ⟨now, later⟩ := List.forall_mem_cons.mp running
    unfold Driven.eventsOf at undisturbed ⊢
    rw [← List.append_assoc] at undisturbed ⊢
    exact ih (timed.perform now undisturbed.left) later undisturbed

end Metered

section Creation

variable {config : Config Rat} {rom : List UInt8} {name : String} {seed : RandomKey}
  {start : Quantity Rat} {s : Session Rat}

theorem metered_create (h : create config rom name seed start = .ok s)
    (valid : config.violation? = none) (unlimited : config.catchUp = none) : Metered s [] s := by
  obtain ⟨cpu, timer⟩ := Config.frequencies_pos valid
  have lowered : s.machine.draw = false := congrArg Machine.draw (machine_create h)
  obtain ⟨level, machine, output, -, rfl⟩ := create_eq_ok h
  refine ⟨⟨cpu, timer, ?_, ?_, ?_⟩, ⟨rfl, rfl, unlimited⟩, lowered, rfl, nofun, [], .start, rfl,
    .nil _, .nil _⟩
  · intro limit some
    exact absurd (unlimited.symm.trans some) nofun
  · exact ⟨le_rfl, zero_lt_one⟩
  · exact ⟨le_rfl, zero_lt_one⟩

/-- Time spent stopped is never executed. A session that is driven by runs, on threads or in the
driver's own time, completes as many instructions as the stretches of its runs come to, each
rounded down by itself. Its timers are counted down, tick by tick after the instructions, by as
many ticks as the same stretches come to at the timers' frequency. -/
theorem pauses_not_executed (h : create config rom name seed start = .ok s)
    (valid : config.violation? = none) (unlimited : config.catchUp = none)
    (history : List (Quantity Rat × Cue Rat)) (running : ∀ e ∈ history, e.2.isRunning = true) :
    let driven : Driven Rat := { roles := { session := s } }
    let events := driven.eventsOf history
    let t := (driven.after history).session
    Undisturbed events →
      (t.cycles : Int) =
          ((stretches events).map fun r => ⌊config.cpuFrequency.value * r.span⌋).sum ∧
        ∃ dues, s.core.Beats dues t.core ∧ grants events = dues.map .ok ∧
          (dues.map Due.ticks).sum =
            ((stretches events).map fun r => ⌊config.timerFrequency.value * r.span⌋).sum := by
  intro driven events t undisturbed
  obtain ⟨-, -, -, -, -, dues, beats, found, cycles, ticks⟩ :=
    (metered_create h valid unlimited).after history (d := driven) running undisturbed
  have frequencies : s.clock.cpuFrequency = config.cpuFrequency ∧
      s.clock.timerFrequency = config.timerFrequency := by
    obtain ⟨level, machine, output, -, rfl⟩ := create_eq_ok h
    exact ⟨rfl, rfl⟩
  have zero : s.cycles = 0 := congrArg Core.cycles (core_create h)
  have executed : (t.cycles : Int) = s.cycles + (dues.map Due.cycles).sum := beats.cycles
  refine ⟨?_, dues, beats, found, ?_⟩
  · rw [executed, zero, Int.natCast_zero, zero_add, cycles.taken, frequencies.1]
    rfl
  · rw [ticks.taken, frequencies.2]
    rfl

/-- A program that jumps in place, in a run that blocks its caller and, after a pause, on a thread.
Each run goes on for half a second, which is half a cycle more than one and half a tick more than
two. -/
theorem pauses_not_executed_twice :
    let config : Config Rat := { cpuFrequency := .whole 3, timerFrequency := .whole 5 }
    ∃ s : Session Rat, create config [0x12, 0x00] "jump" ⟨0, 0⟩ (.whole 0) = .ok s ∧
      let history : List (Quantity Rat × Cue Rat) := [
        (.whole 0, .enter), (.whole 0, .wake { time := some (.real (1 / 2)) }),
        (.whole 1, .wake { stop := true }), (.whole 5, .act (.call .consumeDraw)),
        (.whole 9, .act .start), (.whole 10, .act (.proceed 0 {})),
        (.whole 10, .act (.call (.setKey (.whole 1) true))),
        (.real (21 / 2), .act (.proceed 0 {})), (.whole 11, .act .stop),
        (.whole 12, .act (.proceed 0 {}))]
      let driven : Driven Rat := { roles := { session := s } }
      Undisturbed (driven.eventsOf history) ∧ (driven.after history).session.cycles = 2 ∧
        ∃ dues, s.core.Beats dues (driven.after history).session.core ∧
          (dues.map Due.ticks).sum = 4 := by
  intro config
  have info : LogLevel.ofName? config.logLevel = some .info := by decide +kernel
  obtain ⟨s, made⟩ : ∃ s : Session Rat,
      create config [0x12, 0x00] "jump" ⟨0, 0⟩ (.whole 0) = .ok s :=
    exists_create info (by decide) (Quantity.measurableFrom_rat _ _)
  refine ⟨s, made, ?_⟩
  intro history driven
  let events := driven.eventsOf history
  obtain ⟨⟨⟨forward, calm⟩, cycles⟩, ticks⟩ : (((readings events).Pairwise (· ≤ ·) ∧
      ∀ e ∈ events, e.deed = .tick → e.session.staysCalm = true) ∧
      ((stretches events).map fun r => ⌊(3 : Rat) * r.span⌋).sum = 2) ∧
      ((stretches events).map fun r => ⌊(5 : Rat) * r.span⌋).sum = 4 := by
    have run : (create config [0x12, 0x00] "jump" ⟨0, 0⟩ (.whole 0)).toOption.all
        (fun s : Session Rat =>
          let events := Driven.eventsOf history { roles := { session := s } }
          decide ((readings events).Pairwise (· ≤ ·)) &&
            decide (∀ e ∈ events, e.deed = .tick → e.session.staysCalm = true) &&
            ((stretches events).map fun r => ⌊(3 : Rat) * r.span⌋).sum == 2 &&
            ((stretches events).map fun r => ⌊(5 : Rat) * r.span⌋).sum == 4) = true := by
      decide +kernel
    rw [made] at run
    simpa only [Except.toOption, Option.all_some, Bool.and_eq_true, decide_eq_true_eq,
      beq_iff_eq] using run
  have undisturbed : Undisturbed events :=
    ⟨forward, fun t tick => calm_of_staysCalm (calm ⟨.tick, t⟩ tick rfl)⟩
  have running : ∀ e ∈ history, e.2.isRunning = true := by decide
  obtain ⟨executed, dues, beats, -, counted⟩ :=
    pauses_not_executed made (by decide +kernel) rfl history running undisturbed
  refine ⟨undisturbed, ?_, dues, beats, counted.trans ticks⟩
  exact Int.ofNat_inj.mp (executed.trans cycles)

end Creation

end Session

end Chip8
