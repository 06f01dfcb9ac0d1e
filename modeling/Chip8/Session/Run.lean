import Chip8.Session

/-! # Runs

A run ticks until it is asked to stop or something fails, and sleeps after every tick. The
stop request is looked at before each tick and nowhere else. A run is given here as its
turns, from one sleep to the next, so that whatever happens during a sleep can be told apart.
A run either blocks its caller or goes on in the session's thread.
-/

namespace Chip8

/-- What a sleep may raise. An interruption is no error, such as a request to exit: what
handles errors lets it pass. -/
inductive Raised where
  | error (e : Failure)
  | interruption (text : String)
  deriving Repr

/-- What happens while a run sleeps: keys are set, time passes, a stop may be requested, and
the sleep may raise something, or fail with a text to which the program gives no meaning. -/
structure Nap (τ : Type) where
  keys : List (Quantity τ × Bool) := []
  time : Option (Quantity τ) := none
  stop : Bool := false
  failure : Option String := none
  raised : Option Raised := none
  deriving Repr

/-- What a sleep raises in the end, once its events have happened. -/
def Nap.raises {τ : Type} (nap : Nap τ) : Option Raised :=
  match nap.failure with
  | some text => some (.error (.invalid (.reported text)))
  | none => nap.raised

/-- Where a run stands after a turn. -/
inductive Turn where
  | asleep
  | ended (outcome : Except Failure Unit)
  | interrupted (text : String)

/-- What a run that stands here answers its caller. There is no answer of its own for an
interruption, of which the caller is given the text. -/
def Turn.outcome : Turn → Except Failure Unit
  | asleep => .ok ()
  | ended outcome => outcome
  | interrupted text => .error (.invalid (.reported text))

namespace Session

variable {τ : Type} [TimeScale τ]

def reportEnd (s : Session τ) (error : Option String) : Session τ × Except Failure Unit :=
  s.emitReport (s.journal.finish s.surroundings.now (.whole s.cycles) error)

def reportStart (s : Session τ) : Session τ × Except Failure Unit :=
  let (settings, unreadable) := Config.readable s.config.entries
  { s with journal := s.journal.started s.surroundings.now }.emitReport
    (s.journal.begin s.surroundings.now s.name settings unreadable)

/-- The end of a run after its report. A report that cannot be written takes the place of
the outcome. -/
def conclude (outcome : Except Failure Unit) :
    Session τ × Except Failure Unit → Session τ × Turn
  | (s, .ok ()) => (s, .ended outcome)
  | (s, .error e) => (s, .ended (.error e))

/-- Leaves the loop of a run, for a reason if there is one. An execution error is kept and
reported, and what was drawn before it is published. Nothing else that is raised is kept or
reported here. -/
def leave (s : Session τ) : Except Raised Unit → Session τ × Turn
  | .ok () => conclude (.ok ()) (s.reportEnd none)
  | .error (.error (.execution e)) =>
    conclude (.error (.execution e))
      ({ s with error := some (.execution e) }.publish.reportEnd (some e.message))
  | .error (.error e) => (s, .ended (.error e))
  | .error (.interruption text) => (s, .interrupted text)

/-- Asks for a sleep. One that is too long for the time scale ends the run. -/
def fallAsleep (s : Session τ) : Session τ × Turn :=
  match s.config.tickSleep.toReal with
  | .ok span =>
    ({ s with surroundings := { s.surroundings with sleeps := s.surroundings.sleeps.push span } },
      .asleep)
  | .error e => s.leave (.error (.error e))

/-- One turn of a run: ends it if a stop was requested, else ticks and falls asleep. -/
def turn (s : Session τ) : Session τ × Turn :=
  if s.stopRequested then s.leave (.ok ())
  else
    match s.tick with
    | (s, .ok _) => s.fallAsleep
    | (s, .error e) => s.leave (.error (.error e))

/-- Lets a span of time pass. -/
def elapse (s : Session τ) (span : Quantity τ) : Session τ × Except Failure Unit :=
  match s.surroundings.now.add span with
  | .ok now => ({ s with surroundings := { s.surroundings with now } }, .ok ())
  | .error e => (s, .error e)

def elapseIn (s : Session τ) (nap : Nap τ) : Session τ × Except Failure Unit :=
  match nap.time with
  | some span => s.elapse span
  | none => (s, .ok ())

/-- Restarts the clock and reports the start. Some time may pass before the first turn. -/
def prepareRun (s : Session τ) (lag : Option (Quantity τ)) : Session τ × Except Failure Unit :=
  match { s with clock := s.clock.reset s.surroundings.now }.reportStart with
  | (s, .ok ()) => s.elapseIn { time := lag }
  | (s, .error e) => (s, .error e)

def beginRun (s : Session τ) (lag : Option (Quantity τ) := none) : Session τ × Turn :=
  match s.prepareRun lag with
  | (s, .ok ()) => s.turn
  | (s, .error e) => (s, .ended (.error e))

/-- Lets the events of a sleep happen, one after the other up to the first that fails. -/
def sleepThrough (s : Session τ) (nap : Nap τ) : Session τ × Except Raised Unit :=
  match { s with stopRequested := s.stopRequested || nap.stop }.setEachKey nap.keys with
  | (s, .error e) => (s, .error (.error e))
  | (s, .ok ()) =>
    match s.elapseIn nap with
    | (s, .error e) => (s, .error (.error e))
    | (s, .ok ()) =>
      match nap.raises with
      | some r => (s, .error r)
      | none => (s, .ok ())

/-- Lets a sleep pass and takes the next turn, unless the sleep raised something. -/
def wake (s : Session τ) (nap : Nap τ) : Session τ × Turn :=
  match s.sleepThrough nap with
  | (s, .ok ()) => s.turn
  | (s, .error r) => s.leave (.error r)

def stopNap : Nap τ := { stop := true }

/-- Follows a run through a list of naps. When they are used up the run is asked to stop. -/
def follow : List (Nap τ) → Session τ × Turn → Session τ × Except Failure Unit
  | _, (s, .ended outcome) => (s, outcome)
  | _, (s, .interrupted text) => (s, (Turn.interrupted text).outcome)
  | [], (s, .asleep) => ((s.wake stopNap).1, (s.wake stopNap).2.outcome)
  | nap :: rest, (s, .asleep) => follow rest (s.wake nap)

def run (s : Session τ) (naps : List (Nap τ)) (lag : Option (Quantity τ) := none) :
    Session τ × Except Failure Unit :=
  follow naps (s.beginRun lag)

/-! ## The thread -/

/-- The session after a turn of its thread. What ends the thread, other than an execution
error, is kept as the session's failure and reported as a crash. An interruption ends the
thread without a trace. -/
def settle : Session τ × Turn → Session τ
  | (s, .asleep) => { s with thread := .asleep }
  | (s, .ended (.error (.execution _))) => { s with thread := .ended }
  | (s, .ended (.error e)) =>
    ({ s with error := some e, thread := .ended }.say .critical
      ("Emulation thread crashed: " ++ e.report)).1
  | (s, .ended (.ok ())) => { s with thread := .ended }
  | (s, .interrupted _) => { s with thread := .ended }

def start (s : Session τ) (lag : Option (Quantity τ) := none) :
    Session τ × Except Failure Unit :=
  if s.running then (s, .error (.misuse .alreadyRunning))
  else (settle ({ s with error := none, stopRequested := false }.beginRun lag), .ok ())

def release (s : Session τ) (nap : Nap τ) : Session τ :=
  if s.running then settle (s.wake nap) else s

/-- Requests the end of a run and lets the thread come to it. -/
def stop (s : Session τ) : Session τ :=
  { s with stopRequested := true }.release {}

/-- The failure that ended the session's thread, raised again. -/
def join (s : Session τ) : Except Failure Unit :=
  match s.error with
  | some e => .error e
  | none => .ok ()

end Session

end Chip8
