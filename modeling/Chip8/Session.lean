import Chip8.Clock
import Chip8.Config
import Chip8.Log.Journal
import Chip8.Log.Progress
import Chip8.Schedule
import Chip8.Screen

/-! # Sessions

A session owns one machine and paces it against a clock. The emulation side runs steps, ticks
and batches of cycles; the presentation side takes frames and sets keys. Every call returns
the session as the call left it, also when the call failed.
-/

namespace Chip8

/-- What surrounds a session: the reading of the clock, the log written so far and the sleeps
asked for so far. -/
structure Surroundings (τ : Type) where
  now : Quantity τ
  output : String := ""
  sleeps : Array τ := #[]

inductive Thread where
  | absent
  /-- Parked in the sleep between two ticks. -/
  | asleep
  | ended
  deriving DecidableEq, Repr

structure Session (τ : Type) [OfScientific τ] where
  config : Config τ
  rom : List UInt8
  name : String
  seed : RandomKey
  journal : Journal τ
  clock : Clock τ
  machine : Machine
  screen : Screen
  /-- The keys as the next tick will see them. -/
  keypad : Keypad := Vector.replicate 16 false
  /-- Instructions completed since the session was made or reset. -/
  cycles : Nat := 0
  /-- The failure that ended the last run. -/
  error : Option Failure := none
  stopRequested : Bool := false
  thread : Thread := .absent
  surroundings : Surroundings τ

namespace Session

variable {τ : Type} [TimeScale τ]

def chunkSize : Nat := 10000

def freshMachine (config : Config τ) (rom : List UInt8) (name : String) (seed : RandomKey) :
    Except Failure Machine :=
  match (Machine.fresh seed config.maskRegister).loadRom rom name with
  | .ok m => .ok m
  | .error e => .error (.rom e)

/-- A session with `rom` loaded, at a reading `now` of the clock. -/
def create (config : Config τ) (rom : List UInt8) (name : String) (seed : RandomKey)
    (now : Quantity τ) : Except Failure (Session τ) := do
  let logger ← Logger.create "chipax.driver" config.logLevel now
  let machine ← freshMachine config rom name seed
  let output ← logger.write now .info
    ("Loaded ROM '" ++ name ++ "' (" ++ toString rom.length ++ " bytes)")
  return {
    config, rom, name, seed, machine
    journal := { logger }
    clock := Clock.create config.cpuFrequency config.timerFrequency config.catchUp
    screen := Screen.publish machine.display
    surroundings := { now, output } }

def emit (s : Session τ) (text : String) : Session τ :=
  { s with surroundings := { s.surroundings with output := s.surroundings.output ++ text } }

def emitReport (s : Session τ) (r : Report) : Session τ × Except Failure Unit :=
  (s.emit r.text, r.outcome)

def say (s : Session τ) (level : LogLevel) (message : String) :
    Session τ × Except Failure Unit :=
  s.emitReport (.ofLine (s.journal.logger.write s.surroundings.now level message))

def running (s : Session τ) : Bool := s.thread == .asleep

def traced (s : Session τ) : Bool := s.journal.logger.isEnabled LogLevel.debug.name

/-! ## Emulation -/

def trace (s : Session τ) (word : UInt16) : Session τ × Except Failure Unit :=
  s.say .debug
    ("pc=0x" ++ Text.hex 3 s.machine.pc.toNat ++ " opcode=0x" ++ Text.hex 4 word.toNat)

def step (s : Session τ) : Session τ × Except Failure Unit :=
  match s.machine.fetch with
  | .error e => (s, .error (.execution e))
  | .ok word =>
    match s.trace word with
    | (s, .error e) => (s, .error e)
    | (s, .ok ()) =>
      match s.machine.execute word.toNat with
      | .error e => (s, .error (.execution e))
      | .ok machine => ({ s with machine, cycles := s.cycles + 1 }, .ok ())

def decay (s : Session τ) (ticks : Quantity τ) : Session τ × Except Failure Unit :=
  match s.machine.decay ticks with
  | .error e => (s, .error e)
  | .ok machine => ({ s with machine }, .ok ())

def decayAt (s : Session τ) (schedule : Schedule τ) (cycle : Int) :
    Session τ × Except Failure Unit :=
  match schedule.ticksAt cycle with
  | .error e => (s, .error e)
  | .ok ticks => s.decay ticks

/-- Runs instructions one at a time, counting the timers down after each; the next one is
cycle number `cycle`. -/
def runSteps (schedule : Schedule τ) :
    Nat → Int → Session τ → Session τ × Except Failure Unit
  | 0, _, s => (s, .ok ())
  | count + 1, cycle, s =>
    match s.step with
    | (s, .error e) => (s, .error e)
    | (s, .ok ()) =>
      match s.decayAt schedule cycle with
      | (s, .error e) => (s, .error e)
      | (s, .ok ()) => runSteps schedule count (cycle + 1) s

def runBatch (s : Session τ) (count : Quantity τ) (schedule : Schedule τ) (phase : Int) :
    Session τ × Except Failure Unit :=
  match s.machine.runScheduled count schedule (.whole phase) with
  | .error e => (s, .error e)
  | .ok batch =>
    let s := { s with machine := batch.machine, cycles := s.cycles + batch.executed }
    match batch.error with
    | some e => (s, .error (.execution e))
    | none => (s, .ok ())

def advance (s : Session τ) (count : Int) (schedule : Schedule τ) (phase : Int) :
    Session τ × Except Failure Unit :=
  if s.traced then runSteps schedule count.toNat phase s
  else s.runBatch (.whole count) schedule phase

def loadKeypad (s : Session τ) : Session τ :=
  { s with machine := { s.machine with keypad := s.keypad } }

def publish (s : Session τ) : Session τ :=
  if s.machine.draw then
    { s with
      screen := Screen.publish s.machine.display
      machine := { s.machine with draw := false } }
  else s

def readClock (s : Session τ) : Session τ × Except Failure Due :=
  let t := s.clock.tick s.journal.logger s.surroundings.now
  ({ s with clock := t.clock }.emit t.output, t.due)

/-- Runs the cycles due since the last tick, counts the timers down and publishes the frame.
The answer is the number of cycles. -/
def tick (s : Session τ) : Session τ × Except Failure Int :=
  match s.readClock with
  | (s, .error e) => (s, .error e)
  | (s, .ok due) =>
    match s.loadKeypad.advance due.cycles {} 0 with
    | (s, .error e) => (s, .error e)
    | (s, .ok ()) =>
      match s.decay (.whole due.ticks) with
      | (s, .error e) => (s, .error e)
      | (s, .ok ()) => (s.publish, .ok due.cycles)

/-- The timers' frequency against the instructions'. -/
def schedule (s : Session τ) : Schedule τ where
  decrements := s.config.timerFrequency
  cycles := s.config.cpuFrequency

/-- Runs `remaining` cycles in chunks of at most `size`, after `done` cycles. -/
def runChunks (size : Nat) (sizePos : 0 < size) (schedule : Schedule τ)
    (done remaining : Nat) (s : Session τ) : Session τ × Except Failure Unit :=
  if _h : remaining = 0 then (s, .ok ())
  else
    let chunk := min remaining size
    match s.advance chunk schedule done with
    | (s, .error e) => (s, .error e)
    | (s, .ok ()) => runChunks size sizePos schedule (done + chunk) (remaining - chunk) s
termination_by remaining
decreasing_by omega

def runWhole (s : Session τ) (count : Nat) : Session τ × Except Failure Unit :=
  runChunks chunkSize (by decide) s.schedule 0 count s

/-- The cycles in all chunks but the last of a positive number of cycles. Without end there
are more of them than anything can run. -/
def cyclesBeforeLast (count : τ) : Nat :=
  match TimeScale.truncate count with
  | .ok n => (((if TimeScale.exceeds n count then n + 1 else n) - 1) / chunkSize * chunkSize).toNat
  | .error _ => 0x10000000000000000

/-- Runs a number of cycles given on the time scale. The last chunk is the rest of it, of
which the integer part is run in one batch. It cannot be run one by one. -/
def runScaled (s : Session τ) (count : τ) : Session τ × Except Failure Unit :=
  if !TimeScale.lt TimeScale.zero count then (s, .ok ())
  else
    let before := cyclesBeforeLast count
    match s.runWhole before with
    | (s, .error e) => (s, .error e)
    | (s, .ok ()) =>
      if s.traced then (s, .error (.notInteger .cycles))
      else
        match (Quantity.real count).sub (.whole before) with
        | .error e => (s, .error e)
        | .ok rest => s.runBatch rest s.schedule before

/-- Runs cycles without a clock. The timers count down in proportion to the cycles, and the
frame is published also after a failure. -/
def runCycles (s : Session τ) (count : Quantity τ) : Session τ × Except Failure Unit :=
  let (s, outcome) :=
    match count with
    | .whole n => s.loadKeypad.runWhole n.toNat
    | .real x => s.loadKeypad.runScaled x
  (s.publish, outcome)

/-- Runs cycles under a progress bar, which must have room for them. -/
def runWithProgress (s : Session τ) (count : Quantity τ) : Session τ × Except Failure Unit :=
  match ProgressBar.create count none none with
  | .error e => (s, .error e)
  | .ok _ => s.runCycles count

def reset (s : Session τ) : Session τ × Except Failure Unit :=
  if s.running then (s, .error (.misuse .resetWhileRunning))
  else
    match freshMachine s.config s.rom s.name s.seed with
    | .error e => (s, .error e)
    | .ok machine =>
      ({ s with
          machine
          clock := s.clock.reset s.surroundings.now
          cycles := 0
          error := none
          keypad := Vector.replicate 16 false
          screen := Screen.publish machine.display }, .ok ())

/-! ## Presentation -/

def frame (s : Session τ) : Display := s.screen.frame

def consumeDraw (s : Session τ) : Session τ × Bool :=
  let (ready, screen) := s.screen.consume
  ({ s with screen }, ready)

def isKeyIndex (index : Quantity τ) : Bool := !index.isNegative && index.lt (.whole 16)

def key : Quantity τ → Except Failure (Fin 16)
  | .whole n =>
    if h : 0 ≤ n ∧ n < 16 then .ok ⟨n.toNat, by omega⟩
    else .error (.invalid ((Quantity.whole n : Quantity τ).refusal .key))
  | .real x =>
    if isKeyIndex (.real x) then .error (.notInteger .key)
    else .error (.invalid ((Quantity.real x).refusal .key))

def setKey (s : Session τ) (index : Quantity τ) (pressed : Bool) :
    Session τ × Except Failure Unit :=
  match key index with
  | .ok k => ({ s with keypad := s.keypad.put k pressed }, .ok ())
  | .error e => (s, .error e)

def setEachKey (s : Session τ) : List (Quantity τ × Bool) → Session τ × Except Failure Unit
  | [] => (s, .ok ())
  | (index, pressed) :: rest =>
    match s.setKey index pressed with
    | (s, .error e) => (s, .error e)
    | (s, .ok ()) => s.setEachKey rest

/-- Sets several keys at once, or none of them if one lies outside the indices. -/
def setKeys (s : Session τ) (keys : List (Quantity τ × Bool)) :
    Session τ × Except Failure Unit :=
  match keys.find? fun (index, _) => !isKeyIndex index with
  | some (index, _) => (s, .error (.invalid (index.refusal .key)))
  | none => s.setEachKey keys

end Session

end Chip8
