import Chip8.CommandLine.Options
import Chip8.Rom
import Chip8.Window

/-! # Launching

A launch makes a session from the program file, runs it for a number of cycles or presents
it in a window, and ends with an exit status: one for an error of the emulator, two for a
wrong setting. Other failures end the program; a setting without a value is one as soon as
the value is needed.
-/

namespace Chip8

structure Launch where
  output : String
  outcome : Except Failure Nat

namespace Launch

variable {τ : Type} [TimeScale τ]

def needed {α : Type} (setting : Unset) : Option α → Except Failure α
  | some a => .ok a
  | none => .error (.unset setting)

def config (o : Options) : Except Failure (Config τ) := do
  let logLevel ← needed .logLevel o.logLevel
  let cpuFrequency ← needed .cpuFrequency o.cpuFrequency
  let config : Config τ :=
    { cpuFrequency := .whole cpuFrequency, maskRegister := o.maskRegister, logLevel }
  config.checked

def session (o : Options) (contents : Except Failure (List UInt8)) (now : Quantity τ) :
    Except Failure (Session τ) := do
  let config ← config o
  let rom ← contents
  Session.create config rom (FileTree.baseName o.rom) (RandomKey.ofSeed 0) now

def headless (s : Session τ) (cycles : Int) : Session τ × Except Failure String :=
  match s.runWithProgress (.whole cycles) with
  | (s, .error e) => (s, .error e)
  | (s, .ok ()) => (s, .ok ((Frame.ofDisplay s.frame).text "#" "." ++ "\n"))

/-- A scale of zero, for which nothing can be painted, stands for none. -/
def scaleFailure (scale : Option Int) : Failure → Failure
  | .invalid (.scale given) =>
    if scale.isNone then .unset .scale else .invalid (.scale given)
  | e => e

def windowed (s : Session τ) (scale : Option Int) (colourScheme : Option String)
    (frames : List (WindowFrame τ)) (room : Nat) : Session τ × Except Failure String :=
  match needed .colourScheme colourScheme with
  | .error e => (s, .error e)
  | .ok scheme =>
    match Window.run s (.whole (scale.getD 0)) scheme frames room with
    | (w, .ok ()) => (w.session, .ok "")
    | (w, .error e) => (w.session, .error (scaleFailure scale e))

def present (o : Options) (s : Session τ) (frames : List (WindowFrame τ)) (room : Nat) :
    Session τ × Except Failure String :=
  match o.headless with
  | some (some cycles) => headless s cycles
  | some none => (s, .error (.unset .cycles))
  | none => windowed s o.scale o.colourScheme frames room

/-- The end of a launch with a last message in the log. -/
def ending (logger : Logger τ) (now : Quantity τ) (output message : String) (status : Nat) :
    Launch :=
  match logger.write now .error message with
  | .ok line => { output := output ++ line, outcome := .ok status }
  | .error e => { output, outcome := .error e }

/-- The end of a launch that failed after printing `output`. -/
def failed (logger : Logger τ) (now : Quantity τ) (output : String) (e : Failure) : Launch :=
  if e.isEmulation then ending logger now output e.message 1
  else
    match e with
    | .invalid cause => ending logger now output ("Invalid configuration: " ++ cause.message) 2
    | _ => { output, outcome := .error e }

def run (o : Options) (contents : Except Failure (List UInt8)) (now : Quantity τ)
    (frames : List (WindowFrame τ)) (room : Nat := Picture.usualRoom) : Launch :=
  match needed .logLevel o.logLevel >>= fun level => Logger.create "chipax" level now with
  | .error e => { output := "", outcome := .error e }
  | .ok logger =>
    match session o contents now with
    | .error e => failed logger now "" e
    | .ok s =>
      match present o s frames room with
      | (s, .ok text) => { output := s.surroundings.output ++ text, outcome := .ok 0 }
      | (s, .error e) => failed logger now s.surroundings.output e

end Launch

end Chip8
