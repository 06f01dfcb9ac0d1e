import Chip8.CommandLine.Parser
import Chip8.Log

/-! # Options of the launcher

What the command line can set, and the table of its options. Every option with a value can
also be given as none.
-/

namespace Chip8

structure Options where
  rom : String := ""
  scale : Option Int := some 10
  colourScheme : Option String := some "classic"
  cpuFrequency : Option Int := some 500
  maskRegister : Bool := true
  logLevel : Option String := some "INFO"
  /-- The number of cycles, if the launch is to run without a window. -/
  headless : Option (Option Int) := none
  deriving DecidableEq, Repr

namespace Options

open CommandLine

/-- An option whose value, if there is one, is read from its text. -/
def readValue {α : Type} (read : String → Except ValueProblem α)
    (set : Option α → Options → Options) : Effect Options :=
  .value fun text o =>
    match text.map read with
    | none => .ok (set none o)
    | some (.ok a) => .ok (set (some a) o)
    | some (.error problem) => .error problem

def integerValue (set : Option Int → Options → Options) : Effect Options :=
  readValue (fun text =>
    match Text.integer? text with
    | some n => .ok n
    | none => .error (.notInteger text)) set

def textValue (set : Option String → Options → Options) : Effect Options := readValue .ok set

def choiceValue (choices : List String) (set : Option String → Options → Options) :
    Effect Options :=
  readValue (fun text =>
    if choices.contains text then .ok text else .error (.notAmong text choices)) set

def helpOption : OptionSpec Options where
  names := ["-h", "--help"]
  effect := .help

def scaleOption : OptionSpec Options where
  names := ["--scale"]
  effect := integerValue fun n o => { o with scale := n }

def colourSchemeOption : OptionSpec Options where
  names := ["--color-scheme"]
  effect := textValue fun name o => { o with colourScheme := name }

def cpuFrequencyOption : OptionSpec Options where
  names := ["--cpu-frequency"]
  effect := integerValue fun n o => { o with cpuFrequency := n }

def maskRegisterOption : OptionSpec Options where
  names := ["--random-mask-register", "--no-random-mask-register"]
  effect := .flag fun name o => { o with maskRegister := !name.startsWith "--no-" }

def logLevelOption : OptionSpec Options where
  names := ["--log-level"]
  effect := choiceValue (LogLevel.all.map LogLevel.name) fun name o => { o with logLevel := name }

def headlessOption : OptionSpec Options where
  names := ["--headless"]
  effect := integerValue fun n o => { o with headless := some n }

/-- The options, in the order in which messages list them. -/
def specs : List (OptionSpec Options) :=
  [helpOption, scaleOption, colourSchemeOption, cpuFrequencyOption, maskRegisterOption,
    logLevelOption, headlessOption]

def parse (arguments : List String) : Except Interruption Options := do
  let (rom, options) ← CommandLine.parse specs "rom" {} arguments
  return { options with rom }

end Options

end Chip8
