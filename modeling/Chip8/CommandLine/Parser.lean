import Chip8.Text.Integer
import Chip8.Text.Quoted

/-! # Command line arguments

Arguments are options, values of options, and one positional argument. An option may be
named by any beginning that fits no other name, and may carry its value behind an equals
sign. After `--` nothing is an option. Where a value is attached, `--` stands for none. The
first error in reading order is reported; a missing positional argument comes before
arguments that nothing asked for.
-/

namespace Chip8.CommandLine

inductive ValueProblem where
  | missing
  | unwanted (value : String)
  | notInteger (value : String)
  | notAmong (value : String) (choices : List String)
  deriving DecidableEq, Repr

namespace ValueProblem

def message : ValueProblem → String
  | missing => "expected one argument"
  | unwanted value => "ignored explicit argument " ++ Text.quoted value
  | notInteger value => "invalid int value: " ++ Text.quoted value
  | notAmong value choices =>
    "invalid choice: " ++ Text.quoted value ++ " (choose from "
      ++ ", ".intercalate (choices.map Text.quoted) ++ ")"

end ValueProblem

inductive UsageError where
  | ambiguous (given : String) (names : List String)
  | argument (names : List String) (problem : ValueProblem)
  | required (name : String)
  | unrecognized (arguments : List String)
  deriving DecidableEq, Repr

namespace UsageError

def message : UsageError → String
  | ambiguous given names =>
    "ambiguous option: " ++ given ++ " could match " ++ ", ".intercalate names
  | argument names problem => "argument " ++ "/".intercalate names ++ ": " ++ problem.message
  | required name => "the following arguments are required: " ++ name
  | unrecognized arguments => "unrecognized arguments: " ++ " ".intercalate arguments

end UsageError

inductive Interruption where
  | usage (e : UsageError)
  | help
  deriving DecidableEq, Repr

inductive Effect (σ : Type) where
  | help
  /-- An option without a value; it is told the name by which it was given. -/
  | flag (set : String → σ → σ)
  /-- An option with a value, which may be given as none. -/
  | value (set : Option String → σ → Except ValueProblem σ)

structure OptionSpec (σ : Type) where
  names : List String
  effect : Effect σ

namespace OptionSpec

variable {σ : Type}

def takesValue (o : OptionSpec σ) : Bool :=
  match o.effect with
  | .value _ => true
  | _ => false

end OptionSpec

structure Mention (σ : Type) where
  spec : OptionSpec σ
  name : String
  attached : Option String := none

inductive Token (σ : Type) where
  | plain
  /-- The first `--`. -/
  | separator
  | option (mention : Mention σ)
  /-- It looks like an option, but there is none of this name. -/
  | unknown

namespace Token

variable {σ : Type}

def isOption : Token σ → Bool
  | option _ | unknown => true
  | _ => false

end Token

variable {σ : Type}

def allNames (specs : List (OptionSpec σ)) : List (String × OptionSpec σ) :=
  specs.flatMap fun spec => spec.names.map fun name => (name, spec)

def splitEquals? (argument : String) : Option (String × String) :=
  let before := argument.toList.takeWhile (· ≠ '=')
  match argument.toList.dropWhile (· ≠ '=') with
  | _ :: after => some (String.ofList before, String.ofList after)
  | [] => none

/-- The options that an argument may abbreviate. A name with a single dash may have its value
attached without an equals sign. -/
def candidates (specs : List (OptionSpec σ)) (argument : String) : List (Mention σ) :=
  if argument.startsWith "--" then
    let (start, attached) :=
      match splitEquals? argument with
      | some (before, after) => (before, some after)
      | none => (argument, none)
    (allNames specs).filterMap fun (name, spec) =>
      if name.startsWith start then some { spec, name, attached } else none
  else
    let short := String.ofList (argument.toList.take 2)
    let rest := String.ofList (argument.toList.drop 2)
    (allNames specs).filterMap fun (name, spec) =>
      if name = short then some { spec, name, attached := some rest }
      else if name.startsWith argument then some { spec, name }
      else none

/-- The option that an argument names in full, alone or before an equals sign. -/
def fullyNamed? (specs : List (OptionSpec σ)) (argument : String) : Option (Mention σ) :=
  match (allNames specs).lookup argument with
  | some spec => some { spec, name := argument }
  | none =>
    match splitEquals? argument with
    | none => none
    | some (name, value) =>
      ((allNames specs).lookup name).map fun spec => { spec, name, attached := some value }

/-- Tells what an argument before any `--` is. Negative numbers and texts with a space in
them are no options. -/
def tokenOf (specs : List (OptionSpec σ)) (argument : String) : Except Interruption (Token σ) :=
  if !argument.startsWith "-" then .ok .plain
  else if argument.length = 1 then .ok .plain
  else
    match fullyNamed? specs argument with
    | some mention => .ok (.option mention)
    | none =>
      match candidates specs argument with
      | [mention] => .ok (.option mention)
      | [] =>
        if Text.isNegativeNumber argument || argument.contains ' ' then .ok .plain
        else .ok .unknown
      | several => .error (.usage (.ambiguous argument (several.map Mention.name)))

def tokens (specs : List (OptionSpec σ)) :
    List String → Except Interruption (List (String × Token σ))
  | [] => .ok []
  | argument :: rest =>
    if argument = "--" then
      .ok ((argument, .separator) :: rest.map fun later => (later, .plain))
    else do
      let token ← tokenOf specs argument
      let later ← tokens specs rest
      return (argument, token) :: later

structure Reading (σ : Type) where
  settings : σ
  positional : Option String := none
  extras : List String := []

namespace Reading

def addExtra (r : Reading σ) (argument : String) : Reading σ :=
  { r with extras := r.extras ++ [argument] }

end Reading

/-- Follows a run of single-dash options without values, written in one argument: every
character that is attached to the option of the given names must name one. -/
def cluster (specs : List (OptionSpec σ)) (names : List String) :
    List Char → Except Interruption Unit
  | [] => .error (.usage (.argument names (.unwanted "")))
  | c :: rest =>
    match (allNames specs).lookup (String.ofList ['-', c]) with
    | none => .error (.usage (.argument names (.unwanted (String.ofList (c :: rest)))))
    | some spec => if rest.isEmpty then .ok () else cluster specs spec.names rest

def applyFlag (specs : List (OptionSpec σ)) (mention : Mention σ) (r : Reading σ) :
    Except Interruption (Reading σ) := do
  match mention.attached with
  | none => pure ()
  | some value =>
    if mention.name.startsWith "--" then
      throw (.usage (.argument mention.spec.names (.unwanted value)))
    else cluster specs mention.spec.names value.toList
  match mention.spec.effect with
  | .help => throw .help
  | .flag set => return { r with settings := set mention.name r.settings }
  | .value _ => return r

def applyValue (spec : OptionSpec σ) (value : String) (r : Reading σ) :
    Except Interruption (Reading σ) :=
  match spec.effect with
  | .value set =>
    match set (if value = "--" then none else some value) r.settings with
    | .ok settings => .ok { r with settings }
    | .error problem => .error (.usage (.argument spec.names problem))
  | _ => .ok r

/-- Reads the arguments behind the last option. The positional argument may have `--` on
either side. -/
def readTail (r : Reading σ) (arguments : List (String × Token σ)) : Reading σ :=
  let rest (r : Reading σ) (later : List (String × Token σ)) : Reading σ :=
    { r with extras := r.extras ++ later.map Prod.fst }
  match r.positional, arguments with
  | none, (_, .separator) :: (value, _) :: later =>
    rest { r with positional := some value } later
  | none, (value, .plain) :: (_, .separator) :: later =>
    rest { r with positional := some value } later
  | none, (value, .plain) :: later => rest { r with positional := some value } later
  | _, later => rest r later

def readAll (specs : List (OptionSpec σ)) (r : Reading σ) :
    List (String × Token σ) → Except Interruption (Reading σ)
  | [] => .ok r
  | (argument, .unknown) :: rest => readAll specs (r.addExtra argument) rest
  | (_, .option mention) :: rest =>
    if mention.spec.takesValue then
      match mention.attached, rest with
      | some value, rest => do readAll specs (← applyValue mention.spec value r) rest
      | none, (value, .plain) :: rest => do
        readAll specs (← applyValue mention.spec value r) rest
      | none, _ => .error (.usage (.argument mention.spec.names .missing))
    else do readAll specs (← applyFlag specs mention r) rest
  | (argument, token) :: rest =>
    if rest.any fun (_, later) => later.isOption then
      match r.positional with
      | none => readAll specs { r with positional := some argument } rest
      | some _ => readAll specs (r.addExtra argument) rest
    else .ok (readTail r ((argument, token) :: rest))

/-- Parses arguments into settings and the positional argument of the given name. -/
def parse (specs : List (OptionSpec σ)) (positionalName : String) (settings : σ)
    (arguments : List String) : Except Interruption (String × σ) := do
  let r ← readAll specs { settings } (← tokens specs arguments)
  match r.positional, r.extras with
  | none, _ => throw (.usage (.required positionalName))
  | some value, [] => return (value, r.settings)
  | some _, extras => throw (.usage (.unrecognized extras))

end Chip8.CommandLine
