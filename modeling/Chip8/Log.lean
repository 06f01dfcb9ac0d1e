import Chip8.Text.Layout
import Chip8.Time

/-! # Logs

A logger writes the messages from its level on, one line each: the seconds since its start,
the level, the logger's name and the message. Levels are compared without regard to case.
A level that is none of the five counts as `INFO`.
-/

namespace Chip8

inductive LogLevel where
  | debug
  | info
  | warning
  | error
  | critical
  deriving DecidableEq, Repr

namespace LogLevel

def all : List LogLevel := [debug, info, warning, error, critical]

def name : LogLevel → String
  | debug => "DEBUG"
  | info => "INFO"
  | warning => "WARNING"
  | error => "ERROR"
  | critical => "CRITICAL"

/-- Position from the least severe level on. -/
def order : LogLevel → Nat
  | debug => 0
  | info => 1
  | warning => 2
  | error => 3
  | critical => 4

/-- The capital of a character, if that is one of the letters `A` to `Z`. Beyond ASCII only
the dotless i and the long s have such a capital. -/
def capital (c : Char) : Char :=
  if c = 'ı' then 'I' else if c = 'ſ' then 'S' else c.toUpper

def capitals (s : String) : String := s.map capital

def ofName? (s : String) : Option LogLevel := all.find? fun level => level.name = capitals s

def colour : LogLevel → String
  | debug => "\x1b[36m"
  | info => "\x1b[32m"
  | warning => "\x1b[33m"
  | error => "\x1b[31m"
  | critical => "\x1b[35m"

end LogLevel

def plainColour : String := "\x1b[0m"

structure Logger (τ : Type) where
  name : String
  level : LogLevel
  colours : Bool := false
  timestamps : Bool := true
  /-- Reading of the clock when the logger was made. -/
  start : Quantity τ
  deriving Repr

namespace Logger

variable {τ : Type} [TimeScale τ]

def create (name level : String) (start : Quantity τ) : Except Failure (Logger τ) :=
  match LogLevel.ofName? level with
  | some level => .ok { name, level, start }
  | none => .error (.invalid (.logLevel level (LogLevel.all.map LogLevel.name)))

def isEnabled (l : Logger τ) (level : String) : Bool :=
  l.level.order ≤ ((LogLevel.ofName? level).getD .info).order

/-- The escape sequence for a level given by name; the name `RESET` stands for the one that
ends a colour. -/
def colourOf (level : String) : String :=
  match LogLevel.ofName? level with
  | some known => known.colour
  | none => if LogLevel.capitals level = "RESET" then plainColour else ""

def stamp (l : Logger τ) (now : Quantity τ) : Except Failure String :=
  if l.timestamps then do
    let elapsed ← now.sub l.start
    let seconds ← elapsed.fixed 2
    return "[" ++ Text.padLeft ' ' 8 seconds ++ "s]"
  else .ok ""

def tag (l : Logger τ) (level : String) : String :=
  let plain := "[" ++ Text.padLeft ' ' 8 level ++ "]"
  if l.colours then colourOf level ++ plain ++ plainColour else plain

def line (l : Logger τ) (now : Quantity τ) (level message : String) : Except Failure String := do
  let stamp ← l.stamp now
  return stamp ++ l.tag level ++ "[" ++ l.name ++ "] " ++ message ++ "\n"

/-- What logging a message writes: a line, or nothing below the logger's level. Only a line
needs the time. -/
def log (l : Logger τ) (now : Quantity τ) (level message : String) : Except Failure String :=
  if l.isEnabled level then l.line now level message else .ok ""

def write (l : Logger τ) (now : Quantity τ) (level : LogLevel) (message : String) :
    Except Failure String :=
  l.log now level.name message

end Logger

end Chip8
