import Chip8.Error
import Chip8.Signed32
import Chip8.Text.Quoted

/-! # Failures

Everything that a call can fail with: execution errors, programs that cannot be loaded,
arguments with no meaning, calls at the wrong time, and numbers out of range. A failure is
its cause; `message` words it.
-/

namespace Chip8

inductive FileError where
  | notFound
  | alreadyExists
  | notDirectory
  | isDirectory
  | nameTooLong
  deriving DecidableEq, Repr

namespace FileError

/-- The number under which the operating system reports the error. -/
def number : FileError → Nat
  | notFound => 2
  | alreadyExists => 17
  | notDirectory => 20
  | isDirectory => 21
  | nameTooLong => 36

def reason : FileError → String
  | notFound => "No such file or directory"
  | alreadyExists => "File exists"
  | notDirectory => "Not a directory"
  | isDirectory => "Is a directory"
  | nameTooLong => "File name too long"

def message (e : FileError) (path : String) : String :=
  "[Errno " ++ toString e.number ++ "] " ++ e.reason ++ ": " ++ Text.quoted path

end FileError

inductive RomError where
  | unreadable (path : String) (cause : FileError)
  | tooLarge (name : String) (size limit : Int)
  deriving DecidableEq, Repr

namespace RomError

def family : RomError → ErrorFamily
  | unreadable .. => .romLoad
  | tooLarge .. => .romTooLarge

def message : RomError → String
  | unreadable path cause => "Failed to read ROM '" ++ path ++ "': " ++ cause.message path
  | tooLarge name size limit =>
    "ROM '" ++ name ++ "' is too large to fit into CHIP-8 memory: " ++ toString size
      ++ " bytes, limit is " ++ toString limit

end RomError

inductive InvalidArgument where
  /-- A setting that must be positive; `shown` is its value as a message shows it. -/
  | notPositive (setting shown : String)
  | negative (setting shown : String)
  | logLevel (given : String) (available : List String)
  | colourScheme (given : String) (available : List String)
  | key (shown : String)
  | scale (shown : String)
  | frameShape (shape : List Nat)
  /-- Nested lists that agree in shape down to some depth only. -/
  | ragged (shape : List Nat)
  /-- Nested lists with more dimensions than there may be. -/
  | tooDeep (limit : Nat)
  | negativeSize
  /-- A picture of more bytes than can be counted. -/
  | uncountable
  | pathWithNul
  /-- An integer with more digits than may be written. -/
  | tooManyDigits (limit : Nat)
  /-- A float that is not a number has no integer part. -/
  | notANumber
  /-- Reported by whoever called; the program gives no meaning to the text. -/
  | reported (text : String)
  deriving DecidableEq, Repr

namespace InvalidArgument

def message : InvalidArgument → String
  | notPositive setting shown => setting ++ " must be positive, got " ++ shown
  | negative setting shown => setting ++ " must not be negative, got " ++ shown
  | logLevel given available =>
    "Unknown log level '" ++ given ++ "'. Available: "
      ++ Text.listing (available.map Text.quoted)
  | colourScheme given available =>
    "Unknown color scheme '" ++ given ++ "'. Available: "
      ++ Text.listing (available.map Text.quoted)
  | key shown => "Key index must be in 0..15, got " ++ shown
  | scale shown => "scale must be at least 1, got " ++ shown
  | frameShape shape =>
    "Expected 2048 pixels or shape (32, 64), got " ++ Text.tuple (shape.map toString)
  | ragged shape =>
    "setting an array element with a sequence. The requested array has an inhomogeneous "
      ++ "shape after " ++ toString shape.length ++ " dimensions. The detected shape was "
      ++ Text.tuple (shape.map toString) ++ " + inhomogeneous part."
  | tooDeep limit =>
    "setting an array element with a sequence. The requested array would exceed the maximum "
      ++ "number of dimension of " ++ toString limit ++ "."
  | negativeSize => "negative dimensions are not allowed"
  | uncountable =>
    "array is too big; `arr.size * arr.dtype.itemsize` is larger than the maximum possible size."
  | pathWithNul => "embedded null byte"
  | tooManyDigits limit =>
    "Exceeds the limit (" ++ toString limit ++ " digits) for integer string conversion; "
      ++ "use sys.set_int_max_str_digits() to increase the limit"
  | notANumber => "cannot convert float NaN to integer"
  | reported text => text

end InvalidArgument

inductive Misuse where
  | alreadyRunning
  | resetWhileRunning
  deriving DecidableEq, Repr

namespace Misuse

def message : Misuse → String
  | alreadyRunning => "Emulator is already running"
  | resetWhileRunning => "Cannot reset a running emulator"

end Misuse

inductive OutOfRange where
  | signed32 (n : Int)
  | colour (n : Int)
  | ticks (n : Int)
  | infinite
  | float (n : Int)
  | size (n : Int)
  deriving DecidableEq, Repr

namespace OutOfRange

/-- Past 64 bits the number itself is not reported. -/
def bounds (n : Int) (kind : String) : String :=
  if fits64 n then "Python integer " ++ toString n ++ " out of bounds for " ++ kind
  else "Python int too large to convert to C long"

def message : OutOfRange → String
  | signed32 n => bounds n "int32"
  | colour n => bounds n "uint8"
  | ticks n =>
    "An overflow was encountered while parsing an argument to a jitted computation, "
      ++ "whose argument path is y. Got <class 'int'> with value " ++ toString n
  | infinite => "cannot convert float infinity to integer"
  | float _ => "int too large to convert to float"
  | size _ => "Python int too large to convert to C long"

end OutOfRange

inductive Unset where
  | logLevel
  | cpuFrequency
  | cycles
  | colourScheme
  | scale
  deriving DecidableEq, Repr

namespace Unset

def message : Unset → String
  | logLevel => "no log level"
  | cpuFrequency => "no frequency"
  | cycles => "no number of cycles"
  | colourScheme => "no color scheme"
  | scale => "no scale"

def label : Unset → String
  | logLevel => "AttributeError"
  | _ => "TypeError"

end Unset

/-- A number that is in range, but is no integer where only integers serve. -/
inductive NotInteger where
  | cycles
  | key
  | scale
  deriving DecidableEq, Repr

namespace NotInteger

def message : NotInteger → String
  | cycles => "the number of cycles is no integer"
  | key => "the key index is no integer"
  | scale => "the scale is no integer"

def label : NotInteger → String
  | key => "IndexError"
  | _ => "TypeError"

end NotInteger

inductive Failure where
  | execution (e : ExecutionError)
  | rom (e : RomError)
  | invalid (e : InvalidArgument)
  | misuse (e : Misuse)
  | outOfRange (e : OutOfRange)
  | unset (e : Unset)
  | notInteger (e : NotInteger)
  | zeroDivision
  | outOfMemory
  deriving DecidableEq, Repr

namespace Failure

def message : Failure → String
  | execution e => e.message
  | rom e => e.message
  | invalid e => e.message
  | misuse e => e.message
  | outOfRange e => e.message
  | unset e => e.message
  | notInteger e => e.message
  | zeroDivision => "division by zero"
  | outOfMemory => "out of memory"

def label : Failure → String
  | execution e => e.family.label
  | rom e => e.family.label
  | invalid _ => "ValueError"
  | misuse _ => "RuntimeError"
  | outOfRange _ => "OverflowError"
  | unset e => e.label
  | notInteger e => e.label
  | zeroDivision => "ZeroDivisionError"
  | outOfMemory => "_ArrayMemoryError"

/-- The failure with its label, as a crash report shows it. -/
def report (f : Failure) : String := f.label ++ "(" ++ Text.quoted f.message ++ ")"

/-- Whether the failure is the emulator's own, and no wrong argument or number. -/
def isEmulation : Failure → Bool
  | execution _ | rom _ => true
  | _ => false

end Failure

end Chip8
