import Chip8.Layout
import Chip8.Text.Layout

/-! # Execution errors

A fault is the reason for which an instruction cannot complete. An execution error reports a
fault together with the instruction word and its address, as far as they are known.
-/

namespace Chip8

inductive Fault where
  | unknownOpcode
  | stackOverflow
  | stackUnderflow
  | memoryRange
  | fetchPastEnd
  deriving DecidableEq, Repr

namespace Fault

/-- Positive code of a fault; zero stands for no fault. -/
def code : Fault → Nat
  | unknownOpcode => 1
  | stackOverflow => 2
  | stackUnderflow => 3
  | memoryRange => 4
  | fetchPastEnd => 5

def ofCode? : Int → Option Fault
  | 1 => some unknownOpcode
  | 2 => some stackOverflow
  | 3 => some stackUnderflow
  | 4 => some memoryRange
  | 5 => some fetchPastEnd
  | _ => none

theorem ofCode?_code (f : Fault) : ofCode? f.code = some f := by cases f <;> rfl

def codeOf (f : Option Fault) : Nat := (f.map code).getD 0

end Fault

/-- The families of errors. Every family but the most general one belongs to a wider one. -/
inductive ErrorFamily where
  | emulator
  | romLoad
  | romTooLarge
  | execution
  | decode
  | stackOverflow
  | stackUnderflow
  | memoryAccess
  deriving DecidableEq, Repr

namespace ErrorFamily

def parent? : ErrorFamily → Option ErrorFamily
  | emulator => none
  | romLoad => some emulator
  | romTooLarge => some romLoad
  | execution => some emulator
  | decode => some execution
  | stackOverflow => some execution
  | stackUnderflow => some execution
  | memoryAccess => some execution

def depth : ErrorFamily → Nat
  | emulator => 0
  | romLoad | execution => 1
  | romTooLarge | decode | stackOverflow | stackUnderflow | memoryAccess => 2

theorem depth_parent {f g : ErrorFamily} (h : f.parent? = some g) : g.depth < f.depth := by
  cases f <;> cases g <;> simp_all [parent?, depth]

/-- The families that an error of family `f` belongs to, the narrowest first. -/
def lineage (f : ErrorFamily) : List ErrorFamily :=
  match _h : f.parent? with
  | none => [f]
  | some g => f :: lineage g
termination_by f.depth
decreasing_by exact depth_parent _h

def label : ErrorFamily → String
  | emulator => "Chip8Error"
  | romLoad => "RomLoadError"
  | romTooLarge => "RomTooLargeError"
  | execution => "ExecutionError"
  | decode => "DecodeError"
  | stackOverflow => "StackOverflowError"
  | stackUnderflow => "StackUnderflowError"
  | memoryAccess => "MemoryAccessError"

end ErrorFamily

/-- An error raised while executing the instruction `opcode` located at `pc`. -/
structure ExecutionError where
  family : ErrorFamily
  reason : String
  opcode : Option Int := none
  pc : Option Int := none
  deriving DecidableEq, Repr

namespace ExecutionError

variable (e : ExecutionError)

def location : List String :=
  (e.opcode.map fun word => "opcode 0x" ++ Text.hex 4 word).toList
    ++ (e.pc.map fun address => "pc 0x" ++ Text.hex 3 address).toList

/-- The reason, followed in brackets by the location if any of it is known. -/
def message : String :=
  match e.location with
  | [] => e.reason
  | parts => e.reason ++ " (" ++ ", ".intercalate parts ++ ")"

def locate (opcode pc : Int) : ExecutionError :=
  { e with opcode := e.opcode.or (some opcode), pc := e.pc.or (some pc) }

def unknownOpcode (opcode pc : Option Int) : ExecutionError :=
  { family := .decode, reason := "Unknown opcode", opcode, pc }

/-- A fetch past the end of memory has read no word to report. -/
def fetchPastEnd (pc : Option Int) : ExecutionError :=
  { family := .memoryAccess, reason := "Instruction fetch past end of memory", pc }

def ofFault (f : Fault) (index : Nat) (opcode pc : Option Int) : ExecutionError :=
  match f with
  | .unknownOpcode => unknownOpcode opcode pc
  | .stackOverflow =>
    { family := .stackOverflow, opcode, pc
      reason := "Call stack overflow, depth " ++ toString stackDepth ++ " exceeded" }
  | .stackUnderflow =>
    { family := .stackUnderflow, reason := "Return with empty call stack", opcode, pc }
  | .memoryRange =>
    { family := .memoryAccess, opcode, pc
      reason := "Memory access out of range from I=0x" ++ Text.hex 3 index }
  | .fetchPastEnd => fetchPastEnd pc

def ofCode (code : Int) (index : Nat) (opcode pc : Option Int) : ExecutionError :=
  match Fault.ofCode? code with
  | some f => ofFault f index opcode pc
  | none => { family := .execution, reason := "Unknown fault code " ++ toString code, opcode, pc }

end ExecutionError

end Chip8
