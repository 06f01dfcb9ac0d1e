import Chip8.Failure
import Chip8.Instruction.Decode
import Chip8.Machine.Perform

/-! # Single steps

A step fetches the word at the program counter and executes it. A failed step reports the
word and its address; the state stays what it was.
-/

namespace Chip8.Machine

variable (m : Machine)

def fetch : Except ExecutionError UInt16 :=
  if 4096 ≤ m.pc.toNat + 1 then .error (.fetchPastEnd (some m.pc.toNat))
  else .ok (m.memory.word m.bus.memory m.pc.toNat)

/-- Executes a word as if it stood at the program counter. -/
def execute (w : Int) : Except ExecutionError Machine :=
  match Instruction.decode w (some m.pc.toNat) with
  | .error e => .error e
  | .ok instruction =>
    match m.dispatch m.bus (UInt16.ofNat instruction.raw) with
    | .ok m' => .ok m'
    | .error f => .error (.ofFault f m.i.toNat (some instruction.raw) (some m.pc.toNat))

def step : Except ExecutionError Machine :=
  match m.fetch with
  | .error e => .error e
  | .ok w => m.execute w.toNat

/-- Counts both timers down. No ticks, or less, leave them alone. -/
def decayTimers (ticks : Int) : Except Failure Machine :=
  if ticks ≤ 0 then .ok m
  else if fits32 ticks then .ok (m.countTimers ticks)
  else .error (.outOfRange (.ticks ticks))

end Chip8.Machine
