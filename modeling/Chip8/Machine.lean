import Chip8.CallStack
import Chip8.Failure
import Chip8.Memory
import Chip8.Random

/-! # Machine state

The state of a CHIP-8 machine. A fresh machine holds the digit glyphs at address zero, and a
program is loaded at `programStart`.
-/

namespace Chip8

/-- Pixels row by row, the pixel at column `x` of row `y` at index `x + 64 * y`. -/
abbrev Display := Vector UInt8 2048

abbrev Keypad := Vector Bool 16

def Keypad.put (keys : Keypad) (k : Fin 16) (pressed : Bool) : Keypad := keys.set k pressed

structure Machine where
  rng : RandomKey
  memory : Memory := Vector.replicate 4096 0
  pc : UInt16 := 0x200
  display : Display := Vector.replicate 2048 0
  /-- Raised by the instructions that change the display, lowered when a frame is presented. -/
  draw : Bool := false
  stack : CallStack := {}
  delay : UInt8 := 0
  sound : UInt8 := 0
  keypad : Keypad := Vector.replicate 16 false
  v : Vector UInt8 16 := Vector.replicate 16 0
  i : UInt16 := 0
  /-- Whether a random byte is masked with the register that it replaces, and not with the
  instruction's byte. -/
  maskRegister : Bool := true
  deriving DecidableEq

namespace Machine

/-- A machine that holds the digit glyphs and no program. -/
def fresh (rng : RandomKey) (maskRegister : Bool) : Machine :=
  let m : Machine := { rng, maskRegister }
  { m with memory := m.memory.store 0 fontData }

def loadRom (m : Machine) (rom : List UInt8) (name : String) : Except RomError Machine :=
  if maxRomSize < rom.length then .error (.tooLarge name rom.length maxRomSize)
  else .ok { m with memory := m.memory.store programStart rom }

/-- The open bus of a running machine repeats the last byte and the last stack slot. -/
def bus (m : Machine) : OpenBus where
  memory := fun _ => m.memory.clamped
  stack := m.stack.clamped

def advance (m : Machine) (count : UInt16) : Machine :=
  { m with pc := m.pc + 2 * count }

def getV (m : Machine) (x : Fin 16) : UInt8 := m.v[x]

def isDown (m : Machine) (k : Fin 16) : Bool := m.keypad[k]

def setV (m : Machine) (x : Fin 16) (value : UInt8) : Machine :=
  { m with v := m.v.set x value }

/-- Counts a timer down by `ticks` in 32 bits, stopping at zero, and keeps the low byte. -/
def countDown (ticks : Int) (timer : UInt8) : UInt8 :=
  UInt8.ofInt (max (wrap32 (timer.toNat - ticks)) 0)

/-- Within 32 bits, counting down is subtraction that stops at zero. -/
theorem toNat_countDown {ticks : Int} (low : 0 ≤ ticks) (high : ticks < 0x80000000)
    (timer : UInt8) : (countDown ticks timer).toNat = timer.toNat - ticks.toNat := by
  have := timer.toNat_lt
  rw [countDown, wrap32_of_fits (by omega) (by omega), UInt8.ofInt, UInt8.toNat_ofNat']
  omega

def countTimers (m : Machine) (ticks : Int) : Machine :=
  { m with delay := countDown ticks m.delay, sound := countDown ticks m.sound }

end Machine

end Chip8
