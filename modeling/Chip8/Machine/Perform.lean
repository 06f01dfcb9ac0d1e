import Chip8.Machine.Alu
import Chip8.Machine.Sprite

/-! # Performing instructions

Every kind has a handler, which computes the next state, and the six kinds that can fail have
a check on the state before. A handler's result counts only if its check finds no fault.
Handlers that move bytes work on all lanes whatever their number in use, so some lanes may
read past the end of memory; what they read is given by the open bus.
-/

namespace Chip8.Machine

variable (bus : OpenBus) (o : Operands) (m : Machine)

def clearScreen : Machine :=
  { m with display := Vector.replicate 2048 0, draw := true }.advance 1

/-- The program counter after a return is the popped address. -/
def returnFromCall : Machine :=
  { m with stack := m.stack.pop, pc := m.stack.top bus.stack }

def jump : Machine := { m with pc := o.nnn }

def call : Machine := { m with stack := m.stack.push (m.pc.toNat + 2), pc := o.nnn }

def skipIf (condition : Bool) : Machine := m.advance (if condition then 2 else 1)

def jumpWithOffset : Machine :=
  { m with pc := (o.nnn + (m.getV 0).toUInt16) &&& 0x0FFF }

/-- The key that `VX` names by its low nibble. -/
def keyAt : Bool := m.isDown (Fin.ofNat 16 (m.getV o.x).toNat)

/-- Draws a random byte and masks it with `VX` or with the instruction's byte. -/
def random : Machine :=
  let mask := if m.maskRegister then m.getV o.x else o.nn
  ({ m with rng := m.rng.next }.setV o.x (m.rng.byte &&& mask)).advance 1

def lowestKey? : Option (Fin 16) := (List.finRange 16).find? fun k => m.isDown k

/-- Takes the lowest key that is down; without one the instruction stays in place and runs
again in the next cycle. -/
def waitForKey : Machine :=
  match m.lowestKey? with
  | some k => (m.setV o.x (UInt8.ofNat k)).advance 1
  | none => m

/-- Adds `VX` to the index register, keeping twelve bits. -/
def addToIndex : Machine :=
  { m with i := (m.i + (m.getV o.x).toUInt16) &&& 0x0FFF }.advance 1

/-- Points the index register to the glyph of digit `VX`, five bytes for each digit. -/
def fontAddress : Machine :=
  { m with i := (m.getV o.x).toUInt16 * 5 }.advance 1

/-- The decimal digits of a byte, hundreds first. -/
def decimalDigits (b : UInt8) : List UInt8 := [b / 100, b / 10 % 10, b % 10]

def storeDecimal : Machine :=
  { m with memory := m.memory.store m.i.toNat (decimalDigits (m.getV o.x)) }.advance 1

/-- The sixteen lanes of a store from registers to memory. Lanes past `VX` write back what
they read. -/
def storeLanes : List Lane :=
  (List.finRange 16).map fun (k : Fin 16) =>
    { address := m.i.toNat + k.val
      value := if k ≤ o.x then m.getV k else m.memory.read bus.memory (m.i.toNat + k.val)
      selected := k ≤ o.x }

def storeRegisters : Machine :=
  { m with memory := m.memory.writeLanes (m.storeLanes bus o) }.advance 1

/-- The registers after a load from memory. Registers past `VX` keep their contents. -/
def loadedRegisters : Vector UInt8 16 :=
  Vector.ofFn fun k =>
    if k ≤ o.x then m.memory.read bus.memory (m.i.toNat + k.val) else m.getV k

def loadRegisters : Machine := { m with v := m.loadedRegisters bus o }.advance 1

/-- The handler of each kind. -/
def perform (k : Kind) (bus : OpenBus) (o : Operands) (m : Machine) : Machine :=
  match k with
  | .nop => m.advance 1
  | .cls => m.clearScreen
  | .ret => m.returnFromCall bus
  | .jp => m.jump o
  | .call => m.call o
  | .seImm => m.skipIf (m.getV o.x == o.nn)
  | .sneImm => m.skipIf (m.getV o.x != o.nn)
  | .seReg => m.skipIf (m.getV o.x == m.getV o.y)
  | .ldImm => (m.setV o.x o.nn).advance 1
  | .addImm => (m.setV o.x (m.getV o.x + o.nn)).advance 1
  | .ldReg => m.arithmetic Alu.copy o
  | .orReg => m.arithmetic Alu.or o
  | .andReg => m.arithmetic Alu.and o
  | .xorReg => m.arithmetic Alu.xor o
  | .addReg => m.arithmetic Alu.add o
  | .sub => m.arithmetic Alu.sub o
  | .shr => m.arithmetic Alu.shiftRight o
  | .subn => m.arithmetic Alu.subFrom o
  | .shl => m.arithmetic Alu.shiftLeft o
  | .sneReg => m.skipIf (m.getV o.x != m.getV o.y)
  | .ldI => { m with i := o.nnn }.advance 1
  | .jpV0 => m.jumpWithOffset o
  | .rnd => m.random o
  | .drw => m.drawSprite bus o
  | .skp => m.skipIf (m.keyAt o)
  | .sknp => m.skipIf (!m.keyAt o)
  | .ldVxDt => (m.setV o.x m.delay).advance 1
  | .ldVxK => m.waitForKey o
  | .ldDt => { m with delay := m.getV o.x }.advance 1
  | .ldSt => { m with sound := m.getV o.x }.advance 1
  | .addI => m.addToIndex o
  | .ldF => m.fontAddress o
  | .ldB => m.storeDecimal o
  | .ldMemV => m.storeRegisters bus o
  | .ldVMem => m.loadRegisters bus o

def check (k : Kind) (o : Operands) (m : Machine) : Option Fault :=
  match k with
  | .ret => m.stack.underflow?
  | .call => m.stack.overflow?
  | .drw => Memory.range? m.i.toNat o.n
  | .ldB => Memory.range? m.i.toNat 3
  | .ldMemV | .ldVMem => Memory.range? m.i.toNat (o.x + 1)
  | _ => none

def dispatch (bus : OpenBus) (w : UInt16) (m : Machine) : Except Fault Machine :=
  match Kind.ofCode? (Kind.codeOfWord w) with
  | none => .error .unknownOpcode
  | some k =>
    match m.check k (Operands.ofWord w) with
    | some f => .error f
    | none => .ok (m.perform k bus (Operands.ofWord w))

end Chip8.Machine
