import Chip8.Instruction
import Chip8.Machine

/-! # Arithmetic instructions

The instructions of class `8` compute a result and, all but the first four, a flag. The
result is written to `VX` first and the flag to `VF` second, so that the flag wins where both
are one register. Sums and differences are taken on integers, which show the carry.
-/

namespace Chip8

/-- What an arithmetic instruction writes to `VX` and to `VF`. -/
structure Alu where
  value : UInt8
  flag : Option UInt8
  deriving DecidableEq, Repr

namespace Alu

variable (x y : UInt8)

def bit (b : Bool) : UInt8 := if b then 1 else 0

def copy (_x y : UInt8) : Alu := ⟨y, none⟩

def or : Alu := ⟨x ||| y, none⟩

def and : Alu := ⟨x &&& y, none⟩

def xor : Alu := ⟨x ^^^ y, none⟩

def add : Alu :=
  let sum : Int := x.toNat + y.toNat
  ⟨UInt8.ofInt sum, some (bit (0xFF < sum))⟩

/-- The flag tells that the difference is positive. -/
def sub : Alu :=
  let a : Int := x.toNat
  let b : Int := y.toNat
  ⟨UInt8.ofInt (a - b), some (bit (b < a))⟩

def shiftRight (x _y : UInt8) : Alu := ⟨x >>> 1, some (x &&& 1)⟩

def subFrom : Alu := sub y x

def shiftLeft (x _y : UInt8) : Alu := ⟨x <<< 1, some (x >>> 7)⟩

end Alu

namespace Machine

def writeAlu (m : Machine) (x : Fin 16) (r : Alu) : Machine :=
  match r.flag with
  | none => m.setV x r.value
  | some f => (m.setV x r.value).setV 15 f

def arithmetic (op : UInt8 → UInt8 → Alu) (o : Operands) (m : Machine) : Machine :=
  (m.writeAlu o.x (op (m.getV o.x) (m.getV o.y))).advance 1

end Machine

end Chip8
