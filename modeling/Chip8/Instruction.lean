import Chip8.Layout

/-! # Instructions

The thirty-five instruction kinds, the rule that finds the kind of a word, and the operand
fields of a word. A word's first nibble selects its class. Class `0` is keyed by the whole
word, class `8` by the last nibble, classes `E` and `F` by the last byte.
-/

namespace Chip8

/-- Instruction kinds, in the order of their codes. -/
inductive Kind where
  | nop | cls | ret
  | jp | call
  | seImm | sneImm | seReg
  | ldImm | addImm
  | ldReg | orReg | andReg | xorReg | addReg | sub | shr | subn | shl
  | sneReg
  | ldI | jpV0 | rnd | drw
  | skp | sknp
  | ldVxDt | ldVxK | ldDt | ldSt | addI | ldF | ldB | ldMemV | ldVMem
  deriving DecidableEq, Repr

namespace Kind

def all : List Kind :=
  [nop, cls, ret, jp, call, seImm, sneImm, seReg, ldImm, addImm,
   ldReg, orReg, andReg, xorReg, addReg, sub, shr, subn, shl, sneReg,
   ldI, jpV0, rnd, drw, skp, sknp,
   ldVxDt, ldVxK, ldDt, ldSt, addI, ldF, ldB, ldMemV, ldVMem]

theorem mem_all (k : Kind) : k ∈ all := by cases k <;> decide

def code (k : Kind) : Nat := all.idxOf k

def ofCode? (c : Nat) : Option Kind := all[c]?

theorem ofCode?_code (k : Kind) : ofCode? k.code = some k := by cases k <;> rfl

def unknownCode : Nat := all.length

theorem code_lt (k : Kind) : k.code < unknownCode := by cases k <;> decide

theorem ofCode?_unknownCode : ofCode? unknownCode = none := rfl

def mnemonic : Kind → String
  | nop => "NOP" | cls => "CLS" | ret => "RET" | jp => "JP" | call => "CALL"
  | seImm => "SE_IMM" | sneImm => "SNE_IMM" | seReg => "SE_REG"
  | ldImm => "LD_IMM" | addImm => "ADD_IMM"
  | ldReg => "LD_REG" | orReg => "OR" | andReg => "AND" | xorReg => "XOR"
  | addReg => "ADD_REG" | sub => "SUB" | shr => "SHR" | subn => "SUBN" | shl => "SHL"
  | sneReg => "SNE_REG" | ldI => "LD_I" | jpV0 => "JP_V0" | rnd => "RND" | drw => "DRW"
  | skp => "SKP" | sknp => "SKNP" | ldVxDt => "LD_VX_DT" | ldVxK => "LD_VX_K"
  | ldDt => "LD_DT" | ldSt => "LD_ST" | addI => "ADD_I" | ldF => "LD_F" | ldB => "LD_B"
  | ldMemV => "LD_MEM_V" | ldVMem => "LD_V_MEM"

/-- Kinds of class `0`, keyed by the whole word. -/
def ofSystemWord? (w : Int) : Option Kind :=
  if w = 0x0000 then some nop
  else if w = 0x00E0 then some cls
  else if w = 0x00EE then some ret
  else none

/-- Kinds of class `8`, keyed by the last nibble. -/
def ofArithmeticNibble? : Nat → Option Kind
  | 0x0 => some ldReg
  | 0x1 => some orReg
  | 0x2 => some andReg
  | 0x3 => some xorReg
  | 0x4 => some addReg
  | 0x5 => some sub
  | 0x6 => some shr
  | 0x7 => some subn
  | 0xE => some shl
  | _ => none

/-- Kinds of class `E`, keyed by the last byte. -/
def ofKeyByte? : Nat → Option Kind
  | 0x9E => some skp
  | 0xA1 => some sknp
  | _ => none

def ofMiscByte? : Nat → Option Kind
  | 0x07 => some ldVxDt
  | 0x0A => some ldVxK
  | 0x15 => some ldDt
  | 0x18 => some ldSt
  | 0x1E => some addI
  | 0x29 => some ldF
  | 0x33 => some ldB
  | 0x55 => some ldMemV
  | 0x65 => some ldVMem
  | _ => none

/-- The kind of an integer read as an instruction word. Only the low sixteen bits select
the class; the words of class `0` are compared as they stand. -/
def classify (w : Int) : Option Kind :=
  match (w / 0x1000 % 0x10).toNat with
  | 0x0 => ofSystemWord? w
  | 0x1 => some jp
  | 0x2 => some call
  | 0x3 => some seImm
  | 0x4 => some sneImm
  | 0x5 => some seReg
  | 0x6 => some ldImm
  | 0x7 => some addImm
  | 0x8 => ofArithmeticNibble? (w % 0x10).toNat
  | 0x9 => some sneReg
  | 0xA => some ldI
  | 0xB => some jpV0
  | 0xC => some rnd
  | 0xD => some drw
  | 0xE => ofKeyByte? (w % 0x100).toNat
  | _ => ofMiscByte? (w % 0x100).toNat

/-- The dispatch table: the kind code of every word. -/
def codeOfWord (w : UInt16) : Nat :=
  match classify w.toNat with
  | some k => k.code
  | none => unknownCode

theorem ofCode?_codeOfWord (w : UInt16) : ofCode? (codeOfWord w) = classify w.toNat := by
  unfold codeOfWord
  split
  · next k h => rw [h, ofCode?_code]
  · next h => rw [h, ofCode?_unknownCode]

end Kind

structure Operands where
  /-- Second nibble, the register `VX`. -/
  x : Fin 16
  /-- Third nibble, the register `VY`. -/
  y : Fin 16
  /-- Last nibble. -/
  n : Fin 16
  /-- Last byte. -/
  nn : UInt8
  /-- Last twelve bits, an address. -/
  nnn : UInt16
  deriving DecidableEq, Repr

namespace Operands

def ofWord (w : UInt16) : Operands where
  x := Fin.ofNat 16 ((w >>> 8) &&& 0x0F).toNat
  y := Fin.ofNat 16 ((w >>> 4) &&& 0x0F).toNat
  n := Fin.ofNat 16 (w &&& 0x0F).toNat
  nn := w.toUInt8
  nnn := w &&& 0x0FFF

/-- Operand fields of the low sixteen bits of an integer. -/
def ofInt (w : Int) : Operands := ofWord (UInt16.ofInt w)

end Operands

end Chip8
