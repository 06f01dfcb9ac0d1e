import Chip8.Error
import Chip8.Instruction

/-! # Decoding

An integer is decoded through its low sixteen bits into a kind and the values of its fields.
-/

namespace Chip8

structure Instruction where
  raw : Nat
  kind : Kind
  /-- First nibble. -/
  opcode : Nat
  x : Nat
  y : Nat
  n : Nat
  nn : Nat
  nnn : Nat
  deriving DecidableEq, Repr

namespace Instruction

def lowWord (w : Int) : Nat := (w % 0x10000).toNat

def ofFields (raw : Nat) (kind : Kind) : Instruction where
  raw
  kind
  opcode := raw / 0x1000 % 0x10
  x := raw / 0x100 % 0x10
  y := raw / 0x10 % 0x10
  n := raw % 0x10
  nn := raw % 0x100
  nnn := raw % 0x1000

def decode (w : Int) (pc : Option Int) : Except ExecutionError Instruction :=
  match Kind.classify (lowWord w) with
  | some kind => .ok (ofFields (lowWord w) kind)
  | none => .error (.unknownOpcode (some (lowWord w)) pc)

end Instruction

end Chip8
