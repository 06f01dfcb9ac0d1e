/-! # Machine layout

Sizes and addresses of a CHIP-8 machine, and the glyphs of the sixteen hexadecimal digits
that every machine holds from address zero on.
-/

namespace Chip8

abbrev memorySize : Nat := 4096

/-- There are sixteen registers and as many keys. -/
instance neZero_sixteen : @NeZero Nat Zero.ofOfNat0 16 := ⟨by decide⟩

/-- Address at which programs are loaded. -/
abbrev programStart : Nat := 0x200

abbrev maxRomSize : Nat := memorySize - programStart

abbrev screenWidth : Nat := 64

abbrev screenHeight : Nat := 32

abbrev stackDepth : Nat := 48

abbrev maxSpriteHeight : Nat := 15

abbrev spriteWidth : Nat := 8

/-- The digit glyphs, five rows each, held from address zero on. -/
def fontData : List UInt8 := [
  0xF0, 0x90, 0x90, 0x90, 0xF0,
  0x20, 0x60, 0x20, 0x20, 0x70,
  0xF0, 0x10, 0xF0, 0x80, 0xF0,
  0xF0, 0x10, 0xF0, 0x10, 0xF0,
  0x90, 0x90, 0xF0, 0x10, 0x10,
  0xF0, 0x80, 0xF0, 0x10, 0xF0,
  0xF0, 0x80, 0xF0, 0x90, 0xF0,
  0xF0, 0x10, 0x20, 0x40, 0x40,
  0xF0, 0x90, 0xF0, 0x90, 0xF0,
  0xF0, 0x90, 0xF0, 0x10, 0xF0,
  0xF0, 0x90, 0xF0, 0x90, 0x90,
  0xE0, 0x90, 0xE0, 0x90, 0xE0,
  0xF0, 0x80, 0x80, 0x80, 0xF0,
  0xE0, 0x90, 0x90, 0x90, 0xE0,
  0xF0, 0x80, 0xF0, 0x80, 0xF0,
  0xF0, 0x80, 0xF0, 0x80, 0x80]

end Chip8
