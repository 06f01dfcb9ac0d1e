import Chip8.Machine

/-! # Keyboard

The sixteen keys of the machine lie on the left of a keyboard, in four rows of four.
-/

namespace Chip8.Keyboard

def layout : List (Char × Fin 16) := [
  ('1', 0x1), ('2', 0x2), ('3', 0x3), ('4', 0xC),
  ('q', 0x4), ('w', 0x5), ('e', 0x6), ('r', 0xD),
  ('a', 0x7), ('s', 0x8), ('d', 0x9), ('f', 0xE),
  ('z', 0xA), ('x', 0x0), ('c', 0xB), ('v', 0xF)]

def key? (c : Char) : Option (Fin 16) := layout.lookup c

def pauseKey : Char := 'p'

def escapeKey : Char := '\x1b'

end Chip8.Keyboard
