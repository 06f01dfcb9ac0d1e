import Chip8.Instruction
import Chip8.Machine

/-! # Sprites

A sprite is eight pixels wide and at most fifteen rows high. All fifteen rows are laid onto
an empty screen, the rows past the sprite's height as dark ones, wrapping around both edges.
The result is a mask that flips the display.
-/

namespace Chip8

structure Dot where
  index : Nat
  lit : UInt8
  /-- Whether the pixel's row belongs to the sprite. -/
  selected : Bool
  deriving DecidableEq, Repr

namespace Sprite

/-- The index of the pixel `column` to the right and `row` down from `(x, y)`, on a screen
that wraps around. -/
def place (x y column row : Nat) : Nat :=
  (x + column) % screenWidth + (y + row) % screenHeight * screenWidth

/-- Bit `column` of a row, the most significant bit first. -/
def bitAt (row : UInt8) (column : Nat) : UInt8 :=
  row >>> UInt8.ofNat (spriteWidth - 1 - column) &&& 1

def rowDots (x y row : Nat) (bits : UInt8) (selected : Bool) : List Dot :=
  (List.range spriteWidth).map fun column =>
    { index := place x y column row
      lit := if selected then bitAt bits column else 0
      selected }

/-- The pixels of all fifteen rows of a sprite of height `height`, whose rows are read from
`start` on. -/
def dots (bus : OpenBus) (memory : Memory) (start x y height : Nat) : List Dot :=
  (List.range maxSpriteHeight).flatMap fun row =>
    rowDots x y row (memory.read bus.memory (start + row)) (row < height)

def mask (dots : List Dot) : Display :=
  dots.foldl (fun d dot => d.setIfInBounds dot.index dot.lit) (Vector.replicate 2048 0)

def collides (display mask : Display) : Bool :=
  (display.zip mask).any fun (pixel, flip) => pixel &&& flip == 1

end Sprite

namespace Machine

/-- The mask of a sprite of height `o.n` at the position held by `VX` and `VY`. -/
def spriteMask (bus : OpenBus) (o : Operands) (m : Machine) : Display :=
  Sprite.mask (Sprite.dots bus m.memory m.i.toNat
    ((m.getV o.x).toNat % screenWidth) ((m.getV o.y).toNat % screenHeight) o.n)

def drawSprite (bus : OpenBus) (o : Operands) (m : Machine) : Machine :=
  let mask := m.spriteMask bus o
  { m with
    display := m.display.zipWith (· ^^^ ·) mask
    draw := true
    v := m.v.set 15 (if Sprite.collides m.display mask then 1 else 0) }.advance 1

end Machine

end Chip8
