import Chip8.Failure
import Chip8.Machine

/-! # Frames

A frame is a picture of the screen: thirty-two rows of sixty-four pixels that are lit or
dark. It is made from pixel values given flat or row by row, and shown as text.
-/

namespace Chip8

/-- Pixel values laid out in some shape, row-major; a value other than zero is lit. -/
structure Pixels where
  shape : List Nat
  lit : Array Bool
  /-- Whether the values come from lists that agree down to `shape` and no further. -/
  ragged : Bool := false
  deriving DecidableEq, Repr

/-- Values in lists within lists. -/
inductive Nested where
  | value (lit : Bool)
  | list (items : List Nested)
  deriving Inhabited, Repr

namespace Nested

def agreement : List Nat → List Nat → List Nat
  | a :: s, b :: t => if a = b then a :: agreement s t else []
  | _, _ => []

/-- The greatest number of dimensions. Lists further in are not looked into. -/
def maxDimensions : Nat := 64

mutual

/-- The shape on which all parts agree, in at most `room` dimensions, and whether some part
has another shape. -/
def shapeWithin (room : Nat) : Nested → List Nat × Bool
  | value _ => ([], false)
  | list items =>
    match room with
    | 0 => ([], true)
    | room + 1 =>
      let (inner, ragged) := commonShape room items
      (items.length :: inner, ragged)

def commonShape (room : Nat) : List Nested → List Nat × Bool
  | [] => ([], false)
  | [item] => item.shapeWithin room
  | item :: rest =>
    let (first, ragged) := item.shapeWithin room
    let (others, raggedOthers) := commonShape room rest
    (agreement first others, ragged || raggedOthers || first != others)

end

def shape (n : Nested) : List Nat × Bool := n.shapeWithin maxDimensions

mutual

def values : Nested → List Bool
  | value lit => [lit]
  | list items => valuesOfAll items

def valuesOfAll : List Nested → List Bool
  | [] => []
  | item :: rest => item.values ++ valuesOfAll rest

end

end Nested

namespace Pixels

def ofNested (n : Nested) : Pixels where
  shape := n.shape.1
  lit := n.values.toArray
  ragged := n.shape.2

end Pixels

/-- Whether each pixel is lit, the pixel at column `x` of row `y` at index `x + 64 * y`. -/
abbrev Frame := Vector Bool 2048

namespace Frame

def pixel (f : Frame) (x : Fin 64) (y : Fin 32) : Bool := f[x.val + 64 * y.val]

/-- Why lists have no common shape: they go on past the last dimension, or differ before. -/
def raggedness (shape : List Nat) : InvalidArgument :=
  if shape.length = Nested.maxDimensions then .tooDeep Nested.maxDimensions else .ragged shape

def ofPixels (p : Pixels) : Except Failure Frame :=
  if p.ragged then .error (.invalid (raggedness p.shape))
  else if p.shape = [2048] ∨ p.shape = [32, 64] then
    .ok (Vector.ofFn fun k => p.lit.getD k false)
  else .error (.invalid (.frameShape p.shape))

def ofDisplay (d : Display) : Frame := d.map (· != 0)

def rows (f : Frame) : List (List Bool) :=
  (List.finRange 32).map fun y => (List.finRange 64).map fun x => f.pixel x y

def text (f : Frame) (on off : String) : String :=
  "\n".intercalate (f.rows.map fun row => String.join (row.map fun lit => if lit then on else off))

end Frame

end Chip8
