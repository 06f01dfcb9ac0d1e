import Chip8.Frame
import Chip8.Time

/-! # Pictures

Coloured pictures of a frame. Every pixel of the frame becomes a square of equal pixels.
-/

namespace Chip8

structure Colour where
  red : UInt8
  green : UInt8
  blue : UInt8
  deriving DecidableEq, Repr

namespace Colour

/-- The colour of three components, each of which must fit in a byte. -/
def ofComponents (red green blue : Int) : Except Failure Colour := do
  let red ← component red
  let green ← component green
  let blue ← component blue
  return { red, green, blue }
where
  component (n : Int) : Except Failure UInt8 :=
    if 0 ≤ n ∧ n < 256 then .ok (UInt8.ofInt n) else .error (.outOfRange (.colour n))

def white : Colour := ⟨255, 255, 255⟩

def black : Colour := ⟨0, 0, 0⟩

end Colour

structure ColourScheme where
  on : Colour := Colour.white
  off : Colour := Colour.black
  deriving DecidableEq, Repr

namespace ColourScheme

def ofComponents (on off : Int × Int × Int) : Except Failure ColourScheme := do
  let on ← Colour.ofComponents on.1 on.2.1 on.2.2
  let off ← Colour.ofComponents off.1 off.2.1 off.2.2
  return { on, off }

def named : List (String × ColourScheme) := [
  ("classic", {}),
  ("green", { on := ⟨0, 255, 0⟩ }),
  ("amber", { on := ⟨255, 176, 0⟩ }),
  ("blue", { on := ⟨0, 255, 255⟩, off := ⟨0, 0, 64⟩ }),
  ("retro", { on := ⟨255, 255, 0⟩, off := ⟨64, 0, 64⟩ })]

def ofName (name : String) : Except Failure ColourScheme :=
  match named.lookup name with
  | some scheme => .ok scheme
  | none => .error (.invalid (.colourScheme name (named.map Prod.fst)))

end ColourScheme

structure Picture where
  height : Nat
  width : Nat
  rows : Array (Array Colour)
  deriving DecidableEq, Repr

namespace Picture

def pixel? (p : Picture) (row column : Nat) : Option Colour :=
  p.rows[row]?.bind fun pixels => pixels[column]?

def stretch {α : Type} (count : Nat) (xs : Array α) : Array α :=
  xs.flatMap fun x => Array.replicate count x

/-- The picture of a frame in two colours, a square of `scale * scale` pixels for each pixel
of the frame. -/
def ofFrame (f : Frame) (scale : Nat) (scheme : ColourScheme) : Picture where
  height := 32 * scale
  width := 64 * scale
  rows := stretch scale <| Array.ofFn fun (y : Fin 32) =>
    stretch scale <| Array.ofFn fun (x : Fin 64) =>
      if f.pixel x y then scheme.on else scheme.off

def bytes (scale : Int) : Int := 3 * (64 * scale) * (32 * scale)

/-- The room for an array of bytes where nothing is said of it. -/
def usualRoom : Nat := 0x1000000000

/-- Whether a picture can be made at a scale of at least one, where an array of at most `room`
bytes can be had. First the rows of the frame are repeated, then the columns. Heights and
sizes are numbers of 64 bits. -/
def checkScale (room : Nat) (scale : Int) : Except Failure Unit :=
  let height := wrap64 (32 * scale)
  if !fits64 scale then .error (.outOfRange (.size scale))
  else if height < 0 then .error (.invalid .negativeSize)
  else if !fits64 (3 * 64 * height) then .error (.invalid .uncountable)
  else if (room : Int) < 3 * 64 * (32 * scale) then .error .outOfMemory
  else if !fits64 (bytes scale) then .error (.invalid .uncountable)
  else if (room : Int) < bytes scale then .error .outOfMemory
  else .ok ()

variable {τ : Type} [TimeScale τ]

/-- The side of the square that a pixel becomes at a scale. Without enlargement it does not
matter how the scale is given. -/
def side (room : Nat) : Quantity τ → Except Failure Nat
  | .whole scale =>
    match checkScale room scale with
    | .ok () => .ok scale.toNat
    | .error e => .error e
  | .real scale => if TimeScale.exceeds 1 scale then .error (.notInteger .scale) else .ok 1

/-- The picture of pixels of any shape, at a scale of at least one. A wrong scale is found
before a wrong shape, then wrong colours are found, and a scale that cannot be used last. -/
def render (p : Pixels) (scale : Quantity τ) (scheme : Except Failure ColourScheme)
    (room : Nat := usualRoom) : Except Failure Picture :=
  if scale.lt (.whole 1) then .error (.invalid (scale.refusal .scale))
  else do
    let frame ← Frame.ofPixels p
    let scheme ← scheme
    let side ← side room scale
    return ofFrame frame side scheme

def transpose (p : Picture) : Picture where
  height := p.width
  width := p.height
  rows := Array.ofFn fun (column : Fin p.width) =>
    p.rows.map fun pixels => pixels.getD column Colour.black

end Picture

namespace Frame

def pixels (f : Frame) : Pixels where
  shape := [2048]
  lit := f.toArray

def render {τ : Type} [TimeScale τ] (f : Frame) (scale : Quantity τ) (scheme : ColourScheme)
    (room : Nat := Picture.usualRoom) : Except Failure Picture :=
  Picture.render f.pixels scale (.ok scheme) room

end Frame

end Chip8
