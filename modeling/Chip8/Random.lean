/-! # Random bytes

A counter-based generator: a key of two 32-bit words is stirred with a counter of two words
in twenty rounds of add, rotate and exclusive or. Splitting a key gives the key of the next
draw and a subkey from which the byte of this draw is made.
-/

namespace Chip8

/-- A generator key, or a block of generator output. -/
structure RandomKey where
  first : UInt32
  second : UInt32
  deriving DecidableEq, Repr

namespace RandomKey

def rotateLeft (w : UInt32) (count : UInt32) : UInt32 :=
  (w <<< count) ||| (w >>> (32 - count))

/-- One round: add, rotate, exclusive or. -/
def round (block : RandomKey) (count : UInt32) : RandomKey :=
  let sum := block.first + block.second
  ⟨sum, rotateLeft block.second count ^^^ sum⟩

/-- The rotations of the even and of the odd groups of four rounds. -/
def evenRotations : List UInt32 := [13, 15, 26, 6]

def oddRotations : List UInt32 := [17, 29, 16, 24]

/-- Four rounds, after which two words of the key schedule and the group's number are added. -/
def group (rotations : List UInt32) (a b number : UInt32) (block : RandomKey) : RandomKey :=
  let block := rotations.foldl round block
  ⟨block.first + a, block.second + b + number⟩

def parity (key : RandomKey) : UInt32 := key.first ^^^ key.second ^^^ 0x1BD11BDA

/-- The output block of `key` for the counter `(x, y)`. -/
def stir (key : RandomKey) (x y : UInt32) : RandomKey :=
  let k := key.parity
  (⟨x + key.first, y + key.second⟩ : RandomKey)
    |> group evenRotations key.second k 1
    |> group oddRotations k key.first 2
    |> group evenRotations key.first key.second 3
    |> group oddRotations key.second k 4
    |> group evenRotations k key.first 5

def next (key : RandomKey) : RandomKey := key.stir 0 0

def byte (key : RandomKey) : UInt8 :=
  let subkey := key.stir 0 1
  let block := (subkey.stir 0 1).stir 0 0
  (block.first ^^^ block.second).toUInt8

def ofSeed (seed : Nat) : RandomKey := ⟨0, UInt32.ofNat seed⟩

end RandomKey

end Chip8
