import Chip8.Frame

/-! # Frame hand-off

The emulation publishes frames, and the presenter takes them. The screen holds the last
published frame and whether the presenter has yet to be told of it.
-/

namespace Chip8

structure Screen where
  frame : Display
  ready : Bool := true
  deriving DecidableEq

namespace Screen

def publish (frame : Display) : Screen := { frame, ready := true }

/-- Whether a frame was announced since the last call, and the screen after the call. -/
def consume (s : Screen) : Bool × Screen := (s.ready, { s with ready := false })

end Screen

end Chip8
