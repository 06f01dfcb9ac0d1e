import Chip8.Time

/-! # Progress bars

A progress bar over the cycles of a long run. Its progress is measured on the time scale, so
the total must have a place there.
-/

namespace Chip8

/-- What a progress bar over cycles shows. A bar without a total only counts. -/
structure ProgressBar (τ : Type) where
  total : Option (Quantity τ)
  unit : String
  title : String
  deriving DecidableEq, Repr

namespace ProgressBar

variable {τ : Type} [TimeScale τ]

def counted (total : Quantity τ) : Except Failure String := do
  let count ← total.text Quantity.grouped
  return "Emulating (" ++ count ++ " cycles)"

/-- The given title, unless it is absent or empty. -/
def titled (total : Quantity τ) : Option String → Except Failure String
  | some text => if text.isEmpty then counted total else .ok text
  | none => counted total

/-- A bar for a total in a unit, which is the cycle if none is given. A total without end
counts as none. -/
def create (total : Quantity τ) (title unit : Option String) :
    Except Failure (ProgressBar τ) := do
  let title ← titled total title
  let _ : τ ← total.toReal
  return {
    total := if total.isEndless then none else some total
    unit := unit.getD "cycle"
    title }

end ProgressBar

end Chip8
