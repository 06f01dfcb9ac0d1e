import Chip8.Time

/-! # Configuration

The settings of a session. Frequencies and the catch-up limit must be positive, and the sleep
between ticks must not be negative.
-/

namespace Chip8

structure Config (τ : Type) [OfScientific τ] where
  /-- Instructions per second. -/
  cpuFrequency : Quantity τ := .whole 500
  /-- Timer decrements per second. -/
  timerFrequency : Quantity τ := .whole 60
  /-- Seconds that the run loop sleeps between ticks. -/
  tickSleep : Quantity τ := .real 0.01
  /-- Seconds that one tick may cover at most. -/
  catchUp : Option (Quantity τ) := none
  /-- Whether random bytes are masked with the register that they replace. -/
  maskRegister : Bool := true
  logLevel : String := "INFO"
  deriving Repr

namespace Config

variable {τ : Type} [TimeScale τ]

def violation? (c : Config τ) : Option InvalidArgument :=
  if c.cpuFrequency.isNotPositive then
    some (c.cpuFrequency.refusal (.notPositive "cpu_frequency"))
  else if c.timerFrequency.isNotPositive then
    some (c.timerFrequency.refusal (.notPositive "timer_frequency"))
  else if c.tickSleep.isNegative then
    some (c.tickSleep.refusal (.negative "tick_sleep"))
  else
    match c.catchUp with
    | some limit =>
      if limit.isNotPositive then some (limit.refusal (.notPositive "max_catch_up")) else none
    | none => none

def checked (c : Config τ) : Except Failure (Config τ) :=
  match c.violation? with
  | some e => .error (.invalid e)
  | none => .ok c

def flagText (b : Bool) : String := if b then "True" else "False"

/-- The settings by name, with their texts in a log if they can be written. -/
def entries (c : Config τ) : List (String × Except Failure String) := [
  ("cpu_frequency", c.cpuFrequency.text Quantity.logged),
  ("timer_frequency", c.timerFrequency.text Quantity.logged),
  ("tick_sleep", c.tickSleep.text Quantity.logged),
  ("max_catch_up", (c.catchUp.map (Quantity.text Quantity.logged)).getD (.ok "None")),
  ("random_mask_register", .ok (flagText c.maskRegister)),
  ("log_level", .ok c.logLevel)]

/-- The entries before the first that cannot be written, and why that one cannot. -/
def readable : List (String × Except Failure String) → List (String × String) × Option Failure
  | [] => ([], none)
  | (_, .error e) :: _ => ([], some e)
  | (name, .ok text) :: rest => ((name, text) :: (readable rest).1, (readable rest).2)

end Config

end Chip8
