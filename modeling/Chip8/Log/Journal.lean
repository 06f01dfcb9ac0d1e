import Chip8.Log

/-! # Session journal

A journal is the log of one session. It reports the configuration at the start of a run, and
the cycles and the rate at its end. A report stops at the first line that cannot be written,
and the lines before it stay.
-/

namespace Chip8

/-- What a report wrote, and the failure that cut it short if there was one. -/
structure Report where
  text : String := ""
  outcome : Except Failure Unit := .ok ()

namespace Report

/-- The report and after it a line, unless the report was cut short before. -/
def line (r : Report) (line : Except Failure String) : Report :=
  match r.outcome, line with
  | .ok (), .ok text => { text := r.text ++ text }
  | .ok (), .error e => { r with outcome := .error e }
  | .error _, _ => r

def ofLine (line : Except Failure String) : Report := ({} : Report).line line

end Report

structure Journal (τ : Type) where
  logger : Logger τ
  /-- Reading of the clock at the last start of a run. -/
  runStart : Option (Quantity τ) := none
  deriving Repr

namespace Journal

variable {τ : Type} [TimeScale τ]

def rule : String := "".pushn '=' 60

/-- What a report of the start of a run says. Settings come as names with the texts of their
values. -/
def opening (romName : String) (settings : List (String × String)) : List String :=
  [rule, "Starting session for '" ++ romName ++ "' with configuration:"]
    ++ settings.map fun (name, value) => "  " ++ name ++ ": " ++ value

def started (j : Journal τ) (now : Quantity τ) : Journal τ := { j with runStart := some now }

/-- The report of the start of a run. A setting that cannot be written cuts it short. -/
def begin (j : Journal τ) (now : Quantity τ) (romName : String)
    (settings : List (String × String)) (unreadable : Option Failure := none) : Report :=
  let told : Report := (opening romName settings).foldl
    (fun r message => r.line (j.logger.write now .info message)) {}
  told.line (unreadable.elim (j.logger.write now .info rule) .error)

/-- The reading from which a run is measured. A start at zero does not count as one. -/
def origin (j : Journal τ) : Quantity τ :=
  match j.runStart with
  | some start => if start.isZero then j.logger.start else start
  | none => j.logger.start

/-- Cycles per second, zero if no time has passed. -/
def rate (cycles elapsed : Quantity τ) : Except Failure τ :=
  if (Quantity.whole 0).lt elapsed then cycles.div elapsed
  else .ok TimeScale.zero

/-- The time since the start of a run, and the rate of its cycles. -/
def measure (j : Journal τ) (now cycles : Quantity τ) :
    Except Failure (Quantity τ × τ) := do
  let elapsed ← now.sub j.origin
  return (elapsed, ← rate cycles elapsed)

def tally (j : Journal τ) (now cycles elapsed : Quantity τ) (rate : τ) :
    Except Failure String := do
  let count ← cycles.text Quantity.grouped
  let seconds ← elapsed.fixed 1
  j.logger.write now .info
    ("Executed " ++ count ++ " cycles in " ++ seconds ++ "s ("
      ++ TimeScale.fixed 0 rate ++ " Hz)")

/-- The report of the end of a run, and of the error that ended it if there is one. It needs
the rate, which is found before anything is written. -/
def finish (j : Journal τ) (now cycles : Quantity τ) (error : Option String) : Report :=
  match j.measure now cycles with
  | .error e => { outcome := .error e }
  | .ok (elapsed, rate) =>
    let halt : Report :=
      match error with
      | some message => .ofLine (j.logger.write now .error ("Session halted: " ++ message))
      | none => {}
    halt.line (j.tally now cycles elapsed rate)

end Journal

end Chip8
