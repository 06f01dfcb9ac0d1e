import Chip8.CallStack
import Chip8.Clock
import Chip8.CommandLine.Launch
import Chip8.CommandLine.Options
import Chip8.CommandLine.Parser
import Chip8.Config
import Chip8.Decimal.Binary64
import Chip8.Decimal.Fixed
import Chip8.Decimal.Quotient
import Chip8.Decimal.Shortest
import Chip8.Error
import Chip8.Failure
import Chip8.FileTree
import Chip8.Frame
import Chip8.Instruction
import Chip8.Instruction.Decode
import Chip8.Keyboard
import Chip8.Layout
import Chip8.Log
import Chip8.Log.Journal
import Chip8.Log.Progress
import Chip8.Machine
import Chip8.Machine.Alu
import Chip8.Machine.Batch
import Chip8.Machine.Perform
import Chip8.Machine.Sprite
import Chip8.Machine.Step
import Chip8.Main
import Chip8.Memory
import Chip8.Picture
import Chip8.Proofs.CallStack
import Chip8.Proofs.CallStack.Lists
import Chip8.Proofs.Clock.Conservation
import Chip8.Proofs.Clock.Doubles
import Chip8.Proofs.Clock.Rounding
import Chip8.Proofs.Clock.Signs
import Chip8.Proofs.Clock.Stretches
import Chip8.Proofs.Clock.Timers
import Chip8.Proofs.CommandLine.Arguments
import Chip8.Proofs.CommandLine.Headless
import Chip8.Proofs.Frame
import Chip8.Proofs.Instruction.Patterns
import Chip8.Proofs.Machine.Alike
import Chip8.Proofs.Machine.Arithmetic
import Chip8.Proofs.Machine.Bounds
import Chip8.Proofs.Machine.ChunkTicks
import Chip8.Proofs.Machine.Countdown
import Chip8.Proofs.Machine.Decoding
import Chip8.Proofs.Machine.Drawing
import Chip8.Proofs.Machine.Draws
import Chip8.Proofs.Machine.Drives
import Chip8.Proofs.Machine.Effects
import Chip8.Proofs.Machine.Faults
import Chip8.Proofs.Machine.Flow
import Chip8.Proofs.Machine.Footprints
import Chip8.Proofs.Machine.Glyphs
import Chip8.Proofs.Machine.Programs
import Chip8.Proofs.Machine.Reachability
import Chip8.Proofs.Machine.Redrawing
import Chip8.Proofs.Machine.Runs
import Chip8.Proofs.Machine.Steps
import Chip8.Proofs.Machine.Subroutines
import Chip8.Proofs.Machine.Ticks
import Chip8.Proofs.Machine.Timed
import Chip8.Proofs.Machine.Transfers
import Chip8.Proofs.Machine.Waiting
import Chip8.Proofs.Picture
import Chip8.Proofs.Session.Accounting
import Chip8.Proofs.Session.Beats
import Chip8.Proofs.Session.Calls
import Chip8.Proofs.Session.Chunks
import Chip8.Proofs.Session.Commands
import Chip8.Proofs.Session.Control
import Chip8.Proofs.Session.Drifting
import Chip8.Proofs.Session.Driving
import Chip8.Proofs.Session.Exits
import Chip8.Proofs.Session.Failures
import Chip8.Proofs.Session.Frames
import Chip8.Proofs.Session.Frequencies
import Chip8.Proofs.Session.Halting
import Chip8.Proofs.Session.Keys
import Chip8.Proofs.Session.Labouring
import Chip8.Proofs.Session.Lifecycle
import Chip8.Proofs.Session.Loading
import Chip8.Proofs.Session.Loops
import Chip8.Proofs.Session.Moves
import Chip8.Proofs.Session.Pausing
import Chip8.Proofs.Session.Readings
import Chip8.Proofs.Session.Resetting
import Chip8.Proofs.Session.Schedules
import Chip8.Proofs.Session.Splitting
import Chip8.Proofs.Session.Stuck
import Chip8.Proofs.Session.Timers
import Chip8.Proofs.Session.Tracing
import Chip8.Proofs.Session.Waiting
import Chip8.Proofs.Session.Work
import Chip8.Proofs.Window.Ending
import Chip8.Proofs.Window.Freezing
import Chip8.Proofs.Window.Handoff
import Chip8.Random
import Chip8.Rom
import Chip8.Schedule
import Chip8.Screen
import Chip8.Session
import Chip8.Session.Run
import Chip8.Signed32
import Chip8.Text.Digit
import Chip8.Text.Integer
import Chip8.Text.Layout
import Chip8.Text.Printable
import Chip8.Text.Quoted
import Chip8.Time
import Chip8.Time.Exact
import Chip8.Time.Rounded
import Chip8.Window
