import Chip8.Machine.Step

/-! # Batches

A batch runs a number of cycles in one loop and stops before the first cycle that faults.
The timers are counted down along the way: after cycle `c` by
`(c + 1) * decrements / cycles - c * decrements / cycles`, which spreads the decrements
evenly over the cycles. Cycle numbers start from the batch's phase, so that consecutive
batches count down as one long batch would.
-/

namespace Chip8

structure TimerRatio where
  decrements : Int := 0
  cycles : Int := 1
  deriving DecidableEq, Repr

namespace TimerRatio

def ticksAt (r : TimerRatio) (c : Int) : Int :=
  ((c + 1) * r.decrements).fdiv r.cycles - (c * r.decrements).fdiv r.cycles

/-- The quotient of 32-bit numbers, rounded down. A division by zero has a quotient of `-1`,
which is rounded down to `-2` unless the dividend is zero. -/
def wrappedQuotient (a b : Int) : Int :=
  if b = 0 then (if a = 0 then -1 else -2) else wrap32 (a.fdiv b)

/-- The ticks due after cycle `c`, every operation wrapped to 32 bits. -/
def wrappedTicksAt (r : TimerRatio) (c : Int) : Int :=
  wrap32 (wrappedQuotient (wrap32 (wrap32 (c + 1) * r.decrements)) r.cycles
    - wrappedQuotient (wrap32 (c * r.decrements)) r.cycles)

end TimerRatio

structure Batch where
  machine : Machine
  executed : Nat
  error : Option ExecutionError := none

namespace Machine

/-- One cycle of a batch: fetch, dispatch, and the timers counted down by `ticks`. A fetch
past the end of memory takes precedence over what the word read there would do. -/
def cycle (bus : OpenBus) (ticks : Int) (m : Machine) : Except Fault Machine :=
  if 4096 ≤ m.pc.toNat + 1 then .error .fetchPastEnd
  else
    match m.dispatch bus (m.memory.word bus.memory m.pc.toNat) with
    | .ok m' => .ok (m'.countTimers ticks)
    | .error f => .error f

def cycles (r : TimerRatio) (phase : Int) : Nat → Nat → Machine → Machine × Nat × Option Fault
  | 0, executed, m => (m, executed, none)
  | count + 1, executed, m =>
    match m.cycle m.bus (r.wrappedTicksAt (wrap32 (phase + executed))) with
    | .ok m' => cycles r phase count (executed + 1) m'
    | .error f => (m, executed, some f)

/-- The error of a batch that met fault `f` in state `m`. -/
def faultError (m : Machine) (f : Fault) : ExecutionError :=
  let opcode := m.fetch.toOption.map fun w => (w.toNat : Int)
  .ofFault f m.i.toNat opcode (some m.pc.toNat)

/-- Runs `count` cycles, the first one numbered `start`. -/
def runFrom (m : Machine) (r : TimerRatio) (start : Int) (count : Nat) : Batch :=
  let (m', executed, fault) := m.cycles r start count 0
  { machine := m', executed, error := fault.map m'.faultError }

/-- Runs `count` cycles. The count and the ratio must fit in 32 bits; a batch of no cycles
asks nothing of them. -/
def runBatch (m : Machine) (count : Int) (r : TimerRatio) (phase : Int) : Except Failure Batch :=
  if count ≤ 0 then .ok { machine := m, executed := 0 }
  else if !fits32 count then .error (.outOfRange (.signed32 count))
  else if !fits32 r.decrements then .error (.outOfRange (.signed32 r.decrements))
  else if !fits32 r.cycles then .error (.outOfRange (.signed32 r.cycles))
  else if r.cycles = 0 then .error .zeroDivision
  else .ok (m.runFrom r (phase.fmod r.cycles) count.toNat)

end Machine

end Chip8
