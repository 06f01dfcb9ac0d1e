import Chip8.Error

/-! # Memory

Reads, writes and the range check. A read past the end is answered by the open bus, and a
write past the end is dropped. Instructions that move several bytes write a fixed number of
lanes; only the selected ones belong to the instruction.
-/

namespace Chip8

abbrev Memory := Vector UInt8 4096

/-- Answers to reads past the end of memory and past the last slot of the call stack. -/
structure OpenBus where
  memory : Nat → UInt8
  stack : UInt16

/-- One byte that an instruction moves. -/
structure Lane where
  address : Nat
  value : UInt8
  /-- Whether the instruction asks for this byte to be moved. -/
  selected : Bool
  deriving DecidableEq, Repr

namespace Memory

def read (bus : Nat → UInt8) (m : Memory) (address : Nat) : UInt8 :=
  if h : address < 4096 then m[address] else bus address

theorem read_of_lt {bus : Nat → UInt8} {m : Memory} {address : Nat} (h : address < 4096) :
    m.read bus address = m[address] := by
  simp [read, h]

/-- The last byte of memory, which answers reads past the end. -/
def clamped (m : Memory) : UInt8 := m[4095]

def write (m : Memory) (address : Nat) (value : UInt8) : Memory :=
  m.setIfInBounds address value

theorem getElem_write (m : Memory) (address : Nat) (value : UInt8) {k : Nat} (h : k < 4096) :
    (m.write address value)[k] = if address = k then value else m[k] := by
  simp [write, Vector.getElem_setIfInBounds]

def writeLanes (m : Memory) (lanes : List Lane) : Memory :=
  lanes.foldl (fun m lane => m.write lane.address lane.value) m

def store (m : Memory) (start : Nat) : List UInt8 → Memory
  | [] => m
  | b :: rest => store (m.write start b) (start + 1) rest

theorem getElem_store (bytes : List UInt8) (m : Memory) (start : Nat) {k : Nat} (h : k < 4096) :
    (m.store start bytes)[k]
      = if start ≤ k then (bytes[k - start]?).getD m[k] else m[k] := by
  induction bytes generalizing m start with
  | nil => simp [store]
  | cons b rest ih =>
    rw [store, ih, getElem_write]
    by_cases hk : start = k
    · subst hk
      rw [if_neg (by omega), if_pos rfl, if_pos (Nat.le_refl _), Nat.sub_self]
      rfl
    · by_cases hs : start ≤ k
      · have hd : k - start = (k - (start + 1)) + 1 := by omega
        have hl : start + 1 ≤ k := by omega
        simp [hk, hs, hl, hd]
      · have hl : ¬start + 1 ≤ k := by omega
        simp [hk, hs, hl]

def range? (start length : Nat) : Option Fault :=
  if 4096 < start + length then some .memoryRange else none

def word (bus : Nat → UInt8) (m : Memory) (address : Nat) : UInt16 :=
  (m.read bus address).toUInt16 <<< 8 ||| (m.read bus (address + 1)).toUInt16

end Memory

end Chip8
