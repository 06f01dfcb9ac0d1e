import Chip8.Error
import Chip8.Signed32

/-! # Call stack

Forty-eight return addresses and a pointer that counts the live ones. A push writes the slot
under the pointer, a pop clears the slot that it frees. Neither checks for room: a push onto
a full stack writes nothing, a pop from an empty one reads slot zero.
-/

namespace Chip8

structure CallStack where
  entries : Vector UInt16 48 := Vector.replicate 48 0
  pointer : Int := 0
  deriving DecidableEq, Repr

namespace CallStack

def overflow? (s : CallStack) : Option Fault :=
  if 48 ≤ s.pointer then some .stackOverflow else none

def underflow? (s : CallStack) : Option Fault :=
  if s.pointer ≤ 0 then some .stackUnderflow else none

/-- The slot that index `i` writes: negative indices count from the end. -/
def slot (i : Int) : Option (Fin 48) :=
  let k := if i < 0 then i + 48 else i
  if h : 0 ≤ k ∧ k < 48 then some ⟨k.toNat, by omega⟩ else none

/-- Stores at index `i`; a store outside the stack is dropped. -/
def store (s : CallStack) (i : Int) (address : UInt16) : Vector UInt16 48 :=
  match slot i with
  | some k => s.entries.set k address
  | none => s.entries

/-- Only the low twelve bits of the address are kept. -/
def push (s : CallStack) (address : Int) : CallStack where
  entries := s.store s.pointer (UInt16.ofInt (address % 4096))
  pointer := min (wrap32 (s.pointer + 1)) 48

def popped (s : CallStack) : Int := max (wrap32 (s.pointer - 1)) 0

/-- The address that a pop returns; `beyond` answers a read outside the stack. -/
def top (beyond : UInt16) (s : CallStack) : UInt16 :=
  if h : s.popped.toNat < 48 then s.entries[s.popped.toNat] else beyond

def pop (s : CallStack) : CallStack where
  entries := s.store s.popped 0
  pointer := s.popped

theorem pointer_push_le (s : CallStack) (address : Int) : (s.push address).pointer ≤ 48 := by
  simp only [push]
  omega

theorem pointer_pop_nonneg (s : CallStack) : 0 ≤ s.pop.pointer := by
  simp only [pop, popped]
  omega

/-- The answer to a read past the last slot is the last slot. -/
def clamped (s : CallStack) : UInt16 := s.entries[47]

end CallStack

end Chip8
