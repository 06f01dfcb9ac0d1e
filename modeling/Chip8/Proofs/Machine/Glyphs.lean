import Chip8.Proofs.Machine.Drives
import Chip8.Proofs.Machine.Footprints
import Chip8.Proofs.Machine.Reachability

/-! # Glyphs

The font lies in memory that programs may write, as nothing but the end of memory is guarded. Two
instructions write memory. What either stores over a glyph stays there until the next store, and
the bytes of the font to which nothing is ever stored are as they were made.
-/

namespace Chip8.Machine

variable {m m' : Machine}

def stores (m : Machine) : List UInt8 :=
  (Kind.classify m.word.toNat).elim [] (m.storedBytes m.operands)

def storedAt (a : Nat) (m : Machine) : Option UInt8 :=
  if m.i.toNat ≤ a then m.stores[a - m.i.toNat]? else none

def lastStored (a : Nat) (log : List Machine) : Option UInt8 :=
  log.reverse.findSome? (storedAt a)

theorem getElem?_memory_step (h : m.step = .ok m') {a : Nat} (inside : a < memorySize) :
    m'.memory[a]? = (m.storedAt a).or m.memory[a]? := by
  obtain ⟨k, hk, rfl⟩ := step_eq_ok_iff.mp h
  have stored : m.stores = m.storedBytes m.operands k := by
    rw [stores, Kind.classify_of_matches hk.fits]
    rfl
  rw [Vector.getElem?_eq_getElem inside, Vector.getElem?_eq_getElem inside,
    getElem_memory_perform, storedAt, stored]
  split
  · cases (m.storedBytes m.operands k)[a - m.i.toNat]? <;> rfl
  · rfl

theorem lastStored_append (a : Nat) (log : List Machine) :
    lastStored a (log ++ [m]) = (m.storedAt a).or (lastStored a log) := by
  rw [lastStored, List.reverse_append, List.reverse_singleton, List.singleton_append,
    List.findSome?_cons]
  cases m.storedAt a <;> rfl

/-- A byte of a machine that is driven is the one that was stored last. -/
theorem getElem?_memory_drive (m : Machine) (ops : List Operation) {a : Nat}
    (inside : a < memorySize) :
    (m.drive ops).memory[a]? = (lastStored a (m.log ops)).or m.memory[a]? := by
  refine drive_induction
    (P := fun log m₁ => m₁.memory[a]? = (lastStored a log).or m.memory[a]?) ?_ ?_ rfl ops
  · intro log m₁ m₂ h hs
    rw [getElem?_memory_step hs inside, h, lastStored_append, Option.or_assoc]
  · exact fun _ _ _ _ h => h

theorem getElem?_memory_loaded (rom : List UInt8) (key : RandomKey) (maskRegister : Bool) {a : Nat}
    (glyph : a < fontData.length) :
    ((fresh key maskRegister).memory.store programStart rom)[a]? = fontData[a]? := by
  have small : a < 80 := glyph
  have inside : a < memorySize := Nat.lt_trans small (by decide)
  have before : ¬programStart ≤ a := by unfold programStart; omega
  rw [Vector.getElem?_eq_getElem inside, Memory.getElem_store, if_neg before, fresh,
    Memory.getElem_store, if_pos (Nat.zero_le a), Nat.sub_zero, List.getElem?_eq_getElem glyph]
  rfl

/-- However a loaded machine is driven, a byte of the font that a completed instruction has stored
to is the one stored last, and every other byte is as it was made. -/
theorem font_but_for_stores (rom : List UInt8) (fits : rom.length ≤ maxRomSize) (name : String)
    (key : RandomKey) (maskRegister : Bool) :
    ∃ start, (fresh key maskRegister).loadRom rom name = .ok start ∧
      ∀ (ops : List Operation) (a : Nat), a < fontData.length →
        (start.drive ops).memory[a]? = (lastStored a (start.log ops)).or fontData[a]? ∧
          ((∀ m ∈ start.log ops, m.storedAt a = none) →
            (start.drive ops).memory[a]? = fontData[a]?) := by
  refine ⟨_, loadRom_of_le _ fits name, fun ops a glyph => ?_⟩
  have inside : a < memorySize := Nat.lt_trans glyph (by decide)
  have bytes := getElem?_memory_drive { fresh key maskRegister with
    memory := (fresh key maskRegister).memory.store programStart rom } ops inside
  rw [getElem?_memory_loaded rom key maskRegister glyph] at bytes
  refine ⟨bytes, fun never => bytes.trans ?_⟩
  have none : lastStored a _ = none :=
    List.findSome?_eq_none_iff.mpr fun m h => never m (List.mem_reverse.mp h)
  rw [none]
  rfl

def digitsProgram : List UInt8 := [0xA0, 0x02, 0x60, 0x7B, 0xF0, 0x33]

/-- A stored digit and the glyph behind it, after a batch and a step. -/
theorem font_but_for_stores_digits :
    let ops : List Operation := [.batch 2 ⟨60, 500⟩ 0, .keys (Vector.replicate 16 true), .step]
    ∃ start, (fresh ⟨0, 0⟩ true).loadRom digitsProgram "digits" = .ok start ∧
      (start.drive ops).memory[3]? = some 2 ∧
      (start.drive ops).memory[5]? = fontData[5]? := by
  intro ops
  obtain ⟨start, load, all⟩ := font_but_for_stores digitsProgram (by decide) "digits" ⟨0, 0⟩ true
  have stored : lastStored 3 (start.log ops) = some 2 ∧
      ∀ m ∈ start.log ops, m.storedAt 5 = none := by
    obtain rfl := Except.ok.inj ((loadRom_of_le _ (by decide) _).symm.trans load)
    decide +kernel
  have digit := (all ops 3 (by decide)).1
  rw [stored.1] at digit
  exact ⟨start, load, digit, (all ops 5 (by decide)).2 stored.2⟩

/-- A program of one instruction clears the first byte of the font. -/
theorem glyph_overwritten :
    ∃ start, (fresh ⟨0, 0⟩ true).loadRom [0xF0, 0x55] "clear" = .ok start ∧
      (start.drive [.step]).memory[0]? = some 0 ∧ fontData[0]? = some 0xF0 :=
  ⟨_, loadRom_of_le _ (by decide) _, by decide +kernel, rfl⟩

end Chip8.Machine
