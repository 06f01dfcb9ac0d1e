import Chip8.Proofs.Machine.Bounds

/-! # Footprints

A completed instruction changes what its word names and nothing else. Handlers compute whole
arrays, also with lanes that the instruction does not have, and those lanes leave every byte and
every register as they were.
-/

namespace Chip8

def Kind.stores (k : Kind) (x : Fin 16) : Nat :=
  match k with
  | .ldB => 3
  | .ldMemV => x + 1
  | _ => 0

namespace Machine

variable (m : Machine) (o : Operands)

def storedBytes (k : Kind) : List UInt8 :=
  match k with
  | .ldB => decimalDigits (m.getV o.x)
  | .ldMemV => ((List.finRange 16).map m.getV).take (o.x + 1)
  | _ => []

theorem length_storedBytes (k : Kind) : (m.storedBytes o k).length = k.stores o.x := by
  cases k
  case ldMemV =>
    have bound := o.x.isLt
    rw [storedBytes, List.length_take, List.length_map, List.length_finRange, Kind.stores]
    omega
  all_goals rfl

theorem memory_perform_eq_store (bus : OpenBus) (k : Kind) :
    (m.perform k bus o).memory = m.memory.store m.i.toNat (m.storedBytes o k) := by
  cases k
  case ldMemV => exact writeLanes_storeLanes m o bus
  all_goals exact memory_perform m o bus _

theorem getElem_memory_perform (bus : OpenBus) (k : Kind) {a : Nat} (h : a < 4096) :
    (m.perform k bus o).memory[a] =
      if m.i.toNat ≤ a then ((m.storedBytes o k)[a - m.i.toNat]?).getD m.memory[a]
      else m.memory[a] := by
  rw [getElem_congr_coll (memory_perform_eq_store m o bus k), Memory.getElem_store]

/-- Whatever an instruction of kind `k` may not write, if its word names `x` first, is in `m'` as
it is in `m`. -/
structure WritesWithin (k : Kind) (x : Fin 16) (m m' : Machine) : Prop where
  keypad : m'.keypad = m.keypad
  maskRegister : m'.maskRegister = m.maskRegister
  memory : ∀ (a : Nat) (h : a < 4096), ¬(m.i.toNat ≤ a ∧ a < m.i.toNat + k.stores x) →
    m'.memory[a] = m.memory[a]
  display : ¬(k = .cls ∨ k = .drw) → m'.display = m.display
  /-- The draw flag is raised or kept. -/
  draw : m'.draw = (decide (k = .cls ∨ k = .drw) || m.draw)
  stack : ¬(k = .call ∨ k = .ret) → m'.stack = m.stack
  rng : k ≠ .rnd → m'.rng = m.rng
  delay : k ≠ .ldDt → m'.delay = m.delay
  sound : k ≠ .ldSt → m'.sound = m.sound
  i : ¬(k = .ldI ∨ k = .addI ∨ k = .ldF) → m'.i = m.i
  v : ∀ r, ¬k.WritesV x r → m'.getV r = m.getV r

theorem writesWithin_perform (bus : OpenBus) (k : Kind) :
    WritesWithin k o.x m (m.perform k bus o) where
  keypad := keypad_perform bus o m k
  maskRegister := maskRegister_perform bus o m k
  memory a h outside := by
    rw [getElem_memory_perform]
    split
    · next reached =>
      have beyond : (m.storedBytes o k).length ≤ a - m.i.toNat := by
        rw [length_storedBytes]
        omega
      rw [List.getElem?_eq_none beyond]
      rfl
    · rfl
  display := by
    rw [display_perform]
    split <;> simp
  draw := by
    rw [draw_perform]
    cases k <;> rfl
  stack := by
    rw [stack_perform]
    split <;> simp
  rng := by
    rw [rng_perform]
    split <;> simp
  delay := by
    rw [delay_perform]
    split <;> simp
  sound := by
    rw [sound_perform]
    split <;> simp
  i := by
    rw [i_perform]
    split <;> simp
  v r untouched := getV_perform bus o m untouched

/-- A word that is executed is an instruction, which leaves alone all that it may not write. -/
theorem writesWithin_execute {m m' : Machine} {w : Int} (h : m.execute w = .ok m') :
    ∃ (k : Kind) (x : Fin 16), k.Matches (Instruction.lowWord w) ∧
      x.val = Instruction.lowWord w / 0x100 % 0x10 ∧ WritesWithin k x m m' := by
  obtain ⟨k, fits, -, rfl⟩ := m.execute_eq_ok_iff.mp h
  refine ⟨k, (Operands.ofWord (wordOf w)).x, fits, ?_, writesWithin_perform m _ m.bus k⟩
  rw [Operands.x_ofWord, toNat_wordOf]

/-- Two registers are stored in the last two bytes of memory, by an integer of more than sixteen
bits. -/
theorem writesWithin_execute_last_bytes :
    let m : Machine := setV { rng := ⟨0, 0⟩, i := 0xFFE } 1 9
    ∃ m', m.execute 0x1F155 = .ok m' ∧ m'.memory[0xFFF]? = some 9 ∧
      WritesWithin .ldMemV 1 m m' := by
  intro m
  have done : m.execute 0x1F155 = .ok (m.perform .ldMemV m.bus (Operands.ofWord 0xF155)) :=
    m.execute_eq_ok_iff.mpr ⟨.ldMemV, by decide, by decide, rfl⟩
  refine ⟨_, done, ?_, ?_⟩
  · have reached : m.i.toNat ≤ 0xFFF := by decide
    have last : (m.storedBytes (Operands.ofWord 0xF155) .ldMemV)[0xFFF - m.i.toNat]? = some 9 := by
      decide
    rw [Vector.getElem?_eq_getElem (by decide), getElem_memory_perform, if_pos reached, last]
    rfl
  · obtain ⟨k, x, fits, first, within⟩ := writesWithin_execute done
    obtain rfl : k = .ldMemV := fits.unique (by decide)
    obtain rfl : x = 1 := Fin.ext first
    exact within

end Machine

end Chip8
