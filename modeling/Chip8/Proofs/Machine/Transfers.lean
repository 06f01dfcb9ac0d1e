import Chip8.Proofs.Machine.Footprints

/-! # Register transfers

A store moves the first registers to memory and a load moves them back. Both work on sixteen lanes,
of which those past the named register keep what is under them or have no place in memory, so the
bytes in between are all that either of them touches. A load thus undoes a store, and a store after
a load writes the bytes that are there already.
-/

namespace Chip8.Machine

variable {m m' : Machine} {w : Int} {x : Fin 16} {k : Kind}

/-- The registers of `m` up to `x` are in the memory of `m'`, from the index register on. -/
structure Stores (x : Fin 16) (m m' : Machine) : Prop where
  i : m'.i = m.i
  written : ∀ r ≤ x, m'.memory[m.i.toNat + r.val]? = some (m.getV r)
  kept : ∀ a, ¬(m.i.toNat ≤ a ∧ a ≤ m.i.toNat + x.val) → m'.memory[a]? = m.memory[a]?

/-- The registers of `m'` up to `x` are those bytes of the memory of `m`. -/
structure Loads (x : Fin 16) (m m' : Machine) : Prop where
  i : m'.i = m.i
  memory : m'.memory = m.memory
  read : ∀ r ≤ x, m.memory[m.i.toNat + r.val]? = some (m'.getV r)
  kept : ∀ r, ¬r ≤ x → m'.getV r = m.getV r

/-! ## One after the other -/

/-- A load undoes a store, whatever the registers have become meanwhile. -/
theorem Stores.load {stored loaded : Machine} {v : Vector UInt8 16} (h : Stores x m stored)
    (h' : Loads x { stored with v } loaded) (r : Fin 16) :
    loaded.getV r = if r ≤ x then m.getV r else v.get r := by
  split
  · next selected =>
    have read : stored.memory[stored.i.toNat + r.val]? = some (loaded.getV r) :=
      h'.read r selected
    rw [h.i, h.written r selected] at read
    exact (Option.some.inj read).symm
  · next past => exact h'.kept r past

/-- A store after a load writes what is there already. -/
theorem Loads.store {loaded stored : Machine} (h : Loads x m loaded) (h' : Stores x loaded stored) :
    stored.memory = m.memory := by
  refine Vector.ext fun a ha => ?_
  suffices same : stored.memory[a]? = m.memory[a]? by simpa [ha] using same
  by_cases between : m.i.toNat ≤ a ∧ a ≤ m.i.toNat + x.val
  · obtain ⟨k, rfl⟩ := Nat.exists_eq_add_of_le between.1
    have selected : (⟨k, by omega⟩ : Fin 16) ≤ x := Nat.le_of_add_le_add_left between.2
    have written := h'.written _ selected
    rw [h.i] at written
    exact written.trans (h.read _ selected).symm
  · rw [← h.i] at between
    rw [h'.kept a between, h.memory]

/-! ## Lanes -/

section Lanes

variable (bus : OpenBus) (o : Operands) (inside : m.i.toNat + o.x.val + 1 ≤ 4096)

include inside

theorem stores_perform : Stores o.x m (m.perform .ldMemV bus o) where
  i := i_perform bus o m .ldMemV
  written r selected := by
    have le : r.val ≤ o.x.val := selected
    have stored : (m.storedBytes o .ldMemV)[r.val]? = some (m.getV r) := by
      simp [storedBytes, Nat.lt_succ_of_le le]
    rw [Vector.getElem?_eq_getElem (by omega), getElem_memory_perform, if_pos (by omega),
      Nat.add_sub_cancel_left, stored]
    rfl
  kept a outside := by
    have within := writesWithin_perform m o bus .ldMemV
    by_cases ha : a < 4096
    · have same := within.memory a ha fun reached => outside ⟨reached.1, Nat.le_of_lt_succ reached.2⟩
      simp [ha, same]
    · simp [ha]

theorem loads_perform : Loads o.x m (m.perform .ldVMem bus o) where
  i := i_perform bus o m .ldVMem
  memory := memory_perform m o bus .ldVMem
  read r selected := by
    have le : r.val ≤ o.x.val := selected
    have lt : m.i.toNat + r.val < 4096 := by omega
    have register : (m.perform .ldVMem bus o).getV r = m.memory[m.i.toNat + r.val] := by
      show (m.loadedRegisters bus o)[r] = _
      simp [loadedRegisters, selected, Memory.read_of_lt lt]
    rw [register, Vector.getElem?_eq_getElem lt]
  kept r past := getV_perform bus o m past

end Lanes

/-! ## Words -/

theorem execute_transfer_iff (transfer : k = .ldMemV ∨ k = .ldVMem)
    (fits : k.Matches (Instruction.lowWord w))
    (first : (Operands.ofWord (wordOf w)).x = x) :
    m.execute w = .ok m' ↔
      m.i.toNat + x.val + 1 ≤ 4096 ∧ m' = m.perform k m.bus (Operands.ofWord (wordOf w)) := by
  have check : m.check k (Operands.ofWord (wordOf w)) = none ↔ m.i.toNat + x.val + 1 ≤ 4096 := by
    have ranged : m.check k (Operands.ofWord (wordOf w)) =
        Memory.range? m.i.toNat ((Operands.ofWord (wordOf w)).x + 1) := by
      rcases transfer with rfl | rfl <;> rfl
    rw [ranged, first, Memory.range?_eq_none_iff, Nat.add_assoc]
  rw [execute_eq_ok_iff]
  constructor
  · rintro ⟨l, fits', passed, rfl⟩
    obtain rfl : l = k := fits'.unique fits
    exact ⟨check.mp passed, rfl⟩
  · rintro ⟨inside, rfl⟩
    exact ⟨k, fits, check.mpr inside, rfl⟩

theorem execute_store_iff (stores : Instruction.lowWord w = 0xF055 + 0x100 * x.val) :
    m.execute w = .ok m' ↔ m.i.toNat + x.val + 1 ≤ 4096 ∧
      m' = m.perform .ldMemV m.bus (Operands.ofWord (wordOf w)) := by
  have first := operands_wordOf (w := w) (x := x) (d := 0xF) (y := 5) (n := 5) (by omega)
  refine execute_transfer_iff (.inl rfl) ?_ first.1
  rw [stores]
  constructor
  · show _ / 0x1000 = 0xF
    omega
  · show _ % 0x100 = 0x55
    omega

theorem execute_load_iff (loads : Instruction.lowWord w = 0xF065 + 0x100 * x.val) :
    m.execute w = .ok m' ↔ m.i.toNat + x.val + 1 ≤ 4096 ∧
      m' = m.perform .ldVMem m.bus (Operands.ofWord (wordOf w)) := by
  have first := operands_wordOf (w := w) (x := x) (d := 0xF) (y := 6) (n := 5) (by omega)
  refine execute_transfer_iff (.inr rfl) ?_ first.1
  rw [loads]
  constructor
  · show _ / 0x1000 = 0xF
    omega
  · show _ % 0x100 = 0x65
    omega

theorem exists_stores (stores : Instruction.lowWord w = 0xF055 + 0x100 * x.val)
    (inside : m.i.toNat + x.val + 1 ≤ 4096) :
    ∃ stored, m.execute w = .ok stored ∧ Stores x m stored := by
  obtain ⟨rfl, -⟩ := operands_wordOf (w := w) (x := x) (d := 0xF) (y := 5) (n := 5) (by omega)
  exact ⟨_, (execute_store_iff stores).mpr ⟨inside, rfl⟩, stores_perform m.bus _ inside⟩

theorem exists_loads (loads : Instruction.lowWord w = 0xF065 + 0x100 * x.val)
    (inside : m.i.toNat + x.val + 1 ≤ 4096) :
    ∃ loaded, m.execute w = .ok loaded ∧ Loads x m loaded := by
  obtain ⟨rfl, -⟩ := operands_wordOf (w := w) (x := x) (d := 0xF) (y := 6) (n := 5) (by omega)
  exact ⟨_, (execute_load_iff loads).mpr ⟨inside, rfl⟩, loads_perform m.bus _ inside⟩

/-- Storing the registers up to `x` and loading them again are inverse to each other wherever their
bytes lie in memory, also where the lanes past `x` have no place in it. -/
theorem execute_store_load (m : Machine) {store load : Int} {x : Fin 16}
    (stores : Instruction.lowWord store = 0xF055 + 0x100 * x.val)
    (loads : Instruction.lowWord load = 0xF065 + 0x100 * x.val) :
    (m.i.toNat + x.val + 1 ≤ 4096 → ∃ stored, m.execute store = .ok stored ∧
      stored.i = m.i ∧
      (∀ r ≤ x, stored.memory[m.i.toNat + r.val]? = some (m.getV r)) ∧
      (∀ a, ¬(m.i.toNat ≤ a ∧ a ≤ m.i.toNat + x.val) → stored.memory[a]? = m.memory[a]?) ∧
      ∀ v : Vector UInt8 16, ∃ loaded, { stored with v }.execute load = .ok loaded ∧
        ∀ r, loaded.getV r = if r ≤ x then m.getV r else v.get r) ∧
    ((∃ loaded, m.execute load = .ok loaded) ↔ m.i.toNat + x.val + 1 ≤ 4096) ∧
    ∀ loaded, m.execute load = .ok loaded →
      ∃ stored, loaded.execute store = .ok stored ∧ stored.memory = m.memory := by
  refine ⟨fun inside => ?_, ⟨?_, fun inside => ?_⟩, fun loaded ran => ?_⟩
  · obtain ⟨stored, ran, change⟩ := exists_stores stores inside
    refine ⟨stored, ran, change.i, change.written, change.kept, fun v => ?_⟩
    have inside' : ({ stored with v } : Machine).i.toNat + x.val + 1 ≤ 4096 := by
      simpa [change.i] using inside
    obtain ⟨loaded, ran', change'⟩ := exists_loads loads inside'
    exact ⟨loaded, ran', change.load change'⟩
  · rintro ⟨loaded, ran⟩
    exact ((execute_load_iff loads).mp ran).1
  · obtain ⟨loaded, ran, -⟩ := exists_loads loads inside
    exact ⟨loaded, ran⟩
  · have inside := ((execute_load_iff loads).mp ran).1
    obtain ⟨loaded', again, read⟩ := exists_loads loads inside
    obtain rfl : loaded = loaded' := Except.ok.inj (ran.symm.trans again)
    rw [← read.i] at inside
    obtain ⟨stored, ran', change⟩ := exists_stores stores inside
    exact ⟨stored, ran', read.store change⟩

/-- The last two bytes of memory take two registers, and fourteen lanes have no place in it. -/
theorem execute_store_load_last_bytes :
    let m : Machine := { fresh ⟨0, 0⟩ true with i := 0xFFE, v := Vector.replicate 16 0xAB }
    ∃ stored, m.execute 0xF155 = .ok stored ∧ stored.memory[0xFFF]? = some 0xAB ∧
      (∃ loaded, { stored with v := Vector.replicate 16 0x11 }.execute 0xF165 = .ok loaded ∧
        loaded.getV 1 = 0xAB ∧ loaded.getV 2 = 0x11) ∧
      ∃ loaded, m.execute 0xF165 = .ok loaded ∧
        ∃ again, loaded.execute 0xF155 = .ok again ∧ again.memory = m.memory := by
  intro m
  have stores : Instruction.lowWord 0xF155 = 0xF055 + 0x100 * (1 : Fin 16).val := by decide
  have loads : Instruction.lowWord 0xF165 = 0xF065 + 0x100 * (1 : Fin 16).val := by decide
  obtain ⟨store, load, back⟩ := execute_store_load m stores loads
  obtain ⟨stored, ran, -, written, -, restored⟩ := store (by decide)
  refine ⟨stored, ran, written 1 (by decide), ?_, ?_⟩
  · obtain ⟨loaded, ran', same⟩ := restored (Vector.replicate 16 0x11)
    exact ⟨loaded, ran', same 1, same 2⟩
  · obtain ⟨loaded, ran'⟩ := load.mpr (by decide)
    exact ⟨loaded, ran', back loaded ran'⟩

end Chip8.Machine
