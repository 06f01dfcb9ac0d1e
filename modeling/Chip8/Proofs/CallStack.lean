import Chip8.CallStack

/-! # Well-formed call stacks

The pointer of a call stack stays within the stack, the slots from the pointer on are clear,
and every return address has twelve bits. Pushes and pops keep all of this at either end of
the stack, although neither checks for room.
-/

namespace Chip8.CallStack

structure WellFormed (s : CallStack) : Prop where
  nonneg : 0 ≤ s.pointer
  le : s.pointer ≤ 48
  address : ∀ (k : Nat) (h : k < 48), s.entries[k].toNat ≤ 0xFFF
  clear : ∀ (k : Nat) (h : k < 48), s.pointer ≤ k → s.entries[k] = 0

variable {s : CallStack}

theorem wellFormed_empty : ({} : CallStack).WellFormed where
  nonneg := by decide
  le := by decide
  address k h := by simp
  clear k h _ := by simp

theorem slot_of_lt {i : Int} (low : 0 ≤ i) (high : i < 48) :
    slot i = some ⟨i.toNat, by omega⟩ := by
  simp [slot, Int.not_lt.mpr low, low, high]

theorem slot_of_le {i : Int} (h : 48 ≤ i) : slot i = none := by
  simp [slot, show ¬i < 0 by omega, Int.not_lt.mpr h]

theorem getElem_store (s : CallStack) {i : Int} (hi : 0 ≤ i) (address : UInt16) {k : Nat}
    (h : k < 48) : (s.store i address)[k] = if i = k then address else s.entries[k] := by
  unfold store
  by_cases hs : i < 48
  · simp only [slot_of_lt hi hs, Vector.getElem_set]
    congr 1
    exact propext ⟨fun _ => by omega, fun _ => by omega⟩
  · simp only [slot_of_le (Int.not_lt.mp hs)]
    rw [if_neg (by omega)]

theorem getElem_push (h : 0 ≤ s.pointer) (address : Int) {k : Nat} (hk : k < 48) :
    (s.push address).entries[k] =
      if s.pointer = k then UInt16.ofInt (address % 4096) else s.entries[k] :=
  getElem_store s h _ hk

theorem getElem_pop (s : CallStack) {k : Nat} (hk : k < 48) :
    s.pop.entries[k] = if s.popped = k then 0 else s.entries[k] :=
  getElem_store s (pointer_pop_nonneg s) 0 hk

theorem pointer_push (low : 0 ≤ s.pointer) (high : s.pointer ≤ 48) (address : Int) :
    (s.push address).pointer = min (s.pointer + 1) 48 := by
  rw [push, wrap32_of_fits (by omega) (by omega)]

theorem popped_eq (low : 0 ≤ s.pointer) (high : s.pointer ≤ 48) :
    s.popped = max (s.pointer - 1) 0 := by
  rw [popped, wrap32_of_fits (by omega) (by omega)]

theorem popped_eq_sub_one (low : 0 < s.pointer) (high : s.pointer ≤ 48) :
    s.popped = s.pointer - 1 := by
  rw [popped_eq (Int.le_of_lt low) high]
  omega

theorem getElem?_top (low : 0 < s.pointer) (high : s.pointer ≤ 48) (beyond : UInt16) :
    s.entries[(s.pointer - 1).toNat]? = some (s.top beyond) := by
  simp only [top, popped_eq_sub_one low high]
  rw [dif_pos (by omega), Vector.getElem?_eq_getElem]

theorem toNat_ofInt_emod (address : Int) :
    ((UInt16.ofInt (address % 4096)).toNat : Int) = address % 4096 := by
  rw [UInt16.ofInt, UInt16.toNat_ofNat']
  omega

theorem WellFormed.push (h : s.WellFormed) (address : Int) : (s.push address).WellFormed where
  nonneg := by
    have := h.nonneg
    rw [pointer_push h.nonneg h.le]
    omega
  le := pointer_push_le s address
  address k hk := by
    rw [getElem_push h.nonneg]
    split
    · have low := toNat_ofInt_emod address
      omega
    · exact h.address k hk
  clear k hk free := by
    rw [pointer_push h.nonneg h.le] at free
    rw [getElem_push h.nonneg, if_neg (by omega)]
    exact h.clear k hk (by omega)

theorem WellFormed.pop (h : s.WellFormed) : s.pop.WellFormed where
  nonneg := pointer_pop_nonneg s
  le := by
    have := h.le
    have := popped_eq h.nonneg h.le
    show s.popped ≤ 48
    omega
  address k hk := by
    rw [getElem_pop]
    split
    · decide
    · exact h.address k hk
  clear k hk free := by
    have := popped_eq h.nonneg h.le
    have free : s.popped ≤ k := free
    rw [getElem_pop]
    split
    · rfl
    · exact h.clear k hk (by omega)

theorem WellFormed.top_le (h : s.WellFormed) (beyond : UInt16) :
    (s.top beyond).toNat ≤ 0xFFF := by
  have := h.le
  have := popped_eq h.nonneg h.le
  rw [top, dif_pos (by omega)]
  exact h.address _ _

end Chip8.CallStack
