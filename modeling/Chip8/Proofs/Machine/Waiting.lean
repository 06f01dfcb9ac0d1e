import Chip8.Proofs.Machine.Alike

/-! # Waiting for a key

The instruction that waits for a key runs again and again while no key is down, and no run of it
leaves a trace in the machine. Once keys are down, it takes the lowest of them and goes on.
-/

namespace Chip8

/-- The key is the lowest of those that are down. -/
structure Keypad.Lowest (keypad : Keypad) (k : Fin 16) : Prop where
  down : keypad.get k = true
  up : ∀ j < k, keypad.get j = false

theorem Keypad.Lowest.unique {keypad : Keypad} {j k : Fin 16} (h : keypad.Lowest j)
    (h' : keypad.Lowest k) : j = k := by
  rcases Nat.lt_trichotomy j.val k.val with below | same | above
  · exact absurd (h.down.symm.trans (h'.up j below)) (by decide)
  · exact Fin.ext same
  · exact absurd (h'.down.symm.trans (h.up k above)) (by decide)

namespace Machine

variable {m m' : Machine} {x k : Fin 16}

theorem isDown_eq (k : Fin 16) : m.isDown k = m.keypad.get k := rfl

theorem lowestKey?_eq_some_iff : m.lowestKey? = some k ↔ m.keypad.Lowest k := by
  rw [lowestKey?, List.find?_eq_some_iff_getElem]
  constructor
  · rintro ⟨down, i, inside, rfl, up⟩
    refine ⟨by simpa [isDown_eq] using down, fun j below => ?_⟩
    have first := up j.val (by simpa [Fin.lt_def] using below)
    simpa [isDown_eq] using first
  · rintro ⟨down, up⟩
    refine ⟨down, k.val, by simp, by simp, fun j below => ?_⟩
    simpa [isDown_eq] using up ⟨j, Nat.lt_trans below k.isLt⟩ below

theorem lowestKey?_eq_none_iff : m.lowestKey? = none ↔ ∀ k : Fin 16, m.keypad.get k = false := by
  simp [lowestKey?, isDown_eq]

theorem exists_lowest (down : m.keypad.get k = true) : ∃ j, m.keypad.Lowest j := by
  cases found : m.lowestKey? with
  | some j => exact ⟨j, lowestKey?_eq_some_iff.mp found⟩
  | none =>
    have up : m.keypad.get k = false := lowestKey?_eq_none_iff.mp found k
    exact absurd (down.symm.trans up) (by decide)

/-- The next instruction waits for a key to put into register `x`. -/
structure AwaitsKey (x : Fin 16) (m : Machine) : Prop where
  inside : m.pc.toNat ≤ 0xFFE
  word : m.word.toNat = 0xF00A + 0x100 * x.val

namespace AwaitsKey

theorem alike (h : AwaitsKey x m) (same : m.Alike m') : AwaitsKey x m' where
  inside := same.pc ▸ h.inside
  word := same.word ▸ h.word

theorem completes (h : AwaitsKey x m) : m.Completes .ldVxK where
  fetched := Nat.lt_succ_of_le h.inside
  fits := by
    rw [h.word]
    constructor
    · show _ / 0x1000 = 0xF
      omega
    · show _ % 0x100 = 0x0A
      omega
  passed := rfl

theorem step (h : AwaitsKey x m) : m.step = .ok (m.waitForKey m.operands) := h.completes.step

theorem x_operands (h : AwaitsKey x m) : m.operands.x = x := by
  apply Fin.ext
  rw [operands, Operands.x_ofWord, h.word]
  omega

theorem step_of_up (h : AwaitsKey x m) (up : ∀ k : Fin 16, m.keypad.get k = false) :
    m.step = .ok m := by
  rw [h.step, waitForKey, lowestKey?_eq_none_iff.mpr up]

theorem step_of_lowest (h : AwaitsKey x m) (lowest : m.keypad.Lowest k) :
    m.step = .ok { m.setV x (UInt8.ofNat k) with pc := m.pc + 2 } := by
  rw [h.step, waitForKey, lowestKey?_eq_some_iff.mpr lowest, h.x_operands]
  rfl

end AwaitsKey

end Machine

end Chip8
