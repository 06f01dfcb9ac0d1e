import Chip8.Proofs.Machine.Effects
import Chip8.Proofs.Machine.Steps

/-! # Machines alike

Machines are alike if they differ at most in what moves by itself, which is the timers, the keys
and the draw flag. Alike machines meet the same fault. With the same keys they also complete
every instruction alike, unless it reads the delay timer.
-/

namespace Chip8.Machine

structure Alike (m m' : Machine) : Prop where
  rng : m.rng = m'.rng
  memory : m.memory = m'.memory
  pc : m.pc = m'.pc
  display : m.display = m'.display
  stack : m.stack = m'.stack
  v : m.v = m'.v
  i : m.i = m'.i
  maskRegister : m.maskRegister = m'.maskRegister

variable {m m' m'' m₁ : Machine}

theorem Alike.refl (m : Machine) : m.Alike m := ⟨rfl, rfl, rfl, rfl, rfl, rfl, rfl, rfl⟩

theorem Alike.symm (h : m.Alike m') : m'.Alike m :=
  ⟨h.rng.symm, h.memory.symm, h.pc.symm, h.display.symm, h.stack.symm, h.v.symm, h.i.symm,
    h.maskRegister.symm⟩

theorem Alike.trans (h : m.Alike m') (h' : m'.Alike m'') : m.Alike m'' :=
  ⟨h.rng.trans h'.rng, h.memory.trans h'.memory, h.pc.trans h'.pc, h.display.trans h'.display,
    h.stack.trans h'.stack, h.v.trans h'.v, h.i.trans h'.i,
    h.maskRegister.trans h'.maskRegister⟩

theorem Alike.eq_with (h : m.Alike m') :
    m' = { m with delay := m'.delay, sound := m'.sound, keypad := m'.keypad, draw := m'.draw } := by
  rw [h.rng, h.memory, h.pc, h.display, h.stack, h.v, h.i, h.maskRegister]

theorem Alike.around (m : Machine) (delay sound : UInt8) (keypad : Keypad) (draw : Bool) :
    m.Alike { m with delay, sound, keypad, draw } := ⟨rfl, rfl, rfl, rfl, rfl, rfl, rfl, rfl⟩

theorem Alike.word (h : m.Alike m') : m'.word = m.word := by
  rw [h.eq_with]
  rfl

theorem Alike.step_error {e : ExecutionError} (h : m.Alike m') (fails : m.step = .error e) :
    m'.step = .error e := by
  obtain ⟨f, fault, rfl⟩ := step_eq_error_iff.mp fails
  rw [h.eq_with]
  exact step_eq_error_iff.mpr ⟨f, fault, rfl⟩

/-- Alike machines with the same keys complete an instruction alike. -/
theorem Alike.step (h : m.Alike m') (keys : m'.keypad = m.keypad)
    (noTimer : ¬Kind.ldVxDt.Matches m.word.toNat) (completes : m.step = .ok m₁) :
    ∃ m₁', m'.step = .ok m₁' ∧ m₁.Alike m₁' ∧ m₁'.keypad = m₁.keypad := by
  obtain ⟨k, hk, rfl⟩ := step_eq_ok_iff.mp completes
  have other : k ≠ .ldVxDt := by
    rintro rfl
    exact noTimer hk.fits
  have same : m' = { m with delay := m'.delay, sound := m'.sound, draw := m'.draw } := by
    rw [h.eq_with, keys]
  generalize m'.delay = delay, m'.sound = sound, m'.draw = draw at same
  subst same
  have hk' : { m with delay, sound, draw }.Completes k := ⟨hk.fetched, hk.fits, hk.passed⟩
  refine ⟨_, hk'.step, ?_⟩
  have performed : perform k m.bus m.operands { m with delay, sound, draw } = _ :=
    (perform_draw m.bus m.operands { m with delay, sound } draw k).trans
      (by rw [perform_timers m.bus m.operands m delay sound other])
  show (m.perform k m.bus m.operands).Alike (perform k m.bus m.operands _) ∧
    (perform k m.bus m.operands _).keypad = _
  rw [performed]
  exact ⟨⟨rfl, rfl, rfl, rfl, rfl, rfl, rfl, rfl⟩, rfl⟩

def steps : Nat → Machine → Except ExecutionError Machine
  | 0, m => .ok m
  | n + 1, m =>
    match steps n m with
    | .ok m => m.step
    | .error e => .error e

theorem steps_succ {n : Nat} (h : m.steps n = .ok m') : m.steps (n + 1) = m'.step := by
  rw [steps, h]

end Chip8.Machine
