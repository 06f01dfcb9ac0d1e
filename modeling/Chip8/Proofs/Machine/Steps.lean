import Chip8.Machine.Batch
import Chip8.Proofs.Instruction.Patterns

/-! # Steps and cycles

A step and a cycle of a batch do the same: both fetch a word and dispatch it, and where a
cycle reports a fault a step reports the error of that fault. What a completed step has done
is told by the kind of the fetched word.
-/

namespace Chip8

theorem Memory.toNat_word (bus : Nat → UInt8) (memory : Memory) {a : Nat} (h : a + 1 < 4096) :
    (memory.word bus a).toNat = 0x100 * memory[a].toNat + memory[a + 1].toNat := by
  have low := memory[a + 1].toNat_lt
  have high := memory[a].toNat_lt
  rw [word, read_of_lt h, read_of_lt (by omega : a < 4096), UInt16.toNat_or,
    UInt16.toNat_shiftLeft, UInt8.toNat_toUInt16, UInt8.toNat_toUInt16]
  have shift : memory[a].toNat <<< (UInt16.toNat 8 % 16) % 2 ^ 16 = memory[a].toNat <<< 8 := by
    rw [show UInt16.toNat 8 % 16 = 8 from rfl, Nat.shiftLeft_eq]
    omega
  rw [shift, ← Nat.shiftLeft_add_eq_or_of_lt low, Nat.shiftLeft_eq]
  omega

namespace Instruction

theorem lowWord_lt (w : Int) : lowWord w < 0x10000 := by
  unfold lowWord
  omega

theorem lowWord_of_lt {w : Nat} (h : w < 0x10000) : lowWord w = w := by
  unfold lowWord
  omega

end Instruction

namespace Machine

variable (m : Machine)

def word : UInt16 := m.memory.word m.bus.memory m.pc.toNat

theorem fetch_of_lt (h : m.pc.toNat < 0xFFF) : m.fetch = .ok m.word :=
  if_neg (by omega)

theorem fetch_of_le (h : 0xFFF ≤ m.pc.toNat) :
    m.fetch = .error (.fetchPastEnd (some m.pc.toNat)) :=
  if_pos (by omega)

theorem dispatch_eq (bus : OpenBus) (w : UInt16) :
    m.dispatch bus w =
      match Kind.classify w.toNat with
      | none => .error .unknownOpcode
      | some k =>
        match m.check k (Operands.ofWord w) with
        | some f => .error f
        | none => .ok (m.perform k bus (Operands.ofWord w)) := by
  rewrite [dispatch, Kind.ofCode?_codeOfWord]
  rfl

theorem execute_toNat (w : UInt16) :
    m.execute w.toNat = (m.dispatch m.bus w).mapError fun f =>
      .ofFault f m.i.toNat (some w.toNat) (some m.pc.toNat) := by
  have low : Instruction.lowWord w.toNat = w.toNat := Instruction.lowWord_of_lt w.toNat_lt
  rw [execute, Instruction.decode, low]
  cases hk : Kind.classify w.toNat with
  | none =>
    rw [dispatch_eq, hk]
    rfl
  | some k =>
    simp only [Instruction.ofFields, UInt16.ofNat_toNat]
    cases m.dispatch m.bus w <;> rfl

def wordOf (w : Int) : UInt16 := UInt16.ofNat (Instruction.lowWord w)

theorem toNat_wordOf (w : Int) : (wordOf w).toNat = Instruction.lowWord w :=
  UInt16.toNat_ofNat_of_lt' (Instruction.lowWord_lt w)

theorem operands_wordOf {w : Int} {d : Nat} {x y n : Fin 16}
    (digits : Instruction.lowWord w = 0x1000 * d + 0x100 * x + 0x10 * y + n) :
    (Operands.ofWord (wordOf w)).x = x ∧ (Operands.ofWord (wordOf w)).y = y ∧
      (Operands.ofWord (wordOf w)).n = n := by
  simp only [Fin.ext_iff, Operands.x_ofWord, Operands.y_ofWord, Operands.n_ofWord, toNat_wordOf,
    digits]
  omega

theorem execute_wordOf (w : Int) : m.execute w = m.execute (wordOf w).toNat := by
  have low : Instruction.lowWord (Instruction.lowWord w) = Instruction.lowWord w :=
    Instruction.lowWord_of_lt (Instruction.lowWord_lt w)
  simp only [execute, Instruction.decode, toNat_wordOf, low]

theorem execute_eq_ok_iff {w : Int} {m' : Machine} :
    m.execute w = .ok m' ↔ ∃ k : Kind, k.Matches (Instruction.lowWord w) ∧
      m.check k (Operands.ofWord (wordOf w)) = none ∧
      m' = m.perform k m.bus (Operands.ofWord (wordOf w)) := by
  have hw := Instruction.lowWord_lt w
  rw [execute_wordOf, execute_toNat, dispatch_eq, toNat_wordOf]
  constructor
  · intro h
    cases hk : Kind.classify (Instruction.lowWord w) with
    | none =>
      rw [hk] at h
      cases h
    | some k =>
      rw [hk] at h
      refine ⟨k, Kind.matches_of_classify hw hk, ?_⟩
      cases passed : m.check k (Operands.ofWord (wordOf w)) with
      | some f =>
        simp only [passed] at h
        cases h
      | none =>
        simp only [passed] at h
        exact ⟨rfl, (Except.ok.inj h).symm⟩
  · rintro ⟨k, fits, passed, rfl⟩
    rw [Kind.classify_of_matches fits]
    simp only [passed]
    rfl

def operands : Operands := Operands.ofWord m.word

def fault? : Option Fault :=
  if 0xFFF ≤ m.pc.toNat then some .fetchPastEnd
  else
    match Kind.classify m.word.toNat with
    | none => some .unknownOpcode
    | some k => m.check k m.operands

/-- The next instruction is of kind `k` and completes. -/
structure Completes (k : Kind) : Prop where
  fetched : m.pc.toNat < 0xFFF
  fits : k.Matches m.word.toNat
  passed : m.check k m.operands = none

variable {m}

theorem fault?_eq_none_iff : m.fault? = none ↔ ∃ k, m.Completes k := by
  have hw := m.word.toNat_lt
  unfold fault?
  constructor
  · intro h
    split at h
    · cases h
    · next fetched =>
      split at h
      · cases h
      · next k hk => exact ⟨k, by omega, Kind.matches_of_classify hw hk, h⟩
  · rintro ⟨k, fetched, fits, passed⟩
    rw [if_neg (by omega), Kind.classify_of_matches fits]
    exact passed

theorem Completes.dispatch {k : Kind} (h : m.Completes k) :
    m.dispatch m.bus m.word = .ok (m.perform k m.bus m.operands) := by
  have passed : m.check k (Operands.ofWord m.word) = none := h.passed
  rw [dispatch_eq, Kind.classify_of_matches h.fits]
  simp only [passed, operands]

theorem dispatch_of_fault {f : Fault} (fetched : m.pc.toNat < 0xFFF) (h : m.fault? = some f) :
    m.dispatch m.bus m.word = .error f := by
  rw [fault?, if_neg (by omega), operands] at h
  rw [dispatch_eq]
  cases hk : Kind.classify m.word.toNat with
  | none =>
    rw [hk] at h
    rw [Option.some.inj h]
  | some k =>
    simp only [hk] at h
    simp only [h]

theorem step_of_fault {f : Fault} (h : m.fault? = some f) : m.step = .error (m.faultError f) := by
  by_cases fetched : m.pc.toNat < 0xFFF
  · rw [step, faultError, fetch_of_lt m fetched]
    dsimp only
    rw [execute_toNat, dispatch_of_fault fetched h]
    rfl
  · rw [fault?, if_pos (by omega)] at h
    obtain rfl := Option.some.inj h
    rw [step, fetch_of_le m (by omega)]
    rfl

theorem Completes.step {k : Kind} (h : m.Completes k) :
    m.step = .ok (m.perform k m.bus m.operands) := by
  rw [Machine.step, fetch_of_lt m h.fetched]
  dsimp only
  rw [execute_toNat, h.dispatch]
  rfl

theorem step_eq_ok_iff {m' : Machine} :
    m.step = .ok m' ↔ ∃ k, m.Completes k ∧ m' = m.perform k m.bus m.operands := by
  constructor
  · intro h
    cases hf : m.fault? with
    | some f => rw [step_of_fault hf] at h; cases h
    | none =>
      obtain ⟨k, hk⟩ := fault?_eq_none_iff.mp hf
      exact ⟨k, hk, (Except.ok.inj (hk.step.symm.trans h)).symm⟩
  · rintro ⟨k, hk, rfl⟩
    exact hk.step

theorem step_eq_error_iff {e : ExecutionError} :
    m.step = .error e ↔ ∃ f, m.fault? = some f ∧ e = m.faultError f := by
  constructor
  · intro h
    cases hf : m.fault? with
    | some f => exact ⟨f, rfl, (Except.error.inj ((step_of_fault hf).symm.trans h)).symm⟩
    | none =>
      obtain ⟨k, hk⟩ := fault?_eq_none_iff.mp hf
      rw [hk.step] at h
      cases h
  · rintro ⟨f, hf, rfl⟩
    exact step_of_fault hf

theorem cycle_of_fault {f : Fault} (h : m.fault? = some f) (ticks : Int) :
    m.cycle m.bus ticks = .error f := by
  unfold cycle
  split
  · rw [fault?, if_pos (by omega)] at h
    rw [Option.some.inj h]
  · have stuck := dispatch_of_fault (by omega) h
    unfold word at stuck
    simp only [stuck]

theorem cycle_of_step {m₁ : Machine} (h : m.step = .ok m₁) (ticks : Int) :
    m.cycle m.bus ticks = .ok (m₁.countTimers ticks) := by
  obtain ⟨k, hk, rfl⟩ := step_eq_ok_iff.mp h
  have done := hk.dispatch
  have fetched := hk.fetched
  unfold word at done
  rw [cycle, if_neg (by omega)]
  simp only [done]

end Machine

end Chip8
