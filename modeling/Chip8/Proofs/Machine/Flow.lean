import Chip8.Proofs.CallStack
import Chip8.Proofs.Machine.Effects
import Chip8.Proofs.Machine.Steps

/-! # Control flow

Where a completed instruction leaves the program counter is told by the digits of its word and the
state before it. There is no common increment: every handler moves the counter itself, to the next
instruction, past it, to an address or nowhere. The two skips on one condition always decide
differently.
-/

namespace Chip8

def Kind.isSkip : Kind → Bool
  | .seImm | .sneImm | .seReg | .sneReg | .skp | .sknp => true
  | _ => false

namespace Machine

def vx (m : Machine) (word : Nat) : Nat := m.v[word / 0x100 % 0x10].toNat

def vy (m : Machine) (word : Nat) : Nat := m.v[word / 0x10 % 0x10].toNat

theorem vx_congr (m : Machine) {w : Nat} (w' : Nat) (same : w / 0x100 % 0x10 = w' / 0x100 % 0x10) :
    m.vx w = m.vx w' := by
  simp only [vx, same]

theorem vy_congr (m : Machine) {w : Nat} (w' : Nat) (same : w / 0x10 % 0x10 = w' / 0x10 % 0x10) :
    m.vy w = m.vy w' := by
  simp only [vy, same]

/-- The condition on which a skip passes over the next instruction. -/
def SkipCondition (m : Machine) (word : Nat) (k : Kind) : Prop :=
  match k with
  | .seImm => m.vx word = word % 0x100
  | .sneImm => m.vx word ≠ word % 0x100
  | .seReg => m.vx word = m.vy word
  | .sneReg => m.vx word ≠ m.vy word
  | .skp => m.keypad[m.vx word % 0x10] = true
  | .sknp => ¬m.keypad[m.vx word % 0x10] = true
  | _ => False

/-- Whether an instruction of kind `k` leaves the program counter at `pc`. -/
def LeadsTo (m : Machine) (word : Nat) (k : Kind) (pc : UInt16) : Prop :=
  match k with
  | .jp | .call => pc.toNat = word % 0x1000
  | .jpV0 => pc.toNat = (word % 0x1000 + (m.getV 0).toNat) &&& 0xFFF
  | .ret => 0 < m.stack.pointer ∧ m.stack.entries[(m.stack.pointer - 1).toNat]? = some pc
  | .seImm | .sneImm | .seReg | .sneReg | .skp | .sknp =>
    (m.SkipCondition word k → pc = m.pc + 4) ∧ (¬m.SkipCondition word k → pc = m.pc + 2)
  | .ldVxK =>
    ((∃ key, m.isDown key = true) → pc = m.pc + 2) ∧
      ((∀ key, m.isDown key = false) → pc = m.pc)
  | _ => pc = m.pc + 2

variable {m m' : Machine} {w : Int}

theorem getV_x_ofWord (m : Machine) (w : UInt16) :
    (m.getV (Operands.ofWord w).x).toNat = m.vx w.toNat := by
  simp only [getV, vx, Fin.getElem_fin, Operands.x_ofWord]

theorem getV_y_ofWord (m : Machine) (w : UInt16) :
    (m.getV (Operands.ofWord w).y).toNat = m.vy w.toNat := by
  simp only [getV, vy, Fin.getElem_fin, Operands.y_ofWord]

theorem keyAt_ofWord (m : Machine) (w : UInt16) :
    m.keyAt (Operands.ofWord w) = m.keypad[m.vx w.toNat % 0x10] := by
  simp only [keyAt, isDown, Fin.getElem_fin, Fin.ofNat, getV_x_ofWord]

theorem lowestKey?_isSome_iff :
    m.lowestKey?.isSome = true ↔ ∃ key, m.isDown key = true := by
  simp [lowestKey?]

theorem skip_iff {holds : Prop} {test : Bool} (tested : test = true ↔ holds) (pc : UInt16) :
    (holds → pc + 2 * (if test then 2 else 1) = pc + 4) ∧
      (¬holds → pc + 2 * (if test then 2 else 1) = pc + 2) := by
  constructor
  · intro h
    rw [if_pos (tested.mpr h)]
    rfl
  · intro h
    rw [if_neg (mt tested.mp h)]
    rfl

theorem leadsTo_perform {k : Kind} {w : UInt16} (high : k = .ret → m.stack.pointer ≤ 48)
    (passed : m.check k (Operands.ofWord w) = none) (bus : OpenBus) :
    m.LeadsTo w.toNat k (m.perform k bus (Operands.ofWord w)).pc := by
  have immediate : m.getV (Operands.ofWord w).x = (Operands.ofWord w).nn ↔
      m.vx w.toNat = w.toNat % 0x100 := by
    rw [← UInt8.toNat_inj, getV_x_ofWord, Operands.nn_ofWord]
  have registers : m.getV (Operands.ofWord w).x = m.getV (Operands.ofWord w).y ↔
      m.vx w.toNat = m.vy w.toNat := by
    rw [← UInt8.toNat_inj, getV_x_ofWord, getV_y_ofWord]
  rw [pc_perform]
  cases k
  case ret =>
    have live : 0 < m.stack.pointer := by
      refine Int.not_le.mp fun empty => ?_
      rw [check, CallStack.underflow?, if_pos empty] at passed
      cases passed
    exact ⟨live, CallStack.getElem?_top live (high rfl) bus.stack⟩
  case jp | call => exact Operands.nnn_ofWord w
  case jpV0 =>
    have base := Operands.nnn_ofWord w
    have offset := (m.getV 0).toNat_lt
    have sum : ((Operands.ofWord w).nnn + (m.getV 0).toUInt16).toNat =
        w.toNat % 0x1000 + (m.getV 0).toNat := by
      rw [UInt16.toNat_add, UInt8.toNat_toUInt16, base]
      omega
    show UInt16.toNat (_ &&& 0xFFF) = _
    rw [UInt16.toNat_and, sum]
    rfl
  case seImm => exact skip_iff (beq_iff_eq.trans immediate) m.pc
  case sneImm => exact skip_iff (bne_iff_ne.trans (not_congr immediate)) m.pc
  case seReg => exact skip_iff (beq_iff_eq.trans registers) m.pc
  case sneReg => exact skip_iff (bne_iff_ne.trans (not_congr registers)) m.pc
  case skp => exact skip_iff (by rw [keyAt_ofWord]; rfl) m.pc
  case sknp => exact skip_iff (by rw [keyAt_ofWord]; simp [SkipCondition]) m.pc
  case ldVxK =>
    have key := lowestKey?_isSome_iff (m := m)
    constructor
    · intro pressed
      show m.pc + 2 * (if m.lowestKey?.isSome then 1 else 0) = _
      rw [if_pos (key.mpr pressed)]
      rfl
    · intro released
      show m.pc + 2 * (if m.lowestKey?.isSome then 1 else 0) = _
      rw [if_neg fun some => by simpa [released] using key.mp some]
      exact UInt16.add_zero m.pc
  all_goals rfl

theorem leadsTo_execute (high : m.stack.pointer ≤ 48) (h : m.execute w = .ok m') :
    ∃ k : Kind, k.Matches (Instruction.lowWord w) ∧
      m.LeadsTo (Instruction.lowWord w) k m'.pc := by
  obtain ⟨k, fits, passed, rfl⟩ := m.execute_eq_ok_iff.mp h
  have leads := leadsTo_perform (fun _ => high) passed m.bus
  rw [toNat_wordOf] at leads
  exact ⟨k, fits, leads⟩

theorem exists_skip (m : Machine) {k : Kind} {w : Nat} (skips : k.isSkip = true)
    (small : w < 0x10000) (fits : k.Matches w) :
    ∃ m', m.execute w = .ok m' ∧ (m.SkipCondition w k → m'.pc = m.pc + 4) ∧
      (¬m.SkipCondition w k → m'.pc = m.pc + 2) := by
  have low : Instruction.lowWord w = w := Instruction.lowWord_of_lt small
  have passed : m.check k (Operands.ofWord (wordOf w)) = none := by
    cases k <;> first | rfl | cases skips
  have leads := leadsTo_perform (by rintro rfl; cases skips) passed m.bus
  rw [toNat_wordOf, low] at leads
  refine ⟨_, m.execute_eq_ok_iff.mpr ⟨k, low.symm ▸ fits, passed, rfl⟩, ?_⟩
  cases k <;> first | exact leads | cases skips

/-- Of two words that both complete, exactly one skips the next instruction. -/
def Opposed (m : Machine) (w w' : Nat) : Prop :=
  ∃ m₁ m₂, m.execute w = .ok m₁ ∧ m.execute w' = .ok m₂ ∧
    (m₁.pc = m.pc + 4 ∧ m₂.pc = m.pc + 2 ∨ m₁.pc = m.pc + 2 ∧ m₂.pc = m.pc + 4)

theorem opposed_of_not (m : Machine) (k k' : Kind) {w w' : Nat} (skips : k.isSkip = true)
    (skips' : k'.isSkip = true) (small : w < 0x10000) (small' : w' < 0x10000)
    (fits : k.Matches w) (fits' : k'.Matches w')
    (negated : m.SkipCondition w' k' ↔ ¬m.SkipCondition w k) : m.Opposed w w' := by
  obtain ⟨m₁, done, taken, passed⟩ := m.exists_skip skips small fits
  obtain ⟨m₂, done', taken', passed'⟩ := m.exists_skip skips' small' fits'
  refine ⟨m₁, m₂, done, done', ?_⟩
  by_cases condition : m.SkipCondition w k
  · exact .inl ⟨taken condition, passed' fun holds => negated.mp holds condition⟩
  · exact .inr ⟨passed condition, taken' (negated.mpr condition)⟩

/-- Where a word that is executed leads is told by its kind, its digits and the state before. The
skips on a condition and on its negation decide differently in every state. -/
theorem execute_leadsTo (m : Machine) :
    (m.stack.pointer ≤ 48 → ∀ w m', m.execute w = .ok m' →
      ∃ k : Kind, k.Matches (Instruction.lowWord w) ∧
        m.LeadsTo (Instruction.lowWord w) k m'.pc) ∧
    (∀ (x : Fin 16) (kk : UInt8),
      m.Opposed (0x3000 + 0x100 * x + kk.toNat) (0x4000 + 0x100 * x + kk.toNat)) ∧
    (∀ x y : Fin 16,
      m.Opposed (0x5000 + 0x100 * x + 0x10 * y) (0x9000 + 0x100 * x + 0x10 * y)) ∧
    ∀ x : Fin 16, m.Opposed (0xE09E + 0x100 * x) (0xE0A1 + 0x100 * x) := by
  refine ⟨fun high w m' h => leadsTo_execute high h, fun x kk => ?_, fun x y => ?_, fun x => ?_⟩
  · have byte := kk.toNat_lt
    refine m.opposed_of_not .seImm .sneImm rfl rfl (by omega) (by omega)
      ⟨?_, Nat.mod_one _⟩ ⟨?_, Nat.mod_one _⟩ ?_
    · show _ / 0x1000 = 0x3
      omega
    · show _ / 0x1000 = 0x4
      omega
    · rw [SkipCondition, SkipCondition,
        m.vx_congr (0x3000 + 0x100 * x + kk.toNat) (by omega)]
      omega
  · refine m.opposed_of_not .seReg .sneReg rfl rfl (by omega) (by omega)
      ⟨?_, Nat.mod_one _⟩ ⟨?_, Nat.mod_one _⟩ ?_
    · show _ / 0x1000 = 0x5
      omega
    · show _ / 0x1000 = 0x9
      omega
    · rw [SkipCondition, SkipCondition,
        m.vx_congr (0x5000 + 0x100 * x + 0x10 * y) (by omega),
        m.vy_congr (0x5000 + 0x100 * x + 0x10 * y) (by omega)]
  · refine m.opposed_of_not .skp .sknp rfl rfl (by omega) (by omega)
      ⟨?_, ?_⟩ ⟨?_, ?_⟩ ?_
    · show _ / 0x1000 = 0xE
      omega
    · show _ % 0x100 = 0x9E
      omega
    · show _ / 0x1000 = 0xE
      omega
    · show _ % 0x100 = 0xA1
      omega
    · simp only [SkipCondition, m.vx_congr (w := 0xE0A1 + 0x100 * x)
        (0xE09E + 0x100 * x) (by omega)]

/-- A return from forty-eight calls, and the two skips on `V0 = 0` at the last even address, from
which the program counter wraps around. -/
theorem execute_leadsTo_wraps :
    let m : Machine :=
      { rng := ⟨0, 0⟩, pc := 0xFFFE, stack := ⟨Vector.replicate 48 0xABC, 48⟩ }
    (∃ m', m.execute 0x00EE = .ok m' ∧ m'.pc = 0xABC) ∧
      ∃ m₁ m₂, m.execute 0x3000 = .ok m₁ ∧ m.execute 0x4000 = .ok m₂ ∧ m₁.pc = 2 ∧ m₂.pc = 0 := by
  intro m
  obtain ⟨leads, opposed, -⟩ := m.execute_leadsTo
  have high : m.stack.pointer ≤ 48 := by decide
  constructor
  · have done : m.execute 0x00EE = .ok (m.perform .ret m.bus (Operands.ofWord 0x00EE)) :=
      m.execute_eq_ok_iff.mpr ⟨.ret, by decide, by decide, rfl⟩
    obtain ⟨k, fits, goal⟩ := leads high _ _ done
    obtain rfl : k = .ret := fits.unique (by decide)
    exact ⟨_, done, (Option.some.inj goal.2).symm⟩
  · obtain ⟨m₁, m₂, done, done', decided⟩ := opposed 0 0
    obtain ⟨k, fits, goal⟩ := leads high 0x3000 m₁ done
    obtain rfl : k = .seImm := fits.unique (by decide)
    have taken : m₁.pc = m.pc + 4 := goal.1 (show m.vx 0x3000 = 0 from rfl)
    rcases decided with ⟨-, passed⟩ | ⟨passed, -⟩
    · exact ⟨m₁, m₂, done, done', taken.trans (by decide), passed.trans (by decide)⟩
    · exact absurd (taken.symm.trans passed) (by decide)

end Machine

end Chip8
