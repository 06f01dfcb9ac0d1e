import Chip8.Proofs.Machine.Effects
import Chip8.Proofs.Machine.Steps

/-! # Arithmetic

The nine arithmetic instructions compute on integers what their last digit says, whichever registers
they name. Both operands are read before anything is written, and a flag is written last, so it wins
over a result in the same register.
-/

namespace Chip8

namespace Alu

/-- The result of an arithmetic instruction on two bytes, by the last digit of its word. -/
def exactResult (n a b : Nat) : Int :=
  match n with
  | 0x0 => b
  | 0x1 => (a ||| b : Nat)
  | 0x2 => (a &&& b : Nat)
  | 0x3 => (a ^^^ b : Nat)
  | 0x4 => (a + b) % 256
  | 0x5 => (a - b) % 256
  | 0x6 => a / 2
  | 0x7 => (b - a) % 256
  | 0xE => 2 * a % 256
  | _ => 0

/-- When the flag of an arithmetic instruction is set, if it has one. -/
def exactFlag (n a b : Nat) : Option Bool :=
  match n with
  | 0x4 => some (256 ≤ a + b)
  | 0x5 => some (b < a)
  | 0x6 => some (a % 2 = 1)
  | 0x7 => some (a < b)
  | 0xE => some (128 ≤ a)
  | _ => none

/-- An operation computes on bytes what the instruction with last digit `n` does on integers. -/
structure Agrees (op : UInt8 → UInt8 → Alu) (n : Nat) : Prop where
  value : ∀ x y, ((op x y).value.toNat : Int) = exactResult n x.toNat y.toNat
  flag : ∀ x y, (op x y).flag = (exactFlag n x.toNat y.toNat).map bit

theorem toNat_ofInt (n : Int) : ((UInt8.ofInt n).toNat : Int) = n % 256 := by
  rw [UInt8.ofInt, UInt8.toNat_ofNat']
  omega

theorem toNat_bit (p : Prop) [Decidable p] : (bit p).toNat = if p then 1 else 0 := by
  unfold bit
  by_cases p <;> simp [*]

theorem agrees_copy : Agrees copy 0x0 where
  value _ _ := rfl
  flag _ _ := rfl

theorem agrees_or : Agrees or 0x1 where
  value x y := congrArg Int.ofNat (UInt8.toNat_or x y)
  flag _ _ := rfl

theorem agrees_and : Agrees and 0x2 where
  value x y := congrArg Int.ofNat (UInt8.toNat_and x y)
  flag _ _ := rfl

theorem agrees_xor : Agrees xor 0x3 where
  value x y := congrArg Int.ofNat (UInt8.toNat_xor x y)
  flag _ _ := rfl

theorem agrees_add : Agrees add 0x4 where
  value x y := toNat_ofInt _
  flag x y := by
    have carry : (0xFF < (x.toNat + y.toNat : Int)) ↔ 256 ≤ x.toNat + y.toNat := by omega
    simp only [add, exactFlag, carry, Option.map_some]

theorem agrees_sub : Agrees sub 0x5 where
  value x y := toNat_ofInt _
  flag x y := by simp [sub, exactFlag]

theorem agrees_shiftRight : Agrees shiftRight 0x6 where
  value x y := congrArg Int.ofNat (UInt8.toNat_shiftRight x 1)
  flag x y := by
    have lowest : x &&& 1 = bit (x.toNat % 2 = 1) := by
      rw [← UInt8.toNat_inj, UInt8.toNat_and, toNat_bit]
      show x.toNat &&& 1 = _
      rw [Nat.and_one_is_mod]
      split <;> omega
    exact congrArg some lowest

theorem agrees_subFrom : Agrees subFrom 0x7 where
  value x y := agrees_sub.value y x
  flag x y := agrees_sub.flag y x

theorem agrees_shiftLeft : Agrees shiftLeft 0xE where
  value x y := by
    have doubled : (x <<< 1).toNat = 2 * x.toNat % 256 := by
      rw [UInt8.toNat_shiftLeft, Nat.mul_comm]
      exact congrArg (· % 256) (Nat.shiftLeft_eq x.toNat 1)
    exact congrArg Int.ofNat doubled
  flag x y := by
    have highest : x >>> 7 = bit (128 ≤ x.toNat) := by
      have byte := x.toNat_lt
      rw [← UInt8.toNat_inj, UInt8.toNat_shiftRight, toNat_bit]
      show x.toNat >>> 7 = _
      rw [Nat.shiftRight_eq_div_pow]
      split <;> omega
    exact congrArg some highest

end Alu

def arithmeticDigits : List Nat := [0x0, 0x1, 0x2, 0x3, 0x4, 0x5, 0x6, 0x7, 0xE]

namespace Machine

open Alu

theorem exists_operation {n : Nat} (arithmetical : n ∈ arithmeticDigits) :
    ∃ (k : Kind) (op : UInt8 → UInt8 → Alu), k.pattern = ⟨0x8, 0x10, n⟩ ∧ Agrees op n ∧
      (∀ o m, check k o m = none) ∧ ∀ bus o m, perform k bus o m = m.arithmetic op o := by
  simp only [arithmeticDigits, List.mem_cons, List.not_mem_nil, or_false] at arithmetical
  rcases arithmetical with rfl | rfl | rfl | rfl | rfl | rfl | rfl | rfl | rfl
  · exact ⟨.ldReg, copy, rfl, agrees_copy, fun _ _ => rfl, fun _ _ _ => rfl⟩
  · exact ⟨.orReg, or, rfl, agrees_or, fun _ _ => rfl, fun _ _ _ => rfl⟩
  · exact ⟨.andReg, and, rfl, agrees_and, fun _ _ => rfl, fun _ _ _ => rfl⟩
  · exact ⟨.xorReg, xor, rfl, agrees_xor, fun _ _ => rfl, fun _ _ _ => rfl⟩
  · exact ⟨.addReg, add, rfl, agrees_add, fun _ _ => rfl, fun _ _ _ => rfl⟩
  · exact ⟨.sub, sub, rfl, agrees_sub, fun _ _ => rfl, fun _ _ _ => rfl⟩
  · exact ⟨.shr, shiftRight, rfl, agrees_shiftRight, fun _ _ => rfl, fun _ _ _ => rfl⟩
  · exact ⟨.subn, subFrom, rfl, agrees_subFrom, fun _ _ => rfl, fun _ _ _ => rfl⟩
  · exact ⟨.shl, shiftLeft, rfl, agrees_shiftLeft, fun _ _ => rfl, fun _ _ _ => rfl⟩

/-- An arithmetic word runs an operation that agrees with its last digit. -/
theorem execute_eq_arithmetic (m : Machine) {w : Int} {x y n : Fin 16}
    (arithmetical : n.val ∈ arithmeticDigits)
    (word : Instruction.lowWord w = 0x8000 + 0x100 * x.val + 0x10 * y.val + n.val) :
    ∃ op, Agrees op n ∧ m.execute w = .ok (m.arithmetic op (Operands.ofWord (wordOf w))) := by
  obtain ⟨k, op, pattern, agrees, unchecked, performs⟩ := exists_operation arithmetical
  refine ⟨op, agrees, m.execute_eq_ok_iff.mpr ⟨k, ?_, unchecked _ _, (performs _ _ _).symm⟩⟩
  rw [Kind.Matches, pattern, word]
  constructor
  · show _ / 0x1000 = 0x8
    omega
  · show _ % 0x10 = n.val
    omega

/-- Arithmetic instructions compute on integers, whichever registers they name. The flag stands in
`VF` even if the result goes there too; without a flag `VF` is a register like the others. -/
theorem execute_arithmetic (m : Machine) {w : Int} {x y n : Fin 16}
    (arithmetical : n.val ∈ arithmeticDigits)
    (word : Instruction.lowWord w = 0x8000 + 0x100 * x.val + 0x10 * y.val + n.val) :
    let a := (m.getV x).toNat
    let b := (m.getV y).toNat
    ∃ m', m.execute w = .ok m' ∧ m' = { m with v := m'.v, pc := m.pc + 2 } ∧
      (∀ f, exactFlag n a b = some f → m'.getV 15 = if f then 1 else 0) ∧
      (exactFlag n a b = none ∨ x ≠ 15 → ((m'.getV x).toNat : Int) = exactResult n a b) ∧
      ∀ r, r ≠ x → exactFlag n a b = none ∨ r ≠ 15 → m'.getV r = m.getV r := by
  intro a b
  obtain ⟨op, agrees, done⟩ := m.execute_eq_arithmetic arithmetical word
  obtain ⟨ofX, ofY, -⟩ := operands_wordOf (d := 8) word
  have flag : (op (m.getV x) (m.getV y)).flag = (exactFlag n a b).map bit := agrees.flag _ _
  have wrote : (m.arithmetic op (Operands.ofWord (wordOf w))).v =
      (m.writeAlu x (op (m.getV x) (m.getV y))).v := by
    rw [← ofX, ← ofY]
    rfl
  have register {r : Fin 16} (kept : exactFlag n a b = none ∨ r ≠ 15) :
      (m.arithmetic op (Operands.ofWord (wordOf w))).getV r =
        if r = x then (op (m.getV x) (m.getV y)).value else m.getV r := by
    rw [getV, wrote]
    exact m.getV_writeAlu x (kept.imp_left fun unflagged => by rw [flag, unflagged]; rfl)
  refine ⟨_, done, ?_, fun f flagged => ?_, fun kept => ?_, fun r other kept => ?_⟩
  · rw [arithmetic_eq]
    rfl
  · rw [getV, wrote]
    exact m.getV_writeAlu_flag x (by rw [flag, flagged]; rfl)
  · rw [register kept, if_pos rfl, agrees.value]
  · rw [register kept, if_neg other]

/-- A sum that is due in `VF`, where the carry is left instead, and a copy, which has no flag. -/
theorem execute_arithmetic_aliased :
    let m : Machine := (Machine.setV { rng := ⟨0, 0⟩ } 15 200).setV 1 100
    (∃ m', m.execute 0x8F14 = .ok m' ∧ m'.getV 15 = 1 ∧ m'.getV 1 = 100) ∧
      ∃ m', m.execute 0x8F10 = .ok m' ∧ m'.getV 15 = 100 := by
  intro m
  constructor
  · obtain ⟨m', done, -, flag, -, others⟩ :=
      m.execute_arithmetic (w := 0x8F14) (x := 15) (y := 1) (n := 4) (by decide) rfl
    exact ⟨m', done, flag true rfl, others 1 (by decide) (.inr (by decide))⟩
  · obtain ⟨m', done, -, -, result, -⟩ :=
      m.execute_arithmetic (w := 0x8F10) (x := 15) (y := 1) (n := 0) (by decide) rfl
    have copied : ((m'.getV 15).toNat : Int) = 100 := result (.inl rfl)
    exact ⟨m', done, UInt8.toNat_inj.mp (Int.ofNat.inj copied)⟩

end Machine

end Chip8
