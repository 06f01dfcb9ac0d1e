import Chip8.Instruction.Decode

/-! # Word patterns

The words of a kind are those of one class whose last digits have a given value. The rule that
finds the kind of a word agrees with this table, so a word has at most one kind, and the
operand fields of a word are its digits.
-/

namespace Chip8

/-- The words that begin with a digit and leave `value` as remainder by `modulus`. -/
structure Pattern where
  digit : Nat
  modulus : Nat := 1
  value : Nat := 0
  deriving DecidableEq, Repr

namespace Kind

def pattern : Kind → Pattern
  | nop => ⟨0x0, 0x1000, 0x000⟩
  | cls => ⟨0x0, 0x1000, 0x0E0⟩
  | ret => ⟨0x0, 0x1000, 0x0EE⟩
  | jp => { digit := 0x1 }
  | call => { digit := 0x2 }
  | seImm => { digit := 0x3 }
  | sneImm => { digit := 0x4 }
  | seReg => { digit := 0x5 }
  | ldImm => { digit := 0x6 }
  | addImm => { digit := 0x7 }
  | ldReg => ⟨0x8, 0x10, 0x0⟩
  | orReg => ⟨0x8, 0x10, 0x1⟩
  | andReg => ⟨0x8, 0x10, 0x2⟩
  | xorReg => ⟨0x8, 0x10, 0x3⟩
  | addReg => ⟨0x8, 0x10, 0x4⟩
  | sub => ⟨0x8, 0x10, 0x5⟩
  | shr => ⟨0x8, 0x10, 0x6⟩
  | subn => ⟨0x8, 0x10, 0x7⟩
  | shl => ⟨0x8, 0x10, 0xE⟩
  | sneReg => { digit := 0x9 }
  | ldI => { digit := 0xA }
  | jpV0 => { digit := 0xB }
  | rnd => { digit := 0xC }
  | drw => { digit := 0xD }
  | skp => ⟨0xE, 0x100, 0x9E⟩
  | sknp => ⟨0xE, 0x100, 0xA1⟩
  | ldVxDt => ⟨0xF, 0x100, 0x07⟩
  | ldVxK => ⟨0xF, 0x100, 0x0A⟩
  | ldDt => ⟨0xF, 0x100, 0x15⟩
  | ldSt => ⟨0xF, 0x100, 0x18⟩
  | addI => ⟨0xF, 0x100, 0x1E⟩
  | ldF => ⟨0xF, 0x100, 0x29⟩
  | ldB => ⟨0xF, 0x100, 0x33⟩
  | ldMemV => ⟨0xF, 0x100, 0x55⟩
  | ldVMem => ⟨0xF, 0x100, 0x65⟩

/-- Whether a word below `0x10000` is an instruction of the kind. -/
def Matches (k : Kind) (w : Nat) : Prop :=
  w / 0x1000 = k.pattern.digit ∧ w % k.pattern.modulus = k.pattern.value

instance (k : Kind) (w : Nat) : Decidable (k.Matches w) :=
  inferInstanceAs (Decidable (_ ∧ _))

variable {w : Nat} {k : Kind}

theorem pattern_of_systemWord {w : Nat} (h : ofSystemWord? w = some k) :
    k.pattern = ⟨0x0, 0x1000, w⟩ := by
  unfold ofSystemWord? at h
  split at h
  · obtain rfl := Option.some.inj h
    rw [show w = 0x000 by omega]
    rfl
  split at h
  · obtain rfl := Option.some.inj h
    rw [show w = 0x0E0 by omega]
    rfl
  split at h
  · obtain rfl := Option.some.inj h
    rw [show w = 0x0EE by omega]
    rfl
  · cases h

theorem pattern_of_arithmeticNibble (h : ofArithmeticNibble? w = some k) :
    k.pattern = ⟨0x8, 0x10, w⟩ := by
  unfold ofArithmeticNibble? at h
  split at h <;> cases h <;> rfl

theorem pattern_of_keyByte (h : ofKeyByte? w = some k) : k.pattern = ⟨0xE, 0x100, w⟩ := by
  unfold ofKeyByte? at h
  split at h <;> cases h <;> rfl

theorem pattern_of_miscByte (h : ofMiscByte? w = some k) : k.pattern = ⟨0xF, 0x100, w⟩ := by
  unfold ofMiscByte? at h
  split at h <;> cases h <;> rfl

theorem matches_of_classify (hw : w < 0x10000) (h : classify w = some k) : k.Matches w := by
  unfold classify at h
  have digit : ((w : Int) / 0x1000 % 0x10).toNat = w / 0x1000 := by omega
  have nibble : ((w : Int) % 0x10).toNat = w % 0x10 := by omega
  have byte : ((w : Int) % 0x100).toNat = w % 0x100 := by omega
  rw [digit, nibble, byte] at h
  unfold Matches
  split at h
  case h_1 hd =>
    rw [pattern_of_systemWord h]
    exact ⟨hd, Nat.mod_eq_of_lt (show w < 0x1000 by omega)⟩
  case h_9 hd =>
    rw [pattern_of_arithmeticNibble h]
    exact ⟨hd, rfl⟩
  case h_15 hd =>
    rw [pattern_of_keyByte h]
    exact ⟨hd, rfl⟩
  case h_16 =>
    rw [pattern_of_miscByte h]
    refine ⟨?_, rfl⟩
    simp only [imp_false] at *
    omega
  all_goals
    obtain rfl := Option.some.inj h
    exact ⟨by assumption, Nat.mod_one w⟩

theorem classify_of_matches (h : k.Matches w) : classify w = some k := by
  obtain ⟨hd, hv⟩ := h
  have digit : ((w : Int) / 0x1000 % 0x10).toNat = k.pattern.digit % 0x10 := by omega
  have nibble : ((w : Int) % 0x10).toNat = w % 0x10 := by omega
  have byte : ((w : Int) % 0x100).toNat = w % 0x100 := by omega
  unfold classify
  rw [digit, nibble, byte]
  cases k
  case nop => rw [show w = 0x0000 by simp only [pattern] at hd hv; omega]; rfl
  case cls => rw [show w = 0x00E0 by simp only [pattern] at hd hv; omega]; rfl
  case ret => rw [show w = 0x00EE by simp only [pattern] at hd hv; omega]; rfl
  all_goals first | rfl | (simp only [pattern] at hv; rw [hv]; rfl)

theorem classify_eq_some_iff (hw : w < 0x10000) : classify w = some k ↔ k.Matches w :=
  ⟨matches_of_classify hw, classify_of_matches⟩

/-- A word is an instruction of one kind at most. -/
theorem Matches.unique {k l : Kind} (hk : k.Matches w) (hl : l.Matches w) : k = l :=
  Option.some.inj ((classify_of_matches hk).symm.trans (classify_of_matches hl))

theorem classify_eq_none_iff (hw : w < 0x10000) :
    classify w = none ↔ ∀ k : Kind, ¬k.Matches w := by
  rw [Option.eq_none_iff_forall_ne_some]
  exact forall_congr' fun k => not_congr (classify_eq_some_iff hw)

end Kind

namespace Operands

variable (w : UInt16)

theorem nibble_eq_mod (a : Nat) : a &&& 0xF = a % 0x10 := Nat.and_two_pow_sub_one_eq_mod a 4

theorem x_ofWord : (ofWord w).x.val = w.toNat / 0x100 % 0x10 := by
  simp [ofWord, Fin.ofNat, nibble_eq_mod, Nat.shiftRight_eq_div_pow]

theorem y_ofWord : (ofWord w).y.val = w.toNat / 0x10 % 0x10 := by
  simp [ofWord, Fin.ofNat, nibble_eq_mod, Nat.shiftRight_eq_div_pow]

theorem n_ofWord : (ofWord w).n.val = w.toNat % 0x10 := by
  simp [ofWord, Fin.ofNat, nibble_eq_mod]

theorem nn_ofWord : (ofWord w).nn.toNat = w.toNat % 0x100 := UInt16.toNat_toUInt8 w

theorem nnn_ofWord : (ofWord w).nnn.toNat = w.toNat % 0x1000 := by
  rw [ofWord, UInt16.toNat_and]
  exact Nat.and_two_pow_sub_one_eq_mod w.toNat 12

end Operands

end Chip8
