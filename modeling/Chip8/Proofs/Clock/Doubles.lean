import Chip8.Proofs.Clock.Rounding
import Chip8.Proofs.Clock.Signs
import Chip8.Time.Rounded

/-! # Doubles and signs

The operations of doubles respect signs, rounded as they are. The integer part of a double that is
not negative is a double itself and not the greater one, so the rest of it is not negative either.
-/

namespace Chip8

open Float.Model Float.Model.UnpackedFloat
open TimeScale (NotNegative)
open Decimal

namespace Double

def unpacked (x : Double) : UnpackedFloat := x.value.toModel.unpack

variable {x y : Double}

theorem unpacked_add (x y : Double) : (x + y).unpacked =
    UnpackedFloat.unpack .binary64
      (UnpackedFloat.pack .binary64 (UnpackedFloat.add .binary64 x.unpacked y.unpacked)) :=
  rfl

theorem unpacked_sub (x y : Double) : (x - y).unpacked =
    UnpackedFloat.unpack .binary64
      (UnpackedFloat.pack .binary64 (UnpackedFloat.sub .binary64 x.unpacked y.unpacked)) :=
  rfl

theorem unpacked_mul (x y : Double) : (x * y).unpacked =
    UnpackedFloat.unpack .binary64
      (UnpackedFloat.pack .binary64 (UnpackedFloat.mul .binary64 x.unpacked y.unpacked)) :=
  rfl

theorem unpacked_zero : unpacked TimeScale.zero = .zero .positive := rfl

theorem parts_eq (x : Double) : x.parts = Binary64.ofUnpacked x.unpacked :=
  Binary64.ofBits_eq_ofUnpacked _

theorem lt_zero_eq (x : Double) :
    TimeScale.lt x TimeScale.zero = x.unpacked.lt (.zero .positive) := by
  change decide (decide (_ = true) = true) = _
  simp only [Bool.decide_eq_true]
  rfl

theorem le_zero_eq (x : Double) :
    TimeScale.le x TimeScale.zero = x.unpacked.le (.zero .positive) := by
  change decide (decide (_ = true) = true) = _
  simp only [Bool.decide_eq_true]
  rfl

theorem notNegative_iff_unsigned : NotNegative x ↔ Unsigned x.unpacked := by
  rw [NotNegative, lt_zero_eq]
  cases x.unpacked with
  | notANumber => exact ⟨fun _ => trivial, fun _ => rfl⟩
  | zero s => exact ⟨fun _ => trivial, fun _ => rfl⟩
  | infinity s => cases s <;> simp [UnpackedFloat.lt, UnpackedFloat.compare, Unsigned]
  | finite s => cases s <;> simp [UnpackedFloat.lt, UnpackedFloat.compare, Unsigned]

theorem notNegative_of_not_le (h : TimeScale.le x TimeScale.zero = false) : NotNegative x := by
  rw [le_zero_eq] at h
  rw [notNegative_iff_unsigned]
  cases hx : x.unpacked with
  | notANumber => trivial
  | zero s => trivial
  | infinity s =>
    rw [hx] at h
    cases s with
    | negative => cases h
    | positive => rfl
  | finite s =>
    rw [hx] at h
    cases s with
    | negative => cases h
    | positive => rfl

theorem value_of_ofInt? {n : Nat} (h : TimeScale.ofInt? (n : Int) = some x) :
    x.value = Float.ofNat n := by
  change Double.ofInt? (n : Int) = some x at h
  unfold Double.ofInt? at h
  dsimp only at h
  split at h
  · cases h
    rfl
  · cases h

theorem truncate_cases {n : Int} (hx : Unsigned x.unpacked) (h : TimeScale.truncate x = .ok n) :
    (∃ s, x.unpacked = .zero s) ∧ n = 0 ∨
      ∃ m e, ∃ pos : 0 < m, x.unpacked = .finite .positive m e pos ∧
        n = (m * 2 ^ e.toNat / 2 ^ (-e).toNat : Nat) := by
  change Double.truncate x = .ok n at h
  unfold Double.truncate at h
  rw [parts_eq] at h
  cases unpacked : x.unpacked with
  | notANumber =>
    rw [unpacked] at h
    cases h
  | infinity s =>
    rw [unpacked] at h
    cases h
  | zero s =>
    rw [unpacked] at h
    refine Or.inl ⟨⟨s, rfl⟩, ?_⟩
    rw [← Except.ok.inj h, Binary64.truncate_eq, Nat.zero_mul, Nat.zero_div]
    cases s <;> rfl
  | finite s m e pos =>
    rw [unpacked] at h hx
    cases hx
    refine Or.inr ⟨m, e, pos, rfl, ?_⟩
    rw [← Except.ok.inj h, Binary64.truncate_eq]
    rfl

theorem notNegative_rest {n : Int} (hx : NotNegative x) (h : TimeScale.truncate x = .ok n)
    (hy : TimeScale.ofInt? n = some y) : NotNegative (x - y) := by
  rw [notNegative_iff_unsigned] at hx ⊢
  rw [unpacked_sub]
  refine Unsigned.unpack_pack ?_
  have zero {z : Double} (hz : TimeScale.ofInt? ((0 : Nat) : Int) = some z) :
      z.unpacked = .zero .positive :=
    congrArg (·.toModel.unpack) (value_of_ofInt? hz)
  obtain ⟨⟨s, unpacked⟩, rfl⟩ | ⟨m, e, pos, unpacked, rfl⟩ := truncate_cases hx h
  · rw [unpacked, zero hy]
    cases s <;> trivial
  · rcases Nat.eq_zero_or_pos (m * 2 ^ e.toNat / 2 ^ (-e).toNat) with none | some
    · rw [none] at hy
      rw [unpacked, zero hy]
      rfl
    · have normal := normal_of_integerPart (normal_or_least unpacked) some
      obtain ⟨k, le, form, same⟩ := normal.integerPart some
      have converted : y.unpacked = .finite .positive k e form.pos := by
        rw [Double.unpacked, value_of_ofInt? hy]
        exact form.unpack_ofNat some same
      rw [unpacked, converted]
      exact unsigned_sub .binary64 le ..

theorem nonneg_of_not_exceeds {n : Int}
    (h : TimeScale.exceeds n (TimeScale.zero : Double) = false) : 0 ≤ n := by
  change Binary64.exceeds n (parts TimeScale.zero) = false at h
  rw [parts_eq, unpacked_zero] at h
  exact Int.not_lt.mp (decide_eq_false_iff_not.mp ((Binary64.exceeds_zero n (-1074)).symm.trans h))

instance : SignedScale Double where
  zero := notNegative_iff_unsigned.mpr trivial
  add hx hy := by
    rw [notNegative_iff_unsigned] at hx hy ⊢
    rw [unpacked_add]
    exact (Unsigned.add .binary64 hx hy).unpack_pack
  mul hx hy := by
    rw [notNegative_iff_unsigned] at hx hy ⊢
    rw [unpacked_mul]
    exact (Unsigned.mul .binary64 hx hy).unpack_pack
  of_not_le := notNegative_of_not_le
  ofInt nonneg h := by
    obtain ⟨n, rfl⟩ := Int.eq_ofNat_of_zero_le nonneg
    rw [notNegative_iff_unsigned, Double.unpacked, value_of_ofInt? h]
    exact unsigned_ofNat n
  nonneg := nonneg_of_not_exceeds
  truncate hx h := by
    obtain ⟨-, rfl⟩ | ⟨m, e, -, -, rfl⟩ := truncate_cases (notNegative_iff_unsigned.mp hx) h
    · exact le_rfl
    · exact Int.natCast_nonneg _
  rest := notNegative_rest

end Double

end Chip8
