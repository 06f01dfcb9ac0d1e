import Mathlib
import Chip8.Decimal.Binary64

/-! # Rounding

What the rounding of doubles keeps. It keeps signs, and it changes no number that a double can
hold, in particular no integer of up to 53 bits and no double that is an integer already. The
parts of a double are those it was packed from.
-/

namespace Chip8.Decimal

open Float.Model Float.Model.UnpackedFloat

/-! ## Signs -/

/-- Not below zero: positive, a zero of either sign, or no number. -/
def Unsigned : UnpackedFloat → Prop
  | .infinity s | .finite s _ _ _ => s = .positive
  | .zero _ | .notANumber => True

variable {x y : UnpackedFloat}

theorem unsigned_roundWithAccuracy (spec : Format) (m : Nat) (e : Int) (a : Accuracy) :
    Unsigned (roundWithAccuracy spec .positive m e a) := by
  unfold roundWithAccuracy
  dsimp only
  split
  · trivial
  · rfl

theorem unsigned_normalize (spec : Format) {m : Int} (nonneg : 0 ≤ m) (e : Int) (s : Sign) :
    Unsigned (UnpackedFloat.normalize spec m e s) := by
  unfold UnpackedFloat.normalize
  split
  · next below => exact absurd (Int.compare_eq_lt.mp below) (Int.not_lt.mpr nonneg)
  · trivial
  · exact unsigned_roundWithAccuracy ..

theorem Unsigned.add (spec : Format) (hx : Unsigned x) (hy : Unsigned y) :
    Unsigned (UnpackedFloat.add spec x y) := by
  unfold UnpackedFloat.add
  split
  · trivial
  · trivial
  · split
    · exact hx
    · trivial
  · exact hx
  · exact hy
  · split <;> trivial
  · exact hy
  · exact hx
  · cases hx
    cases hy
    exact unsigned_normalize spec (Int.add_nonneg (Int.natCast_nonneg _) (Int.natCast_nonneg _)) ..

theorem Unsigned.mul (spec : Format) (hx : Unsigned x) (hy : Unsigned y) :
    Unsigned (UnpackedFloat.mul spec x y) := by
  unfold UnpackedFloat.mul
  split <;> try trivial
  all_goals
    cases hx
    cases hy
  · rfl
  · rfl
  · rfl
  · exact unsigned_roundWithAccuracy ..

theorem unsigned_sub (spec : Format) {m k : Nat} {e : Int} (le : m ≤ k) (hm : 0 < m) (hk : 0 < k) :
    Unsigned (UnpackedFloat.sub spec (.finite .positive k e hk) (.finite .positive m e hm)) := by
  have apart : (0 : Int)
      ≤ (k <<< (e - min e e).toNat : Nat) - (m <<< (e - min e e).toNat : Nat) := by
    rw [Nat.shiftLeft_eq, Nat.shiftLeft_eq, sub_nonneg]
    exact Int.ofNat_le.mpr (Nat.mul_le_mul_right _ le)
  exact unsigned_normalize spec apart ..

theorem unsigned_ofScientific (spec : Format) (m e : Nat) :
    Unsigned (UnpackedFloat.ofScientific spec m e) := by
  unfold UnpackedFloat.ofScientific
  split
  · trivial
  · split
    · rfl
    · split
      · trivial
      · rw [if_pos (Int.natCast_nonneg e)]
        exact Unsigned.mul spec rfl rfl

theorem unsigned_unpack_packComponents {spec : Format} (e : BitVec spec.exponentBits)
    (m : BitVec spec.mantissaBitsWithoutImplicit) :
    Unsigned (UnpackedFloat.unpack spec (packComponents spec .positive e m)) := by
  have positive : Sign.ofBitVec (unpackSign (packComponents spec .positive e m)) = .positive := by
    rw [unpackSign_packComponents, Sign.ofBitVec_toBitVec]
  unfold UnpackedFloat.unpack
  dsimp only
  split
  · split
    · exact positive
    · trivial
  · split
    · split
      · trivial
      · exact positive
    · exact positive

/-- A packed float may have lost its mantissa, but has kept its sign. -/
theorem Unsigned.unpack_pack (h : Unsigned x) :
    Unsigned (UnpackedFloat.unpack .binary64 (UnpackedFloat.pack .binary64 x)) := by
  cases x with
  | notANumber => exact unsigned_unpack_packComponents ..
  | infinity s =>
    cases h
    exact unsigned_unpack_packComponents ..
  | zero s => cases s <;> trivial
  | finite s m e =>
    cases h
    unfold UnpackedFloat.pack
    dsimp only
    split
    · exact unsigned_unpack_packComponents ..
    · split <;> exact unsigned_unpack_packComponents ..

/-! ## Packing -/

/-- The mantissa fills its bits, and the exponent fits. -/
structure Normal (k : Nat) (t : Int) : Prop where
  low : 2 ^ 52 ≤ k
  high : k < 2 ^ 53
  least : -1074 ≤ t
  greatest : t ≤ 971

variable {k : Nat} {t : Int}

theorem Normal.pos (h : Normal k t) : 0 < k := Nat.lt_of_lt_of_le (by decide) h.low

theorem Normal.log2 (h : Normal k t) : k.log2 = 52 :=
  (Nat.log2_eq_iff h.pos.ne').mpr ⟨h.low, h.high⟩

theorem toNat_leading_append (v : BitVec 52) : (1#1 ++ v).toNat = 2 ^ 52 + v.toNat := by
  rw [BitVec.toNat_append, ← Nat.shiftLeft_add_eq_or_of_lt v.isLt]
  rfl

theorem exponentBias_binary64 : Format.binary64.exponentBias = 1023 := rfl

theorem mantissaBits_binary64 : Format.binary64.mantissaBits = 53 := rfl

theorem ofNat_exponent {b : Nat} (low : 0 < b) (high : b < 2047) :
    (BitVec.ofNat 11 b).toNat = b ∧ BitVec.ofNat 11 b ≠ -1#11 ∧ BitVec.ofNat 11 b ≠ 0#11 := by
  have value : (BitVec.ofNat 11 b).toNat = b := by
    rw [BitVec.toNat_ofNat]
    omega
  refine ⟨value, fun ones => ?_, fun none => ?_⟩
  · rw [ones] at value
    change 2047 = b at value
    omega
  · rw [none] at value
    change 0 = b at value
    omega

/-- Packing a normal float loses nothing. -/
theorem Normal.unpack_pack (h : Normal k t) (s : Sign) :
    UnpackedFloat.unpack .binary64 (UnpackedFloat.pack .binary64 (.finite s k t h.pos))
      = .finite s k t h.pos := by
  have ⟨low, high, least, greatest⟩ := h
  obtain ⟨b, hb⟩ := Int.eq_ofNat_of_zero_le (show 0 ≤ t + 1075 by omega)
  obtain ⟨exponent, notOnes, notZero⟩ := ofNat_exponent (b := b) (by omega) (by omega)
  have biased : (t + Format.binary64.exponentBias + (52 : Nat)).toNat = b := by
    rw [exponentBias_binary64]
    omega
  have mantissa : 2 ^ 52 + (BitVec.ofNat 52 k).toNat = k := by
    rw [BitVec.toNat_ofNat]
    omega
  have packed : UnpackedFloat.pack .binary64 (.finite s k t h.pos)
      = packComponents .binary64 s (BitVec.ofNat _ b) (BitVec.ofNat _ k) := by
    simp only [UnpackedFloat.pack, biased, h.log2, mantissaBits_binary64]
    rw [if_neg (by omega), if_pos trivial]
  rw [packed, UnpackedFloat.unpack]
  simp only [unpackMantissa_packComponents, unpackExponent_packComponents,
    unpackSign_packComponents, Sign.ofBitVec_toBitVec]
  rw [if_neg notOnes, if_neg notZero, UnpackedFloat.finite.injEq]
  refine ⟨rfl, ?_, ?_⟩
  · rw [toNat_leading_append, mantissa]
  · rw [exponent, exponentBias_binary64]
    omega

theorem normal_or_least {b : BitVec Format.binary64.numBits} {s : Sign} {m : Nat} {e : Int}
    {pos : 0 < m} (h : UnpackedFloat.unpack .binary64 b = .finite s m e pos) :
    Normal m e ∨ m < 2 ^ 52 ∧ e = -1074 := by
  have mantissa : (unpackMantissa b).toNat < 2 ^ 52 := (@unpackMantissa .binary64 b).isLt
  have exponent : (unpackExponent b).toNat < 2 ^ 11 := (@unpackExponent .binary64 b).isLt
  rw [UnpackedFloat.unpack] at h
  split at h
  · split at h <;> cases h
  · next notOnes =>
    split at h
    · next none =>
      split at h
      · cases h
      · rw [UnpackedFloat.finite.injEq] at h
        obtain ⟨-, rfl, rfl⟩ := h
        refine Or.inr ⟨mantissa, ?_⟩
        rw [none]
        rfl
    · next notZero =>
      rw [UnpackedFloat.finite.injEq] at h
      obtain ⟨-, rfl, rfl⟩ := h
      have small : (unpackExponent b).toNat ≠ 2047 :=
        fun ones => notOnes (BitVec.eq_of_toNat_eq ones)
      have large : (unpackExponent b).toNat ≠ 0 :=
        fun none => notZero (BitVec.eq_of_toNat_eq none)
      have filled := toNat_leading_append (@unpackMantissa .binary64 b)
      have bias : (Format.binary64.exponentBias : Int)
          + Format.binary64.mantissaBitsWithoutImplicit = 1075 := rfl
      rw [bias]
      exact Or.inl ⟨by omega, by omega, by omega, by omega⟩

/-! ## Parts -/

namespace Binary64

/-- The parts of an unpacked float. -/
def ofUnpacked : UnpackedFloat → Binary64
  | .notANumber => notANumber
  | .infinity s => infinite (s == .negative)
  | .zero s => finite (s == .negative) 0 (-1074)
  | .finite s m e _ => finite (s == .negative) m e

theorem toNat_exponent (bits : UInt64) :
    (bits >>> 52 &&& 0x7FF).toNat = (@unpackExponent .binary64 bits.toBitVec).toNat := by
  rw [unpackExponent_def, BitVec.extractLsb'_toNat, UInt64.toNat_and, UInt64.toNat_shiftRight]
  exact Nat.and_two_pow_sub_one_eq_mod _ 11

theorem toNat_fraction (bits : UInt64) :
    (bits &&& 0xFFFFFFFFFFFFF).toNat
      = (@unpackMantissa .binary64 bits.toBitVec).toNat := by
  rw [unpackMantissa_def, BitVec.extractLsb'_toNat, UInt64.toNat_and]
  exact Nat.and_two_pow_sub_one_eq_mod _ 52

theorem negative_eq (bits : UInt64) :
    (bits >>> 63 == 1)
      = (Sign.ofBitVec (@unpackSign .binary64 bits.toBitVec) == .negative) := by
  have top : (bits >>> 63).toNat = (@unpackSign .binary64 bits.toBitVec).toNat := by
    have bound := bits.toNat_lt
    rw [unpackSign_def, BitVec.extractLsb'_toNat, UInt64.toNat_shiftRight]
    refine (Nat.mod_eq_of_lt ?_).symm
    rw [Nat.shiftRight_eq_div_pow]
    exact Nat.div_lt_of_lt_mul bound
  have one (v : BitVec 1) : v.toNat = 1 ↔ (Sign.ofBitVec v == .negative) = true := by
    decide +revert
  rw [Bool.eq_iff_iff, beq_iff_eq, ← UInt64.toNat_inj, top]
  exact one _

theorem ofBits_eq_ofUnpacked (bits : UInt64) :
    ofBits bits = ofUnpacked (UnpackedFloat.unpack .binary64 bits.toBitVec) := by
  rw [ofBits, toNat_exponent, toNat_fraction, negative_eq, UnpackedFloat.unpack]
  dsimp only
  split
  · next ones =>
    rw [if_pos (BitVec.eq_of_toNat_eq ones)]
    split
    · next none =>
      rw [if_pos (BitVec.eq_of_toNat_eq none)]
      rfl
    · next some =>
      rw [if_neg fun none => some (congrArg BitVec.toNat none)]
      rfl
  · next notOnes =>
    rw [if_neg fun ones => notOnes (congrArg BitVec.toNat ones)]
    split
    · next none =>
      rw [if_pos (BitVec.eq_of_toNat_eq none)]
      split
      · next zero =>
        rw [zero]
        rfl
      · rw [none]
        rfl
    · next notZero =>
      rw [if_neg fun none => notZero (congrArg BitVec.toNat none)]
      rw [ofUnpacked, toNat_leading_append, Nat.add_comm]
      rfl

theorem truncate_eq (negative : Bool) (m : Nat) (e : Int) :
    truncate negative m e = signed negative (m * 2 ^ e.toNat / 2 ^ (-e).toNat) := by
  unfold truncate fraction
  by_cases whole : 0 ≤ e
  · have none : (-e).toNat = 0 := by omega
    rw [if_pos whole, none]
    rfl
  · have none : e.toNat = 0 := by omega
    rw [if_neg whole, none, pow_zero, Nat.mul_one]
    rfl

theorem exceeds_zero (n : Int) (e : Int) :
    exceeds n (.finite false 0 e) = decide (n < 0) := by
  have unit : ∃ den : Nat, 0 < den ∧ fraction 0 e = (0, den) := by
    unfold fraction
    split
    · exact ⟨1, Nat.one_pos, by rw [Nat.zero_mul]⟩
    · exact ⟨_, Nat.two_pow_pos _, rfl⟩
  obtain ⟨den, pos, parts⟩ := unit
  rw [exceeds, parts]
  have positive : (0 : Int) < den := Int.natCast_pos.mpr pos
  exact decide_eq_decide.mpr
    ⟨fun below => neg_of_mul_neg_left below positive.le,
      fun below => mul_neg_of_neg_of_pos below positive⟩

end Binary64

/-! ## Exact rounding -/

theorem log2_mul_two_pow (pos : 0 < k) (j : Nat) : (k * 2 ^ j).log2 = k.log2 + j := by
  induction j with
  | zero => rw [pow_zero, Nat.mul_one, Nat.add_zero]
  | succ j ih =>
    have double : k * 2 ^ (j + 1) = 2 * (k * 2 ^ j) := by ring
    rw [double, Nat.log2_two_mul (Nat.mul_pos pos (Nat.two_pow_pos j)).ne', ih, Nat.add_assoc]

theorem repeat_shiftRightOne (k j : Nat) :
    j.repeat ExtendedMantissa.shiftRightOne ⟨k * 2 ^ j, false, false⟩ = ⟨k, false, false⟩ := by
  induction j generalizing k with
  | zero => simp [Nat.repeat]
  | succ j ih =>
    have double : k * 2 ^ (j + 1) = (k * 2) * 2 ^ j := by ring
    rw [Nat.repeat, double, ih]
    simp [ExtendedMantissa.shiftRightOne]

theorem Normal.targetExponent (h : Normal k t) {m : Nat} {e : Int} (bits : m.log2 + e = 52 + t) :
    Format.binary64.targetExponent (totalExponent m e) = t := by
  have least := h.least
  have bound : Format.binary64.minExponent = -1074 := rfl
  rw [Format.targetExponent, totalExponent, bound, mantissaBits_binary64]
  omega

theorem Normal.shift (h : Normal k t) (j : Nat) :
    shiftToTargetExponent .binary64 (k * 2 ^ j) (t - j) .exact = (⟨k, false, false⟩, t) := by
  have bits : ((k * 2 ^ j).log2 : Int) + (t - j) = 52 + t := by
    rw [log2_mul_two_pow h.pos, h.log2]
    omega
  have amount : (t - (t - j)).toNat = j := by omega
  rw [shiftToTargetExponent, h.targetExponent bits, shiftToExponent, amount]
  exact Prod.ext (repeat_shiftRightOne k j) (sub_add_cancel t j)

theorem Normal.round (h : Normal k t) (s : Sign) (j : Nat) :
    roundWithAccuracy .binary64 s (k * 2 ^ j) (t - j) .exact = .finite s k t h.pos := by
  have again := h.shift 0
  rw [pow_zero, Nat.mul_one, Nat.cast_zero, sub_zero] at again
  unfold roundWithAccuracy
  rw [h.shift j]
  dsimp only
  have same : ExtendedMantissa.roundedMantissa ⟨k, false, false⟩ = k := rfl
  rw [same, again]
  exact dif_neg h.pos.ne'

theorem Normal.round_mul (h : Normal k t) (s : Sign) {n j : Nat} (pos : 0 < n)
    (filled : n * 2 ^ j = k) : UnpackedFloat.round .binary64 s n (t + j) = .finite s k t h.pos := by
  have bits : (n.log2 : Int) + (t + j) = 52 + t := by
    have := log2_mul_two_pow pos j
    rw [filled, h.log2] at this
    omega
  have amount : (t + j - t).toNat = j := by omega
  have kept := h.round s 0
  rw [pow_zero, Nat.mul_one, Nat.cast_zero, sub_zero] at kept
  rw [UnpackedFloat.round, h.targetExponent bits, decreaseExponent, amount]
  dsimp only
  rw [Nat.shiftLeft_eq, filled, add_sub_cancel_right]
  exact kept

/-! ## Integers -/

theorem unpack_one : (Float.ofBits 0x3FF0000000000000).toModel.unpack
    = .finite .positive (2 ^ 52) (-52) (by decide) :=
  rfl

theorem toModel_ofNat {n : Nat} (small : n < 2 ^ 53) :
    (Float.ofNat n).toModel
      = (Float.Model.ofNat n).mul (Float.ofBits 0x3FF0000000000000).toModel := by
  have same : n.toUInt64.toNat = n := by
    rw [Nat.toUInt64_eq, UInt64.toNat_ofNat']
    omega
  change (Float.ofScientific n false 0).toModel = _
  unfold Float.ofScientific
  rw [dif_pos ⟨small, by decide⟩]
  change (Float.Model.ofNat n.toUInt64.toNat).mul _ = _
  rw [same]
  rfl

theorem toModel_ofNat_large {n : Nat} (large : ¬n < 2 ^ 53) :
    (Float.ofNat n).toModel = Float.Model.ofScientific n 0 := by
  change (Float.ofScientific n false 0).toModel = _
  unfold Float.ofScientific
  rw [dif_neg fun bounds => large bounds.1]
  rfl

theorem unsigned_ofNat (n : Nat) : Unsigned (Float.ofNat n).toModel.unpack := by
  by_cases small : n < 2 ^ 53
  · rw [toModel_ofNat small]
    refine (Unsigned.mul .binary64 ?_ ?_).unpack_pack
    · exact (unsigned_normalize .binary64 (Int.natCast_nonneg n) ..).unpack_pack
    · rw [unpack_one]
      rfl
  · rw [toModel_ofNat_large small]
    exact (unsigned_ofScientific .binary64 n 0).unpack_pack

theorem normalize_ofNat (spec : Format) {n : Nat} (pos : 0 < n) (e : Int) (s : Sign) :
    UnpackedFloat.normalize spec n e s = UnpackedFloat.round spec .positive n e := by
  have greater : compare (n : Int) 0 = .gt := Int.compare_eq_gt.mpr (Int.natCast_pos.mpr pos)
  rw [UnpackedFloat.normalize, greater]
  rfl

theorem Normal.unpack_ofNat_mul (h : Normal k t) {n j : Nat} (pos : 0 < n)
    (filled : n * 2 ^ j = k) (whole : t + j = 0) :
    (Float.ofNat n).toModel.unpack = .finite .positive k t h.pos := by
  have small : n < 2 ^ 53 := by
    refine Nat.lt_of_le_of_lt ?_ h.high
    exact filled ▸ Nat.le_mul_of_pos_right n (Nat.two_pow_pos j)
  have converted : (Float.Model.ofNat n).unpack = .finite .positive k t h.pos := by
    change UnpackedFloat.unpack _
      (UnpackedFloat.pack _ (UnpackedFloat.normalize _ n 0 .positive)) = _
    rw [normalize_ofNat .binary64 pos, ← whole, h.round_mul .positive pos filled, h.unpack_pack]
  rw [toModel_ofNat small]
  change UnpackedFloat.unpack _ (UnpackedFloat.pack _ (UnpackedFloat.mul _ _ _)) = _
  rw [converted, unpack_one, UnpackedFloat.mul]
  change UnpackedFloat.unpack _ (UnpackedFloat.pack _
    (roundWithAccuracy .binary64 .positive (k * 2 ^ 52) (t - (52 : Nat)) .exact)) = _
  rw [h.round, h.unpack_pack]

theorem ofScientific_whole (spec : Format) {m : Nat} (pos : 0 < m) :
    UnpackedFloat.ofScientific spec m 0 = roundWithAccuracy spec .positive
      (m <<< spec.mantissaBits) (-spec.mantissaBits) .exact := by
  have above : ¬(0 : Int) > 2 ^ spec.exponentBits := not_lt.mpr (by positivity)
  have below : ¬(0 : Int) < -((2 : Int) ^ spec.exponentBits + m.log2) :=
    not_lt.mpr (neg_nonpos.mpr (by positivity))
  rw [UnpackedFloat.ofScientific, dif_neg pos.ne', if_neg above, if_neg below, if_pos le_rfl,
    UnpackedFloat.mul]
  simp only [Int.toNat_zero, pow_zero, Nat.mul_one, Int.add_zero]
  rfl

theorem Normal.unpack_ofNat_shift (h : Normal k t) {j : Nat} (whole : t = j) (pos : 0 < j) :
    (Float.ofNat (k * 2 ^ j)).toModel.unpack = .finite .positive k t h.pos := by
  have large : ¬k * 2 ^ j < 2 ^ 53 := by
    have := Nat.mul_le_mul h.low (Nat.pow_le_pow_right Nat.two_pos pos)
    omega
  have mantissa : (k * 2 ^ j) <<< Format.binary64.mantissaBits = k * 2 ^ (j + 53) := by
    rw [mantissaBits_binary64, Nat.shiftLeft_eq, Nat.mul_assoc, ← pow_add]
  have exponent : -(Format.binary64.mantissaBits : Int) = t - (j + 53 : Nat) := by
    rw [mantissaBits_binary64]
    omega
  rw [toModel_ofNat_large large]
  change UnpackedFloat.unpack _ (UnpackedFloat.pack _ (UnpackedFloat.ofScientific _ _ _)) = _
  rw [ofScientific_whole .binary64 (Nat.mul_pos h.pos (Nat.two_pow_pos j)), mantissa, exponent,
    h.round, h.unpack_pack]

theorem Normal.unpack_ofNat (h : Normal k t) {n : Nat} (pos : 0 < n)
    (same : n * 2 ^ (-t).toNat = k * 2 ^ t.toNat) :
    (Float.ofNat n).toModel.unpack = .finite .positive k t h.pos := by
  by_cases below : t ≤ 0
  · have none : t.toNat = 0 := by omega
    rw [none, pow_zero, Nat.mul_one] at same
    exact h.unpack_ofNat_mul pos same (by omega)
  · have none : (-t).toNat = 0 := by omega
    rw [none, pow_zero, Nat.mul_one] at same
    rw [same]
    exact h.unpack_ofNat_shift (by omega) (by omega)

theorem normal_of_integerPart (form : Normal k t ∨ k < 2 ^ 52 ∧ t = -1074)
    (pos : 0 < k * 2 ^ t.toNat / 2 ^ (-t).toNat) : Normal k t := by
  obtain normal | ⟨small, least⟩ := form
  · exact normal
  · have reached := (Nat.div_pos_iff.mp pos).2
    have none : t.toNat = 0 := by omega
    rw [none, pow_zero, Nat.mul_one] at reached
    have := (Nat.pow_lt_pow_iff_right Nat.one_lt_two).mp (reached.trans_lt small)
    omega

/-- The integer part of a normal float is zero or has a normal form with the same exponent. -/
theorem Normal.integerPart (h : Normal k t) (pos : 0 < k * 2 ^ t.toNat / 2 ^ (-t).toNat) :
    ∃ m ≤ k, Normal m t ∧
      k * 2 ^ t.toNat / 2 ^ (-t).toNat * 2 ^ (-t).toNat = m * 2 ^ t.toNat := by
  by_cases whole : 0 ≤ t
  · have none : (-t).toNat = 0 := by omega
    refine ⟨k, le_rfl, h, ?_⟩
    rw [none, pow_zero, Nat.div_one, Nat.mul_one]
  · have none : t.toNat = 0 := by omega
    generalize (-t).toNat = j at pos ⊢
    rw [none, pow_zero, Nat.mul_one] at pos ⊢
    have below : k / 2 ^ j * 2 ^ j ≤ k := Nat.div_mul_le_self k (2 ^ j)
    have few : j ≤ 52 := by
      have reached : 2 ^ j ≤ k := (Nat.div_pos_iff.mp pos).2
      have := (Nat.pow_lt_pow_iff_right Nat.one_lt_two).mp (reached.trans_lt h.high)
      omega
    have parted : (2 : Nat) ^ 52 = 2 ^ (52 - j) * 2 ^ j := by
      rw [← pow_add, Nat.sub_add_cancel few]
    have filled : 2 ^ (52 - j) ≤ k / 2 ^ j :=
      (Nat.le_div_iff_mul_le (Nat.two_pow_pos j)).mpr (parted ▸ h.low)
    refine ⟨k / 2 ^ j * 2 ^ j, below, ⟨?_, below.trans_lt h.high, h.least, h.greatest⟩, ?_⟩
    · rw [parted]
      exact Nat.mul_le_mul_right _ filled
    · rw [Nat.mul_one]

end Chip8.Decimal
