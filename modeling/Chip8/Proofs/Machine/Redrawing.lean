import Chip8.Proofs.Machine.Drawing

/-! # Drawing twice

A sprite flips the pixels that it covers, so drawing it again restores the display. Each drawing
tells whether it turned a pixel off: the first turns off the lit pixels among those covered, the
second the ones that were dark.
-/

namespace Chip8

namespace Sprite

theorem xor_xor_cancel (display mask : Display) :
    (display.zipWith (· ^^^ ·) mask).zipWith (· ^^^ ·) mask = display := by
  refine Vector.ext fun k hk => ?_
  rw [Vector.getElem_zipWith, Vector.getElem_zipWith, UInt8.xor_assoc, UInt8.xor_self,
    UInt8.xor_zero]

theorem exists_testBit_iff (bits : UInt8) :
    (∃ column < 8, bits.toNat.testBit (7 - column) = true) ↔ bits ≠ 0 := by
  constructor
  · rintro ⟨column, -, set⟩ rfl
    simp at set
  · intro nonzero
    have positive : bits.toNat ≠ 0 := fun zero => nonzero (UInt8.toNat_inj.mp zero)
    obtain ⟨place, set⟩ := Nat.exists_testBit_of_ne_zero positive
    have power : 2 ^ place < 2 ^ 8 :=
      Nat.lt_of_le_of_lt (Nat.ge_two_pow_of_testBit set) bits.toNat_lt
    have within : place < 8 := (Nat.pow_lt_pow_iff_right (by decide)).mp power
    refine ⟨7 - place, by omega, ?_⟩
    rwa [Nat.sub_sub_self (by omega)]

variable {display : Display} {memory : Memory} {start x y height : Nat} (bus : OpenBus)
  (fits : height ≤ 15) (inside : start + height ≤ 4096)

include fits inside

theorem getElem_zipWith_mask_dots {k : Nat} (hk : k < 2048) :
    (display.zipWith (· ^^^ ·) (mask (dots bus memory start x y height)))[k] =
      if k ∈ litPlaces memory start x y height then display[k] ^^^ 1 else display[k] := by
  rw [Vector.getElem_zipWith, getElem_mask_dots bus fits inside hk]
  split
  · rfl
  · exact UInt8.xor_zero

theorem collides_zipWith_iff
    (pixels : ∀ (k : Nat) (hk : k < 2048), display[k] = 0 ∨ display[k] = 1) :
    collides (display.zipWith (· ^^^ ·) (mask (dots bus memory start x y height)))
        (mask (dots bus memory start x y height)) = true ↔
      ∃ k ∈ litPlaces memory start x y height, display[k]? = some 0 := by
  have flipped (k : Nat) (hk : k < 2048) :
      (display.zipWith (· ^^^ ·) (mask (dots bus memory start x y height)))[k] = 0 ∨
        (display.zipWith (· ^^^ ·) (mask (dots bus memory start x y height)))[k] = 1 := by
    rw [getElem_zipWith_mask_dots bus fits inside hk]
    split
    · rcases pixels k hk with dark | lit
      · exact .inr (by rw [dark]; rfl)
      · exact .inl (by rw [lit]; rfl)
    · exact pixels k hk
  rw [collides_iff bus fits inside flipped]
  refine exists_congr fun k => and_congr_right fun listed => ?_
  have hk := lt_of_mem_litPlaces listed
  rw [Vector.getElem?_eq_getElem hk, Vector.getElem?_eq_getElem hk,
    getElem_zipWith_mask_dots bus fits inside hk, if_pos listed, Option.some.injEq,
    Option.some.injEq]
  exact UInt8.xor_left_inj (a := display[k]) (b := 0) 1

end Sprite

namespace Machine

open Sprite

/-- Pixel `k` lies under a set bit of the sprite of `height` rows at the index register, drawn at
`(VX, VY)` around the edges of the screen. -/
def Covers (m : Machine) (x y : Fin 16) (height k : Nat) : Prop :=
  ∃ row < height, ∃ column < 8,
    (∃ bits, m.memory[m.i.toNat + row]? = some bits ∧ bits.toNat.testBit (7 - column) = true) ∧
      k = ((m.getV x).toNat + column) % 64 + 64 * (((m.getV y).toNat + row) % 32)

theorem covers_iff {m : Machine} {x y : Fin 16} {height k : Nat} :
    m.Covers x y height k ↔
      k ∈ litPlaces m.memory m.i.toNat ((m.getV x).toNat % 64) ((m.getV y).toNat % 32) height := by
  have lies (row column : Nat) :
      place ((m.getV x).toNat % 64) ((m.getV y).toNat % 32) column row =
        ((m.getV x).toNat + column) % 64 + 64 * (((m.getV y).toNat + row) % 32) := by
    simp only [place, screenWidth, screenHeight]
    omega
  rw [mem_litPlaces, Covers]
  constructor
  · rintro ⟨row, hrow, column, hcolumn, set, rfl⟩
    exact ⟨(row, column), mem_cells.mpr ⟨hrow, hcolumn⟩, (Option.any_eq_true _ _).mpr set,
      lies row column⟩
  · rintro ⟨⟨row, column⟩, cell, set, rfl⟩
    obtain ⟨hrow, hcolumn⟩ := mem_cells.mp cell
    exact ⟨row, hrow, column, hcolumn, (Option.any_eq_true _ _).mp set, lies row column⟩

theorem exists_covers_iff {m : Machine} {x y : Fin 16} {height : Nat} :
    (∃ k, m.Covers x y height k) ↔
      ∃ row < height, ∃ bits, m.memory[m.i.toNat + row]? = some bits ∧ bits ≠ 0 := by
  constructor
  · rintro ⟨k, row, hrow, column, hcolumn, ⟨bits, held, set⟩, -⟩
    exact ⟨row, hrow, bits, held, (exists_testBit_iff bits).mp ⟨column, hcolumn, set⟩⟩
  · rintro ⟨row, hrow, bits, held, nonzero⟩
    obtain ⟨column, hcolumn, set⟩ := (exists_testBit_iff bits).mpr nonzero
    exact ⟨_, row, hrow, column, hcolumn, ⟨bits, held, set⟩, rfl⟩

variable {m : Machine} {w : Int} {x y n : Fin 16}

theorem execute_drw
    (word : Instruction.lowWord w = 0xD000 + 0x100 * x.val + 0x10 * y.val + n.val)
    (inside : m.i.toNat + n.val ≤ 4096) :
    m.execute w = .ok (m.flipBy (mask (dots m.bus m.memory m.i.toNat
      ((m.getV x).toNat % 64) ((m.getV y).toNat % 32) n))) := by
  obtain ⟨ofX, ofY, ofN⟩ := operands_wordOf (d := 0xD) word
  refine m.execute_eq_ok_iff.mpr ⟨.drw, ?_, ?_, ?_⟩
  · rw [word]
    exact ⟨by show _ / 0x1000 = 0xD; omega, Nat.mod_one _⟩
  · show Memory.range? m.i.toNat (Operands.ofWord (wordOf w)).n = none
    rw [ofN]
    exact Memory.range?_eq_none_iff.mpr inside
  · show _ = m.drawSprite m.bus (Operands.ofWord (wordOf w))
    rw [drawSprite_eq, spriteMask, ofX, ofY, ofN]

theorem getV_flipBy (mask : Display) (r : Fin 16) :
    (m.flipBy mask).getV r =
      if 15 = r then if collides m.display mask then 1 else 0 else m.getV r :=
  getV_setV _ 15 r _

theorem flag_flipBy (mask : Display) :
    (m.flipBy mask).getV 15 = 1 ↔ collides m.display mask = true := by
  rw [getV_flipBy, if_pos rfl]
  cases collides m.display mask <;> decide

/-- Drawing a sprite again restores the display, unless the flag gives its position. The flag tells
after the first drawing that the sprite covers a lit pixel, and after the second that it covered a
dark one. -/
theorem execute_sprite_twice (m : Machine)
    (pixels : ∀ (k : Nat) (hk : k < 2048), m.display[k] = 0 ∨ m.display[k] = 1)
    {w : Int} {x y n : Fin 16} (hx : x ≠ 15) (hy : y ≠ 15)
    (word : Instruction.lowWord w = 0xD000 + 0x100 * x.val + 0x10 * y.val + n.val)
    (inside : m.i.toNat + n.val ≤ 4096) :
    ∃ m₁ m₂, m.execute w = .ok m₁ ∧ m₁.execute w = .ok m₂ ∧ m₂.display = m.display ∧
      (m₁.getV 15 = 1 ↔ ∃ k, m.Covers x y n k ∧ m.display[k]? = some 1) ∧
      (m₂.getV 15 = 1 ↔ ∃ k, m.Covers x y n k ∧ m.display[k]? = some 0) ∧
      (m₁.getV 15 = 1 ∨ m₂.getV 15 = 1 ↔
        ∃ row < n.val, ∃ bits, m.memory[m.i.toNat + row]? = some bits ∧ bits ≠ 0) := by
  have fits : n.val ≤ 15 := Nat.le_of_lt_succ n.isLt
  generalize drawn : mask (dots m.bus m.memory m.i.toNat
    ((m.getV x).toNat % 64) ((m.getV y).toNat % 32) n) = sprite
  have first : m.execute w = .ok (m.flipBy sprite) := drawn ▸ execute_drw word inside
  -- Neither memory nor the position has changed, so the second sprite is the first one.
  have second : (m.flipBy sprite).execute w = .ok ((m.flipBy sprite).flipBy sprite) := by
    have again := execute_drw (m := m.flipBy sprite) word inside
    rw [getV_flipBy, if_neg hx.symm, getV_flipBy, if_neg hy.symm] at again
    exact again.trans (congrArg (fun mask => Except.ok ((m.flipBy sprite).flipBy mask)) drawn)
  have lit : (m.flipBy sprite).getV 15 = 1 ↔ ∃ k, m.Covers x y n k ∧ m.display[k]? = some 1 := by
    rw [flag_flipBy, ← drawn, collides_iff m.bus fits inside pixels]
    simp only [covers_iff]
  have dark : ((m.flipBy sprite).flipBy sprite).getV 15 = 1 ↔
      ∃ k, m.Covers x y n k ∧ m.display[k]? = some 0 := by
    rw [flag_flipBy, ← drawn]
    refine (collides_zipWith_iff m.bus fits inside pixels).trans ?_
    simp only [covers_iff]
  refine ⟨_, _, first, second, xor_xor_cancel _ _, lit, dark, ?_⟩
  rw [lit, dark, ← exists_covers_iff, ← exists_or]
  refine exists_congr fun k => ?_
  rw [← and_or_left, and_iff_left_iff_imp]
  intro covers
  have hk := lt_of_mem_litPlaces (covers_iff.mp covers)
  rw [Vector.getElem?_eq_getElem hk, Option.some.injEq, Option.some.injEq]
  exact (pixels k hk).symm

/-- A row of two pixels at the lower right corner. The one in the corner is lit and the one that
wraps around is dark, so both drawings turn a pixel off. -/
theorem execute_sprite_twice_corner :
    let blank : Machine := { rng := ⟨0, 0⟩ }
    let m : Machine := { (blank.setV 0 63).setV 1 31 with
      memory := (Vector.replicate 4096 0).setIfInBounds 0 0xC0
      display := (Vector.replicate 2048 0).setIfInBounds 2047 1 }
    ∃ m₁ m₂, m.execute 0xD011 = .ok m₁ ∧ m₁.execute 0xD011 = .ok m₂ ∧
      m₂.display = m.display ∧ m₁.getV 15 = 1 ∧ m₂.getV 15 = 1 := by
  intro blank m
  have pixels (k : Nat) (hk : k < 2048) : m.display[k] = 0 ∨ m.display[k] = 1 := by
    show ((Vector.replicate 2048 0).setIfInBounds 2047 1)[k] = 0 ∨
      ((Vector.replicate 2048 0).setIfInBounds 2047 1)[k] = 1
    rw [Vector.getElem_setIfInBounds]
    split
    · exact .inr rfl
    · exact .inl (Vector.getElem_replicate hk)
  obtain ⟨m₁, m₂, first, second, restored, lit, dark, -⟩ :=
    m.execute_sprite_twice pixels (w := 0xD011) (x := 0) (y := 1) (n := 1) (by decide) (by decide)
      rfl (by decide)
  have row : m.memory[0]? = some 0xC0 := by decide +kernel
  have corner : m.Covers 0 1 1 2047 := ⟨0, by decide, 0, by decide, ⟨0xC0, row, rfl⟩, by decide⟩
  have wrapped : m.Covers 0 1 1 1984 := ⟨0, by decide, 1, by decide, ⟨0xC0, row, rfl⟩, by decide⟩
  exact ⟨m₁, m₂, first, second, restored, lit.mpr ⟨2047, corner, by decide +kernel⟩,
    dark.mpr ⟨1984, wrapped, by decide +kernel⟩⟩

end Machine

end Chip8
