import Mathlib.Data.List.Nodup
import Mathlib.Data.List.ProdSigma
import Chip8.Proofs.Machine.Bounds

/-! # Drawing pixel by pixel

A sprite is drawn at once: its pixels are laid onto an empty screen, lanes that the sprite does not
have included, and the display is flipped by the result. A loop that flips one pixel after the
other leaves the same display, and it turns off a lit pixel where the two screens meet.
-/

namespace Chip8

/-- A display that is drawn on, and whether a lit pixel of it was turned off. -/
structure Canvas where
  display : Display
  erased : Bool

namespace Canvas

variable (c : Canvas)

def isLit (k : Nat) : Bool := c.display[k]? == some 1

def flip (k : Nat) : Canvas where
  display := c.display.setIfInBounds k (if c.isLit k then 0 else 1)
  erased := c.erased || c.isLit k

/-- Draws the rows of a sprite from `(x, y)` on, whose bytes begin at `start`. In each row the bits
are taken from left to right. -/
def drawRows (memory : Memory) (start x y height : Nat) : Canvas :=
  (List.range height).foldl (fun c row =>
    (List.range 8).foldl (fun c column =>
      if memory[start + row]?.any fun bits => bits.toNat.testBit (7 - column) then
        c.flip ((x + column) % 64 + 64 * ((y + row) % 32))
      else c) c) c

end Canvas

namespace Sprite

variable {memory : Memory} {start x y height : Nat}

/-! ## Cells -/

def cells (height : Nat) : List (Nat × Nat) := List.range height ×ˢ List.range spriteWidth

def isSet (memory : Memory) (start : Nat) (cell : Nat × Nat) : Bool :=
  memory[start + cell.1]?.any fun bits => bits.toNat.testBit (7 - cell.2)

def litPlaces (memory : Memory) (start x y height : Nat) : List Nat :=
  ((cells height).filter (isSet memory start)).map fun cell => place x y cell.2 cell.1

theorem mem_cells {cell : Nat × Nat} : cell ∈ cells height ↔ cell.1 < height ∧ cell.2 < 8 := by
  obtain ⟨row, column⟩ := cell
  rw [cells, List.mem_product, List.mem_range, List.mem_range]

theorem mem_litPlaces {k : Nat} :
    k ∈ litPlaces memory start x y height ↔
      ∃ cell ∈ cells height, isSet memory start cell = true ∧ place x y cell.2 cell.1 = k := by
  simp only [litPlaces, List.mem_map, List.mem_filter, and_assoc]

theorem lt_of_mem_litPlaces {k : Nat} (h : k ∈ litPlaces memory start x y height) : k < 2048 := by
  obtain ⟨cell, -, -, rfl⟩ := mem_litPlaces.mp h
  exact place_lt x y cell.2 cell.1

theorem nodup_places (fits : height ≤ 15) :
    ((cells height).map fun cell => place x y cell.2 cell.1).Nodup := by
  refine (List.nodup_range.product List.nodup_range).map_on fun a ha b hb same => ?_
  have ha := mem_cells.mp ha
  have hb := mem_cells.mp hb
  obtain ⟨columns, rows⟩ := place_inj ha.2 hb.2 (by omega) (by omega) same
  exact Prod.ext rows columns

theorem nodup_litPlaces (fits : height ≤ 15) : (litPlaces memory start x y height).Nodup :=
  (nodup_places fits).sublist (List.filter_sublist.map _)

/-! ## Masks -/

theorem getElem_mask_of_mem {dots : List Dot} (apart : (dots.map Dot.index).Nodup) {dot : Dot}
    (h : dot ∈ dots) (hk : dot.index < 2048) : (mask dots)[dot.index] = dot.lit := by
  unfold mask
  generalize Vector.replicate 2048 (0 : UInt8) = screen
  induction dots generalizing screen with
  | nil => cases h
  | cons first rest ih =>
    rw [List.map_cons, List.nodup_cons] at apart
    rw [List.foldl_cons]
    rcases List.mem_cons.mp h with rfl | later
    · have passed : ∀ d ∈ rest, d.index ≠ dot.index := fun d hd same =>
        apart.1 (List.mem_map.mpr ⟨d, hd, same⟩)
      rw [getElem_foldl_of_forall_ne hk passed, Vector.getElem_setIfInBounds_self]
    · exact ih apart.2 later _

theorem bitAt_eq (bits : UInt8) {column : Nat} (h : column < 8) :
    bitAt bits column = if bits.toNat.testBit (7 - column) then 1 else 0 := by
  have shift : (UInt8.ofNat (7 - column)).toNat % 8 = 7 - column := by
    rw [UInt8.toNat_ofNat']
    omega
  have bit : (bitAt bits column).toNat = bits.toNat / 2 ^ (7 - column) % 2 := by
    rw [bitAt, UInt8.toNat_and, UInt8.toNat_shiftRight, show spriteWidth - 1 = 7 from rfl, shift,
      Nat.shiftRight_eq_div_pow]
    exact Nat.and_one_is_mod _
  apply UInt8.toNat_inj.mp
  rw [bit, Nat.testBit_eq_decide_div_mod_eq]
  rcases Nat.mod_two_eq_zero_or_one (bits.toNat / 2 ^ (7 - column)) with even | odd
  · rw [even]
    rfl
  · rw [odd]
    rfl

/-- The pixel of a cell, which is dark if its row is past the height of the sprite. -/
def dotAt (bus : OpenBus) (memory : Memory) (start x y height : Nat) (cell : Nat × Nat) : Dot where
  index := place x y cell.2 cell.1
  lit := if cell.1 < height then bitAt (memory.read bus.memory (start + cell.1)) cell.2 else 0
  selected := cell.1 < height

theorem dots_eq_map_cells (bus : OpenBus) :
    dots bus memory start x y height =
      (cells maxSpriteHeight).map (dotAt bus memory start x y height) := by
  have rows (row : Nat) : rowDots x y row (memory.read bus.memory (start + row)) (row < height) =
      (List.range spriteWidth).map fun column =>
        dotAt bus memory start x y height (row, column) := by
    simp only [rowDots, dotAt, decide_eq_true_eq]
  simp only [dots, rows, cells, SProd.sprod, List.product, List.map_flatMap, List.map_map]
  rfl

theorem lit_dotAt (bus : OpenBus) (inside : start + height ≤ 4096) {cell : Nat × Nat}
    (h : cell.2 < 8) :
    (dotAt bus memory start x y height cell).lit =
      if cell.1 < height ∧ isSet memory start cell then 1 else 0 := by
  by_cases row : cell.1 < height
  · have held : start + cell.1 < 4096 := by omega
    rw [dotAt, if_pos row, Memory.read_of_lt held, bitAt_eq _ h, isSet,
      Vector.getElem?_eq_getElem held]
    simp [row]
  · rw [dotAt, if_neg row, if_neg fun both => row both.1]

theorem place_mem_litPlaces (fits : height ≤ 15) {cell : Nat × Nat}
    (lane : cell ∈ cells maxSpriteHeight) :
    place x y cell.2 cell.1 ∈ litPlaces memory start x y height ↔
      cell.1 < height ∧ isSet memory start cell := by
  rw [mem_litPlaces]
  obtain ⟨row, column⟩ := mem_cells.mp lane
  constructor
  · rintro ⟨other, listed, set, same⟩
    obtain ⟨row', column'⟩ := mem_cells.mp listed
    obtain ⟨columns, rows⟩ := place_inj column' column (by omega) row same
    obtain rfl : other = cell := Prod.ext rows columns
    exact ⟨row', set⟩
  · rintro ⟨within, set⟩
    exact ⟨cell, mem_cells.mpr ⟨within, column⟩, set, rfl⟩

theorem getElem_mask_dots (bus : OpenBus) (fits : height ≤ 15) (inside : start + height ≤ 4096)
    {k : Nat} (hk : k < 2048) :
    (mask (dots bus memory start x y height))[k] =
      if k ∈ litPlaces memory start x y height then 1 else 0 := by
  rw [dots_eq_map_cells]
  by_cases met : ∃ cell ∈ cells maxSpriteHeight, place x y cell.2 cell.1 = k
  · obtain ⟨cell, lane, rfl⟩ := met
    have apart : (((cells maxSpriteHeight).map (dotAt bus memory start x y height)).map
        Dot.index).Nodup := by
      rw [List.map_map]
      exact nodup_places (Nat.le_refl _)
    have dot := getElem_mask_of_mem apart (List.mem_map_of_mem lane) hk
    refine dot.trans ?_
    simp only [lit_dotAt bus inside (mem_cells.mp lane).2, place_mem_litPlaces fits lane]
  · have unlit : k ∉ litPlaces memory start x y height := by
      rw [mem_litPlaces]
      rintro ⟨cell, listed, -, place⟩
      have row := (mem_cells.mp listed).1
      exact met ⟨cell, mem_cells.mpr ⟨Nat.lt_of_lt_of_le row fits, (mem_cells.mp listed).2⟩, place⟩
    have passed : ∀ dot ∈ (cells maxSpriteHeight).map (dotAt bus memory start x y height),
        dot.index ≠ k := by
      intro dot hdot index
      obtain ⟨cell, lane, rfl⟩ := List.mem_map.mp hdot
      exact met ⟨cell, lane, index⟩
    rw [if_neg unlit, mask, getElem_foldl_of_forall_ne hk passed, Vector.getElem_replicate]

end Sprite

/-! ## The loop -/

namespace Canvas

open Sprite

variable {c : Canvas} {memory : Memory} {start x y height : Nat}

/-- The loop flips the places of the set bits. -/
theorem drawRows_eq_foldl_flip :
    c.drawRows memory start x y height = (litPlaces memory start x y height).foldl flip c := by
  rw [litPlaces, List.foldl_map, List.foldl_filter]
  simp only [cells, SProd.sprod, List.product, List.foldl_flatMap, List.foldl_map]
  have place (column row : Nat) : place x y column row =
      (x + column) % 64 + 64 * ((y + row) % 32) := by
    rw [Sprite.place, Nat.mul_comm]
  simp only [place]
  rfl

theorem isLit_flip {k k' : Nat} (h : k ≠ k') : (c.flip k).isLit k' = c.isLit k' := by
  rw [isLit, flip, Vector.getElem?_setIfInBounds_ne h]
  rfl

theorem isLit_iff {k : Nat} (hk : k < 2048) : c.isLit k = true ↔ c.display[k] = 1 := by
  rw [isLit, Vector.getElem?_eq_getElem hk, beq_iff_eq, Option.some.injEq]

theorem erased_foldl_flip {places : List Nat} (apart : places.Nodup) :
    (places.foldl flip c).erased = true ↔ c.erased = true ∨ ∃ k ∈ places, c.isLit k = true := by
  induction places generalizing c with
  | nil => simp
  | cons k rest ih =>
    rw [List.nodup_cons] at apart
    have others : (∃ k' ∈ rest, (c.flip k).isLit k' = true) ↔ ∃ k' ∈ rest, c.isLit k' = true :=
      exists_congr fun k' => and_congr_right fun later => by
        rw [isLit_flip (ne_of_mem_of_not_mem later apart.1).symm]
    rw [List.foldl_cons, ih apart.2, others, flip, Bool.or_eq_true, or_assoc]
    simp only [List.mem_cons, exists_eq_or_imp]

theorem getElem_display_foldl_flip {places : List Nat} (apart : places.Nodup) {k : Nat}
    (hk : k < 2048) :
    (places.foldl flip c).display[k] =
      if k ∈ places then if c.isLit k then 0 else 1 else c.display[k] := by
  induction places generalizing c with
  | nil => rfl
  | cons k₀ rest ih =>
    rw [List.nodup_cons] at apart
    rw [List.foldl_cons, ih apart.2]
    by_cases same : k₀ = k
    · subst same
      rw [if_neg apart.1, if_pos List.mem_cons_self]
      exact Vector.getElem_setIfInBounds_self hk
    · have other : (c.flip k₀).display[k] = c.display[k] :=
        Vector.getElem_setIfInBounds_ne hk same
      rw [isLit_flip same, other]
      simp only [List.mem_cons, Ne.symm same, false_or]

end Canvas

/-! ## Both drawings -/

namespace Sprite

variable {display : Display} {memory : Memory} {start x y height : Nat} (bus : OpenBus)
  (fits : height ≤ 15) (inside : start + height ≤ 4096)
  (pixels : ∀ (k : Nat) (hk : k < 2048), display[k] = 0 ∨ display[k] = 1)

include fits inside pixels

theorem zipWith_mask_dots :
    display.zipWith (· ^^^ ·) (mask (dots bus memory start x y height)) =
      ((Canvas.mk display false).drawRows memory start x y height).display := by
  refine Vector.ext fun k hk => ?_
  rw [Vector.getElem_zipWith, getElem_mask_dots bus fits inside hk, Canvas.drawRows_eq_foldl_flip,
    Canvas.getElem_display_foldl_flip (nodup_litPlaces fits) hk]
  simp only [Canvas.isLit_iff hk]
  split
  · rcases pixels k hk with dark | lit
    · rw [dark]
      rfl
    · rw [lit]
      rfl
  · exact UInt8.xor_zero

theorem collides_iff :
    collides display (mask (dots bus memory start x y height)) = true ↔
      ∃ k ∈ litPlaces memory start x y height, display[k]? = some 1 := by
  have hits (k : Nat) (hk : k < 2048) :
      display[k] &&& (mask (dots bus memory start x y height))[k] = 1 ↔
        k ∈ litPlaces memory start x y height ∧ display[k]? = some 1 := by
    rw [getElem_mask_dots bus fits inside hk, Vector.getElem?_eq_getElem hk, Option.some.injEq]
    split
    · next listed => rcases pixels k hk with dark | lit <;> simp [*]
    · next absent => simp [absent]
  rw [collides, Vector.any_eq_true]
  simp only [Vector.getElem_zip, beq_iff_eq, hits]
  constructor
  · rintro ⟨k, -, hit⟩
    exact ⟨k, hit⟩
  · rintro ⟨k, listed, lit⟩
    exact ⟨k, lt_of_mem_litPlaces listed, listed, lit⟩

theorem collides_mask_dots :
    collides display (mask (dots bus memory start x y height)) =
      ((Canvas.mk display false).drawRows memory start x y height).erased := by
  rw [Bool.eq_iff_iff, Canvas.drawRows_eq_foldl_flip,
    Canvas.erased_foldl_flip (nodup_litPlaces fits), collides_iff bus fits inside pixels]
  simp only [Canvas.isLit, beq_iff_eq, Bool.false_eq_true, false_or]

end Sprite

namespace Machine

open Sprite

/-- Drawing a sprite is drawing it pixel by pixel. The position is read before the flag is
written, and nothing else changes. -/
theorem execute_sprite (m : Machine)
    (pixels : ∀ (k : Nat) (hk : k < 2048), m.display[k] = 0 ∨ m.display[k] = 1)
    {w : Int} {x y n : Fin 16}
    (word : Instruction.lowWord w = 0xD000 + 0x100 * x.val + 0x10 * y.val + n.val)
    (inside : m.i.toNat + n.val ≤ 4096) :
    let drawn := (Canvas.mk m.display false).drawRows m.memory m.i.toNat
      ((m.getV x).toNat % 64) ((m.getV y).toNat % 32) n
    m.execute w = .ok { m with
      display := drawn.display
      draw := true
      v := (m.setV 15 (if drawn.erased then 1 else 0)).v
      pc := m.pc + 2 } := by
  intro drawn
  have fits : n.val ≤ 15 := Nat.le_of_lt_succ n.isLt
  obtain ⟨ofX, ofY, ofN⟩ : (Operands.ofWord (wordOf w)).x = x ∧
      (Operands.ofWord (wordOf w)).y = y ∧ (Operands.ofWord (wordOf w)).n = n := by
    simp only [Fin.ext_iff, Operands.x_ofWord, Operands.y_ofWord, Operands.n_ofWord, toNat_wordOf,
      word]
    omega
  refine m.execute_eq_ok_iff.mpr ⟨.drw, ?_, ?_, ?_⟩
  · rw [word]
    exact ⟨by show _ / 0x1000 = 0xD; omega, Nat.mod_one _⟩
  · show Memory.range? m.i.toNat (Operands.ofWord (wordOf w)).n = none
    rw [ofN]
    exact Memory.range?_eq_none_iff.mpr inside
  · show _ = m.drawSprite m.bus (Operands.ofWord (wordOf w))
    rw [drawSprite_eq, spriteMask, ofX, ofY, ofN, flipBy,
      zipWith_mask_dots m.bus fits inside pixels, collides_mask_dots m.bus fits inside pixels]
    rfl

/-- A sprite of two rows in the lower right corner, at a column held by the flag itself. It wraps
around both edges and turns the corner's pixel off. -/
theorem execute_sprite_corner :
    let m : Machine := { (fresh ⟨0, 0⟩ true).setV 15 126 |>.setV 1 31 with
      display := (Vector.replicate 2048 0).setIfInBounds 2047 1 }
    ∃ m', m.execute 0xDF12 = .ok m' ∧ m'.getV 15 = 1 ∧ m'.display[2047]? = some 0 ∧
      m'.display[1]? = some 1 := by
  intro m
  have pixels (k : Nat) (hk : k < 2048) : m.display[k] = 0 ∨ m.display[k] = 1 := by
    show ((Vector.replicate 2048 0).setIfInBounds 2047 1)[k] = 0 ∨
      ((Vector.replicate 2048 0).setIfInBounds 2047 1)[k] = 1
    rw [Vector.getElem_setIfInBounds]
    split
    · exact .inr rfl
    · exact .inl (Vector.getElem_replicate hk)
  have inside : m.i.toNat + (2 : Fin 16).val ≤ 4096 := by decide
  have drawn := m.execute_sprite pixels (w := 0xDF12) (x := 15) (y := 1) (n := 2) rfl inside
  exact ⟨_, drawn, by decide +kernel⟩

end Machine

end Chip8
