import Mathlib.Tactic.Ring
import Chip8.Picture
import Chip8.Proofs.Frame
import Chip8.Time.Exact

/-! # Scaled pictures

A picture of a frame at a scale shows each pixel as a square with sides of that many pixels, so
the pixel in row `r` and column `c` shows the one at column `c / scale` of row `r / scale`. In two
different colours it shows which pixels are lit and nothing else. No picture is made of anything
but a frame, at a scale below one, or with more bytes than there is room for.
-/

namespace Chip8

/-! ## Colours -/

/-- The components of a colour are bytes. -/
def IsColour (c : Int × Int × Int) : Prop :=
  (0 ≤ c.1 ∧ c.1 ≤ 255) ∧ (0 ≤ c.2.1 ∧ c.2.1 ≤ 255) ∧ 0 ≤ c.2.2 ∧ c.2.2 ≤ 255

namespace Colour

def components (c : Colour) : Int × Int × Int := (c.red.toNat, c.green.toNat, c.blue.toNat)

theorem exists_component {n : Int} (low : 0 ≤ n) (high : n ≤ 255) :
    ∃ byte, ofComponents.component n = .ok byte ∧ (byte.toNat : Int) = n := by
  refine ⟨UInt8.ofInt n, if_pos ⟨low, by omega⟩, ?_⟩
  rw [UInt8.ofInt, UInt8.toNat_ofNat']
  omega

theorem exists_ofComponents {c : Int × Int × Int} (h : IsColour c) :
    ∃ colour, ofComponents c.1 c.2.1 c.2.2 = .ok colour ∧ colour.components = c := by
  obtain ⟨⟨low, high⟩, ⟨low', high'⟩, low'', high''⟩ := h
  obtain ⟨red, made, eq⟩ := exists_component low high
  obtain ⟨green, made', eq'⟩ := exists_component low' high'
  obtain ⟨blue, made'', eq''⟩ := exists_component low'' high''
  refine ⟨⟨red, green, blue⟩, ?_, ?_⟩
  · simp only [ofComponents, made, made', made'', bind, Except.bind, pure, Except.pure]
  · simp only [components, eq, eq', eq'']

end Colour

theorem ColourScheme.exists_ofComponents {on off : Int × Int × Int} (h : IsColour on)
    (h' : IsColour off) : ∃ scheme, ofComponents on off = .ok scheme ∧
      scheme.on.components = on ∧ scheme.off.components = off := by
  obtain ⟨lit, made, eq⟩ := Colour.exists_ofComponents h
  obtain ⟨dark, made', eq'⟩ := Colour.exists_ofComponents h'
  refine ⟨⟨lit, dark⟩, ?_, eq, eq'⟩
  simp only [ofComponents, made, made', bind, Except.bind, pure, Except.pure]

namespace Picture

/-! ## Squares of pixels -/

section

variable {α : Type} {count : Nat}

theorem size_stretch (xs : Array α) : (stretch count xs).size = xs.size * count := by
  rw [← Array.length_toList, stretch, Array.toList_flatMap, List.length_flatMap]
  simp [List.map_const']

theorem mem_of_mem_stretch {xs : Array α} {a : α} (h : a ∈ stretch count xs) : a ∈ xs := by
  obtain ⟨b, mem, copy⟩ := Array.mem_flatMap.mp h
  exact Array.eq_of_mem_replicate copy ▸ mem

theorem getElem?_stretch (pos : 0 < count) (xs : Array α) (i : Nat) :
    (stretch count xs)[i]? = xs[i / count]? := by
  have within : i % count < count := Nat.mod_lt i pos
  have block := getElem?_flatMap_of_length xs.toList (List.replicate count) (by simp) within
    (i / count)
  rw [Nat.div_add_mod] at block
  rw [← Array.getElem?_toList, ← Array.getElem?_toList, stretch, Array.toList_flatMap]
  simp only [Array.toList_replicate, block, List.getElem?_replicate, if_pos within,
    Option.bind_fun_some]

end

/-- Each value becomes a square of pixels, in the colour for zero or in the other one. -/
structure Upscales {α : Type} [Zero α] [DecidableEq α] (v : Values α) (scale : Nat)
    (on off : Int × Int × Int) (p : Picture) : Prop where
  height : p.height = 32 * scale
  width : p.width = 64 * scale
  rows : p.rows.size = 32 * scale
  columns : ∀ pixels ∈ p.rows, pixels.size = 64 * scale
  pixel : ∀ (r : Fin (32 * scale)) (c : Fin (64 * scale)),
    (p.pixel? r c).map Colour.components =
      some (if v.get c.divNat r.divNat = 0 then off else on)

section

variable {f g : Frame} {scale : Nat} {scheme : ColourScheme} {pixels : Array Colour}

theorem pixel?_ofFrame (f : Frame) (scheme : ColourScheme) (r : Fin (32 * scale))
    (c : Fin (64 * scale)) : (ofFrame f scale scheme).pixel? r c =
      some (if f.pixel c.divNat r.divNat then scheme.on else scheme.off) := by
  have pos : 0 < scale := Nat.pos_of_mul_pos_left r.pos
  have row : r.val / scale < 32 := r.divNat.isLt
  have column : c.val / scale < 64 := c.divNat.isLt
  simp only [pixel?, ofFrame, getElem?_stretch pos, Array.getElem?_ofFn, dif_pos row,
    dif_pos column, Option.bind_some]
  rfl

theorem ofFrame_inj (pos : 0 < scale) (ne : scheme.on ≠ scheme.off) :
    ofFrame f scale scheme = ofFrame g scale scheme ↔ f = g := by
  refine ⟨fun same => Frame.eq_of_pixel fun x y => ?_, fun same => same ▸ rfl⟩
  have shown := congrArg (pixel? · (Fin.mkDivMod y (⟨0, pos⟩ : Fin scale))
    (Fin.mkDivMod x (⟨0, pos⟩ : Fin scale))) same
  simp only [pixel?_ofFrame, Fin.divNat_mkDivMod, Option.some.injEq] at shown
  cases lit : f.pixel x y <;> cases lit' : g.pixel x y <;> rw [lit, lit'] at shown
  · exact (ne shown.symm).elim
  · exact (ne shown).elim

theorem size_of_mem_rows (h : pixels ∈ (ofFrame f scale scheme).rows) :
    pixels.size = 64 * scale := by
  simp only [ofFrame] at h
  have row := mem_of_mem_stretch h
  obtain ⟨y, rfl⟩ := Array.mem_ofFn.mp row
  rw [size_stretch, Array.size_ofFn]

theorem upscales_ofFrame {α : Type} [Zero α] [DecidableEq α] (v : Values α) (scale : Nat)
    (scheme : ColourScheme) : (ofFrame v.frame scale scheme).Upscales v scale
      scheme.on.components scheme.off.components where
  height := rfl
  width := rfl
  rows := by rw [ofFrame, size_stretch, Array.size_ofFn]
  columns _ := size_of_mem_rows
  pixel r c := by
    rw [pixel?_ofFrame, Values.pixel_frame, Values.isLit, Option.map_some]
    by_cases dark : v.get c.divNat r.divNat = 0 <;> simp [dark]

end

/-! ## Scales -/

theorem bytes_eq (scale : Int) : bytes scale = 6144 * (scale * scale) := by
  unfold bytes
  ring

theorem checkScale_eq_ok_iff {room scale : Nat} (pos : 1 ≤ scale) :
    checkScale room scale = .ok () ↔ fits64 (bytes scale) = true ∧ bytes scale ≤ room := by
  by_cases counted : fits64 (bytes scale) = true
  · have below := (fits64_iff.mp counted).2
    rw [bytes_eq] at below
    have small : (scale : Int) < 0x4000000 := by
      by_contra large
      have square : (0x4000000 * 0x4000000 : Int) ≤ scale * scale :=
        Int.mul_le_mul (by omega) (by omega) (by decide) (by omega)
      omega
    have height : wrap64 (32 * (scale : Int)) = 32 * scale := by
      unfold wrap64
      omega
    have fits : fits64 (scale : Int) = true := fits64_iff.mpr (by omega)
    have fits' : fits64 (3 * 64 * (32 * (scale : Int))) = true := fits64_iff.mpr (by omega)
    have rows : 3 * 64 * (32 * (scale : Int)) ≤ bytes scale := by
      have square : (1 : Int) * scale ≤ scale * scale :=
        Int.mul_le_mul_of_nonneg_right (by omega) (by omega)
      rw [bytes_eq]
      omega
    simp only [checkScale, height, fits, fits', counted, Bool.not_true, Bool.false_eq_true,
      if_false, true_and]
    rw [if_neg (by omega)]
    split_ifs <;> simp <;> omega
  · refine iff_of_false (fun checked => ?_) fun countable => counted countable.1
    simp only [checkScale, Bool.not_eq_true _ ▸ counted] at checked
    split_ifs at checked with _ _ _ _ uncounted
    exact uncounted rfl

/-! ## Pictures -/

def rgb (τ : Type) [TimeScale τ] (room : Nat) (on off : Int × Int × Int) (p : Pixels)
    (scale : Int) : Except Failure Picture :=
  render p (.whole scale : Quantity τ) (ColourScheme.ofComponents on off) room

section

variable {τ α : Type} [TimeScale τ] [Zero α] [DecidableEq α] {on off : Int × Int × Int}
  {scheme : ColourScheme} {scale : Int} {room : Nat}

theorem rgb_of_lt (p : Pixels) (small : scale < 1) :
    rgb τ room on off p scale =
      .error (.invalid ((Quantity.whole scale : Quantity τ).refusal .scale)) := by
  have small : Quantity.lt (.whole scale : Quantity τ) (.whole 1) = true := by
    simpa [Quantity.lt] using small
  rw [rgb, render, if_pos small]

theorem exists_rgb_eq_error {p : Pixels}
    (h : scale < 1 ∨ p.ragged = true ∨ p.shape ≠ [2048] ∧ p.shape ≠ [32, 64]) :
    ∃ e, rgb τ room on off p scale = .error e ∧ e.label = "ValueError" := by
  by_cases small : scale < 1
  · exact ⟨_, rgb_of_lt p small, rfl⟩
  · have large : ¬Quantity.lt (.whole scale : Quantity τ) (.whole 1) = true := by
      simpa [Quantity.lt] using small
    obtain ⟨e, refused⟩ := Frame.ofPixels_eq_error (h.resolve_left small)
    refine ⟨.invalid e, ?_, rfl⟩
    rw [rgb, render, if_neg large, refused]
    rfl

theorem rgb_pixels (known : ColourScheme.ofComponents on off = .ok scheme) (v : Values α)
    (pos : 1 ≤ scale) : rgb τ room on off v.pixels scale =
      (checkScale room scale).map fun _ => ofFrame v.frame scale.toNat scheme := by
  have large : Quantity.lt (.whole scale : Quantity τ) (.whole 1) = false := by
    simpa [Quantity.lt] using pos
  rw [rgb, render, large, known, Values.ofPixels_pixels]
  simp only [side, bind, Except.bind, pure, Except.pure]
  cases checkScale room scale <;> rfl

theorem rgb_eq_ok_iff (known : ColourScheme.ofComponents on off = .ok scheme) {v : Values α}
    {picture : Picture} : rgb τ room on off v.pixels scale = .ok picture ↔
      1 ≤ scale ∧ checkScale room scale = .ok () ∧ picture = ofFrame v.frame scale.toNat scheme := by
  by_cases small : scale < 1
  · rw [rgb_of_lt _ small]
    exact ⟨nofun, fun ⟨pos, _⟩ => absurd small (Int.not_lt.mpr pos)⟩
  · have pos := Int.not_lt.mp small
    rw [rgb_pixels known v pos]
    cases checkScale room scale with
    | error e => exact ⟨nofun, nofun⟩
    | ok =>
      constructor
      · intro made
        exact ⟨pos, rfl, (Except.ok.inj made).symm⟩
      · rintro ⟨-, -, rfl⟩
        rfl

theorem rgb_congr (known : ColourScheme.ofComponents on off = .ok scheme) {v w : Values α}
    (same : ∀ x y, v.get x y = w.get x y) :
    rgb τ room on off v.pixels scale = rgb τ room on off w.pixels scale := by
  by_cases small : scale < 1
  · rw [rgb_of_lt _ small, rgb_of_lt _ small]
  · have pos := Int.not_lt.mp small
    have frames : v.frame = w.frame := Values.frame_eq_iff.mpr fun x y => by rw [same x y]
    rw [rgb_pixels known v pos, rgb_pixels known w pos, frames]

/-- A frame given flat or in rows becomes a picture at every scale of at least one at which the bytes
of the picture can be counted and there is room for them, and otherwise it is refused. The picture
is determined by the values, and in two different colours by which of them are zero. Pixels of
another shape and smaller scales are invalid. -/
theorem rgb_upscales (τ α : Type) [TimeScale τ] [Zero α] [DecidableEq α]
    (colours : IsColour on ∧ IsColour off) :
    (∀ v : Values α, Pixels.ofNested v.nested = v.pixels) ∧
    (∀ (v : Values α) (scale room : Nat), 1 ≤ scale →
      (fits64 (bytes scale) = true ∧ bytes scale ≤ room →
        ∃ picture, rgb τ room on off v.pixels scale = .ok picture ∧
          picture.Upscales v scale on off) ∧
      (¬(fits64 (bytes scale) = true ∧ bytes scale ≤ room) →
        ∃ e, checkScale room scale = .error e ∧ rgb τ room on off v.pixels scale = .error e)) ∧
    (∀ (v w : Values α) (scale : Int) (room : Nat), (∀ x y, v.get x y = w.get x y) →
      rgb τ room on off v.pixels scale = rgb τ room on off w.pixels scale) ∧
    (∀ (v w : Values α) (scale : Int) (room : Nat) (p q : Picture), on ≠ off →
      rgb τ room on off v.pixels scale = .ok p → rgb τ room on off w.pixels scale = .ok q →
        (p = q ↔ ∀ x y, v.get x y ≠ 0 ↔ w.get x y ≠ 0)) ∧
    ∀ (p : Pixels) (scale : Int) (room : Nat),
      scale < 1 ∨ p.ragged = true ∨ p.shape ≠ [2048] ∧ p.shape ≠ [32, 64] →
        ∃ e, rgb τ room on off p scale = .error e ∧ e.label = "ValueError" := by
  obtain ⟨scheme, known, rfl, rfl⟩ := ColourScheme.exists_ofComponents colours.1 colours.2
  refine ⟨Values.ofNested_nested, fun v scale room pos => ⟨fun fits => ?_, fun exceeds => ?_⟩,
    fun v w scale room same => rgb_congr known same,
    fun v w scale room p q ne made made' => ?_, fun p scale room h => exists_rgb_eq_error h⟩
  · have checked := (checkScale_eq_ok_iff pos).mpr fits
    exact ⟨_, (rgb_eq_ok_iff known).mpr ⟨by omega, checked, rfl⟩, upscales_ofFrame v scale scheme⟩
  · have unchecked := (checkScale_eq_ok_iff pos).not.mpr exceeds
    rw [rgb_pixels known v (by omega)]
    cases checked : checkScale room scale with
    | ok => exact absurd checked unchecked
    | error e => exact ⟨e, rfl, rfl⟩
  · obtain ⟨pos, -, rfl⟩ := (rgb_eq_ok_iff known).mp made
    obtain ⟨-, -, rfl⟩ := (rgb_eq_ok_iff known).mp made'
    have apart : scheme.on ≠ scheme.off := fun eq => ne (congrArg Colour.components eq)
    exact (ofFrame_inj (by omega) apart).trans Values.frame_eq_iff

def lastLit (x : Fin 64) (y : Fin 32) : Int := if x = 63 ∧ y = 31 then 1 else 0

/-- In a room that just suffices, the last pixel of the picture shows the last one of the frame, and four to its left it shows
the one before. -/
theorem rgb_upscales_last :
    ∃ picture,
      rgb Rat 98304 (0, 255, 0) (0, 0, 64) (Values.flatOf lastLit).pixels 4 = .ok picture ∧
      rgb Rat 98304 (0, 255, 0) (0, 0, 64) (Values.gridOf lastLit).pixels 4 = .ok picture ∧
      (picture.pixel? 127 252).map Colour.components = some (0, 255, 0) ∧
      (picture.pixel? 127 251).map Colour.components = some (0, 0, 64) := by
  have colours : IsColour (0, 255, 0) ∧ IsColour (0, 0, 64) := by
    unfold IsColour
    decide
  obtain ⟨-, made, alike, -⟩ := rgb_upscales Rat Int colours
  obtain ⟨picture, shown, scaled⟩ := (made (.flatOf lastLit) 4 98304 (by decide)).1 (by decide)
  refine ⟨picture, shown, ?_, ?_, ?_⟩
  · rw [← shown]
    exact alike _ _ _ _ fun x y => by simp
  · have pixel := scaled.pixel 127 252
    rw [Values.get_flatOf] at pixel
    exact pixel
  · have pixel := scaled.pixel 127 251
    rw [Values.get_flatOf] at pixel
    exact pixel

/-- A scale can be too large to be taken at all, for all the room there is. -/
theorem rgb_refused :
    rgb Rat (10 ^ 50) (255, 255, 255) (0, 0, 0) (Values.flatOf lastLit).pixels (10 ^ 20) =
      .error (.outOfRange (.size (10 ^ 20))) := by
  have known : ColourScheme.ofComponents (255, 255, 255) (0, 0, 0) = .ok {} := rfl
  have refused : checkScale (10 ^ 50) (10 ^ 20) = .error (.outOfRange (.size (10 ^ 20))) := by decide
  rw [rgb_pixels known _ (by decide), refused]
  rfl

end

end Picture

end Chip8
