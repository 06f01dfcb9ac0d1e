import Mathlib.Logic.Equiv.Fin.Basic
import Chip8.Frame

/-! # Frames of values

The values of a frame are given one after the other or row by row, in lists or in an array. In
every form they make the same frame, whose lit pixels are those with a value other than zero.
-/

namespace Chip8

theorem getElem?_flatMap_of_length {α β : Type} (xs : List α) (f : α → List β) {n : Nat}
    (length : ∀ a ∈ xs, (f a).length = n) {j : Nat} (hj : j < n) (i : Nat) :
    (xs.flatMap f)[n * i + j]? = xs[i]?.bind fun a => (f a)[j]? := by
  induction xs generalizing i with
  | nil => rfl
  | cons a rest ih =>
    have first : (f a).length = n := length a List.mem_cons_self
    rw [List.flatMap_cons]
    cases i with
    | zero =>
      rw [Nat.mul_zero, Nat.zero_add, List.getElem?_append_left (by omega)]
      rfl
    | succ i =>
      have behind : n * (i + 1) + j - (f a).length = n * i + j := by
        rw [first, Nat.mul_succ]
        omega
      rw [List.getElem?_append_right (by rw [first, Nat.mul_succ]; omega), behind,
        ih fun b hb => length b (List.mem_cons_of_mem a hb)]
      rfl

theorem Frame.eq_of_pixel {f g : Frame} (same : ∀ x y, f.pixel x y = g.pixel x y) : f = g := by
  ext k hk
  have split : k % 64 + 64 * (k / 64) = k := Nat.mod_add_div k 64
  have alike := same ⟨k % 64, by omega⟩ ⟨k / 64, by omega⟩
  simpa only [pixel, split] using alike

theorem Frame.ofPixels_eq_error {p : Pixels}
    (h : p.ragged = true ∨ p.shape ≠ [2048] ∧ p.shape ≠ [32, 64]) :
    ∃ e, Frame.ofPixels p = .error (.invalid e) := by
  unfold Frame.ofPixels
  split
  · exact ⟨_, rfl⟩
  · next even =>
    have other := h.resolve_left even
    rw [if_neg (by simpa using other)]
    exact ⟨_, rfl⟩

/-! ## Lists within lists -/

namespace Nested

theorem agreement_self (shape : List Nat) : agreement shape shape = shape := by
  induction shape with
  | nil => rfl
  | cons a rest ih => simp [agreement, ih]

theorem commonShape_of_forall {room : Nat} {shape : List Nat} {items : List Nested}
    (same : ∀ item ∈ items, item.shapeWithin room = (shape, false)) (some : items ≠ []) :
    commonShape room items = (shape, false) := by
  induction items with
  | nil => exact absurd rfl some
  | cons item rest ih =>
    have first := same item List.mem_cons_self
    cases rest with
    | nil => simpa only [commonShape] using first
    | cons next others =>
      have common := ih (fun i hi => same i (List.mem_cons_of_mem item hi)) (List.cons_ne_nil _ _)
      simp [commonShape, first, common, agreement_self]

theorem valuesOfAll_eq (items : List Nested) : valuesOfAll items = items.flatMap values := by
  induction items with
  | nil => rfl
  | cons item rest ih => rw [valuesOfAll, ih, List.flatMap_cons]

def row (lit : List Bool) : Nested := .list (lit.map .value)

def rows (lit : List (List Bool)) : Nested := .list (lit.map row)

theorem values_row (lit : List Bool) : (row lit).values = lit := by
  rw [row, values, valuesOfAll_eq, List.flatMap_map]
  simp [values]

theorem values_rows (lit : List (List Bool)) : (rows lit).values = lit.flatten := by
  rw [rows, values, valuesOfAll_eq, List.flatMap_map]
  simp [values_row]

theorem shapeWithin_row (room : Nat) {lit : List Bool} (some : lit ≠ []) :
    (row lit).shapeWithin (room + 1) = ([lit.length], false) := by
  have leaves : ∀ item ∈ lit.map value, item.shapeWithin room = ([], false) := by
    intro item h
    obtain ⟨bit, -, rfl⟩ := List.mem_map.mp h
    rw [shapeWithin]
  rw [row, shapeWithin, commonShape_of_forall leaves (by simpa using some), List.length_map]

theorem shape_row {lit : List Bool} (some : lit ≠ []) : (row lit).shape = ([lit.length], false) :=
  shapeWithin_row 63 some

theorem shape_rows {lit : List (List Bool)} {width : Nat} (some : lit ≠ [])
    (length : ∀ values ∈ lit, values.length = width + 1) :
    (rows lit).shape = ([lit.length, width + 1], false) := by
  have even : ∀ item ∈ lit.map row, item.shapeWithin 63 = ([width + 1], false) := by
    intro item h
    obtain ⟨values, mem, rfl⟩ := List.mem_map.mp h
    have filled : values ≠ [] := List.ne_nil_of_length_eq_add_one (length values mem)
    rw [shapeWithin_row 62 filled, length values mem]
  rw [shape, maxDimensions, rows, shapeWithin, commonShape_of_forall even (by simpa using some),
    List.length_map]

end Nested

/-! ## Values -/

/-- The values of a frame, one after the other or row by row. -/
inductive Values (α : Type) where
  | flat (values : Vector α 2048)
  | grid (rows : Vector (Vector α 64) 32)

namespace Values

variable {α : Type}

theorem place_lt (x : Fin 64) (y : Fin 32) : x.val + 64 * y.val < 2048 := by omega

def get : Values α → Fin 64 → Fin 32 → α
  | flat values, x, y => values.get ⟨x + 64 * y, place_lt x y⟩
  | grid rows, x, y => (rows.get y).get x

def flatOf (g : Fin 64 → Fin 32 → α) : Values α :=
  .flat (Vector.ofFn fun k : Fin (32 * 64) => g k.modNat k.divNat)

def gridOf (g : Fin 64 → Fin 32 → α) : Values α :=
  .grid (Vector.ofFn fun y => Vector.ofFn fun x => g x y)

section

variable (g : Fin 64 → Fin 32 → α) (x : Fin 64) (y : Fin 32)

theorem mk_eq_mkDivMod (h : x.val + 64 * y.val < 32 * 64) :
    (⟨x.val + 64 * y.val, h⟩ : Fin (32 * 64)) = Fin.mkDivMod y x :=
  Fin.ext (Nat.add_comm _ _)

@[simp]
theorem get_flatOf : (flatOf g).get x y = g x y := by
  have found := Vector.getElem_ofFn (f := fun k : Fin (32 * 64) => g k.modNat k.divNat)
    (place_lt x y)
  rw [mk_eq_mkDivMod, Fin.divNat_mkDivMod, Fin.modNat_mkDivMod] at found
  exact found

@[simp]
theorem get_gridOf : (gridOf g).get x y = g x y := by
  have row := Vector.getElem_ofFn (f := fun y => Vector.ofFn fun x => g x y) y.isLt
  have value := Vector.getElem_ofFn (f := fun x => g x y) x.isLt
  exact (congrArg (Vector.get · x) row).trans value

end

variable [Zero α] [DecidableEq α]

def isLit (a : α) : Bool := a ≠ 0

def nested : Values α → Nested
  | flat values => .row (values.toList.map isLit)
  | grid rows => .rows (rows.toList.map fun values => values.toList.map isLit)

def pixels : Values α → Pixels
  | flat values => { shape := [2048], lit := (values.toList.map isLit).toArray }
  | grid rows =>
    { shape := [32, 64]
      lit := (rows.toList.flatMap fun values => values.toList.map isLit).toArray }

/-- Lists and arrays hold the same pixels. -/
theorem ofNested_nested (v : Values α) : Pixels.ofNested v.nested = v.pixels := by
  cases v with
  | flat values =>
    have length : (values.toList.map isLit).length = 2048 := by simp
    have shape := Nested.shape_row (List.ne_nil_of_length_eq_add_one length)
    rw [length] at shape
    simp only [Pixels.ofNested, nested, shape, Nested.values_row, pixels]
  | grid rows =>
    have length : (rows.toList.map fun values => values.toList.map isLit).length = 32 := by simp
    have even : ∀ lit ∈ rows.toList.map fun values => values.toList.map isLit,
        lit.length = 64 := by
      intro lit h
      obtain ⟨values, -, rfl⟩ := List.mem_map.mp h
      simp
    have shape := Nested.shape_rows (List.ne_nil_of_length_eq_add_one length) even
    rw [length] at shape
    simp only [Pixels.ofNested, nested, shape, Nested.values_rows, pixels, List.flatMap_def]

def frame (v : Values α) : Frame :=
  Vector.ofFn fun k : Fin (32 * 64) => isLit (v.get k.modNat k.divNat)

theorem pixel_frame (v : Values α) (x : Fin 64) (y : Fin 32) :
    v.frame.pixel x y = isLit (v.get x y) := by
  simp only [Frame.pixel, frame, Vector.getElem_ofFn, mk_eq_mkDivMod, Fin.divNat_mkDivMod,
    Fin.modNat_mkDivMod]

/-- Only which values are zero matters. -/
theorem frame_eq_iff {v w : Values α} :
    v.frame = w.frame ↔ ∀ x y, v.get x y ≠ 0 ↔ w.get x y ≠ 0 := by
  constructor
  · intro same x y
    have lit : isLit (v.get x y) = isLit (w.get x y) := by
      rw [← pixel_frame, ← pixel_frame, same]
    exact decide_eq_decide.mp lit
  · intro same
    refine Frame.eq_of_pixel fun x y => ?_
    rw [pixel_frame, pixel_frame]
    exact decide_eq_decide.mpr (same x y)

theorem getElem?_lit_pixels (v : Values α) (k : Fin (32 * 64)) :
    v.pixels.lit[k.val]? = some (isLit (v.get k.modNat k.divNat)) := by
  have split : 64 * k.divNat.val + k.modNat.val = k.val := Nat.div_add_mod k.val 64
  cases v with
  | flat values =>
    have place : k.modNat.val + 64 * k.divNat.val = k.val := by omega
    simp only [pixels, get, place]
    rw [List.getElem?_toArray, List.getElem?_map, Vector.getElem?_toList,
      Vector.getElem?_eq_getElem k.isLt]
    rfl
  | grid rows =>
    have blocks := getElem?_flatMap_of_length rows.toList
      (fun values => values.toList.map isLit) (n := 64) (by simp) k.modNat.isLt k.divNat.val
    rw [split, Vector.getElem?_toList, Vector.getElem?_eq_getElem k.divNat.isLt, Option.bind_some,
      List.getElem?_map, Vector.getElem?_toList, Vector.getElem?_eq_getElem k.modNat.isLt] at blocks
    rw [pixels, List.getElem?_toArray, blocks]
    rfl

theorem ofPixels_pixels (v : Values α) : Frame.ofPixels v.pixels = .ok v.frame := by
  have shape : v.pixels.shape = [2048] ∨ v.pixels.shape = [32, 64] := by
    cases v
    · exact .inl rfl
    · exact .inr rfl
  have even : ¬v.pixels.ragged = true := by cases v <;> exact Bool.false_ne_true
  have lit : (fun k : Fin (32 * 64) => v.pixels.lit.getD k false) =
      fun k => isLit (v.get k.modNat k.divNat) := by
    funext k
    rw [Array.getD_eq_getD_getElem?, getElem?_lit_pixels, Option.getD_some]
  rw [Frame.ofPixels, if_neg even, if_pos shape, frame, ← lit]

end Values

end Chip8
