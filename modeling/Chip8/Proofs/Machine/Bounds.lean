import Chip8.Proofs.CallStack
import Chip8.Proofs.Machine.Effects
import Chip8.Proofs.Machine.Steps

/-! # Accesses within bounds

Handlers work on more lanes than an instruction has, so they read and write past the ends of
arrays. A checked instruction touches only what belongs to it, and does nothing at all if one
index lies outside its array. The two agree: a cycle completes exactly if the checked
instruction does, with the same result whatever the open bus answers, and the writes that are
dropped come from lanes that are not selected.
-/

namespace Chip8

/-! ## Checked accesses -/

namespace Memory

def bytes? (m : Memory) (start : Nat) : Nat → Option (List UInt8)
  | 0 => some []
  | length + 1 => do
    let b ← m[start]?
    let rest ← bytes? m (start + 1) length
    return b :: rest

def store? (m : Memory) (start : Nat) : List UInt8 → Option Memory
  | [] => some m
  | b :: rest => if h : start < 4096 then store? (m.set start b) (start + 1) rest else none

theorem range?_eq_none_iff {start length : Nat} :
    range? start length = none ↔ start + length ≤ 4096 := by
  rw [range?]
  split
  · simp only [reduceCtorEq, false_iff]
    omega
  · simp only [true_iff]
    omega

/-- Checked reads succeed where the range check does, with what the open bus never answers. -/
theorem bytes?_eq (m : Memory) (bus : Nat → UInt8) {start : Nat} (h : start ≤ 4096)
    (length : Nat) :
    m.bytes? start length =
      if range? start length = none then
        some ((List.range length).map fun k => m.read bus (start + k))
      else none := by
  simp only [range?_eq_none_iff]
  induction length generalizing start with
  | zero => simp [bytes?, h]
  | succ length ih =>
    rw [bytes?]
    by_cases inside : start < 4096
    · rw [Vector.getElem?_eq_getElem inside, ih inside]
      by_cases rest : start + 1 + length ≤ 4096
      · rw [if_pos rest, if_pos (by omega), List.range_succ_eq_map]
        simp [read_of_lt inside, Function.comp_def, Nat.add_assoc, Nat.add_comm 1]
      · rw [if_neg rest, if_neg (by omega)]
        rfl
    · rw [Vector.getElem?_eq_none (by omega), if_neg (by omega)]
      rfl

theorem store?_eq (m : Memory) {start : Nat} (h : start ≤ 4096) (bytes : List UInt8) :
    m.store? start bytes =
      if range? start bytes.length = none then some (m.store start bytes) else none := by
  simp only [range?_eq_none_iff]
  induction bytes generalizing m start with
  | nil => simp [store?, store, h]
  | cons b rest ih =>
    rw [store?, store, List.length_cons]
    by_cases inside : start < 4096
    · have written : m.write start b = m.set start b := by
        ext k hk
        rw [getElem_write, Vector.getElem_set]
      have next : start + 1 ≤ 4096 := inside
      rw [dif_pos inside, ih _ next, written, Nat.add_assoc, Nat.add_comm 1]
    · rw [dif_neg inside, if_neg (by omega)]

theorem writeLanes_eq_store {lanes : List Lane} {start : Nat}
    (consecutive : ∀ (k : Nat) (h : k < lanes.length), lanes[k].address = start + k)
    (m : Memory) : m.writeLanes lanes = m.store start (lanes.map Lane.value) := by
  induction lanes generalizing m start with
  | nil => rfl
  | cons lane rest ih =>
    have first : lane.address = start := consecutive 0 (by simp)
    have others : ∀ (k : Nat) (h : k < rest.length), rest[k].address = start + 1 + k := by
      intro k h
      have := consecutive (k + 1) (by simpa using h)
      simp only [List.getElem_cons_succ] at this
      omega
    rw [writeLanes, List.foldl_cons, List.map_cons, store, first]
    exact ih others _

end Memory

namespace CallStack

variable {s : CallStack}

def push? (s : CallStack) (address : Int) : Option CallStack :=
  if h : 0 ≤ s.pointer ∧ s.pointer < 48 then
    some {
      entries := s.entries.set s.pointer.toNat (UInt16.ofInt (address % 4096))
      pointer := s.pointer + 1 }
  else none

def pop? (s : CallStack) : Option (UInt16 × CallStack) :=
  if h : 0 < s.pointer ∧ s.pointer ≤ 48 then
    some (s.entries[(s.pointer - 1).toNat], {
      entries := s.entries.set (s.pointer - 1).toNat 0
      pointer := s.pointer - 1 })
  else none

theorem push?_eq (low : 0 ≤ s.pointer) (high : s.pointer ≤ 48) (address : Int) :
    s.push? address = if 48 ≤ s.pointer then none else some (s.push address) := by
  by_cases full : 48 ≤ s.pointer
  · rw [push?, dif_neg (by omega), if_pos full]
  · have pointer : min (wrap32 (s.pointer + 1)) 48 = s.pointer + 1 := by
      rw [wrap32_of_fits (by omega) (by omega)]
      omega
    rw [push?, dif_pos ⟨low, by omega⟩, if_neg full, push, pointer, store]
    simp only [slot_of_lt low (by omega : s.pointer < 48)]

theorem pop?_eq (low : 0 ≤ s.pointer) (high : s.pointer ≤ 48) (beyond : UInt16) :
    s.pop? = if s.pointer ≤ 0 then none else some (s.top beyond, s.pop) := by
  by_cases empty : s.pointer ≤ 0
  · rw [pop?, dif_neg (by omega), if_pos empty]
  · have popped : s.popped = s.pointer - 1 := popped_eq_sub_one (by omega) high
    have slot : slot (s.pointer - 1) = _ := slot_of_lt (by omega) (by omega)
    rw [pop?, dif_pos ⟨by omega, high⟩, if_neg empty, top, dif_pos (by omega), pop, store]
    simp only [popped, slot]

end CallStack

namespace Sprite

def mask? (dots : List Dot) : Option Display :=
  dots.foldlM
    (fun d dot => if h : dot.index < 2048 then some (d.set dot.index dot.lit) else none)
    (Vector.replicate 2048 0)

def rowsDots (x y : Nat) (rows : List UInt8) : List Dot :=
  rows.zipIdx.flatMap fun (bits, row) => rowDots x y row bits true

theorem place_lt (x y column row : Nat) : place x y column row < 2048 := by
  simp only [place, screenWidth, screenHeight]
  omega

/-- A sprite is too small to meet itself on a screen that wraps around. -/
theorem place_inj {x y c c' r r' : Nat} (hc : c < 8) (hc' : c' < 8) (hr : r < 15) (hr' : r' < 15)
    (h : place x y c r = place x y c' r') : c = c' ∧ r = r' := by
  simp only [place, screenWidth, screenHeight] at h
  omega

theorem exists_place_of_mem {x y : Nat} {rows : List UInt8} {dot : Dot}
    (h : dot ∈ rowsDots x y rows) :
    ∃ column < 8, ∃ row < rows.length, dot.index = place x y column row := by
  simp only [rowsDots, rowDots, List.mem_flatMap, List.mem_map, List.mem_range] at h
  obtain ⟨⟨bits, row⟩, hrow, column, hcolumn, rfl⟩ := h
  exact ⟨column, hcolumn, row, List.snd_lt_of_mem_zipIdx hrow, rfl⟩

theorem index_rowsDots (x y : Nat) (rows : List UInt8) :
    ∀ dot ∈ rowsDots x y rows, dot.index < 2048 := by
  intro dot h
  obtain ⟨column, -, row, -, index⟩ := exists_place_of_mem h
  exact index ▸ place_lt x y column row

theorem mask?_eq {dots : List Dot} (h : ∀ dot ∈ dots, dot.index < 2048) :
    mask? dots = some (mask dots) := by
  unfold mask? mask
  generalize Vector.replicate 2048 (0 : UInt8) = screen
  induction dots generalizing screen with
  | nil => rfl
  | cons dot rest ih =>
    have inside : dot.index < 2048 := h dot List.mem_cons_self
    have set : screen.set dot.index dot.lit = screen.setIfInBounds dot.index dot.lit := by
      ext k hk
      rw [Vector.getElem_set, Vector.getElem_setIfInBounds]
    rw [List.foldlM_cons, dif_pos inside, List.foldl_cons, set]
    exact ih (fun d hd => h d (List.mem_cons_of_mem _ hd)) _

theorem getElem_foldl_of_forall_ne {dots : List Dot} {k : Nat} (hk : k < 2048)
    (h : ∀ dot ∈ dots, dot.index ≠ k) (screen : Display) :
    (dots.foldl (fun d dot => d.setIfInBounds dot.index dot.lit) screen)[k] = screen[k] := by
  induction dots generalizing screen with
  | nil => rfl
  | cons dot rest ih =>
    rw [List.foldl_cons, ih fun d hd => h d (List.mem_cons_of_mem _ hd),
      Vector.getElem_setIfInBounds, if_neg (h dot List.mem_cons_self)]

theorem foldl_of_dark {dots : List Dot} {screen : Display}
    (h : ∀ dot ∈ dots, dot.lit = 0 ∧ ∀ hk : dot.index < 2048, screen[dot.index] = 0) :
    dots.foldl (fun d dot => d.setIfInBounds dot.index dot.lit) screen = screen := by
  induction dots with
  | nil => rfl
  | cons dot rest ih =>
    have same : screen.setIfInBounds dot.index dot.lit = screen := by
      obtain ⟨unlit, dark⟩ := h dot List.mem_cons_self
      ext k hk
      rw [Vector.getElem_setIfInBounds]
      split
      · next at_dot =>
        subst at_dot
        rw [unlit, dark hk]
      · rfl
    rw [List.foldl_cons, same]
    exact ih fun d hd => h d (List.mem_cons_of_mem _ hd)

theorem dots_eq (bus : OpenBus) (memory : Memory) (start x y : Nat) {height : Nat}
    (h : height ≤ 15) :
    dots bus memory start x y height =
      rowsDots x y ((List.range height).map fun row => memory.read bus.memory (start + row)) ++
        (List.range (15 - height)).flatMap fun below =>
          rowDots x y (height + below) (memory.read bus.memory (start + (height + below)))
            false := by
  have split : List.range maxSpriteHeight =
      List.range height ++ (List.range (15 - height)).map (height + ·) := by
    rw [← List.range_add, Nat.add_sub_cancel' h]
  have indexed (f : Nat → UInt8) : ((List.range height).map f).zipIdx
      = (List.range height).map fun row => (f row, row) :=
    List.ext_getElem (by simp) (by simp)
  rw [dots, split, List.flatMap_append, rowsDots, indexed, List.flatMap_map, List.flatMap_map]
  simp only [List.flatMap_def]
  congr 2
  · refine List.map_congr_left fun row hrow => ?_
    rw [decide_eq_true (List.mem_range.mp hrow)]
  · refine List.map_congr_left fun below _ => ?_
    rw [decide_eq_false (by omega)]

/-- Only the rows of the sprite count; those that are masked out may hold anything. -/
theorem mask_dots (bus : OpenBus) (memory : Memory) (start x y : Nat) {height : Nat}
    (h : height ≤ 15) :
    mask (dots bus memory start x y height) =
      mask (rowsDots x y
        ((List.range height).map fun row => memory.read bus.memory (start + row))) := by
  rw [dots_eq _ _ _ _ _ h, mask, mask, List.foldl_append]
  refine foldl_of_dark fun dot hd => ?_
  simp only [List.mem_flatMap, List.mem_map, List.mem_range, rowDots] at hd
  obtain ⟨below, hbelow, column, hcolumn, rfl⟩ := hd
  refine ⟨rfl, fun hk => ?_⟩
  -- No row of the sprite reaches around the screen to a dark one.
  refine (getElem_foldl_of_forall_ne hk (fun dot hdot => ?_) _).trans (by simp)
  obtain ⟨column', hcolumn', row, hrow, index⟩ := exists_place_of_mem hdot
  rw [List.length_map, List.length_range] at hrow
  intro same
  have := place_inj hcolumn' hcolumn (by omega) (by omega) (index.symm.trans same)
  omega

end Sprite

/-! ## Checked instructions -/

namespace Machine

variable (m : Machine) (o : Operands)

def flipBy (mask : Display) : Machine :=
  let flipped := { m with display := m.display.zipWith (· ^^^ ·) mask, draw := true }
  (flipped.setV 15 (if Sprite.collides m.display mask then 1 else 0)).advance 1

theorem drawSprite_eq (bus : OpenBus) : m.drawSprite bus o = m.flipBy (m.spriteMask bus o) := rfl

/-- Performs an instruction on nothing but its own bytes, rows, registers and stack entry, if
all of them exist. The other kinds index registers and keys by a nibble. -/
def performChecked (k : Kind) : Option Machine :=
  match k with
  | .ret => do
    let (address, stack) ← m.stack.pop?
    return { m with stack, pc := address }
  | .call => do
    let stack ← m.stack.push? (m.pc.toNat + 2)
    return { m with stack, pc := o.nnn }
  | .drw => do
    let rows ← m.memory.bytes? m.i.toNat o.n
    let mask ← Sprite.mask? (Sprite.rowsDots ((m.getV o.x).toNat % screenWidth)
      ((m.getV o.y).toNat % screenHeight) rows)
    return m.flipBy mask
  | .ldB => do
    let memory ← m.memory.store? m.i.toNat (decimalDigits (m.getV o.x))
    return { m with memory }.advance 1
  | .ldMemV => do
    let memory ← m.memory.store? m.i.toNat (((List.finRange 16).map m.getV).take (o.x + 1))
    return { m with memory }.advance 1
  | .ldVMem => do
    let bytes ← m.memory.bytes? m.i.toNat (o.x + 1)
    return { m with v := Vector.ofFn fun k => (bytes[k.val]?).getD (m.getV k) }.advance 1
  | k => some (m.perform k m.bus o)

def stepChecked : Option Machine := do
  let high ← m.memory[m.pc.toNat]?
  let low ← m.memory[m.pc.toNat + 1]?
  let w : UInt16 := high.toUInt16 <<< 8 ||| low.toUInt16
  let k ← Kind.classify w.toNat
  m.performChecked (Operands.ofWord w) k

theorem writeLanes_storeLanes (bus : OpenBus) :
    m.memory.writeLanes (m.storeLanes bus o) =
      m.memory.store m.i.toNat (((List.finRange 16).map m.getV).take (o.x + 1)) := by
  have consecutive (k : Nat) (h : k < (m.storeLanes bus o).length) :
      (m.storeLanes bus o)[k].address = m.i.toNat + k := by simp [storeLanes]
  rw [Memory.writeLanes_eq_store consecutive]
  ext a ha
  rw [Memory.getElem_store, Memory.getElem_store]
  split
  · next from_start =>
    obtain ⟨k, rfl⟩ := Nat.exists_eq_add_of_le from_start
    rw [Nat.add_sub_cancel_left]
    by_cases lane : k < 16
    · by_cases selected : k < o.x + 1
      · have le : (⟨k, lane⟩ : Fin 16) ≤ o.x := Nat.le_of_lt_succ selected
        simp [storeLanes, lane, selected, le]
      · have gt : ¬(⟨k, lane⟩ : Fin 16) ≤ o.x := fun h => selected (Nat.lt_succ_of_le h)
        rw [List.getElem?_take, if_neg selected]
        simp [storeLanes, lane, gt, Memory.read_of_lt ha]
    · simp [storeLanes, List.getElem?_take, lane]
  · rfl

theorem ofFn_bytes (bus : OpenBus) :
    (Vector.ofFn fun k : Fin 16 =>
      (((List.range (o.x + 1)).map fun k => m.memory.read bus.memory (m.i.toNat + k))[k.val]?).getD
        (m.getV k)) = m.loadedRegisters bus o := by
  rw [loadedRegisters]
  congr 1
  funext k
  by_cases selected : k ≤ o.x
  · have lt : k.val < o.x + 1 := Nat.lt_succ_of_le selected
    simp [selected, lt]
  · have ge : ¬k.val < o.x + 1 := fun h => selected (Nat.le_of_lt_succ h)
    simp [selected, ge]

/-- Checked instructions do what the handlers do where the checks of their kinds pass, and fail
where those fail. -/
theorem performChecked_eq (low : 0 ≤ m.stack.pointer) (high : m.stack.pointer ≤ 48)
    (index : m.i.toNat ≤ 0xFFF) (bus : OpenBus) (k : Kind) :
    m.performChecked o k = if m.check k o = none then some (m.perform k bus o) else none := by
  cases k
  case ret =>
    rw [performChecked, CallStack.pop?_eq low high bus.stack, check, CallStack.underflow?]
    split <;> rfl
  case call =>
    rw [performChecked, CallStack.push?_eq low high, check, CallStack.overflow?]
    split <;> rfl
  -- In the others the condition found for the access is the check of the kind.
  case drw =>
    rw [performChecked, Memory.bytes?_eq _ bus.memory (by omega)]
    change (Option.bind (if m.check .drw o = none then _ else _) _) = _
    split
    · rw [Option.bind_some, Sprite.mask?_eq (Sprite.index_rowsDots _ _ _), perform, drawSprite_eq,
        spriteMask, Sprite.mask_dots bus _ _ _ _ (by omega)]
      rfl
    · rfl
  case ldB =>
    rw [performChecked, Memory.store?_eq _ (by omega)]
    change (Option.bind (if m.check .ldB o = none then _ else _) _) = _
    split <;> rfl
  case ldMemV =>
    have length : (((List.finRange 16).map m.getV).take (o.x + 1)).length = o.x + 1 := by
      rw [List.length_take, List.length_map, List.length_finRange]
      omega
    rw [performChecked, Memory.store?_eq _ (by omega), length, ← writeLanes_storeLanes _ _ bus]
    change (Option.bind (if m.check .ldMemV o = none then _ else _) _) = _
    split <;> rfl
  case ldVMem =>
    rw [performChecked, Memory.bytes?_eq _ bus.memory (by omega)]
    change (Option.bind (if m.check .ldVMem o = none then _ else _) _) = _
    split
    · rw [perform, loadRegisters, ← ofFn_bytes]
      rfl
    · rfl
  all_goals rfl

theorem toOption_dispatch (low : 0 ≤ m.stack.pointer) (high : m.stack.pointer ≤ 48)
    (index : m.i.toNat ≤ 0xFFF) (bus : OpenBus) (w : UInt16) :
    (m.dispatch bus w).toOption =
      (Kind.classify w.toNat).bind (m.performChecked (Operands.ofWord w)) := by
  rw [dispatch_eq]
  cases Kind.classify w.toNat with
  | none => rfl
  | some k =>
    rw [Option.bind_some, performChecked_eq _ _ low high index bus]
    dsimp only
    cases m.check k (Operands.ofWord w) <;> rfl

theorem stepChecked_eq :
    m.stepChecked =
      if m.pc.toNat < 0xFFF then
        (Kind.classify m.word.toNat).bind (m.performChecked m.operands)
      else none := by
  rw [stepChecked]
  by_cases fetched : m.pc.toNat < 0xFFF
  · rw [if_pos fetched, Vector.getElem?_eq_getElem (by omega),
      Vector.getElem?_eq_getElem (by omega), operands, word, Memory.word,
      Memory.read_of_lt (by omega), Memory.read_of_lt (by omega)]
    rfl
  · rw [if_neg fetched, Vector.getElem?_eq_none (by omega : 4096 ≤ m.pc.toNat + 1)]
    cases m.memory[m.pc.toNat]? <;> rfl

theorem word_eq (bus : OpenBus) (fetched : m.pc.toNat < 0xFFF) :
    m.memory.word bus.memory m.pc.toNat = m.word := by
  simp only [word, Memory.word, Memory.read_of_lt (by omega : m.pc.toNat < 4096),
    Memory.read_of_lt (by omega : m.pc.toNat + 1 < 4096)]

theorem toOption_step (low : 0 ≤ m.stack.pointer) (high : m.stack.pointer ≤ 48)
    (index : m.i.toNat ≤ 0xFFF) : m.step.toOption = m.stepChecked := by
  rw [stepChecked_eq, step]
  by_cases fetched : m.pc.toNat < 0xFFF
  · rw [if_pos fetched, fetch_of_lt m fetched, operands,
      ← toOption_dispatch m low high index m.bus m.word]
    dsimp only
    rw [execute_toNat]
    cases m.dispatch m.bus m.word <;> rfl
  · rw [if_neg fetched, fetch_of_le m (by omega)]
    rfl

theorem toOption_cycle (low : 0 ≤ m.stack.pointer) (high : m.stack.pointer ≤ 48)
    (index : m.i.toNat ≤ 0xFFF) (bus : OpenBus) (ticks : Int) :
    (m.cycle bus ticks).toOption = m.stepChecked.map (·.countTimers ticks) := by
  rw [stepChecked_eq, cycle]
  by_cases fetched : m.pc.toNat < 0xFFF
  · rw [if_pos fetched, if_neg (by omega), word_eq m bus fetched, operands,
      ← toOption_dispatch m low high index bus m.word]
    cases m.dispatch bus m.word <;> rfl
  · rw [if_neg fetched, if_pos (by omega)]
    rfl

/-! ## Dropped writes -/

structure Write where
  size : Nat
  index : Int
  /-- Whether the instruction asks for the write. -/
  selected : Bool

def Write.Inside (w : Write) : Prop := 0 ≤ w.index ∧ w.index < w.size

def lanes (bus : OpenBus) (o : Operands) (m : Machine) : Kind → List Lane
  | .ldB => (decimalDigits (m.getV o.x)).mapIdx fun k digit =>
      { address := m.i.toNat + k, value := digit, selected := true }
  | .ldMemV => m.storeLanes bus o
  | _ => []

theorem memory_perform (bus : OpenBus) (k : Kind) :
    (m.perform k bus o).memory = m.memory.writeLanes (m.lanes bus o k) := by
  cases k
  case ldReg | orReg | andReg | xorReg | addReg | sub | shr | subn | shl =>
    rw [perform, arithmetic_eq]
    rfl
  case ldVxK =>
    rw [perform, waitForKey_eq]
    rfl
  all_goals rfl

/-- The writes of a handler to memory, to the screen and to the call stack. Those to the
registers cannot miss. -/
def writes (bus : OpenBus) (o : Operands) (m : Machine) : Kind → List Write
  | .ret => [⟨48, m.stack.popped, true⟩]
  | .call => [⟨48, m.stack.pointer, true⟩]
  | .drw => (Sprite.dots bus m.memory m.i.toNat ((m.getV o.x).toNat % screenWidth)
      ((m.getV o.y).toNat % screenHeight) o.n).map fun dot => ⟨2048, dot.index, dot.selected⟩
  | k => (m.lanes bus o k).map fun lane => ⟨4096, lane.address, lane.selected⟩

theorem inside_of_selected (low : 0 ≤ m.stack.pointer) (high : m.stack.pointer ≤ 48) (bus : OpenBus)
    {k : Kind} (passed : m.check k o = none) :
    ∀ w ∈ m.writes bus o k, w.selected = true → w.Inside := by
  intro w hw selected
  cases k
  case ret =>
    have := CallStack.popped_eq low high
    obtain rfl := List.mem_singleton.mp hw
    exact ⟨by dsimp only; omega, by dsimp only; omega⟩
  case call =>
    obtain rfl := List.mem_singleton.mp hw
    have : ¬48 ≤ m.stack.pointer := by
      intro full
      rw [check, CallStack.overflow?, if_pos full] at passed
      cases passed
    exact ⟨low, by dsimp only; omega⟩
  case drw =>
    obtain ⟨dot, hd, rfl⟩ := List.mem_map.mp hw
    simp only [Sprite.dots, Sprite.rowDots, List.mem_flatMap, List.mem_map] at hd
    obtain ⟨row, -, column, -, rfl⟩ := hd
    have := Sprite.place_lt ((m.getV o.x).toNat % screenWidth) ((m.getV o.y).toNat % screenHeight)
      column row
    exact ⟨by dsimp only; omega, by dsimp only; omega⟩
  case ldB =>
    have fits := Memory.range?_eq_none_iff.mp passed
    obtain ⟨lane, hl, rfl⟩ := List.mem_map.mp hw
    obtain ⟨k, hk, rfl⟩ := List.mem_mapIdx.mp hl
    simp only [decimalDigits, List.length_cons, List.length_nil] at hk
    exact ⟨by dsimp only; omega, by dsimp only; omega⟩
  case ldMemV =>
    have fits := Memory.range?_eq_none_iff.mp passed
    obtain ⟨lane, hl, rfl⟩ := List.mem_map.mp hw
    obtain ⟨k, -, rfl⟩ := List.mem_map.mp hl
    have : k.val ≤ o.x.val := of_decide_eq_true selected
    exact ⟨by dsimp only; omega, by dsimp only; omega⟩
  all_goals cases hw

/-- A cycle completes exactly if the checked instruction does, and with its result, whatever is
read past the end of an array; and what is written past the end of one is not selected. -/
theorem completed_within_bounds (m : Machine) (low : 0 ≤ m.stack.pointer)
    (high : m.stack.pointer ≤ 48) (index : m.i.toNat ≤ 0xFFF) :
    m.step.toOption = m.stepChecked ∧
      (∀ bus ticks, (m.cycle bus ticks).toOption = m.stepChecked.map (·.countTimers ticks)) ∧
      ∀ k, m.Completes k → ∀ bus,
        m.dispatch bus (m.memory.word bus.memory m.pc.toNat) =
          .ok (m.perform k m.bus m.operands) ∧
        (m.perform k bus m.operands).memory = m.memory.writeLanes (m.lanes bus m.operands k) ∧
        ∀ w ∈ m.writes bus m.operands k, ¬w.Inside → w.selected = false := by
  refine ⟨toOption_step m low high index, toOption_cycle m low high index, ?_⟩
  intro k hk bus
  refine ⟨?_, memory_perform m m.operands bus k, ?_⟩
  · have same : (m.dispatch bus m.word).toOption = (m.dispatch m.bus m.word).toOption := by
      rw [toOption_dispatch m low high index, toOption_dispatch m low high index]
    rw [hk.dispatch] at same
    rw [word_eq m bus hk.fetched]
    cases hd : m.dispatch bus m.word with
    | error f =>
      rw [hd] at same
      cases same
    | ok m' =>
      rw [hd] at same
      exact congrArg Except.ok (Option.some.inj same)
  · intro w hw outside
    refine Bool.eq_false_iff.mpr fun selected => outside ?_
    exact inside_of_selected m m.operands low high bus hk.passed w hw selected

/-- Two registers are stored in the last two bytes of memory, on any bus, by a handler with
fourteen lanes past the end. -/
theorem completed_within_bounds_last_bytes :
    let memory := Memory.store (Vector.replicate 4096 0) 0x200 [0xF1, 0x55]
    let m := setV { rng := ⟨0, 0⟩, memory, i := 0xFFE } 1 9
    m.i.toNat ≤ 0xFFF ∧ m.step.toOption.bind (·.memory[0xFFF]?) = some 9 ∧
      ∀ bus ticks, (m.cycle bus ticks).toOption.bind (·.memory[0xFFF]?) = some 9 := by
  intro memory m
  have stored : m.stepChecked.bind (·.memory[0xFFF]?) = some 9 := by decide +kernel
  obtain ⟨step, cycle, -⟩ := completed_within_bounds m (by decide) (by decide) (by decide)
  refine ⟨by decide, by rw [step, stored], fun bus ticks => ?_⟩
  rw [cycle, Option.bind_map]
  exact stored

end Machine

end Chip8
