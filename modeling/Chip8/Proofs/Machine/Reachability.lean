import Chip8.Proofs.CallStack
import Chip8.Proofs.Machine.Effects
import Chip8.Proofs.Machine.Runs

/-! # Reachable machines

A machine runs by completing instructions, and in between its surroundings replace the keypad,
count the timers down and take the drawn frame. In every state that is reached in this way from
a loaded program the registers and the call stack stay within memory, so that the program
counter never wraps, and the display holds dark and lit pixels only.
-/

namespace Chip8

/-- What happens to a running machine. -/
inductive Event where
  /-- The instruction at the program counter, `word`, completes. -/
  | instruction (word : UInt16)
  | keys (keypad : Keypad)
  | decay (ticks : Int)
  /-- The frame is taken, which lowers the draw flag. -/
  | present

namespace Machine

inductive Transition : Machine → Event → Machine → Prop where
  | instruction {m m' : Machine} (h : m.step = .ok m') : Transition m (.instruction m.word) m'
  | keys (m : Machine) (keypad : Keypad) : Transition m (.keys keypad) { m with keypad }
  | decay {m m' : Machine} {ticks : Int} (h : m.decayTimers ticks = .ok m') :
      Transition m (.decay ticks) m'
  | present (m : Machine) : Transition m .present { m with draw := false }

inductive Run : Machine → List Event → Machine → Prop where
  | nil (m : Machine) : Run m [] m
  | cons {m m₁ m' : Machine} {event : Event} {rest : List Event}
      (first : Transition m event m₁) (others : Run m₁ rest m') : Run m (event :: rest) m'

structure WellFormed (m : Machine) : Prop where
  stack : m.stack.WellFormed
  index : m.i.toNat ≤ 0xFFF
  pc : m.pc.toNat ≤ 0x1002
  display : ∀ (k : Nat) (h : k < 2048), m.display[k] = 0 ∨ m.display[k] = 1

/-! ## Displays -/

theorem bit_and_one (b : UInt8) : b &&& 1 = 0 ∨ b &&& 1 = 1 := by
  have : (b &&& 1).toNat = b.toNat % 2 := by
    rw [UInt8.toNat_and]
    exact Nat.and_one_is_mod b.toNat
  rcases Nat.mod_two_eq_zero_or_one b.toNat with even | odd
  · exact .inl (UInt8.toNat_inj.mp (this.trans even))
  · exact .inr (UInt8.toNat_inj.mp (this.trans odd))

theorem mem_dots {bus : OpenBus} {memory : Memory} {start x y height : Nat} {dot : Dot}
    (h : dot ∈ Sprite.dots bus memory start x y height) : dot.lit = 0 ∨ dot.lit = 1 := by
  simp only [Sprite.dots, Sprite.rowDots, List.mem_flatMap, List.mem_map] at h
  obtain ⟨row, -, column, -, rfl⟩ := h
  dsimp only
  split
  · exact bit_and_one _
  · exact .inl rfl

theorem getElem_mask {dots : List Dot} (h : ∀ dot ∈ dots, dot.lit = 0 ∨ dot.lit = 1) {k : Nat}
    (hk : k < 2048) : (Sprite.mask dots)[k] = 0 ∨ (Sprite.mask dots)[k] = 1 := by
  unfold Sprite.mask
  have start : ∀ (k : Nat) (hk : k < 2048), (Vector.replicate 2048 (0 : UInt8))[k] = 0 ∨
      (Vector.replicate 2048 (0 : UInt8))[k] = 1 := by simp
  generalize Vector.replicate 2048 (0 : UInt8) = screen at start
  induction dots generalizing screen with
  | nil => exact start k hk
  | cons dot rest ih =>
    rw [List.foldl_cons]
    refine ih (fun d hd => h d (List.mem_cons_of_mem _ hd)) _ fun k hk => ?_
    rw [Vector.getElem_setIfInBounds]
    split
    · exact h dot List.mem_cons_self
    · exact start k hk

theorem WellFormed.display_perform {m : Machine} (h : m.WellFormed) (bus : OpenBus) (o : Operands)
    (kind : Kind) (k : Nat) (hk : k < 2048) :
    (m.perform kind bus o).display[k] = 0 ∨ (m.perform kind bus o).display[k] = 1 := by
  rw [Machine.display_perform]
  split
  · simp
  · have lit : ∀ dot ∈ Sprite.dots bus m.memory m.i.toNat ((m.getV o.x).toNat % screenWidth)
        ((m.getV o.y).toNat % screenHeight) o.n, dot.lit = 0 ∨ dot.lit = 1 := fun dot => mem_dots
    have mask := getElem_mask lit hk
    rw [Vector.getElem_zipWith]
    rcases h.display k hk with dark | lit <;> rcases mask with keep | flip <;>
      simp_all [spriteMask]
  · exact h.display k hk

/-! ## Registers -/

theorem toNat_and_le (w : UInt16) : (w &&& 0x0FFF).toNat ≤ 0xFFF := by
  rw [UInt16.toNat_and]
  exact Nat.and_le_right

theorem toNat_glyph_le (digit : UInt8) : (digit.toUInt16 * 5).toNat ≤ 0xFFF := by
  have := digit.toNat_lt
  rw [UInt16.toNat_mul, UInt8.toNat_toUInt16]
  rw [Nat.mod_eq_of_lt (by simp only [UInt16.reduceToNat]; omega)]
  simp only [UInt16.reduceToNat]
  omega

theorem WellFormed.i_perform {m : Machine} (h : m.WellFormed) (bus : OpenBus) (w : UInt16)
    (kind : Kind) : (m.perform kind bus (Operands.ofWord w)).i.toNat ≤ 0xFFF := by
  rw [Machine.i_perform]
  split
  · exact toNat_and_le w
  · exact toNat_and_le _
  · exact toNat_glyph_le _
  · exact h.index

theorem stride_le (m : Machine) (o : Operands) (kind : Kind) : (m.stride o kind).toNat ≤ 2 := by
  unfold stride
  split <;> (try split) <;> decide

/-- The program counter jumps into memory, returns into memory or moves on from it by at most
two instructions. -/
theorem WellFormed.pc_perform {m : Machine} (h : m.WellFormed) (fetched : m.pc.toNat < 0xFFF)
    (bus : OpenBus) (w : UInt16) (kind : Kind) :
    (m.perform kind bus (Operands.ofWord w)).pc.toNat ≤ 0x1002 := by
  have jump (target : UInt16) : (target &&& 0x0FFF).toNat ≤ 0x1002 :=
    Nat.le_trans (toNat_and_le target) (by decide)
  rw [Machine.pc_perform]
  split
  · exact Nat.le_trans (h.stack.top_le _) (by decide)
  · exact jump w
  · exact jump w
  · exact jump _
  · have := m.stride_le (Operands.ofWord w) kind
    rw [UInt16.toNat_add, UInt16.toNat_mul]
    simp only [UInt16.reduceToNat]
    omega

/-! ## Runs -/

theorem WellFormed.step {m m' : Machine} (h : m.WellFormed) (hs : m.step = .ok m') :
    m'.WellFormed := by
  obtain ⟨kind, hk, rfl⟩ := step_eq_ok_iff.mp hs
  refine ⟨?_, h.i_perform m.bus m.word kind, h.pc_perform hk.fetched m.bus m.word kind,
    h.display_perform m.bus m.operands kind⟩
  rw [stack_perform]
  split
  · exact h.stack.pop
  · exact h.stack.push _
  · exact h.stack

theorem WellFormed.transition {m m' : Machine} {event : Event} (h : m.WellFormed)
    (ht : m.Transition event m') : m'.WellFormed := by
  cases ht with
  | instruction hs => exact h.step hs
  | keys => exact ⟨h.stack, h.index, h.pc, h.display⟩
  | decay hd =>
    unfold decayTimers at hd
    split at hd
    · cases hd
      exact h
    · split at hd <;> cases hd
      exact ⟨h.stack, h.index, h.pc, h.display⟩
  | present => exact ⟨h.stack, h.index, h.pc, h.display⟩

theorem WellFormed.run {m m' : Machine} {events : List Event} (h : m.WellFormed)
    (hr : m.Run events m') : m'.WellFormed := by
  induction hr with
  | nil => exact h
  | cons first _ ih => exact ih (h.transition first)

theorem wellFormed_fresh (rng : RandomKey) (maskRegister : Bool) (memory : Memory) :
    WellFormed { fresh rng maskRegister with memory } where
  stack := CallStack.wellFormed_empty
  index := show 0 ≤ 0xFFF by decide
  pc := show 0x200 ≤ 0x1002 by decide
  display k hk := .inl (by simp [fresh])

theorem loadRom_of_le {rom : List UInt8} (m : Machine) (fits : rom.length ≤ maxRomSize)
    (name : String) :
    m.loadRom rom name = .ok { m with memory := m.memory.store programStart rom } :=
  if_neg (by omega)

/-- Every state that a machine with a loaded program can run into is well-formed. -/
theorem wellFormed_of_run (rom : List UInt8) (fits : rom.length ≤ maxRomSize) (name : String)
    (rng : RandomKey) (maskRegister : Bool) :
    ∃ start, (fresh rng maskRegister).loadRom rom name = .ok start ∧
      ∀ (events : List Event) (m : Machine), start.Run events m → m.WellFormed :=
  ⟨_, loadRom_of_le _ fits name, fun _ _ run => (wellFormed_fresh rng maskRegister _).run run⟩

/-- A program that clears the screen, with keys, time and a presenter around it. -/
theorem wellFormed_of_run_clear :
    ∃ start m, (fresh ⟨0, 0⟩ true).loadRom [0x00, 0xE0] "clear" = .ok start ∧
      start.Run [.keys (Vector.replicate 16 true), .instruction 0x00E0, .decay 3, .present] m ∧
      m.WellFormed := by
  obtain ⟨start, load, all⟩ :=
    wellFormed_of_run [0x00, 0xE0] (by decide) "clear" ⟨0, 0⟩ true
  obtain rfl := Except.ok.inj ((loadRom_of_le _ (by decide) _).symm.trans load)
  let held : Machine := { fresh ⟨0, 0⟩ true with
    memory := (fresh ⟨0, 0⟩ true).memory.store programStart [0x00, 0xE0]
    keypad := Vector.replicate 16 true }
  have word : held.word = 0x00E0 := by decide +kernel
  have clears : held.Completes .cls := ⟨by decide, by rw [word]; decide, rfl⟩
  have clear : held.Transition (.instruction 0x00E0) (held.perform .cls held.bus held.operands) :=
    by rw [← word]; exact .instruction clears.step
  have pressed := Transition.keys { held with keypad := Vector.replicate 16 false }
    (Vector.replicate 16 true)
  have decayed : (held.perform .cls held.bus held.operands).decayTimers 3 = .ok _ :=
    decayTimers_eq (by decide) (by decide)
  have run := Run.cons pressed (.cons clear (.cons (.decay decayed) (.cons (.present _) (.nil _))))
  exact ⟨_, _, load, run, all _ _ run⟩

end Machine

end Chip8
