import Chip8.Machine.Perform

/-! # Effects of instructions

What the handlers leave in each field of the machine but memory, one statement for each of them.
The draw flag is written and never read.
-/

namespace Chip8

/-- Whether an instruction of the kind may write register `r`, if its word names `x` first. -/
def Kind.WritesV (k : Kind) (x r : Fin 16) : Prop :=
  match k with
  | .ldImm | .addImm | .ldReg | .orReg | .andReg | .xorReg | .rnd | .ldVxDt | .ldVxK => r = x
  | .addReg | .sub | .shr | .subn | .shl => r = x ∨ r = 15
  | .drw => r = 15
  | .ldVMem => r ≤ x
  | _ => False

namespace Machine

variable (bus : OpenBus) (o : Operands) (m : Machine)

theorem arithmetic_eq (op : UInt8 → UInt8 → Alu) :
    m.arithmetic op o =
      let r := op (m.getV o.x) (m.getV o.y)
      let m' := m.setV o.x r.value
      { m with v := r.flag.elim m'.v fun flag => (m'.setV 15 flag).v }.advance 1 := by
  unfold arithmetic writeAlu
  obtain ⟨value, _ | flag⟩ := op (m.getV o.x) (m.getV o.y) <;> rfl

theorem waitForKey_eq :
    m.waitForKey o =
      { m with v := m.lowestKey?.elim m.v fun k => (m.setV o.x (UInt8.ofNat k)).v }.advance
        (if m.lowestKey?.isSome then 1 else 0) := by
  unfold waitForKey
  cases m.lowestKey? with
  | none => simp [advance]
  | some k => rfl

-- Handlers are opened in this module only; elsewhere the statements below stand for them.
attribute [local simp] perform clearScreen returnFromCall jump call skipIf jumpWithOffset random
  drawSprite addToIndex fontAddress storeDecimal storeRegisters loadRegisters setV advance
  arithmetic_eq waitForKey_eq

theorem stack_perform (k : Kind) :
    (m.perform k bus o).stack =
      match k with
      | .ret => m.stack.pop
      | .call => m.stack.push (m.pc.toNat + 2)
      | _ => m.stack := by
  cases k <;> simp

theorem i_perform (k : Kind) :
    (m.perform k bus o).i =
      match k with
      | .ldI => o.nnn
      | .addI => (m.i + (m.getV o.x).toUInt16) &&& 0x0FFF
      | .ldF => (m.getV o.x).toUInt16 * 5
      | _ => m.i := by
  cases k <;> simp

theorem display_perform (k : Kind) :
    (m.perform k bus o).display =
      match k with
      | .cls => Vector.replicate 2048 0
      | .drw => m.display.zipWith (· ^^^ ·) (m.spriteMask bus o)
      | _ => m.display := by
  cases k <;> simp

theorem delay_perform (k : Kind) :
    (m.perform k bus o).delay =
      match k with
      | .ldDt => m.getV o.x
      | _ => m.delay := by
  cases k <;> simp

theorem sound_perform (k : Kind) :
    (m.perform k bus o).sound =
      match k with
      | .ldSt => m.getV o.x
      | _ => m.sound := by
  cases k <;> simp

theorem keypad_perform (k : Kind) : (m.perform k bus o).keypad = m.keypad := by
  cases k <;> simp

theorem maskRegister_perform (k : Kind) :
    (m.perform k bus o).maskRegister = m.maskRegister := by
  cases k <;> simp

theorem rng_perform (k : Kind) :
    (m.perform k bus o).rng =
      match k with
      | .rnd => m.rng.next
      | _ => m.rng := by
  cases k <;> simp

theorem getV_setV (x r : Fin 16) (value : UInt8) :
    (m.setV x value).getV r = if x = r then value else m.getV r := by
  simp [getV, Vector.getElem_set, Fin.ext_iff]

/-- The flag of an operation is written last. -/
theorem getV_writeAlu_flag (x : Fin 16) {a : Alu} {flag : UInt8} (h : a.flag = some flag) :
    (m.writeAlu x a).getV 15 = flag := by
  simp only [writeAlu, h, getV_setV, if_true]

theorem getV_writeAlu (x : Fin 16) {a : Alu} {r : Fin 16} (h : a.flag = none ∨ r ≠ 15) :
    (m.writeAlu x a).getV r = if r = x then a.value else m.getV r := by
  simp only [eq_comm (b := x)]
  unfold writeAlu
  split
  · exact m.getV_setV x r a.value
  · next flagged =>
    have register : r ≠ 15 := h.resolve_left (by rw [flagged]; exact Option.some_ne_none _)
    rw [getV_setV, if_neg register.symm, getV_setV]

theorem getV_arithmetic (op : UInt8 → UInt8 → Alu) {r : Fin 16} (hx : r ≠ o.x)
    (hf : (op (m.getV o.x) (m.getV o.y)).flag = none ∨ r ≠ 15) :
    (m.arithmetic op o).getV r = m.getV r :=
  (m.getV_writeAlu o.x hf).trans (if_neg hx)

def draws : Kind → Bool
  | .cls | .drw => true
  | _ => false

/-- The draw flag is raised or kept, and makes no difference to anything else. -/
theorem perform_draw (draw : Bool) (k : Kind) :
    perform k bus o { m with draw } = { m.perform k bus o with draw := draws k || draw } := by
  cases k
  case ldReg | orReg | andReg | xorReg | addReg | sub | shr | subn | shl =>
    rw [perform, perform, arithmetic_eq, arithmetic_eq]
    rfl
  case ldVxK =>
    rw [perform, perform, waitForKey_eq, waitForKey_eq]
    rfl
  all_goals rfl

theorem draw_perform (k : Kind) : (m.perform k bus o).draw = (draws k || m.draw) :=
  congrArg Machine.draw (perform_draw bus o m m.draw k)

/-- Only the instruction that reads the delay timer tells machines with other timers apart. -/
theorem perform_timers (delay sound : UInt8) {k : Kind} (hk : k ≠ .ldVxDt) :
    perform k bus o { m with delay, sound } =
      { m.perform k bus o with
        delay := if k = .ldDt then m.getV o.x else delay
        sound := if k = .ldSt then m.getV o.x else sound } := by
  cases k
  case ldVxDt => exact absurd rfl hk
  case ldReg | orReg | andReg | xorReg | addReg | sub | shr | subn | shl =>
    rw [perform, perform, arithmetic_eq, arithmetic_eq]
    rfl
  case ldVxK =>
    rw [perform, perform, waitForKey_eq, waitForKey_eq]
    rfl
  all_goals rfl

theorem getV_perform {k : Kind} {r : Fin 16} (h : ¬k.WritesV o.x r) :
    (m.perform k bus o).getV r = m.getV r := by
  have kept {x : Fin 16} (hx : r ≠ x) (value : UInt8) : (m.setV x value).getV r = m.getV r := by
    rw [getV_setV, if_neg hx.symm]
  cases k
  case ldReg | orReg | andReg | xorReg => exact getV_arithmetic o m _ h (.inl rfl)
  case addReg | sub | shr | subn | shl =>
    obtain ⟨hx, hf⟩ := not_or.mp h
    exact getV_arithmetic o m _ hx (.inr hf)
  case ldImm | addImm | rnd | ldVxDt | drw => exact kept h _
  case ldVxK =>
    rw [perform, waitForKey]
    split
    · exact kept h _
    · rfl
  case ldVMem =>
    have past : ¬r ≤ o.x := h
    simp [getV, loadedRegisters, past]
  all_goals simp [getV]

/-- How many instructions the program counter moves past, unless the instruction jumps. -/
def stride (k : Kind) : UInt16 :=
  match k with
  | .seImm => if m.getV o.x == o.nn then 2 else 1
  | .sneImm => if m.getV o.x != o.nn then 2 else 1
  | .seReg => if m.getV o.x == m.getV o.y then 2 else 1
  | .sneReg => if m.getV o.x != m.getV o.y then 2 else 1
  | .skp => if m.keyAt o then 2 else 1
  | .sknp => if !m.keyAt o then 2 else 1
  | .ldVxK => if m.lowestKey?.isSome then 1 else 0
  | _ => 1

theorem pc_perform (k : Kind) :
    (m.perform k bus o).pc =
      match k with
      | .ret => m.stack.top bus.stack
      | .jp | .call => o.nnn
      | .jpV0 => (o.nnn + (m.getV 0).toUInt16) &&& 0x0FFF
      | _ => m.pc + 2 * m.stride o k := by
  cases k <;> simp [stride]

end Machine

end Chip8
