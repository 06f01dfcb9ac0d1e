import Chip8.Proofs.CallStack
import Chip8.Proofs.Machine.Effects
import Chip8.Proofs.Machine.Runs

/-! # Faults

A machine faults in five cases, which exclude each other and are told from the program counter,
the word there, the stack pointer and the index register. A step fails exactly in these cases,
with an error that names the cause and its place, and so does a batch in the state that it
returns.
-/

namespace Chip8.Machine

variable (m : Machine)

def opcode : Nat :=
  0x100 * (m.memory[m.pc.toNat]?.getD 0).toNat + (m.memory[m.pc.toNat + 1]?.getD 0).toNat

/-- The cases in which a machine faults. -/
def FaultsWith : Fault → Prop
  | .fetchPastEnd => 0xFFF ≤ m.pc.toNat
  | .unknownOpcode => m.pc.toNat < 0xFFF ∧ ∀ k : Kind, ¬k.Matches m.opcode
  | .stackUnderflow => m.pc.toNat < 0xFFF ∧ m.opcode = 0x00EE ∧ m.stack.pointer = 0
  | .stackOverflow => m.pc.toNat < 0xFFF ∧ Kind.call.Matches m.opcode ∧ m.stack.pointer = 48
  | .memoryRange => m.pc.toNat < 0xFFF ∧
      (Kind.drw.Matches m.opcode ∧ 4096 < m.i.toNat + m.opcode % 0x10 ∨
        Kind.ldB.Matches m.opcode ∧ 4096 < m.i.toNat + 3 ∨
        (Kind.ldMemV.Matches m.opcode ∨ Kind.ldVMem.Matches m.opcode) ∧
          4096 < m.i.toNat + (m.opcode / 0x100 % 0x10 + 1))

/-- The error that reports a fault. A fetch that fails has no word to report. -/
def report : Fault → ExecutionError
  | .fetchPastEnd =>
    { family := .memoryAccess, reason := "Instruction fetch past end of memory"
      opcode := none, pc := some m.pc.toNat }
  | .unknownOpcode =>
    { family := .decode, reason := "Unknown opcode"
      opcode := some m.opcode, pc := some m.pc.toNat }
  | .stackUnderflow =>
    { family := .stackUnderflow, reason := "Return with empty call stack"
      opcode := some m.opcode, pc := some m.pc.toNat }
  | .stackOverflow =>
    { family := .stackOverflow, reason := "Call stack overflow, depth 48 exceeded"
      opcode := some m.opcode, pc := some m.pc.toNat }
  | .memoryRange =>
    { family := .memoryAccess
      reason := "Memory access out of range from I=0x" ++ Text.hex 3 m.i.toNat
      opcode := some m.opcode, pc := some m.pc.toNat }

variable {m}

theorem toNat_word (fetched : m.pc.toNat < 0xFFF) : m.word.toNat = m.opcode := by
  rw [word, Memory.toNat_word _ _ (by omega), opcode, Vector.getElem?_eq_getElem (by omega),
    Vector.getElem?_eq_getElem (by omega)]
  rfl

theorem check_eq_some_iff (low : 0 ≤ m.stack.pointer) (high : m.stack.pointer ≤ 48)
    (o : Operands) (k : Kind) (f : Fault) :
    m.check k o = some f ↔
      match f with
      | .stackUnderflow => k = .ret ∧ m.stack.pointer = 0
      | .stackOverflow => k = .call ∧ m.stack.pointer = 48
      | .memoryRange =>
        k = .drw ∧ 4096 < m.i.toNat + o.n ∨ k = .ldB ∧ 4096 < m.i.toNat + 3 ∨
          (k = .ldMemV ∨ k = .ldVMem) ∧ 4096 < m.i.toNat + (o.x + 1)
      | .unknownOpcode | .fetchPastEnd => False := by
  have empty : m.stack.pointer ≤ 0 ↔ m.stack.pointer = 0 := by omega
  have full : 48 ≤ m.stack.pointer ↔ m.stack.pointer = 48 := by omega
  cases k <;> cases f <;>
    simp [check, CallStack.underflow?, CallStack.overflow?, Memory.range?, empty, full]
  omega

/-- The machine meets the fault whose case it is in. -/
theorem fault?_eq_some_iff (low : 0 ≤ m.stack.pointer) (high : m.stack.pointer ≤ 48) {f : Fault} :
    m.fault? = some f ↔ m.FaultsWith f := by
  by_cases fetched : m.pc.toNat < 0xFFF
  · have word := toNat_word fetched
    have hw := word ▸ m.word.toNat_lt
    rw [fault?, if_neg (by omega), word]
    cases hk : Kind.classify m.opcode with
    | none =>
      -- No kind fits the word, so the cases that need one do not arise.
      have none := (Kind.classify_eq_none_iff hw).mp hk
      have ret : m.opcode ≠ 0x00EE := by
        intro h
        rw [h] at hk
        cases hk
      cases f <;> simp [FaultsWith, fetched, none, ret]
    | some k =>
      have fits := Kind.matches_of_classify hw hk
      have same (l : Kind) : l.Matches m.opcode ↔ k = l :=
        ⟨fits.unique, fun h => h ▸ fits⟩
      have ret : m.opcode = 0x00EE ↔ k = .ret := by
        rw [← same]
        constructor
        · intro h
          rw [h]
          decide
        · rintro ⟨hd, hv⟩
          simp only [Kind.pattern] at hd hv
          omega
      have n : m.operands.n.val = m.opcode % 0x10 := word ▸ Operands.n_ofWord m.word
      have x : m.operands.x.val = m.opcode / 0x100 % 0x10 := word ▸ Operands.x_ofWord m.word
      simp only [check_eq_some_iff low high, n, x]
      cases f <;> simp [FaultsWith, fetched, same, ret]
  · rw [fault?, if_pos (by omega)]
    cases f <;> simp [FaultsWith, fetched]
    omega

theorem faultError_eq_report {f : Fault} (h : m.fault? = some f) :
    m.faultError f = m.report f := by
  by_cases fetched : m.pc.toNat < 0xFFF
  · rw [faultError, fetch_of_lt m fetched]
    simp only [Except.toOption, Option.map_some, toNat_word fetched]
    cases f <;> rfl
  · rw [fault?, if_pos (by omega)] at h
    cases h
    rfl

theorem pointer_step {m' : Machine} (h : m.step = .ok m')
    (bounds : 0 ≤ m.stack.pointer ∧ m.stack.pointer ≤ 48) :
    0 ≤ m'.stack.pointer ∧ m'.stack.pointer ≤ 48 := by
  obtain ⟨low, high⟩ := bounds
  obtain ⟨k, -, rfl⟩ := step_eq_ok_iff.mp h
  rw [stack_perform]
  split
  · have := CallStack.popped_eq low high
    exact ⟨CallStack.pointer_pop_nonneg _, show m.stack.popped ≤ 48 by omega⟩
  · have := CallStack.pointer_push low high (m.pc.toNat + 2)
    omega
  · exact ⟨low, high⟩

theorem pointer_runBatch {count phase : Int} {r : TimerRatio} {b : Batch}
    (h : m.runBatch count r phase = .ok b)
    (bounds : 0 ≤ m.stack.pointer ∧ m.stack.pointer ≤ 48) :
    0 ≤ b.machine.stack.pointer ∧ b.machine.stack.pointer ≤ 48 := by
  obtain ⟨-, rfl⟩ | ⟨-, rfl⟩ := runBatch_eq_ok h
  · exact bounds
  · exact cycles_induction (P := fun m => 0 ≤ m.stack.pointer ∧ m.stack.pointer ≤ 48)
      (fun _ bounds hs => by
        have := pointer_step hs bounds
        exact this) _ _ bounds

/-- A batch ends with an error exactly if it falls short of its cycles, and then the state that
it returns meets the fault of that error. -/
theorem runBatch_stop {count phase : Int} {r : TimerRatio} {b : Batch}
    (h : m.runBatch count r phase = .ok b) :
    b.executed ≤ count.toNat ∧ (b.error = none ↔ b.executed = count.toNat) ∧
      ∀ e, b.error = some e → ∃ f, b.machine.fault? = some f ∧ e = b.machine.faultError f := by
  obtain ⟨none, rfl⟩ | ⟨-, rfl⟩ := runBatch_eq_ok h
  · simp [Int.toNat_of_nonpos none]
  · exact m.runFrom_stop r _ _

theorem family_report (f : Fault) : (m.report f).family ≠ .execution := by
  cases f <;> simp [report]

theorem faultError_iff (low : 0 ≤ m.stack.pointer) (high : m.stack.pointer ≤ 48)
    {e : ExecutionError} :
    (∃ f, m.fault? = some f ∧ e = m.faultError f) ↔ ∃ f, m.FaultsWith f ∧ e = m.report f := by
  refine exists_congr fun f => ?_
  rw [← fault?_eq_some_iff low high]
  exact and_congr_right fun h => by rw [faultError_eq_report h]

theorem FaultsWith.unique (low : 0 ≤ m.stack.pointer) (high : m.stack.pointer ≤ 48) {f g : Fault}
    (hf : m.FaultsWith f) (hg : m.FaultsWith g) : f = g := by
  rw [← fault?_eq_some_iff low high] at hf hg
  exact Option.some.inj (hf.symm.trans hg)

theorem step_eq_ok_iff_not_faultsWith (low : 0 ≤ m.stack.pointer) (high : m.stack.pointer ≤ 48) :
    (∃ m', m.step = .ok m') ↔ ∀ f, ¬m.FaultsWith f := by
  simp only [← fault?_eq_some_iff low high, ← Option.eq_none_iff_forall_ne_some,
    fault?_eq_none_iff]
  constructor
  · rintro ⟨m', h⟩
    obtain ⟨k, hk, -⟩ := step_eq_ok_iff.mp h
    exact ⟨k, hk⟩
  · rintro ⟨k, hk⟩
    exact ⟨_, hk.step⟩

/-- The errors of a step and of a batch are those of the five cases. -/
theorem error_iff_faultsWith (m : Machine) (low : 0 ≤ m.stack.pointer)
    (high : m.stack.pointer ≤ 48) :
    (∀ e, m.step = .error e ↔ ∃ f, m.FaultsWith f ∧ e = m.report f) ∧
      ((∃ m', m.step = .ok m') ↔ ∀ f, ¬m.FaultsWith f) ∧
      (∀ f g, m.FaultsWith f → m.FaultsWith g → f = g) ∧
      (∀ e, m.step = .error e → e.family ≠ .execution) ∧
      ∀ count r phase b, m.runBatch count r phase = .ok b →
        (b.error = none ↔ b.executed = count.toNat) ∧
        (∀ e, b.error = some e ↔ b.executed < count.toNat ∧
          ∃ f, b.machine.FaultsWith f ∧ e = b.machine.report f) ∧
        ∀ e, b.error = some e → e.family ≠ .execution := by
  have single (e : ExecutionError) : m.step = .error e ↔ ∃ f, m.FaultsWith f ∧ e = m.report f := by
    rw [step_eq_error_iff, faultError_iff low high]
  refine ⟨single, step_eq_ok_iff_not_faultsWith low high,
    fun f g => FaultsWith.unique low high, ?_, ?_⟩
  · intro e he
    obtain ⟨f, -, rfl⟩ := (single e).mp he
    exact family_report f
  intro count r phase b h
  obtain ⟨low, high⟩ := pointer_runBatch h ⟨low, high⟩
  obtain ⟨bound, short, fault⟩ := runBatch_stop h
  have ended (e : ExecutionError) (he : b.error = some e) :
      b.executed < count.toNat ∧ ∃ f, b.machine.FaultsWith f ∧ e = b.machine.report f := by
    refine ⟨?_, (faultError_iff low high).mp (fault e he)⟩
    have : b.error ≠ none := by simp [he]
    have := mt short.mpr this
    omega
  refine ⟨short, fun e => ⟨ended e, ?_⟩, ?_⟩
  · rintro ⟨less, f, hf, rfl⟩
    obtain ⟨e, he⟩ := Option.ne_none_iff_exists'.mp (mt short.mp (by omega))
    obtain ⟨-, g, hg, rfl⟩ := ended e he
    rw [he, hf.unique low high hg]
  · intro e he
    obtain ⟨-, f, -, rfl⟩ := ended e he
    exact family_report f

/-- A call from a full stack. -/
theorem error_iff_faultsWith_full_stack :
    ({ rng := ⟨0, 0⟩, stack := { pointer := 48 }
       memory := Memory.store (Vector.replicate 4096 0) 0x200 [0x23, 0x45] } : Machine).step =
      .error {
        family := .stackOverflow, reason := "Call stack overflow, depth 48 exceeded"
        opcode := some 0x2345, pc := some 0x200 } := by
  let full : Machine := {
    rng := ⟨0, 0⟩, stack := { pointer := 48 }
    memory := Memory.store (Vector.replicate 4096 0) 0x200 [0x23, 0x45] }
  have word : full.opcode = 0x2345 := by decide +kernel
  have overflow : full.FaultsWith .stackOverflow :=
    ⟨by decide, by rw [word]; decide, rfl⟩
  refine ((error_iff_faultsWith full (by decide) (by decide)).1 _).mpr ⟨_, overflow, ?_⟩
  rw [report, word]
  rfl

end Chip8.Machine
