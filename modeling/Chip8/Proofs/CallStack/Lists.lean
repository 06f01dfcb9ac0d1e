import Chip8.Proofs.CallStack

/-! # Call stacks as bounded lists

From outside a call stack is a list of at most forty-eight addresses of twelve bits. A push
appends to the list unless it is full, and a pop takes off the last address, or answers zero if
there is none. The slots behind the list are clear, so that the list determines the stack, and
pushes and pops that match each other like brackets leave nothing behind.
-/

namespace Chip8

/-- A push or a pop, done without asking for room. -/
inductive StackOperation where
  | push (address : Nat)
  | pop

namespace StackOperation

variable {σ α : Type}

def run (perform : StackOperation → σ → σ × Option α) : List StackOperation → σ → σ × List α
  | [], s => (s, [])
  | operation :: rest, s =>
    let (after, answer) := perform operation s
    let (final, answers) := run perform rest after
    (final, answer.toList ++ answers)

/-- How much higher operations leave a stack that has room for them. -/
def level : List StackOperation → Int
  | [] => 0
  | push _ :: rest => level rest + 1
  | pop :: rest => level rest - 1

/-- Operations that end at the height where they begin, and in between go no lower and at most
`room` higher. -/
structure Brackets (room : Nat) (operations : List StackOperation) : Prop where
  closed : level operations = 0
  within : ∀ part, part <+: operations → 0 ≤ level part ∧ level part ≤ room

end StackOperation

open StackOperation

/-! ## Lists -/

/-- A list that holds at most forty-eight addresses, after a push. -/
def pushed (address : Nat) (l : List Nat) : List Nat :=
  if l.length = 48 then l else l ++ [address &&& 0xFFF]

/-- A push or a pop on such a list, the latest address last. -/
def performOnList : StackOperation → List Nat → List Nat × Option Nat
  | .push address, l => (pushed address l, none)
  | .pop, l => (l.dropLast, some (l.getLast?.getD 0))

section

variable {operations : List StackOperation} {l above : List Nat}

/-- Operations do not touch what lies below the lowest height that they come to. -/
theorem exists_run_performOnList
    (within : ∀ part, part <+: operations →
      0 ≤ above.length + level part ∧ l.length + above.length + level part ≤ 48) :
    ∃ above', (run performOnList operations (l ++ above)).1 = l ++ above' ∧
      above'.length = above.length + level operations := by
  induction operations generalizing above with
  | nil => exact ⟨above, rfl, by simp [level]⟩
  | cons operation rest ih =>
    have first := within [operation] (by simp)
    have later (part : List StackOperation) (h : part <+: rest) :=
      within (operation :: part) (List.cons_prefix_cons.mpr ⟨rfl, h⟩)
    cases operation with
    | push address =>
      have room : (l ++ above).length ≠ 48 := by
        simp only [level, List.length_append] at first ⊢
        omega
      obtain ⟨above', eq, length⟩ := @ih (above ++ [address &&& 0xFFF]) fun part h => by
        have := later part h
        simp only [level, List.length_append, List.length_singleton] at this ⊢
        omega
      refine ⟨above', ?_, ?_⟩
      · rw [← eq, ← List.append_assoc]
        simp only [run, performOnList, pushed, if_neg room]
      · simp only [level, length, List.length_append, List.length_singleton]
        omega
    | pop =>
      have some : 0 < above.length := by
        simp only [level] at first
        omega
      obtain ⟨above', eq, length⟩ := @ih above.dropLast fun part h => by
        have := later part h
        simp only [level, List.length_dropLast] at this ⊢
        omega
      refine ⟨above', ?_, ?_⟩
      · rw [← eq, ← List.dropLast_append_of_ne_nil (List.length_pos_iff.mp some)]
        rfl
      · simp only [level, length, List.length_dropLast]
        omega

theorem run_performOnList_brackets (brackets : Brackets (48 - l.length) operations)
    (le : l.length ≤ 48) : (run performOnList operations l).1 = l := by
  have within (part : List StackOperation) (h : part <+: operations) :
      0 ≤ ([] : List Nat).length + level part ∧
        l.length + ([] : List Nat).length + level part ≤ 48 := by
    have := brackets.within part h
    simp only [List.length_nil]
    omega
  obtain ⟨above, eq, length⟩ := exists_run_performOnList within
  rw [brackets.closed] at length
  obtain rfl : above = [] := List.length_eq_zero_iff.mp (by simpa using length)
  simpa using eq

end

/-! ## Stacks -/

namespace CallStack

def perform (beyond : UInt16) : StackOperation → CallStack → CallStack × Option UInt16
  | .push address, s => (s.push address, none)
  | .pop, s => (s.pop, some (s.top beyond))

/-- The entries below the pointer are a list, and those from the pointer on are zero. -/
structure Lists (s : CallStack) (l : List Nat) : Prop where
  pointer : s.pointer = l.length
  le : l.length ≤ 48
  live : ∀ (k : Nat) (h : k < l.length), s.entries[k].toNat = l[k]
  clear : ∀ (k : Nat) (h : k < 48), l.length ≤ k → s.entries[k] = 0

theorem push_of_full {s : CallStack} (full : s.pointer = 48) (address : Int) :
    s.push address = s := by
  have dropped : s.store s.pointer (UInt16.ofInt (address % 4096)) = s.entries := by
    rw [store, slot_of_le (by omega)]
  have pointer : min (wrap32 (s.pointer + 1)) 48 = s.pointer := by
    rw [full]
    decide
  rw [push, dropped, pointer]

theorem lists_empty : ({} : CallStack).Lists [] where
  pointer := rfl
  le := by decide
  live k h := absurd h (Nat.not_lt_zero k)
  clear k h _ := by simp

namespace Lists

variable {s t : CallStack} {l : List Nat}

theorem low (h : s.Lists l) : 0 ≤ s.pointer := by
  have := h.pointer
  omega

theorem high (h : s.Lists l) : s.pointer ≤ 48 := by
  have := h.pointer
  have := h.le
  omega

theorem eq (h : s.Lists l) (h' : t.Lists l) : s = t := by
  have le := h.le
  have entries : s.entries = t.entries := by
    ext k hk
    by_cases live : k < l.length
    · rw [UInt16.toNat_inj.mp ((h.live k live).trans (h'.live k live).symm)]
    · rw [h.clear k hk (Nat.not_lt.mp live), h'.clear k hk (Nat.not_lt.mp live)]
  have pointer : s.pointer = t.pointer := h.pointer.trans h'.pointer.symm
  cases s
  cases t
  cases entries
  cases pointer
  rfl

theorem push (h : s.Lists l) (address : Nat) : (s.push address).Lists (pushed address l) := by
  have pointer := h.pointer
  have le := h.le
  unfold pushed
  split
  · next full =>
    have full : s.pointer = 48 := by omega
    rw [push_of_full full]
    exact h
  · next room =>
    have length : (l ++ [address &&& 0xFFF]).length = l.length + 1 := List.length_append
    refine ⟨?_, by omega, fun k hk => ?_, fun k hk free => ?_⟩
    · rw [pointer_push h.low h.high, length]
      omega
    · rw [getElem_push h.low]
      by_cases last : k = l.length
      · have kept := toNat_ofInt_emod address
        have low : address &&& 0xFFF = address % 4096 := Nat.and_two_pow_sub_one_eq_mod address 12
        subst last
        rw [if_pos pointer, List.getElem_concat_length rfl]
        omega
      · have live : k < l.length := by omega
        rw [if_neg (by omega), h.live k live, List.getElem_append_left live]
    · rw [getElem_push h.low, if_neg (by omega)]
      exact h.clear k hk (by omega)

theorem pop (h : s.Lists l) : s.pop.Lists l.dropLast := by
  have pointer := h.pointer
  have le := h.le
  have popped := popped_eq h.low h.high
  have length : l.dropLast.length = l.length - 1 := List.length_dropLast
  refine ⟨?_, by omega, fun k hk => ?_, fun k hk free => ?_⟩
  · show s.popped = _
    omega
  · have live : k < l.length := by omega
    rw [getElem_pop, if_neg (by omega), h.live k live, List.getElem_dropLast]
  · rw [getElem_pop]
    split
    · rfl
    · exact h.clear k hk (by omega)

/-- From an empty stack the first slot is read, which is clear. -/
theorem top (h : s.Lists l) (beyond : UInt16) : (s.top beyond).toNat = l.getLast?.getD 0 := by
  have pointer := h.pointer
  have le := h.le
  have popped := popped_eq h.low h.high
  rw [CallStack.top, dif_pos (by omega), List.getLast?_eq_getElem?]
  by_cases empty : l.length = 0
  · rw [h.clear _ (by omega) (by omega), List.getElem?_eq_none (by omega)]
    rfl
  · have last : s.popped.toNat = l.length - 1 := by omega
    have live : l.length - 1 < l.length := by omega
    simp only [last, h.live _ live, List.getElem?_eq_getElem live, Option.getD_some]

theorem perform (h : s.Lists l) (beyond : UInt16) (operation : StackOperation) :
    (CallStack.perform beyond operation s).1.Lists (performOnList operation l).1 ∧
      (CallStack.perform beyond operation s).2.map UInt16.toNat =
        (performOnList operation l).2 := by
  cases operation with
  | push address => exact ⟨h.push address, rfl⟩
  | pop => exact ⟨h.pop, congrArg some (h.top beyond)⟩

theorem run (h : s.Lists l) (beyond : UInt16) (operations : List StackOperation) :
    (StackOperation.run (CallStack.perform beyond) operations s).1.Lists
        (StackOperation.run performOnList operations l).1 ∧
      (StackOperation.run (CallStack.perform beyond) operations s).2.map UInt16.toNat =
        (StackOperation.run performOnList operations l).2 := by
  induction operations generalizing s l with
  | nil => exact ⟨h, rfl⟩
  | cons operation rest ih =>
    obtain ⟨lists, answer⟩ := h.perform beyond operation
    obtain ⟨final, answers⟩ := ih lists
    refine ⟨final, ?_⟩
    simp only [StackOperation.run, List.map_append, answers, ← answer]
    congr 1
    cases (CallStack.perform beyond operation s).2 <;> rfl

theorem overflow_iff (h : s.Lists l) : Fault.codeOf s.overflow? ≠ 0 ↔ l.length = 48 := by
  have pointer := h.pointer
  have le := h.le
  unfold overflow?
  split
  · exact ⟨fun _ => by omega, fun _ => by decide⟩
  · exact ⟨fun fault => absurd rfl fault, fun _ => by omega⟩

theorem underflow_iff (h : s.Lists l) : Fault.codeOf s.underflow? ≠ 0 ↔ l = [] := by
  have pointer := h.pointer
  rw [← List.length_eq_zero_iff]
  unfold underflow?
  split
  · exact ⟨fun _ => by omega, fun _ => by decide⟩
  · exact ⟨fun fault => absurd rfl fault, fun _ => by omega⟩

end Lists

/-- All operations on an empty stack act as on a list and return what it returns. A push finds no
room exactly if the list is full, and a pop finds nothing exactly if it is empty. Whatever was done
before, operations that match each other like brackets and find room restore the stack. -/
theorem performs_as_list (beyond : UInt16) (operations : List StackOperation) :
    let s := (run (perform beyond) operations {}).1
    let l := (run performOnList operations []).1
    s.Lists l ∧
      (run (perform beyond) operations {}).2.map UInt16.toNat =
        (run performOnList operations []).2 ∧
      (Fault.codeOf s.overflow? ≠ 0 ↔ l.length = 48) ∧
      (Fault.codeOf s.underflow? ≠ 0 ↔ l = []) ∧
      ∀ inner, Brackets (48 - l.length) inner → (run (perform beyond) inner s).1 = s := by
  intro s l
  obtain ⟨lists, answers⟩ := lists_empty.run beyond operations
  refine ⟨lists, answers, lists.overflow_iff, lists.underflow_iff, fun inner brackets => ?_⟩
  have after := (lists.run beyond inner).1
  rw [run_performOnList_brackets brackets lists.le] at after
  exact after.eq lists

/-- A call and its return in the last slot of the stack. -/
theorem performs_as_list_last_slot :
    let s := (run (perform 0) (List.replicate 47 (.push 0x1202)) {}).1
    s.pointer = 47 ∧ (run (perform 0) [.push 0xFFFF, .pop] s).1 = s := by
  obtain ⟨lists, -, -, -, restores⟩ := performs_as_list 0 (List.replicate 47 (.push 0x1202))
  have length : (run performOnList (List.replicate 47 (.push 0x1202)) []).1.length = 47 := by
    decide
  rw [length] at restores
  refine ⟨lists.pointer.trans (by rw [length]; rfl), restores _ ⟨rfl, fun part h => ?_⟩⟩
  simp only [List.prefix_cons_iff, List.prefix_nil] at h
  obtain rfl | ⟨-, rfl, rfl | ⟨-, rfl, rfl⟩⟩ := h
  all_goals decide

end CallStack

end Chip8
