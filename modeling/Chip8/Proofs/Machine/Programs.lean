import Chip8.Proofs.Machine.Timed

/-! # Programs that set the timer

Timed runs of programs that set the delay timer once, or again and again. What such a program
leaves in the timer tells the ticks of its run.
-/

namespace Chip8.Machine

variable {m : Machine}

/-- The machine is about to run a program from its start. -/
structure Holds (m : Machine) (rom : List UInt8) : Prop where
  memory : ∃ before : Memory, m.memory = before.store programStart rom
  pc : m.pc = 0x200

theorem Holds.word {rom : List UInt8} (holds : m.Holds rom) (fits : rom.length ≤ maxRomSize)
    (k : Nat) {high low : UInt8} (hk : rom[k]? = some high) (hk' : rom[k + 1]? = some low)
    {w : UInt16} (hw : high.toUInt16 <<< 8 ||| low.toUInt16 = w) {pc : UInt16}
    (hpc : pc.toNat = programStart + k) : { m with pc }.word = w := by
  have size : maxRomSize = 3584 := rfl
  have start : programStart = 512 := rfl
  obtain ⟨before, hm⟩ := holds.memory
  have byte {k : Nat} {b : UInt8} (h : rom[k]? = some b) :
      m.memory.read m.bus.memory (programStart + k) = b := by
    obtain ⟨inside, -⟩ := List.getElem?_eq_some_iff.mp h
    rw [Memory.read_of_lt (by omega)]
    simp only [hm]
    rw [Memory.getElem_store, if_pos (by omega), Nat.add_sub_cancel_left, h, Option.getD_some]
  rw [← hw, Machine.word, hpc, Memory.word]
  exact congrArg₂ (fun high low : UInt8 => high.toUInt16 <<< 8 ||| low.toUInt16) (byte hk)
    (byte hk')

section

variable {w : UInt16} (h : m.word = w) (fetched : m.pc.toNat < 0xFFF)
include h fetched

theorem step_of_word (k : Kind) (hk : k.Matches w.toNat)
    (passed : m.check k (Operands.ofWord w) = none) :
    m.step = .ok (m.perform k m.bus (Operands.ofWord w)) := by
  subst h
  exact (⟨fetched, hk, passed⟩ : m.Completes k).step

theorem step_ldImm (hk : Kind.ldImm.Matches w.toNat) :
    m.step = .ok { m with
      v := m.v.set (Operands.ofWord w).x (Operands.ofWord w).nn
      pc := m.pc + 2 } :=
  step_of_word h fetched .ldImm hk rfl

theorem step_ldDt (hk : Kind.ldDt.Matches w.toNat) :
    m.step = .ok { m with delay := m.getV (Operands.ofWord w).x, pc := m.pc + 2 } :=
  step_of_word h fetched .ldDt hk rfl

theorem step_jp (hk : Kind.jp.Matches w.toNat) :
    m.step = .ok { m with pc := (Operands.ofWord w).nnn } :=
  step_of_word h fetched .jp hk rfl

end

/-! ## Setting the timer once -/

/-- A program that sets the delay timer to five and then jumps in place. -/
def delayProgram : List UInt8 := [0x60, 0x05, 0xF0, 0x15, 0x12, 0x04]

def countDowns (ticks : Nat → Int) : Nat → UInt8 → UInt8
  | 0, timer => timer
  | count + 1, timer => countDowns (fun k => ticks (k + 1)) count (countDown (ticks 0) timer)

theorem runTimed_of_jump (p w : UInt16) (inside : p.toNat < 0xFFF)
    (hw : Kind.jp.Matches w.toNat) (target : (Operands.ofWord w).nnn = p) (hpc : m.pc = p)
    (h : { m with pc := p }.word = w) (ticks : Nat → Int) (count : Nat) :
    (m.runTimed ticks count).error = none ∧
      (m.runTimed ticks count).machine.delay = countDowns ticks count m.delay := by
  subst hpc
  induction count generalizing m ticks with
  | zero => exact ⟨rfl, rfl⟩
  | succ count ih =>
    have step : m.step = .ok m := by
      rw [step_jp h inside hw, target]
    rw [runTimed_of_step step]
    exact ih (m := m.countTimers (ticks 0)) (fun k => ticks (k + 1)) inside target h

theorem runTimed_delayProgram (holds : m.Holds delayProgram) (ticks : Nat → Int) (count : Nat) :
    (m.runTimed ticks (count + 2)).error = none ∧
      (m.runTimed ticks (count + 2)).machine.delay =
        countDowns (fun k => ticks (k + 1)) (count + 1) 5 := by
  have fits : delayProgram.length ≤ maxRomSize := by decide
  have start : m.pc.toNat = 0x200 := congrArg UInt16.toNat holds.pc
  have inside : (0x202 : UInt16).toNat < 0xFFF := by decide
  have load : m.word = 0x6005 := holds.word fits 0 rfl rfl (by decide) start
  have set : { m with pc := 0x202 }.word = 0xF015 := holds.word fits 2 rfl rfl (by decide) rfl
  have jump : { m with pc := 0x204 }.word = 0x1204 := holds.word fits 4 rfl rfl (by decide) rfl
  let full : Machine := { m with v := m.v.set 0 5, pc := 0x202 }
  have first : m.step = .ok full := by
    rw [step_ldImm load (by omega) (by decide), holds.pc]
    rfl
  have second : (full.countTimers (ticks 0)).step =
      .ok { full.countTimers (ticks 0) with delay := full.getV 0, pc := 0x204 } :=
    step_ldDt (m := full.countTimers (ticks 0)) set inside (by decide)
  have five : full.getV 0 = 5 := by simp [full, getV]
  rw [runTimed_of_step first, runTimed_of_step second, five]
  refine runTimed_of_jump 0x204 0x1204 (by decide) (by decide) (by decide) rfl ?_
    (fun k => ticks (k + 2)) count
  exact jump

/-! ## Setting the timer in a given cycle -/

/-- A loop of two instructions at `p`. The first sets the delay timer to `V0`, which holds 255,
and the second jumps back. -/
structure Reloads (m : Machine) (p w : UInt16) : Prop where
  inside : p.toNat < 0xFFD
  set : { m with pc := p }.word = 0xF015
  jump : { m with pc := p + 2 }.word = w
  jumps : Kind.jp.Matches w.toNat
  target : (Operands.ofWord w).nnn = p
  full : m.getV 0 = 255

section

variable {p w : UInt16}

theorem Reloads.step_set (h : m.Reloads p w) (hp : m.pc = p) :
    m.step = .ok { m with delay := 255, pc := p + 2 } := by
  have inside := h.inside
  have word : m.word = 0xF015 := by rw [← h.set, ← hp]
  rw [step_ldDt word (by rw [hp]; omega) (by decide), ← h.full, ← hp]
  rfl

theorem Reloads.step_jump (h : m.Reloads p w) (hp : m.pc = p + 2) :
    m.step = .ok { m with pc := p } := by
  have inside := h.inside
  have word : m.word = w := by rw [← h.jump, ← hp]
  have two : (2 : UInt16).toNat = 2 := rfl
  rw [step_jp word (by rw [hp, UInt16.toNat_add]; omega) h.jumps, h.target]

/-- The machine completes its cycles up to cycle `n` and sets the delay timer to 255 in that. -/
def SetsAt (m : Machine) (n : Nat) : Prop :=
  ∀ ticks : Nat → Int, (m.runTimed ticks (n + 1)).error = none ∧
    (m.runTimed ticks (n + 1)).machine.delay = countDown (ticks n) 255

theorem SetsAt.of_step {n : Nat} {m₁ : Machine} (h : m.step = .ok m₁)
    (later : ∀ ticks, (m₁.countTimers ticks).SetsAt n) : m.SetsAt (n + 1) := by
  intro ticks
  rw [runTimed_of_step h]
  exact later (ticks 0) fun k => ticks (k + 1)

theorem Reloads.setsAt (h : m.Reloads p w) {n : Nat}
    (hp : m.pc = if n % 2 = 0 then p else p + 2) : m.SetsAt n := by
  induction n generalizing m with
  | zero =>
    intro ticks
    rw [runTimed_of_step (h.step_set hp)]
    exact ⟨rfl, rfl⟩
  | succ n ih =>
    by_cases even : (n + 1) % 2 = 0
    · rw [if_pos even] at hp
      refine .of_step (h.step_set hp) fun ticks => ih ?_ ?_
      · exact ⟨h.inside, h.set, h.jump, h.jumps, h.target, h.full⟩
      · rw [if_neg (by omega)]
        rfl
    · rw [if_neg even] at hp
      refine .of_step (h.step_jump hp) fun ticks => ih ?_ ?_
      · exact ⟨h.inside, h.set, h.jump, h.jumps, h.target, h.full⟩
      · rw [if_pos (by omega)]
        rfl

end

theorem step_fill (fetched : m.pc.toNat < 0xFFF) (h : m.word = 0x60FF) :
    m.step = .ok { m with v := m.v.set 0 255, pc := m.pc + 2 } :=
  step_ldImm h fetched (by decide)

/-- For every cycle but the first there is a program that sets the delay timer in it. -/
theorem exists_setsAt (n : Nat) :
    ∃ rom : List UInt8, rom.length ≤ maxRomSize ∧
      ∀ m : Machine, m.Holds rom → m.SetsAt (n + 1) := by
  -- The loop is entered after one instruction or after two.
  by_cases even : n % 2 = 0
  · have fits : ([0x60, 0xFF, 0xF0, 0x15, 0x12, 0x02] : List UInt8).length ≤ maxRomSize := by
      decide
    refine ⟨_, fits, fun m holds => ?_⟩
    have start : m.pc.toNat = 0x200 := congrArg UInt16.toNat holds.pc
    have fill : m.word = 0x60FF := holds.word fits 0 rfl rfl (by decide) start
    have set : { m with pc := 0x202 }.word = 0xF015 := holds.word fits 2 rfl rfl (by decide) rfl
    have jump : { m with pc := 0x204 }.word = 0x1202 := holds.word fits 4 rfl rfl (by decide) rfl
    refine .of_step (step_fill (by omega) fill) fun ticks => ?_
    refine Reloads.setsAt (p := 0x202) (w := 0x1202) ?_ ?_
    · exact ⟨by decide, set, jump, by decide, by decide, by simp [countTimers, getV]⟩
    · rw [if_pos even, countTimers, holds.pc]
      rfl
  · have fits :
        ([0x60, 0xFF, 0x60, 0xFF, 0xF0, 0x15, 0x12, 0x04] : List UInt8).length ≤ maxRomSize := by
      decide
    refine ⟨_, fits, fun m holds => ?_⟩
    have start : m.pc.toNat = 0x200 := congrArg UInt16.toNat holds.pc
    have fill : m.word = 0x60FF := holds.word fits 0 rfl rfl (by decide) start
    have again : { m with pc := 0x200 + 2 }.word = 0x60FF :=
      holds.word fits 2 rfl rfl (by decide) rfl
    have set : { m with pc := 0x204 }.word = 0xF015 := holds.word fits 4 rfl rfl (by decide) rfl
    have jump : { m with pc := 0x206 }.word = 0x1204 := holds.word fits 6 rfl rfl (by decide) rfl
    have inside : (0x200 + 2 : UInt16).toNat < 0xFFF := by decide
    rw [← holds.pc] at again inside
    obtain ⟨k, rfl⟩ : ∃ k, n = k + 1 := ⟨n - 1, by omega⟩
    refine .of_step (step_fill (by omega) fill) fun ticks => ?_
    refine .of_step (step_fill inside again) fun ticks' => ?_
    refine Reloads.setsAt (p := 0x204) (w := 0x1204) ?_ ?_
    · exact ⟨by decide, set, jump, by decide, by decide, by simp [countTimers, getV]⟩
    · rw [if_pos (by omega), countTimers, countTimers, holds.pc]
      rfl

end Chip8.Machine
