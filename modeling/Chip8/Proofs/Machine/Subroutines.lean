import Chip8.Proofs.Machine.Faults
import Chip8.Proofs.Machine.Programs
import Chip8.Proofs.Machine.Reachability

/-! # Subroutines

The call stack of a running machine holds the calls that have not returned yet. Its pointer
counts the completed calls minus the completed returns, and a return goes to the instruction
after the most recent call that is still open, between which and the return all calls and
returns are balanced. Only a return without an open call underflows, and only a call within
forty-eight open ones overflows.
-/

namespace Chip8

structure Completed where
  address : UInt16
  word : UInt16

namespace Completed

def isCall (i : Completed) : Bool := decide (Kind.call.Matches i.word.toNat)

def isReturn (i : Completed) : Bool := decide (Kind.ret.Matches i.word.toNat)

theorem not_isReturn_of_isCall {i : Completed} (h : i.isCall = true) : i.isReturn = false := by
  simp only [isCall, isReturn, decide_eq_true_eq, decide_eq_false_iff_not] at h ⊢
  exact fun h' => absurd (h.unique h') (by decide)

end Completed

/-- The open calls after one more instruction, the most recent call first. -/
def openAfter (calls : List UInt16) (i : Completed) : List UInt16 :=
  if i.isCall then i.address :: calls else if i.isReturn then calls.tail else calls

/-- The addresses of the calls in a trace that no return has matched. -/
def openCalls (trace : List Completed) : List UInt16 := trace.foldl openAfter []

/-- Calls and returns match each other like brackets. -/
inductive Balanced : List Completed → Prop where
  | nil : Balanced []
  | plain {trace : List Completed} {i : Completed} (h : Balanced trace) (call : i.isCall = false)
      (ret : i.isReturn = false) : Balanced (trace ++ [i])
  | bracket {outer inner : List Completed} {call ret : Completed} (h : Balanced outer)
      (h' : Balanced inner) (calls : call.isCall = true) (returns : ret.isReturn = true) :
      Balanced (outer ++ call :: (inner ++ [ret]))

section

variable {trace : List Completed} {i : Completed} {a : UInt16} {rest : List UInt16}

theorem openCalls_concat (trace : List Completed) (i : Completed) :
    openCalls (trace ++ [i]) = openAfter (openCalls trace) i := by
  simp [openCalls]

/-- What has happened since the most recent open call is balanced. -/
theorem exists_open_call (h : openCalls trace = a :: rest) :
    ∃ before call between, trace = before ++ call :: between ∧ call.isCall = true ∧
      call.address = a ∧ Balanced between ∧ openCalls before = rest := by
  -- A return leaves an older call on top, which is found before the call that it matches.
  induction hn : trace.length using Nat.strongRecOn generalizing trace a rest with
  | ind n ih =>
    rcases List.eq_nil_or_concat trace with rfl | ⟨earlier, i, rfl⟩
    · cases h
    rw [List.concat_eq_append] at *
    rw [openCalls_concat, openAfter] at h
    have shorter : earlier.length < n := by
      rw [← hn, List.length_append]
      exact Nat.lt_succ_self earlier.length
    split at h
    · next call =>
      obtain ⟨rfl, rfl⟩ := List.cons.inj h
      exact ⟨earlier, i, [], rfl, call, rfl, .nil, rfl⟩
    · next noCall =>
      split at h
      · next ret =>
        obtain ⟨b, hb⟩ : ∃ b, openCalls earlier = b :: a :: rest := by
          cases hc : openCalls earlier with
          | nil =>
            rw [hc] at h
            cases h
          | cons b others =>
            rw [hc] at h
            exact ⟨b, congrArg (b :: ·) h⟩
        obtain ⟨before₁, call₁, inner, rfl, calls₁, -, balanced₁, hbefore⟩ := ih _ shorter hb rfl
        have shorter' : before₁.length < n := by
          rw [List.length_append] at shorter
          omega
        obtain ⟨before, call, outer, rfl, calls, address, balanced, hrest⟩ :=
          ih _ shorter' hbefore rfl
        refine ⟨before, call, outer ++ call₁ :: (inner ++ [i]), ?_, calls, address,
          balanced.bracket balanced₁ calls₁ ret, hrest⟩
        simp
      · next noReturn =>
        obtain ⟨before, call, between, rfl, calls, address, balanced, hrest⟩ := ih _ shorter h rfl
        exact ⟨before, call, between ++ [i], by simp, calls, address,
          balanced.plain (by simpa using noCall) (by simpa using noReturn), hrest⟩

end

/-! ## The call stack -/

def returnAddress (call : UInt16) : UInt16 := (call + 2) &&& 0xFFF

namespace CallStack

theorem ofInt_returnAddress (call : UInt16) :
    UInt16.ofInt ((call.toNat + 2 : Int) % 4096) = returnAddress call := by
  apply UInt16.toNat_inj.mp
  have low : ((call + 2) &&& 0xFFF).toNat = (call + 2).toNat % 4096 := by
    rw [UInt16.toNat_and]
    exact Nat.and_two_pow_sub_one_eq_mod (call + 2).toNat 12
  have kept := toNat_ofInt_emod (call.toNat + 2)
  rw [returnAddress, low, UInt16.toNat_add]
  simp only [UInt16.reduceToNat]
  omega

/-- The entries below the pointer are the return addresses of the open calls, the most recent
call on top. -/
def Returns (entries : Vector UInt16 48) : List UInt16 → Prop
  | [] => True
  | a :: rest =>
    (∃ h : rest.length < 48, entries[rest.length] = returnAddress a) ∧ Returns entries rest

variable {entries entries' : Vector UInt16 48} {calls : List UInt16}

theorem Returns.congr (h : Returns entries calls)
    (same : ∀ (k : Nat) (hk : k < 48), k < calls.length → entries'[k] = entries[k]) :
    Returns entries' calls := by
  induction calls with
  | nil => trivial
  | cons a rest ih =>
    obtain ⟨⟨inside, top⟩, below⟩ := h
    refine ⟨⟨inside, ?_⟩, ih below fun k hk lt => same k hk (Nat.lt_succ_of_lt lt)⟩
    rw [same _ inside (Nat.lt_succ_self _), top]

end CallStack

/-- A call stack after a trace. -/
structure Tracks (s : CallStack) (trace : List Completed) : Prop where
  pointer : s.pointer = (openCalls trace).length
  le : (openCalls trace).length ≤ 48
  returns : CallStack.Returns s.entries (openCalls trace)
  count : (openCalls trace).length + trace.countP Completed.isReturn =
    trace.countP Completed.isCall

namespace Tracks

variable {s : CallStack} {trace : List Completed} {i : Completed}

theorem empty : Tracks {} [] := ⟨rfl, by decide, trivial, rfl⟩

theorem low (h : Tracks s trace) : 0 ≤ s.pointer := by
  have := h.pointer
  omega

theorem high (h : Tracks s trace) : s.pointer ≤ 48 := by
  have := h.pointer
  have := h.le
  omega

theorem push (h : Tracks s trace) (call : i.isCall = true) (room : s.pointer < 48) :
    Tracks (s.push (i.address.toNat + 2)) (trace ++ [i]) := by
  have calls : openCalls (trace ++ [i]) = i.address :: openCalls trace := by
    rw [openCalls_concat, openAfter, if_pos call]
  have pointer := h.pointer
  have inside : (openCalls trace).length < 48 := by omega
  refine ⟨?_, ?_, ?_, ?_⟩
  · rw [CallStack.pointer_push h.low h.high, calls, List.length_cons]
    omega
  · rw [calls, List.length_cons]
    omega
  · rw [calls]
    refine ⟨⟨inside, ?_⟩, h.returns.congr fun k hk below => ?_⟩
    · rw [CallStack.getElem_push h.low, if_pos pointer, CallStack.ofInt_returnAddress]
    · rw [CallStack.getElem_push h.low, if_neg (by omega)]
  · have count := h.count
    rw [calls, List.length_cons, List.countP_append, List.countP_append, List.countP_singleton,
      List.countP_singleton, if_pos call, if_neg (by simp [i.not_isReturn_of_isCall call])]
    omega

theorem pop (h : Tracks s trace) (ret : i.isReturn = true) (some : 0 < s.pointer) :
    Tracks s.pop (trace ++ [i]) := by
  have noCall : i.isCall = false := by
    cases call : i.isCall with
    | false => rfl
    | true => exact ret.symm.trans (i.not_isReturn_of_isCall call)
  have calls : openCalls (trace ++ [i]) = (openCalls trace).tail := by
    rw [openCalls_concat, openAfter, noCall, if_pos ret]
    rfl
  have pointer := h.pointer
  have popped := CallStack.popped_eq h.low h.high
  have length : (openCalls trace).tail.length = (openCalls trace).length - 1 := List.length_tail
  refine ⟨?_, ?_, ?_, ?_⟩
  · show s.popped = _
    rw [calls, length]
    omega
  · have := h.le
    rw [calls, length]
    omega
  · rw [calls]
    have below : CallStack.Returns s.entries (openCalls trace).tail := by
      cases hc : openCalls trace with
      | nil => trivial
      | cons a rest => exact (hc ▸ h.returns).2
    refine below.congr fun k hk lt => ?_
    rw [CallStack.getElem_pop, if_neg (by omega)]
  · have count := h.count
    rw [calls, length, List.countP_append, List.countP_append, List.countP_singleton,
      List.countP_singleton, if_pos ret, if_neg (by simp [noCall])]
    omega

theorem skip (h : Tracks s trace) (noCall : i.isCall = false) (noReturn : i.isReturn = false) :
    Tracks s (trace ++ [i]) := by
  have calls : openCalls (trace ++ [i]) = openCalls trace := by
    rw [openCalls_concat, openAfter, noCall, noReturn]
    rfl
  refine ⟨calls ▸ h.pointer, calls ▸ h.le, calls ▸ h.returns, ?_⟩
  simpa [calls, List.countP_append, noCall, noReturn] using h.count

theorem top {a : UInt16} {rest : List UInt16} (h : Tracks s trace)
    (calls : openCalls trace = a :: rest) (beyond : UInt16) : s.top beyond = returnAddress a := by
  have pointer := h.pointer
  have popped := CallStack.popped_eq h.low h.high
  obtain ⟨⟨inside, entry⟩, -⟩ := calls ▸ h.returns
  have index : s.popped.toNat = rest.length := by
    rw [calls, List.length_cons] at pointer
    omega
  rw [CallStack.top, dif_pos (by omega), ← entry]
  simp only [index]

end Tracks

/-! ## Runs -/

namespace Machine

/-- A machine has executed a trace since `start`, while its timers, its keys and the draw flag
changed in any way. -/
inductive Executes (start : Machine) : List Completed → Machine → Prop where
  | start : Executes start [] start
  | instruction {trace : List Completed} {m m' : Machine} (h : Executes start trace m)
      (completes : m.step = .ok m') : Executes start (trace ++ [⟨m.pc, m.word⟩]) m'
  | around {trace : List Completed} {m : Machine} (h : Executes start trace m)
      (delay sound : UInt8) (keypad : Keypad) (draw : Bool) :
      Executes start trace { m with delay, sound, keypad, draw }

variable {start m m' : Machine} {trace : List Completed}

theorem Executes.transition {event : Event} (h : start.Executes trace m)
    (t : m.Transition event m') : ∃ trace', start.Executes trace' m' := by
  cases t with
  | instruction completes => exact ⟨_, h.instruction completes⟩
  | keys keypad => exact ⟨_, h.around m.delay m.sound keypad m.draw⟩
  | present => exact ⟨_, h.around m.delay m.sound m.keypad false⟩
  | decay decayed =>
    unfold decayTimers at decayed
    split at decayed
    · cases decayed
      exact ⟨_, h⟩
    · split at decayed <;> cases decayed
      exact ⟨_, h.around _ _ m.keypad m.draw⟩

theorem Executes.run {events : List Event} (h : start.Executes trace m) (run : m.Run events m') :
    ∃ trace', start.Executes trace' m' := by
  induction run generalizing trace with
  | nil => exact ⟨trace, h⟩
  | cons first _ ih =>
    obtain ⟨_, next⟩ := h.transition first
    exact ih next

theorem tracks_step (h : Tracks m.stack trace) (hs : m.step = .ok m') :
    Tracks m'.stack (trace ++ [⟨m.pc, m.word⟩]) := by
  obtain ⟨k, completes, rfl⟩ := step_eq_ok_iff.mp hs
  have passed := completes.passed
  have same (l : Kind) : l.Matches m.word.toNat ↔ k = l :=
    ⟨completes.fits.unique, fun h => h ▸ completes.fits⟩
  rw [stack_perform]
  split
  · refine h.pop ?_ ?_
    · simp [Completed.isReturn, same]
    · simp only [check, CallStack.underflow?] at passed
      split at passed
      · cases passed
      · omega
  · refine h.push (i := ⟨m.pc, m.word⟩) ?_ ?_
    · simp [Completed.isCall, same]
    · simp only [check, CallStack.overflow?] at passed
      split at passed
      · cases passed
      · omega
  · next noReturn noCall =>
    refine h.skip ?_ ?_
    · simpa [Completed.isCall, same] using noCall
    · simpa [Completed.isReturn, same] using noReturn

theorem Executes.tracks (h : start.Executes trace m) (empty : start.stack = {}) :
    Tracks m.stack trace := by
  induction h with
  | start => exact empty ▸ Tracks.empty
  | instruction _ completes ih => exact tracks_step ih completes
  | around _ delay sound keypad draw ih => exact ih

theorem pc_return (hs : m.step = .ok m') (ret : m.word = 0x00EE) :
    m'.pc = m.stack.top m.bus.stack := by
  obtain ⟨k, completes, rfl⟩ := step_eq_ok_iff.mp hs
  have fits := completes.fits
  rw [ret] at fits
  obtain rfl : k = .ret := fits.unique (by decide)
  exact pc_perform _ _ _ _

theorem step_eq_report_iff (h : Tracks m.stack trace) {f : Fault}
    (stack : f = .stackUnderflow ∨ f = .stackOverflow) :
    m.step = .error (m.report f) ↔ m.FaultsWith f := by
  rw [step_eq_error_iff, faultError_iff h.low h.high]
  constructor
  · rintro ⟨g, faults, same⟩
    have family := congrArg ExecutionError.family same
    rcases stack with rfl | rfl <;> cases g <;> first | exact faults | cases family
  · intro faults
    exact ⟨f, faults, rfl⟩

theorem step_return_iff (h : Tracks m.stack trace) (fetched : m.pc.toNat < 0xFFF)
    (ret : m.word = 0x00EE) :
    m.step = .error (m.report .stackUnderflow) ↔ openCalls trace = [] := by
  have word : m.opcode = 0x00EE := (toNat_word fetched).symm.trans (congrArg UInt16.toNat ret)
  have pointer := h.pointer
  rw [step_eq_report_iff h (.inl rfl), ← List.length_eq_zero_iff]
  constructor
  · rintro ⟨-, -, empty⟩
    omega
  · intro empty
    exact ⟨fetched, word, by omega⟩

theorem step_call_iff (h : Tracks m.stack trace) (fetched : m.pc.toNat < 0xFFF)
    (call : Kind.call.Matches m.word.toNat) :
    m.step = .error (m.report .stackOverflow) ↔ (openCalls trace).length = 48 := by
  have pointer := h.pointer
  rw [step_eq_report_iff h (.inr rfl)]
  constructor
  · rintro ⟨-, -, full⟩
    omega
  · intro full
    exact ⟨fetched, toNat_word fetched ▸ call, by omega⟩

/-- Through every run of a loaded program calls and returns are bracketed. -/
theorem calls_bracketed (rom : List UInt8) (fits : rom.length ≤ maxRomSize) (name : String)
    (rng : RandomKey) (maskRegister : Bool) :
    ∃ start, (fresh rng maskRegister).loadRom rom name = .ok start ∧
      ∀ trace m, start.Executes trace m →
        m.stack.pointer = trace.countP Completed.isCall - trace.countP Completed.isReturn ∧
        (∀ m', m.step = .ok m' → m.word = 0x00EE →
          ∃ before call between, trace = before ++ call :: between ∧ call.isCall = true ∧
            Balanced between ∧ openCalls trace = call.address :: openCalls before ∧
            m'.pc = (call.address + 2) &&& 0xFFF) ∧
        (m.pc.toNat < 0xFFF → m.word = 0x00EE →
          (m.step = .error (m.report .stackUnderflow) ↔ openCalls trace = [])) ∧
        (m.pc.toNat < 0xFFF → Kind.call.Matches m.word.toNat →
          (m.step = .error (m.report .stackOverflow) ↔ (openCalls trace).length = 48)) := by
  refine ⟨_, loadRom_of_le _ fits name, fun trace m executes => ?_⟩
  have tracks : Tracks m.stack trace := executes.tracks rfl
  refine ⟨?_, ?_, step_return_iff tracks, step_call_iff tracks⟩
  · have pointer := tracks.pointer
    have count := tracks.count
    omega
  · intro m' completes ret
    cases calls : openCalls trace with
    | nil =>
      obtain ⟨k, fetches, -⟩ := step_eq_ok_iff.mp completes
      rw [(step_return_iff tracks fetches.fetched ret).mpr calls] at completes
      cases completes
    | cons a rest =>
      obtain ⟨before, call, between, split, isCall, rfl, balanced, rfl⟩ := exists_open_call calls
      refine ⟨before, call, between, split, isCall, balanced, rfl, ?_⟩
      exact (pc_return completes ret).trans (tracks.top calls _)

def callProgram : List UInt8 := [0x22, 0x04, 0x12, 0x02, 0x00, 0xEE]

theorem step_callProgram (holds : m.Holds callProgram) (empty : m.stack = {}) :
    ∃ m₁ m₂, m.step = .ok m₁ ∧ m₁.step = .ok m₂ ∧ m.word = 0x2204 ∧ m₁.word = 0x00EE := by
  have fits : callProgram.length ≤ maxRomSize := by decide
  have start : m.pc.toNat = 0x200 := congrArg UInt16.toNat holds.pc
  have call : m.word = 0x2204 := holds.word fits 0 rfl rfl (by decide) start
  have first : m.step = .ok { m with stack := m.stack.push (m.pc.toNat + 2), pc := 0x204 } :=
    step_of_word call (by omega) .call (by decide) (by rw [check, empty]; rfl)
  have ret : { m with stack := m.stack.push (m.pc.toNat + 2), pc := 0x204 }.word = 0x00EE :=
    holds.word fits 4 rfl rfl (by decide) (show (0x204 : UInt16).toNat = _ from rfl)
  have depth : (m.stack.push (m.pc.toNat + 2)).pointer = 1 := by rw [empty]; rfl
  have second := step_of_word ret (show (0x204 : UInt16).toNat < 0xFFF by decide) .ret (by decide)
    (by rw [check, CallStack.underflow?, if_neg (by rw [depth]; decide)])
  exact ⟨_, _, first, second, call, ret⟩

/-- The return from a subroutine that is called once. -/
theorem calls_bracketed_once :
    ∃ start m m', (fresh ⟨0, 0⟩ true).loadRom callProgram "call" = .ok start ∧
      start.Executes [⟨0x200, 0x2204⟩] m ∧ m.stack.pointer = 1 ∧ m.step = .ok m' ∧
      m'.pc = 0x202 := by
  obtain ⟨start, load, all⟩ := calls_bracketed callProgram (by decide) "call" ⟨0, 0⟩ true
  have loaded : { fresh ⟨0, 0⟩ true with
      memory := (fresh ⟨0, 0⟩ true).memory.store programStart callProgram } = start :=
    Except.ok.inj ((loadRom_of_le _ (by decide) "call").symm.trans load)
  have holds : start.Holds callProgram := loaded ▸ ⟨⟨_, rfl⟩, rfl⟩
  obtain ⟨m, m', first, second, call, ret⟩ := step_callProgram holds (loaded ▸ rfl)
  have executes := Executes.start.instruction first
  rw [call, holds.pc] at executes
  obtain ⟨depth, returns, -⟩ := all _ _ executes
  obtain ⟨before, called, between, split, -, -, -, pc⟩ := returns m' second ret
  refine ⟨start, m, m', load, executes, depth.trans (by decide), second, ?_⟩
  cases before with
  | nil =>
    obtain ⟨rfl, -⟩ := List.cons.inj split
    exact pc
  | cons _ others => simp at split

end Machine

end Chip8
