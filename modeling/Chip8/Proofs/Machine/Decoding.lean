import Chip8.Proofs.Machine.Steps

/-! # Decoding and dispatch

A word is decoded twice. The decoder reads it as an integer, and the machine looks up its kind by
a code and splits the word itself into operands. Both find the same kind and the same operands, so
the machine performs what was decoded, and a word without a kind never reaches it.
-/

namespace Chip8

/-- The operands are the fields of a decoded word. -/
structure Operands.Of (o : Operands) (i : Instruction) : Prop where
  x : o.x.val = i.x
  y : o.y.val = i.y
  n : o.n.val = i.n
  nn : o.nn.toNat = i.nn
  nnn : o.nnn.toNat = i.nnn

theorem Operands.of_ofFields (w : UInt16) (k : Kind) :
    (ofWord w).Of (Instruction.ofFields w.toNat k) where
  x := x_ofWord w
  y := y_ofWord w
  n := n_ofWord w
  nn := nn_ofWord w
  nnn := nnn_ofWord w

namespace Instruction

theorem ofFields_digits {raw : Nat} (small : raw < 0x10000) (k : Kind) :
    raw = 0x1000 * (ofFields raw k).opcode + (ofFields raw k).nnn ∧
      (ofFields raw k).nnn = 0x100 * (ofFields raw k).x + (ofFields raw k).nn ∧
      (ofFields raw k).nn = 0x10 * (ofFields raw k).y + (ofFields raw k).n := by
  simp only [ofFields]
  omega

theorem decode_eq_ok_iff {w : Int} {pc : Option Int} {i : Instruction} :
    decode w pc = .ok i ↔ ∃ k, Kind.classify (lowWord w) = some k ∧ i = ofFields (lowWord w) k := by
  unfold decode
  cases Kind.classify (lowWord w) with
  | none => simp
  | some k => simp [eq_comm]

theorem decode_ne_ok_iff {w : Int} :
    (∀ pc i, decode w pc ≠ .ok i) ↔ Kind.classify (lowWord w) = none := by
  rw [Option.eq_none_iff_forall_ne_some]
  constructor
  · intro never k hk
    exact never none _ (decode_eq_ok_iff.mpr ⟨k, hk, rfl⟩)
  · intro unknown pc i decoded
    obtain ⟨k, hk, -⟩ := decode_eq_ok_iff.mp decoded
    exact unknown k hk

end Instruction

namespace Kind

theorem codeOfWord_eq_unknownCode_iff {w : UInt16} :
    codeOfWord w = unknownCode ↔ classify w.toNat = none := by
  rw [← ofCode?_codeOfWord]
  constructor
  · intro h
    rw [h, ofCode?_unknownCode]
  · intro h
    unfold codeOfWord at h ⊢
    split at h
    · rw [ofCode?_code] at h
      cases h
    · rfl

theorem codeOfWord_of_classify {w : UInt16} {k : Kind} (h : classify w.toNat = some k) :
    codeOfWord w = k.code := by
  rw [codeOfWord, h]

end Kind

theorem ExecutionError.family_ofFault {f : Fault} (h : f ≠ .unknownOpcode) (index : Nat)
    (opcode pc : Option Int) : (ofFault f index opcode pc).family ≠ .decode := by
  cases f
  case unknownOpcode => exact absurd rfl h
  all_goals simp [ofFault, fetchPastEnd]

namespace Machine

variable {m : Machine} {w : Int} {k : Kind}

theorem check_ne_unknownOpcode (k : Kind) (o : Operands) : m.check k o ≠ some .unknownOpcode := by
  cases k <;> simp [check, CallStack.underflow?, CallStack.overflow?, Memory.range?]

theorem execute_of_classify_none (h : Kind.classify (Instruction.lowWord w) = none) :
    m.execute w = .error (.unknownOpcode (some (Instruction.lowWord w)) (some m.pc.toNat)) := by
  rw [execute, Instruction.decode, h]

theorem dispatch_of_classify {w : UInt16} (h : Kind.classify w.toNat = some k) (bus : OpenBus) :
    (∀ f, m.check k (Operands.ofWord w) = some f → m.dispatch bus w = .error f) ∧
      (m.check k (Operands.ofWord w) = none →
        m.dispatch bus w = .ok (m.perform k bus (Operands.ofWord w))) := by
  rw [dispatch_eq, h]
  dsimp only
  exact ⟨fun f hf => by rw [hf], fun passed => by rw [passed]⟩

theorem execute_eq_dispatch :
    m.execute w = (m.dispatch m.bus (wordOf w)).mapError fun f =>
      .ofFault f m.i.toNat (some (Instruction.lowWord w)) (some m.pc.toNat) := by
  rw [execute_wordOf, execute_toNat, toNat_wordOf]

theorem dispatch_ne_unknownOpcode {w : UInt16} (h : Kind.classify w.toNat = some k)
    (bus : OpenBus) : m.dispatch bus w ≠ .error .unknownOpcode := by
  obtain ⟨fails, completes⟩ := dispatch_of_classify (m := m) h bus
  cases hc : m.check k (Operands.ofWord w) with
  | some f =>
    rw [fails f hc]
    rintro ⟨⟩
    exact check_ne_unknownOpcode k _ hc
  | none =>
    rw [completes hc]
    nofun

theorem family_execute {e : ExecutionError} (h : Kind.classify (Instruction.lowWord w) = some k)
    (fails : m.execute w = .error e) : e.family ≠ .decode := by
  rw [← toNat_wordOf] at h
  rw [execute_eq_dispatch] at fails
  have known := dispatch_ne_unknownOpcode (m := m) h m.bus
  cases hd : m.dispatch m.bus (wordOf w) with
  | ok m' =>
    rw [hd] at fails
    cases fails
  | error f =>
    rw [hd] at fails known
    cases fails
    exact ExecutionError.family_ofFault (fun hf => known (congrArg Except.error hf)) _ _ _

/-- An integer is executed as its low sixteen bits. It raises a decoding error if and only if its
code is that of no kind. Otherwise it is decoded, and the machine runs the check and the handler of
the decoded kind on the decoded operands, neither of which reports an unknown word. -/
theorem execute_as_decoded (m : Machine) (w : Int) :
    m.execute w = m.execute (w % 0x10000) ∧
    (∀ e, m.execute w = .error e ∧ e.family = .decode ↔
      Kind.codeOfWord (wordOf w) = Kind.unknownCode ∧
        e = .unknownOpcode (some (w % 0x10000)) (some m.pc.toNat)) ∧
    (Kind.codeOfWord (wordOf w) = Kind.unknownCode ↔
      ∀ pc i, Instruction.decode w pc ≠ .ok i) ∧
    ∀ pc i, Instruction.decode w pc = .ok i →
      i.raw = w % 0x10000 ∧ i.raw = 0x1000 * i.opcode + i.nnn ∧ i.nnn = 0x100 * i.x + i.nn ∧
        i.nn = 0x10 * i.y + i.n ∧ Kind.codeOfWord (wordOf w) = i.kind.code ∧
        ∃ o : Operands, o.Of i ∧
          (∀ bus f, m.check i.kind o = some f → m.dispatch bus (wordOf w) = .error f) ∧
          (∀ bus, m.check i.kind o = none →
            m.dispatch bus (wordOf w) = .ok (m.perform i.kind bus o)) ∧
          (∀ bus, m.dispatch bus (wordOf w) ≠ .error .unknownOpcode) ∧
          m.execute w = (m.dispatch m.bus (wordOf w)).mapError fun f =>
            .ofFault f m.i.toNat (some i.raw) (some m.pc.toNat) := by
  have low : (Instruction.lowWord w : Int) = w % 0x10000 := by
    unfold Instruction.lowWord
    omega
  have unknown : Kind.codeOfWord (wordOf w) = Kind.unknownCode ↔
      Kind.classify (Instruction.lowWord w) = none := by
    rw [Kind.codeOfWord_eq_unknownCode_iff, toNat_wordOf]
  refine ⟨?_, fun e => ?_, ?_, fun pc i decoded => ?_⟩
  · rw [execute_wordOf, toNat_wordOf, low]
  · rw [unknown, ← low]
    cases hk : Kind.classify (Instruction.lowWord w) with
    | none =>
      rw [execute_of_classify_none hk]
      constructor
      · rintro ⟨⟨⟩, -⟩
        exact ⟨rfl, rfl⟩
      · rintro ⟨-, rfl⟩
        exact ⟨rfl, rfl⟩
    | some k =>
      constructor
      · rintro ⟨fails, family⟩
        exact absurd family (family_execute hk fails)
      · rintro ⟨⟨⟩, -⟩
  · rw [unknown, Instruction.decode_ne_ok_iff]
  · obtain ⟨k, hk, rfl⟩ := Instruction.decode_eq_ok_iff.mp decoded
    have fits : Instruction.lowWord w < 0x10000 := toNat_wordOf w ▸ (wordOf w).toNat_lt
    obtain ⟨raw, nnn, nn⟩ := Instruction.ofFields_digits fits k
    rw [← toNat_wordOf] at hk
    have operands := Operands.of_ofFields (wordOf w) k
    rw [toNat_wordOf] at operands
    exact ⟨low, raw, nnn, nn, Kind.codeOfWord_of_classify hk, Operands.ofWord (wordOf w), operands,
      fun bus => (dispatch_of_classify hk bus).1, fun bus => (dispatch_of_classify hk bus).2,
      dispatch_ne_unknownOpcode hk, execute_eq_dispatch⟩

/-- Two negative numbers, one of which has the low sixteen bits of an instruction. -/
theorem execute_as_decoded_negative :
    let m : Machine := { rng := ⟨0, 0⟩ }
    m.execute (-0x2FEB) = m.execute 0xD015 ∧
      (∃ i o, Instruction.decode (-0x2FEB) none = .ok i ∧ i.kind = .drw ∧ o.Of i ∧ i.n = 5 ∧
        m.dispatch m.bus (wordOf (-0x2FEB)) = .ok (m.perform .drw m.bus o)) ∧
      m.execute (-1) = .error (.unknownOpcode (some 0xFFFF) (some 0x200)) := by
  intro m
  obtain ⟨same, -, -, accepted⟩ := execute_as_decoded m (-0x2FEB)
  obtain ⟨-, unknown, -, -⟩ := execute_as_decoded m (-1)
  have decoded : Instruction.decode (-0x2FEB) none = .ok (Instruction.ofFields 0xD015 .drw) := rfl
  obtain ⟨-, -, -, -, -, o, operands, -, completes, -, -⟩ := accepted none _ decoded
  have passed : m.check .drw o = none := by
    rw [check, operands.n]
    rfl
  refine ⟨same, ⟨_, o, decoded, rfl, operands, rfl, completes m.bus passed⟩, ?_⟩
  exact ((unknown _).mpr ⟨by decide, rfl⟩).1

end Machine

end Chip8
