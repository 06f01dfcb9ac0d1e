import Mathlib.Logic.Function.Iterate
import Chip8.Proofs.Machine.Drives
import Chip8.Proofs.Machine.Reachability

/-! # Random draws

A machine draws all its random bytes from the key that it is made with. The key of a draw is the
first one, moved on once for every draw before. Nothing but a random instruction that completes
moves the key on, so the bytes drawn depend on the first key and on how many were drawn.
-/

namespace Chip8.Machine

variable {m m' : Machine} {key : RandomKey} {maskRegister : Bool} {log : List Machine}

def isRandom (m : Machine) : Bool := decide (Kind.rnd.Matches m.word.toNat)

/-- The next instruction draws its byte with `key`. The byte replaces `VX`, masked with the old
`VX` or with the last byte of the instruction. -/
structure DrawsWith (m : Machine) (key : RandomKey) (maskRegister : Bool) : Prop where
  rng : m.rng = key
  completes : ∃ m', m.step = .ok m' ∧ m'.rng = key.next ∧
    m'.getV m.operands.x =
      key.byte &&& if maskRegister then m.getV m.operands.x else m.operands.nn

theorem rng_step (h : m.step = .ok m') :
    m'.rng = if m.isRandom then m.rng.next else m.rng := by
  obtain ⟨k, hk, rfl⟩ := step_eq_ok_iff.mp h
  have random : m.isRandom = true ↔ k = .rnd :=
    decide_eq_true_iff.trans ⟨hk.fits.unique, fun h => h ▸ hk.fits⟩
  simp only [random, rng_perform]
  cases k <;> rfl

theorem maskRegister_step (h : m.step = .ok m') : m'.maskRegister = m.maskRegister := by
  obtain ⟨k, -, rfl⟩ := step_eq_ok_iff.mp h
  exact maskRegister_perform m.bus m.operands m k

theorem drawsWith_of_step (random : m.isRandom = true) (h : m.step = .ok m') :
    m.DrawsWith m.rng m.maskRegister := by
  have moved : m'.rng = m.rng.next := by rw [rng_step h, if_pos random]
  refine ⟨rfl, m', h, moved, ?_⟩
  obtain ⟨k, hk, rfl⟩ := step_eq_ok_iff.mp h
  obtain rfl : k = .rnd := hk.fits.unique (of_decide_eq_true random)
  show ({ m with rng := m.rng.next }.setV m.operands.x _).getV m.operands.x = _
  rw [getV_setV, if_pos rfl]

/-- All draws of a log were made in order, and the machine has the key of the next one. -/
structure Seeded (key : RandomKey) (maskRegister : Bool) (log : List Machine) (m : Machine) :
    Prop where
  rng : m.rng = RandomKey.next^[(log.filter isRandom).length] key
  mask : m.maskRegister = maskRegister
  draws : ∀ (i : Nat) (m₁ : Machine), (log.filter isRandom)[i]? = some m₁ →
    m₁.DrawsWith (RandomKey.next^[i] key) maskRegister

theorem Seeded.step (h : Seeded key maskRegister log m) (hs : m.step = .ok m') :
    Seeded key maskRegister (log ++ [m]) m' := by
  have mask := (maskRegister_step hs).trans h.mask
  by_cases random : m.isRandom = true
  · have drawn : (log ++ [m]).filter isRandom = log.filter isRandom ++ [m] := by simp [random]
    refine ⟨?_, mask, ?_⟩
    · rw [rng_step hs, if_pos random, drawn, List.length_append, h.rng]
      exact (Function.iterate_succ_apply' _ _ _).symm
    · intro i m₁ hi
      rw [drawn] at hi
      rcases Nat.lt_or_ge i (log.filter isRandom).length with earlier | last
      · rw [List.getElem?_append_left earlier] at hi
        exact h.draws i m₁ hi
      · rw [List.getElem?_append_right last, List.getElem?_singleton] at hi
        split at hi <;> cases hi
        obtain rfl : i = (log.filter isRandom).length := by omega
        rw [← h.rng, ← h.mask]
        exact drawsWith_of_step random hs
  · have same : (log ++ [m]).filter isRandom = log.filter isRandom := by simp [random]
    refine ⟨?_, mask, ?_⟩
    · rw [rng_step hs, if_neg random, same]
      exact h.rng
    · rw [same]
      exact h.draws

theorem Seeded.drive (h : Seeded key maskRegister [] m) (ops : List Operation) :
    Seeded key maskRegister (m.log ops) (m.drive ops) :=
  drive_induction (fun h hs => h.step hs)
    (fun _ _ _ _ h => ⟨h.rng, h.mask, h.draws⟩) h ops

/-- However a loaded machine is driven, its key is the one that it was made with, moved on once for
every random instruction that has completed. The draws are made in order, each with the key of its
place. Running an instruction that meets a fault does nothing, also not to the key. -/
theorem draws_in_order (rom : List UInt8) (fits : rom.length ≤ maxRomSize) (name : String)
    (key : RandomKey) (maskRegister : Bool) :
    ∃ start, (fresh key maskRegister).loadRom rom name = .ok start ∧
      ∀ ops : List Operation,
        let draws := (start.log ops).filter isRandom
        let m := start.drive ops
        m.rng = RandomKey.next^[draws.length] key ∧
          (∀ (i : Nat) (m₁ : Machine), draws[i]? = some m₁ →
            m₁.DrawsWith (RandomKey.next^[i] key) maskRegister) ∧
          ∀ e, m.step = .error e → m.after .step = m ∧
            ∀ count ratio phase, m.after (.batch count ratio phase) = m := by
  refine ⟨_, loadRom_of_le _ fits name, fun ops => ?_⟩
  have seeded := Seeded.drive (m := { fresh key maskRegister with
    memory := (fresh key maskRegister).memory.store programStart rom }) ⟨rfl, rfl, nofun⟩ ops
  exact ⟨seeded.rng, seeded.draws, fun e h => after_of_error h⟩

def diceProgram : List UInt8 := [0xC0, 0x0F, 0xC1, 0xFF, 0xFF, 0xFF]

/-- The second byte is drawn in a batch that ends with a fault. -/
theorem draws_in_order_dice :
    let ops : List Operation := [.decay 1, .step, .batch 5 ⟨60, 500⟩ 0]
    ∃ start m₁, (fresh ⟨0, 7⟩ false).loadRom diceProgram "dice" = .ok start ∧
      ((start.log ops).filter isRandom)[1]? = some m₁ ∧ m₁.operands.x = 1 ∧
      m₁.DrawsWith (RandomKey.next ⟨0, 7⟩) false ∧
      (start.drive ops).rng = RandomKey.next (RandomKey.next ⟨0, 7⟩) := by
  intro ops
  obtain ⟨start, load, all⟩ := draws_in_order diceProgram (by decide) "dice" ⟨0, 7⟩ false
  obtain ⟨rng, draws, -⟩ := all ops
  have registers : ((start.log ops).filter isRandom).map (·.operands.x) = [0, 1] := by
    obtain rfl := Except.ok.inj ((loadRom_of_le _ (by decide) _).symm.trans load)
    decide +kernel
  obtain ⟨m₀, rest, log, -, others⟩ := List.map_eq_cons_iff.mp registers
  obtain ⟨m₁, rest, rfl, second, none⟩ := List.map_eq_cons_iff.mp others
  obtain rfl := List.map_eq_nil_iff.mp none
  rw [log] at rng draws
  exact ⟨start, m₁, load, congrArg (·[1]?) log, second, draws 1 m₁ rfl, rng⟩

end Chip8.Machine
