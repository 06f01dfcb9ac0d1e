import Chip8.Proofs.Clock.Conservation

/-! # Stretches of time

A clock that is restarted now and then measures one stretch of time after the other, each from
a restart to the last tick since. Without rounding and without a limit it grants the floor of
frequency times time in each of them, and forgets with a restart what it has left over.
-/

namespace Chip8

/-- From the reading at which the clock was restarted to that of the last tick since. -/
structure Stretch where
  began : Rat
  last : Rat

def Stretch.span (r : Stretch) : Rat := r.last - r.began

namespace Stretch

/-! ## Measuring

The stretches of a clock stand in a list, the latest of them first. -/

/-- A tick makes the latest stretch longer. The first tick of a clock that was never restarted
begins one. -/
def extend : List Stretch → Rat → List Stretch
  | [], now => [⟨now, now⟩]
  | r :: rest, now => { r with last := now } :: rest

def current : List Stretch → Rat
  | [] => 0
  | r :: _ => r.span

def growth : List Stretch → Rat → Rat
  | [], _ => 0
  | r :: _, now => now - r.last

theorem last_of_head?_extend {stretches : List Stretch} {now : Rat} {r : Stretch}
    (h : (extend stretches now).head? = some r) : r.last = now := by
  cases stretches <;> cases h <;> rfl

/-- What the stretches come to at a frequency, each rounded down by itself. -/
def total (frequency : Rat) (stretches : List Stretch) : Int :=
  (stretches.map fun r => ⌊frequency * r.span⌋).sum

theorem total_begin (frequency now : Rat) (stretches : List Stretch) :
    total frequency (⟨now, now⟩ :: stretches) = total frequency stretches := by
  simp [total, span]

theorem current_extend (stretches : List Stretch) (now : Rat) :
    current (extend stretches now) = current stretches + growth stretches now := by
  cases stretches with
  | nil => simp [extend, current, growth, span]
  | cons r rest =>
    simp only [extend, current, growth, span]
    ring

theorem total_extend (frequency : Rat) (stretches : List Stretch) (now : Rat) :
    total frequency (extend stretches now) + ⌊frequency * current stretches⌋ =
      total frequency stretches + ⌊frequency * current (extend stretches now)⌋ := by
  cases stretches with
  | nil => simp [total, extend, current, span]
  | cons r rest =>
    simp only [total, extend, current, List.map_cons, List.sum_cons]
    ring

/-- So much was taken out of a credit that is now the fraction left of the latest stretch. -/
structure Gauge (frequency credit : Rat) (taken : Int) (stretches : List Stretch) : Prop where
  taken : taken = total frequency stretches
  credit : credit = Int.fract (frequency * current stretches)

variable {frequency credit credit' : Rat} {taken due : Int} {stretches : List Stretch}

theorem Gauge.nil (frequency : Rat) : Gauge frequency 0 0 [] := by
  constructor
  · rfl
  · simp [current]

theorem Gauge.begin (h : Gauge frequency credit taken stretches) (now : Rat) :
    Gauge frequency 0 taken (⟨now, now⟩ :: stretches) := by
  constructor
  · rw [total_begin, h.taken]
  · simp [current, span]

/-- What a tick finds due is by how much the floor has grown. -/
theorem Gauge.extend (h : Gauge frequency credit taken stretches) {now : Rat}
    (more : due + credit' = credit + frequency * growth stretches now)
    (bounds : 0 ≤ credit' ∧ credit' < 1) :
    Gauge frequency credit' (taken + due) (extend stretches now) := by
  have whole : frequency * current (Stretch.extend stretches now) =
      (⌊frequency * current stretches⌋ + due : Int) + credit' := by
    rw [h.credit, Int.fract] at more
    rw [current_extend, mul_add, Int.cast_add]
    linarith
  -- What is left over stays below one, so the floor grows by what is due.
  have floor : ⌊frequency * current (Stretch.extend stretches now)⌋ =
      ⌊frequency * current stretches⌋ + due := by
    rw [whole, Int.floor_intCast_add, Int.floor_eq_zero_iff.mpr bounds, add_zero]
  constructor
  · have grown := total_extend frequency stretches now
    rw [floor] at grown
    rw [h.taken]
    linarith
  · rw [Int.fract, floor, whole]
    ring

end Stretch

/-! ## Clocks that measure stretches -/

namespace Clock

open Stretch

variable {c : Clock Rat} {stretches : List Stretch}

/-- The clock was last read where the latest stretch ends. -/
def Measures (c : Clock Rat) (stretches : List Stretch) : Prop :=
  c.last.map Quantity.value = stretches.head?.map Stretch.last

theorem Sound.exists_grants (h : c.Sound) (unlimited : c.catchUp = none)
    (measures : c.Measures stretches) (logger : Logger Rat) {now : Quantity Rat}
    (forward : ∀ r, stretches.head? = some r → r.last ≤ now.value) :
    ∃ due, (c.tick logger now).due = .ok due ∧
      (∃ lost, c.Grants (growth stretches now.value) lost due (c.tick logger now).clock) ∧
      (c.tick logger now).clock.Measures (extend stretches now.value) := by
  cases stretches with
  | nil =>
    have unread : c.last = none := by simpa [Measures] using measures
    have started : c.tick logger now =
        { clock := { c with last := some now }, due := .ok { cycles := 0, ticks := 0 } } := by
      rw [tick, unread]
    rw [started]
    refine ⟨_, rfl, ⟨0, ?_⟩, rfl⟩
    exact ⟨⟨h.cpu, h.timer, h.limit, h.cycleCredit, h.timerCredit⟩, ⟨rfl, rfl, rfl⟩,
      ⟨le_rfl, le_rfl⟩, by simp [growth], by simp [growth], by simp⟩
  | cons r rest =>
    obtain ⟨last, read, value⟩ : ∃ last, c.last = some last ∧ last.value = r.last := by
      simpa [Measures] using measures
    obtain ⟨due, found, grants, moved⟩ := exists_tick h logger read now
    have span : c.granted (elapsed last now) = growth (r :: rest) now.value := by
      have ahead : 0 ≤ now.value - r.last := sub_nonneg.mpr (forward r rfl)
      rw [granted_of_not_cuts (by simp [cuts, unlimited]), elapsed, value, max_eq_left ahead]
      rfl
    rw [span] at grants
    refine ⟨due, found, ⟨_, grants⟩, ?_⟩
    rw [Measures, moved]
    rfl

end Clock

end Chip8
