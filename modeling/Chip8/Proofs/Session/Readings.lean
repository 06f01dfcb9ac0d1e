import Mathlib.Data.List.Induction
import Chip8.Proofs.Session.Commands
import Chip8.Proofs.Session.Tracing

/-! # Readings of the clock

A clock that reads times on the time scale, and no integers of any size, makes every time in the
log one on the scale. A log line can then always be stamped, and the end of a run be reported.
-/

namespace Chip8

variable {τ : Type} [TimeScale τ]

/-- Given on the time scale, and not as an integer of any size. -/
def Quantity.OnScale (q : Quantity τ) : Prop := ∃ x, q = .real x

/-- A number of cycles that can be told: it has a place on the time scale, and not too many digits
to be written. -/
structure Tellable (τ : Type) [TimeScale τ] (cycles : Int) : Prop where
  scaled : (TimeScale.ofInt? cycles : Option τ).isSome
  writable : Text.isWritable cycles = true

omit [TimeScale τ] in
theorem Quantity.text_of_isWritable {q : Quantity τ} (h : q.isWritable = true)
    (write : Quantity τ → String) : q.text write = .ok (write q) := if_pos h

theorem Quantity.OnScale.sub {p q : Quantity τ} (hp : p.OnScale) (hq : q.OnScale) :
    ∃ x, p.sub q = .ok (.real x) := by
  obtain ⟨x, rfl⟩ := hp
  obtain ⟨y, rfl⟩ := hq
  exact ⟨x - y, rfl⟩

theorem Quantity.OnScale.add {p q r : Quantity τ} (hp : p.OnScale) (h : p.add q = .ok r) :
    r.OnScale := by
  obtain ⟨x, rfl⟩ := hp
  dsimp only [Quantity.add, Quantity.combine] at h
  split at h
  · cases h
    exact ⟨_, rfl⟩
  · cases h
  · cases h

theorem Report.outcome_line {r : Report} {text : String} (h : r.outcome = .ok ()) :
    (r.line (.ok text)).outcome = .ok () := by
  unfold Report.line
  rw [h]

namespace Journal

structure OnScale (j : Journal τ) : Prop where
  start : j.logger.start.OnScale
  runStart : ∀ q, j.runStart = some q → q.OnScale

variable {j : Journal τ} {now : Quantity τ}

omit [TimeScale τ] in
theorem OnScale.started (h : j.OnScale) (hnow : now.OnScale) : (j.started now).OnScale := by
  refine ⟨h.start, ?_⟩
  rintro q hq
  cases hq
  exact hnow

theorem OnScale.stamp (h : j.OnScale) (hnow : now.OnScale) : (j.logger.stamp now).isOk := by
  obtain ⟨x, hx⟩ := hnow.sub h.start
  exact Logger.stamp_of_measurableFrom ⟨_, hx, rfl⟩

theorem OnScale.origin (h : j.OnScale) : j.origin.OnScale := by
  unfold Journal.origin
  split
  · next start hstart =>
    split
    · exact h.start
    · exact h.runStart start hstart
  · exact h.start

theorem OnScale.exists_measure (h : j.OnScale) (hnow : now.OnScale) {cycles : Int}
    (told : Tellable τ cycles) :
    ∃ x rate, j.measure now (.whole cycles) = .ok (.real x, rate) := by
  obtain ⟨x, hx⟩ := hnow.sub h.origin
  obtain ⟨n, hn⟩ := Option.isSome_iff_exists.mp told.scaled
  obtain ⟨rate, hrate⟩ : ∃ rate : τ, Journal.rate (.whole cycles) (.real x) = .ok rate := by
    unfold Journal.rate
    split
    · refine ⟨n / x, ?_⟩
      simp only [Quantity.div, Quantity.toReal, TimeScale.ofInt, hn, bind, Except.bind, pure,
        Except.pure]
    · exact ⟨_, rfl⟩
  refine ⟨x, rate, ?_⟩
  simp only [measure, hx, hrate, bind, Except.bind, pure, Except.pure]

theorem OnScale.outcome_finish (h : j.OnScale) (hnow : now.OnScale) {cycles : Int}
    (told : Tellable τ cycles) (error : Option String) :
    (j.finish now (.whole cycles) error).outcome = .ok () := by
  obtain ⟨x, rate, measured⟩ := h.exists_measure hnow told
  have written := Logger.exists_write (h.stamp hnow)
  obtain ⟨tally, ht⟩ : ∃ text, j.tally now (.whole cycles) (.real x) rate = .ok text := by
    have count := Quantity.text_of_isWritable (q := (.whole cycles : Quantity τ)) told.writable
    simp only [tally, count, Quantity.fixed, Quantity.toReal, bind, Except.bind]
    exact written .info _
  unfold finish
  rw [measured]
  dsimp only
  rw [ht]
  apply Report.outcome_line
  cases error with
  | none => rfl
  | some message =>
    obtain ⟨text, ht⟩ := written .error ("Session halted: " ++ message)
    dsimp only
    rw [ht]
    rfl

end Journal

namespace Session

variable {s t : Session τ}

/-- The log and the clock of a session are on the time scale. -/
structure OnScale (s : Session τ) : Prop where
  journal : s.journal.OnScale
  now : s.surroundings.now.OnScale

theorem OnScale.congr (h : s.OnScale) (journal : t.journal = s.journal)
    (now : t.surroundings.now = s.surroundings.now) : t.OnScale :=
  ⟨journal ▸ h.journal, now ▸ h.now⟩

theorem OnScale.of_setting (h : s.OnScale) (same : t.setting = s.setting) : t.OnScale := by
  simp only [setting, Prod.mk.injEq] at same
  exact h.congr same.2.1 same.2.2.2

theorem OnScale.stampable (h : s.OnScale) : s.Stampable := h.journal.stamp h.now

theorem OnScale.call (h : s.OnScale) (c : Call τ) : (s.call c).1.OnScale := by
  obtain ⟨-, journal, now⟩ := call_keeps (s := s) c
  exact h.congr journal now

theorem OnScale.tick (h : s.OnScale) : s.tick.1.OnScale := h.call .tick

theorem OnScale.publish (h : s.OnScale) : s.publish.OnScale := h.of_setting setting_publish

theorem OnScale.elapse (h : s.OnScale) (span : Quantity τ) : (s.elapse span).1.OnScale := by
  unfold Session.elapse
  split
  · next sum => exact ⟨h.journal, h.now.add sum⟩
  · exact h

theorem onScale_lasting : Lasting (OnScale : Session τ → Prop) where
  beside h same := h.congr same.journal_eq same.now_eq
  started h := ⟨h.journal.started h.now, h.now⟩
  tick h := h.tick
  publish h := h.publish
  setKey index pressed h := h.call (.setKey index pressed)
  elapse span h := h.elapse span

theorem OnScale.perform (h : s.OnScale) (c : Command τ) : (s.perform c).1.OnScale := by
  cases c with
  | call c => exact h.call c
  | run naps lag => exact onScale_lasting.run naps lag h
  | start lag => exact onScale_lasting.start lag h
  | release nap => exact onScale_lasting.release nap h
  | stop => exact onScale_lasting.stop h

theorem OnScale.after (h : s.OnScale) {history : List (Quantity τ × Command τ)}
    (readings : ∀ x ∈ history, x.1.OnScale) : (s.after history).OnScale := by
  induction history using List.reverseRecOn with
  | nil => exact h
  | append_singleton history x ih =>
    have earlier := ih fun x hx => readings x (List.mem_append_left _ hx)
    rw [after_concat]
    exact OnScale.perform (s := (s.after history).atTime x.1)
      ⟨earlier.journal, readings x (by simp)⟩ x.2

end Session

end Chip8
