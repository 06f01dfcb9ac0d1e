import Chip8.Proofs.Session.Calls
import Chip8.Session.Run

/-! # Commands

Besides making calls a driver can let a session run, in the driver's own time or on the session's
thread. A history of commands, each at a reading of the clock, takes a session to another. What
every part of a run keeps, every command that runs the session keeps.
-/

namespace Chip8

inductive Command (τ : Type) where
  | call (c : Call τ)
  /-- A run that blocks its caller, whose sleeps are the naps. Some time may pass before its
  first turn. -/
  | run (naps : List (Nap τ)) (lag : Option (Quantity τ) := none)
  | start (lag : Option (Quantity τ) := none)
  /-- The thread's sleep passes. -/
  | release (nap : Nap τ)
  | stop

namespace Session

variable {τ : Type} [TimeScale τ]

def perform (s : Session τ) : Command τ → Session τ × Except Failure Answer
  | .call c => s.call c
  | .run naps lag => answered (fun _ => .done) (s.run naps lag)
  | .start lag => answered (fun _ => .done) (s.start lag)
  | .release nap => (s.release nap, .ok .done)
  | .stop => (s.stop, .ok .done)

def after (s : Session τ) (history : List (Quantity τ × Command τ)) : Session τ :=
  history.foldl (fun s e => ((s.atTime e.1).perform e.2).1) s

@[simp] theorem after_nil (s : Session τ) : s.after [] = s := rfl

@[simp] theorem after_concat (s : Session τ) (history : List (Quantity τ × Command τ))
    (e : Quantity τ × Command τ) :
    s.after (history ++ [e]) = (((s.after history).atTime e.1).perform e.2).1 := by
  simp [after]

/-! ## What commands keep -/

variable {s t : Session τ}

/-- The session `t` is `s` but for its clock, for how its run stands and for what the run has
written and asked for. -/
def Beside (s t : Session τ) : Prop :=
  t = { s with
    clock := t.clock
    error := t.error
    stopRequested := t.stopRequested
    thread := t.thread
    surroundings := { t.surroundings with now := s.surroundings.now } }

theorem Beside.journal_eq (h : s.Beside t) : t.journal = s.journal :=
  (congrArg Session.journal h).trans rfl

theorem Beside.now_eq (h : s.Beside t) : t.surroundings.now = s.surroundings.now :=
  (congrArg (fun t => t.surroundings.now) h).trans rfl

/-- A property that every part of a run keeps. -/
structure Lasting (P : Session τ → Prop) : Prop where
  beside : ∀ {s t : Session τ}, P s → s.Beside t → P t
  started : ∀ {s : Session τ}, P s → P { s with journal := s.journal.started s.surroundings.now }
  tick : ∀ {s : Session τ}, P s → P s.tick.1
  publish : ∀ {s : Session τ}, P s → P s.publish
  setKey : ∀ {s : Session τ} (index pressed), P s → P (s.setKey index pressed).1
  elapse : ∀ {s : Session τ} (span), P s → P (s.elapse span).1

namespace Lasting

variable {P : Session τ → Prop} (lasting : Lasting P)

include lasting

theorem conclude (outcome : Except Failure Unit) {x : Session τ × Except Failure Unit}
    (h : P s) (same : s.Beside x.1) : P (conclude outcome x).1 := by
  rcases x with ⟨t, e | _⟩ <;> exact lasting.beside h same

theorem leave (reason : Except Raised Unit) (h : P s) : P (s.leave reason).1 := by
  rcases reason with (failure | _) | _
  · cases failure with
    | execution e =>
      have halted : P { s with error := some (.execution e) } := lasting.beside h rfl
      exact lasting.conclude _ (lasting.publish halted) rfl
    | _ => exact h
  · exact h
  · exact lasting.conclude _ h rfl

theorem turn (h : P s) : P s.turn.1 := by
  unfold Session.turn
  split
  · exact lasting.leave _ h
  · have ticked := lasting.tick h
    generalize s.tick = x at ticked ⊢
    rcases x with ⟨s₁, failure | _⟩
    · exact lasting.leave _ ticked
    · dsimp only [fallAsleep]
      split
      · exact lasting.beside ticked rfl
      · exact lasting.leave _ ticked

theorem elapseIn (nap : Nap τ) (h : P s) : P (s.elapseIn nap).1 := by
  unfold Session.elapseIn
  split
  · exact lasting.elapse _ h
  · exact h

theorem prepareRun (lag : Option (Quantity τ)) (h : P s) : P (s.prepareRun lag).1 := by
  have told : P ({ s with clock := s.clock.reset s.surroundings.now }.reportStart).1 :=
    lasting.beside (lasting.started h) rfl
  unfold Session.prepareRun
  generalize reportStart { s with clock := s.clock.reset s.surroundings.now } = x at told ⊢
  rcases x with ⟨s₁, failure | _⟩
  · exact told
  · exact lasting.elapseIn _ told

theorem beginRun (lag : Option (Quantity τ)) (h : P s) : P (s.beginRun lag).1 := by
  have prepared := lasting.prepareRun lag h
  unfold Session.beginRun
  generalize s.prepareRun lag = x at prepared ⊢
  rcases x with ⟨s₁, failure | _⟩
  · exact prepared
  · exact lasting.turn prepared

theorem setEachKey (keys : List (Quantity τ × Bool)) (h : P s) : P (s.setEachKey keys).1 := by
  induction keys generalizing s with
  | nil => exact h
  | cons k rest ih =>
    unfold Session.setEachKey
    have first := lasting.setKey k.1 k.2 h
    generalize s.setKey k.1 k.2 = x at first ⊢
    rcases x with ⟨s₁, failure | _⟩
    · exact first
    · exact ih first

theorem sleepThrough (nap : Nap τ) (h : P s) : P (s.sleepThrough nap).1 := by
  unfold Session.sleepThrough
  have asked : P { s with stopRequested := s.stopRequested || nap.stop } := lasting.beside h rfl
  have keys := lasting.setEachKey nap.keys asked
  generalize Session.setEachKey _ nap.keys = x at keys ⊢
  rcases x with ⟨s₁, failure | _⟩
  · exact keys
  · have passed := lasting.elapseIn nap keys
    dsimp only at passed ⊢
    generalize s₁.elapseIn nap = y at passed ⊢
    rcases y with ⟨s₂, failure | _⟩
    · exact passed
    · dsimp only
      split <;> exact passed

theorem wake (nap : Nap τ) (h : P s) : P (s.wake nap).1 := by
  unfold Session.wake
  have slept := lasting.sleepThrough nap h
  generalize s.sleepThrough nap = x at slept ⊢
  rcases x with ⟨s₁, raised | _⟩
  · exact lasting.leave _ slept
  · exact lasting.turn slept

theorem follow (naps : List (Nap τ)) {x : Session τ × Turn} (h : P x.1) : P (follow naps x).1 := by
  induction naps generalizing x with
  | nil =>
    rcases x with ⟨s, _ | _ | _⟩
    · exact lasting.wake stopNap h
    · exact h
    · exact h
  | cons nap rest ih =>
    rcases x with ⟨s, _ | _ | _⟩
    · exact ih (lasting.wake nap h)
    · exact h
    · exact h

theorem settle {x : Session τ × Turn} (h : P x.1) : P (settle x) := by
  rcases x with ⟨s, _ | (failure | _) | _⟩
  · exact lasting.beside h rfl
  · cases failure <;> exact lasting.beside h rfl
  · exact lasting.beside h rfl
  · exact lasting.beside h rfl

theorem run (naps : List (Nap τ)) (lag : Option (Quantity τ)) (h : P s) :
    P (s.run naps lag).1 :=
  lasting.follow naps (lasting.beginRun lag h)

theorem start (lag : Option (Quantity τ)) (h : P s) : P (s.start lag).1 := by
  unfold Session.start
  split
  · exact h
  · have asked : P { s with error := none, stopRequested := false } := lasting.beside h rfl
    exact lasting.settle (lasting.beginRun lag asked)

theorem release (nap : Nap τ) (h : P s) : P (s.release nap) := by
  unfold Session.release
  split
  · exact lasting.settle (lasting.wake nap h)
  · exact h

theorem stop (h : P s) : P s.stop := by
  have asked : P { s with stopRequested := true } := lasting.beside h rfl
  exact lasting.release {} asked

end Lasting

/-- What a session keeps for good. -/
def fixtures (s : Session τ) : Config τ × Logger τ := (s.config, s.journal.logger)

theorem fixtures_of_setting (h : t.setting = s.setting) : t.fixtures = s.fixtures := by
  simp only [setting, Prod.mk.injEq] at h
  rw [fixtures, fixtures, h.1, h.2.1]

theorem fixtures_call (c : Call τ) : (s.call c).1.fixtures = s.fixtures := by
  obtain ⟨config, journal, -⟩ := call_keeps (s := s) c
  rw [fixtures, fixtures, config, journal]

theorem fixtures_lasting (fixed : Config τ × Logger τ) :
    Lasting fun s => s.fixtures = fixed where
  beside h same := (congrArg fixtures same).trans h
  started h := h
  tick h := (fixtures_call .tick).trans h
  publish h := (fixtures_of_setting setting_publish).trans h
  setKey index pressed h := (fixtures_call (.setKey index pressed)).trans h
  elapse span h := by
    unfold elapse
    split <;> exact h

theorem fixtures_perform (c : Command τ) : (s.perform c).1.fixtures = s.fixtures := by
  have lasting := fixtures_lasting s.fixtures
  cases c with
  | call c => exact fixtures_call c
  | run naps lag => exact lasting.run naps lag rfl
  | start lag => exact lasting.start lag rfl
  | release nap => exact lasting.release nap rfl
  | stop => exact lasting.stop rfl

theorem fixtures_after (history : List (Quantity τ × Command τ)) :
    (s.after history).fixtures = s.fixtures := by
  induction history generalizing s with
  | nil => rfl
  | cons e rest ih => exact ih.trans (fixtures_perform (s := s.atTime e.1) e.2)

end Session

end Chip8
