import Chip8.Proofs.Session.Drifting
import Chip8.Proofs.Session.Keys

/-! # What a thread does to a session

Between two looks at a session its thread can have done anything to the machine, but it has left
the held keys alone, and the machine works with those keys or with the ones it had before. Once no
thread is alive, the machine stands still and only the time goes on.
-/

namespace Chip8

namespace Session

variable {τ : Type} [TimeScale τ] {s t u : Session τ} {loaded : Bool}

def standing (s : Session τ) : Machine × Nat × Option Failure × Display :=
  (s.machine, s.cycles, s.error, s.frame)

/-- What becomes of a session between two looks at it, in which time no keys are set. Whether the
machine has loaded the held keys is told, and they are loaded by a live thread only. -/
structure Labours (s : Session τ) (loaded : Bool) (t : Session τ) : Prop extends s.Drifts t where
  keypads : t.keypads = (s.keypad, if loaded then s.keypad else s.machine.keypad)
  rests : s.running = false → loaded = false ∧ t.standing = s.standing

theorem Labours.refl (s : Session τ) : s.Labours false s where
  toDrifts := .refl s
  keypads := rfl
  rests _ := ⟨rfl, rfl⟩

/-! ## Turns of the thread -/

/-- The held keys are those of `s`, and the machine works with them or with those of `s`. -/
def Handed (s t : Session τ) : Prop :=
  ∃ loaded : Bool, t.keypads = (s.keypad, if loaded then s.keypad else s.machine.keypad)

theorem Handed.refl (s : Session τ) : s.Handed s := ⟨false, rfl⟩

theorem Handed.congr (h : s.Handed t) (same : u.keypads = t.keypads) : s.Handed u := by
  obtain ⟨loaded, keys⟩ := h
  exact ⟨loaded, same.trans keys⟩

theorem keypads_of_core (same : t.core = s.core) : t.keypads = s.keypads :=
  congrArg (fun c => (c.keypad, c.machine.keypad)) same

theorem Handed.of_core (h : t.Handed u) (same : t.core = s.core) : s.Handed u := by
  obtain ⟨loaded, keys⟩ := h
  have held : t.keypad = s.keypad := congrArg Core.keypad same
  have machine : t.machine = s.machine := congrArg Core.machine same
  rw [held, machine] at keys
  exact ⟨loaded, keys⟩

theorem handed_tick (s : Session τ) : s.Handed s.tick.1 :=
  ⟨s.loads .tick, Prod.ext emulates_tick.keypad (does_tick.works.loading s.loading_tick)⟩

theorem keypads_leave (reason : Except Raised Unit) : (s.leave reason).1.keypads = s.keypads := by
  rcases s.session_leave reason with ⟨text, -, left⟩ | ⟨e, text, -, left⟩
  · rw [left]
    rfl
  · rw [left]
    exact keypads_publish (s := { s with error := some (.execution e) })

theorem handed_turn (s : Session τ) : s.Handed s.turn.1 := by
  unfold turn
  split
  · exact (Handed.refl s).congr (keypads_leave _)
  · have ticked := s.handed_tick
    generalize s.tick = x at ticked ⊢
    rcases x with ⟨t, failure | _⟩
    · exact ticked.congr (keypads_leave _)
    · rcases slumber_cases t {} with ⟨span, -, asleep, -⟩ | ⟨e, -, fails, -⟩
      · dsimp only
        rw [asleep]
        exact ticked
      · dsimp only
        rw [fails]
        exact ticked.congr (keypads_leave _)

theorem core_elapseIn (nap : Nap τ) : (s.elapseIn nap).1.core = s.core := by
  unfold elapseIn elapse
  split
  · split <;> rfl
  · rfl

theorem core_prepareRun (lag : Option (Quantity τ)) : (s.prepareRun lag).1.core = s.core := by
  unfold prepareRun
  have told : ({ s with clock := s.clock.reset s.surroundings.now }.reportStart).1.core = s.core :=
    rfl
  generalize reportStart { s with clock := s.clock.reset s.surroundings.now } = x at told ⊢
  rcases x with ⟨t, e | _⟩
  · exact told
  · exact (core_elapseIn _).trans told

theorem handed_beginRun (s : Session τ) (lag : Option (Quantity τ)) :
    s.Handed (s.beginRun lag).1 := by
  have core := core_prepareRun (s := s) lag
  unfold beginRun
  generalize s.prepareRun lag = y at core
  rcases y with ⟨t, e | _⟩
  · exact (Handed.refl t).of_core core
  · exact t.handed_turn.of_core core

theorem core_sleepThrough {nap : Nap τ} (keys : nap.keys = []) :
    (s.sleepThrough nap).1.core = s.core := by
  have passed := core_elapseIn (s := { s with stopRequested := s.stopRequested || nap.stop }) nap
  unfold sleepThrough
  rw [keys]
  dsimp only [setEachKey] at passed ⊢
  generalize Session.elapseIn _ nap = y at passed ⊢
  rcases y with ⟨t, e | _⟩
  · exact passed
  · dsimp only
    split <;> exact passed

theorem handed_wake {nap : Nap τ} (keys : nap.keys = []) : s.Handed (s.wake nap).1 := by
  have core := core_sleepThrough (s := s) keys
  unfold wake
  generalize s.sleepThrough nap = y at core
  rcases y with ⟨t, raised | _⟩
  · exact ((Handed.refl t).congr (keypads_leave _)).of_core core
  · exact t.handed_turn.of_core core

/-! ## Presenters -/

theorem Handed.labours (h : s.Handed t) (drifts : s.Drifts t) (runs : s.running = true) :
    ∃ loaded, s.Labours loaded t := by
  obtain ⟨loaded, keypads⟩ := h
  refine ⟨loaded, drifts, keypads, fun rests => ?_⟩
  rw [runs] at rests
  cases rests

theorem exists_labours_release (s : Session τ) (nap : Nap τ) (keys : nap.keys = [])
    (steady : nap.Uninterrupted) : ∃ loaded, s.Labours loaded (s.release nap) := by
  have drifts := s.drifts_release steady
  unfold release at drifts ⊢
  split at drifts
  · next runs =>
    rw [if_pos runs]
    exact ((handed_wake keys).congr (keypads_of_core (core_settle _))).labours drifts runs
  · next rests =>
    rw [if_neg rests]
    exact ⟨false, .refl s⟩

theorem exists_labours_stop (s : Session τ) : ∃ loaded, s.warned.Labours loaded s.stop :=
  s.warned.exists_labours_release {} rfl nofun

theorem exists_labours_start (s : Session τ) (lag : Option (Quantity τ)) :
    s.spawn.2 = (s.start lag).2 ∧ ∃ loaded, s.spawn.1.Labours loaded (s.start lag).1 := by
  obtain ⟨answer, drifts⟩ := s.spawn_start lag
  refine ⟨answer, ?_⟩
  cases runs : s.running with
  | true =>
    have refused : s.spawn.1 = s ∧ (s.start lag).1 = s := by
      rw [spawn, start, if_pos runs, if_pos runs]
      exact ⟨rfl, rfl⟩
    rw [refused.1, refused.2]
    exact ⟨false, .refl s⟩
  | false =>
    have spawned : s.spawn.1 = s.asked.onThread .asleep := by rw [spawn_of_rests runs]
    have started : (s.start lag).1 = settle (s.asked.beginRun lag) := by
      rw [start, if_neg (by simp [runs])]
      rfl
    rw [spawned, started] at drifts ⊢
    have begun := (s.asked.handed_beginRun lag).congr (keypads_of_core (core_settle _))
    exact (begun.of_core (s := s.asked.onThread .asleep) rfl).labours drifts rfl

end Session

end Chip8
