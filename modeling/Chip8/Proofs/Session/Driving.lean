import Chip8.Proofs.Session.Lifecycle

/-! # Driving a session

A driver lets a session run on threads or in its own time. Here a run that blocks its caller is
taken from one sleep to the next, as a thread is, so that other calls may come between its turns.
-/

namespace Chip8

inductive Cue (τ : Type) where
  | act (a : Action τ)
  /-- A run that blocks its caller begins and takes its first turn. -/
  | enter (lag : Option (Quantity τ) := none)
  /-- The sleep of that run passes, and it takes its next turn. -/
  | wake (nap : Nap τ)

/-- A session with its threads, and whether a run that blocks its caller is asleep. -/
structure Driven (τ : Type) [OfScientific τ] where
  roles : Roles τ
  asleep : Bool := false

/-- Neither runs the machine nor resets it. -/
def Call.isPresenting {τ : Type} : Call τ → Bool
  | .setKey _ _ | .setKeys _ | .consumeDraw | .frame => true
  | _ => false

/-- All of the machine's cycles come from runs. -/
def Cue.isRunning {τ : Type} : Cue τ → Bool
  | .act (.call c) => c.isPresenting
  | _ => true

variable {τ : Type} [TimeScale τ]

def Roles.events (r : Roles τ) : Action τ → List (RunEvent τ)
  | .run naps lag => r.session.runEvents naps lag
  | .proceed thread nap =>
    match r.threads[thread]? with
    | some .beginning => r.session.beginEvents nap.time
    | some .sleeping => r.session.wakeEvents nap
    | _ => []
  | _ => []

namespace Driven

def session (d : Driven τ) : Session τ := d.roles.session

def atTime (d : Driven τ) (now : Quantity τ) : Driven τ := { d with roles := d.roles.atTime now }

def turned (d : Driven τ) (x : Session τ × Turn) : Driven τ where
  roles := { d.roles with session := x.1 }
  asleep := x.2.stage.isAlive

def perform (d : Driven τ) : Cue τ → Driven τ
  | .act a => { d with roles := (d.roles.perform a).1 }
  | .enter lag => d.turned (d.session.beginRun lag)
  | .wake nap => if d.asleep then d.turned (d.session.wake nap) else d

def events (d : Driven τ) : Cue τ → List (RunEvent τ)
  | .act a => d.roles.events a
  | .enter lag => d.session.beginEvents lag
  | .wake nap => if d.asleep then d.session.wakeEvents nap else []

/-- What a history of cues leaves, each at a reading of the clock. -/
def after (d : Driven τ) (history : List (Quantity τ × Cue τ)) : Driven τ :=
  history.foldl (fun d e => (d.atTime e.1).perform e.2) d

def eventsOf : List (Quantity τ × Cue τ) → Driven τ → List (RunEvent τ)
  | [], _ => []
  | e :: rest, d => (d.atTime e.1).events e.2 ++ eventsOf rest ((d.atTime e.1).perform e.2)

/-! ## Runs that block their caller -/

theorem wake_turned (d : Driven τ) (x : Session τ × Turn) (nap : Nap τ) :
    (d.turned x).perform (.wake nap) = d.turned (Session.resume x nap) := by
  rcases x with ⟨s, _ | _ | _⟩ <;> rfl

/-- Turn by turn a run that blocks its caller comes to what it comes to at once. -/
theorem session_turns (d : Driven τ) (naps : List (Nap τ)) (lag : Option (Quantity τ)) :
    ((naps.foldl (fun d nap => d.perform (.wake nap)) (d.perform (.enter lag))).perform
      (.wake Session.stopNap)).session = (d.session.run naps lag).1 := by
  have turns (naps : List (Nap τ)) (x : Session τ × Turn) :
      naps.foldl (fun d nap => d.perform (.wake nap)) (d.turned x) =
        d.turned (naps.foldl Session.resume x) := by
    induction naps generalizing x with
    | nil => rfl
    | cons nap rest ih =>
      rw [List.foldl_cons, wake_turned]
      exact ih _
  have entered : d.perform (.enter lag) = d.turned (d.session.beginRun lag) := rfl
  rw [entered, turns, wake_turned, Session.run, Session.follow_eq_outcome]
  rfl

end Driven

end Chip8
