import Chip8.CommandLine.Launch
import Chip8.Proofs.Session.Labouring
import Chip8.Proofs.Window.Handoff

/-! # How a window ends

The presenter goes through its loop one look at the session at a time, and the thread of the session
goes on between any two of them. Wherever the thread fails, the presenter comes to the wait that
raises the failure: a pause and the way out both wait for the thread, a resume comes only after a
pause whose wait has returned, and the loop is left once the thread is found ended.
-/

namespace Chip8

def WindowEvent.closes : WindowEvent → Bool
  | quit => true
  | keyDown key => key = Keyboard.escapeKey
  | _ => false

/-- The held keys after an event. The keys that pause and close a window stand for none of them. -/
def WindowEvent.press (held : Keypad) : WindowEvent → Keypad
  | keyDown key => (Keyboard.key? key).elim held fun k => held.put k true
  | keyUp key => (Keyboard.key? key).elim held fun k => held.put k false
  | _ => held

inductive Place where
  /-- At the head of the loop. -/
  | looping
  | handling (events : List WindowEvent)
  /-- A pause waits for the thread; the other events of the frame are left. -/
  | pausing (events : List WindowEvent)
  | noticing
  | polling
  /-- A frame was found ready and is yet to be taken. -/
  | taking
  /-- Out of the loop, by a failure or not. -/
  | leaving (outcome : Except Failure Unit)
  | quitting (outcome : Except Failure Unit)
  /-- The last wait for the thread. -/
  | joining
  | finished (outcome : Except Failure Unit)

/-- What is noted of a window: its events as they are handled, and the keys as they are loaded. -/
inductive Moment where
  | event (e : WindowEvent)
  | load
  deriving DecidableEq

/-- A window that is presented, with the events of the frames to come. Frames without events follow
them. -/
structure Viewing (τ : Type) [OfScientific τ] where
  window : Window τ
  script : List (List WindowEvent)
  place : Place

namespace Viewing

variable {τ : Type} [TimeScale τ]

def onward (script : List (List WindowEvent)) (next : Place) :
    Window τ × Except Failure Unit → Viewing τ
  | (window, .ok ()) => { window, script, place := next }
  | (window, .error e) => { window, script, place := .leaving (.error e) }

@[simp] theorem window_onward (script : List (List WindowEvent)) (next : Place)
    (x : Window τ × Except Failure Unit) : (onward script next x).window = x.1 := by
  rcases x with ⟨w, e | _⟩ <;> rfl

def handle (v : Viewing τ) (event : WindowEvent) (rest : List WindowEvent) : Viewing τ :=
  if event = .keyDown Keyboard.pauseKey then
    if v.window.paused then
      onward v.script (.handling rest)
        ({ v.window with session := v.window.session.spawn.1, paused := false },
          v.window.session.spawn.2)
    else
      { v with
        window := { v.window with session := v.window.session.warned, paused := true }
        place := .pausing rest }
  else onward v.script (.handling rest) (v.window.handle event)

def advance (v : Viewing τ) : Viewing τ :=
  match v.place with
  | .looping =>
    if v.window.isOpen then
      { v with script := v.script.tail, place := .handling (v.script.headD []) }
    else { v with place := .leaving (.ok ()) }
  | .handling [] => { v with place := .noticing }
  | .handling (event :: rest) => v.handle event rest
  | .pausing rest =>
    if v.window.session.running then v
    else onward v.script (.handling rest) (v.window, v.window.session.join)
  | .noticing => { v with window := v.window.noticeEnd, place := .polling }
  | .polling =>
    { v with window := v.window.poll.1, place := if v.window.poll.2 then .taking else .looping }
  | .taking => onward v.script .looping v.window.repaint
  | .leaving outcome =>
    { v with
      window := { v.window with session := v.window.session.warned }
      place := .quitting outcome }
  | .quitting (.error e) => { v with window := v.window.call .quit, place := .finished (.error e) }
  | .quitting (.ok ()) => { v with window := v.window.call .quit, place := .joining }
  | .joining =>
    if v.window.session.running then v else { v with place := .finished v.window.session.join }
  | .finished _ => v

def opening (w : Window τ) (script : List (List WindowEvent)) : Viewing τ :=
  match w.session.spawn with
  | (session, .ok ()) => { window := { w with session }, script, place := .looping }
  | (session, .error e) => { window := { w with session }, script, place := .finished (.error e) }

/-- A way on which the presenter takes a number of steps. The thread goes on before, between and
after them. -/
inductive Takes (v : Viewing τ) : Nat → Viewing τ → Prop
  | refl : Takes v 0 v
  | present {steps : Nat} {u : Viewing τ} (before : Takes v steps u) :
      Takes v (steps + 1) u.advance
  | emulate {steps : Nat} {u : Viewing τ} {t : Session τ} (before : Takes v steps u)
      (drifts : u.window.session.Drifts t) :
      Takes v steps { u with window := { u.window with session := t } }

def Leads (v v' : Viewing τ) : Prop := ∃ steps, v.Takes steps v'

theorem Leads.refl (v : Viewing τ) : v.Leads v := ⟨0, .refl⟩

theorem Leads.trans {v₁ v₂ v₃ : Viewing τ} (h : v₁.Leads v₂) (h' : v₂.Leads v₃) : v₁.Leads v₃ := by
  obtain ⟨steps, takes⟩ := h'
  induction takes with
  | refl => exact h
  | present _ ih =>
    obtain ⟨k, before⟩ := ih
    exact ⟨k + 1, before.present⟩
  | emulate _ drifts ih =>
    obtain ⟨k, before⟩ := ih
    exact ⟨k, before.emulate drifts⟩

theorem leads_advance (v : Viewing τ) : v.Leads v.advance := ⟨1, .present .refl⟩

theorem leads_drift (v : Viewing τ) {t : Session τ} (drifts : v.window.session.Drifts t) :
    v.Leads { v with window := { v.window with session := t } } :=
  ⟨0, .emulate .refl drifts⟩

def handled (v : Viewing τ) : List Moment :=
  match v.place with
  | .handling (event :: _) => [.event event]
  | _ => []

/-- A way on which the thread does nothing to the session but its work, with what is noted on it. -/
inductive Plays (v : Viewing τ) : List Moment → Viewing τ → Prop
  | refl : Plays v [] v
  | present {log : List Moment} {u : Viewing τ} (before : Plays v log u) :
      Plays v (log ++ u.handled) u.advance
  | emulate {log : List Moment} {u : Viewing τ} {loaded : Bool} {t : Session τ}
      (before : Plays v log u) (labours : u.window.session.Labours loaded t) :
      Plays v (log ++ if loaded then [.load] else [])
        { u with window := { u.window with session := t } }

theorem Plays.trans {v₁ v₂ v₃ : Viewing τ} {log log' : List Moment} (h : v₁.Plays log v₂)
    (h' : v₂.Plays log' v₃) : v₁.Plays (log ++ log') v₃ := by
  induction h' with
  | refl => exact log.append_nil.symm ▸ h
  | present _ ih =>
    rw [← List.append_assoc]
    exact ih.present
  | emulate _ labours ih =>
    rw [← List.append_assoc]
    exact ih.emulate labours

theorem Plays.leads {v v' : Viewing τ} {log : List Moment} (h : v.Plays log v') : v.Leads v' := by
  induction h with
  | refl => exact .refl v
  | present _ ih => exact ih.trans (leads_advance _)
  | emulate _ labours ih => exact ih.trans (leads_drift _ labours.toDrifts)

def Reaches (v v' : Viewing τ) : Prop := ∃ log, v.Plays log v'

theorem Reaches.refl (v : Viewing τ) : v.Reaches v := ⟨[], .refl⟩

theorem Reaches.trans {v₁ v₂ v₃ : Viewing τ} (h : v₁.Reaches v₂) (h' : v₂.Reaches v₃) :
    v₁.Reaches v₃ := by
  obtain ⟨log, plays⟩ := h
  obtain ⟨log', plays'⟩ := h'
  exact ⟨log ++ log', plays.trans plays'⟩

theorem reaches_advance (v : Viewing τ) : v.Reaches v.advance := ⟨_, .present .refl⟩

theorem reaches_labour (v : Viewing τ) {t : Session τ}
    (labours : ∃ loaded, v.window.session.Labours loaded t) :
    v.Reaches { v with window := { v.window with session := t } } := by
  obtain ⟨loaded, labours⟩ := labours
  exact ⟨_, .emulate .refl labours⟩

/-- A window that is as open and as paused as before, over a thread that is as alive. -/
structure Steady (w w' : Window τ) : Prop where
  isOpen : w'.isOpen = w.isOpen
  paused : w'.paused = w.paused
  footing : w'.session.footing = w.session.footing

theorem Steady.refl (w : Window τ) : Steady w w := ⟨rfl, rfl, rfl⟩

theorem steady_repaint (w : Window τ) : Steady w w.repaint.1 := by
  unfold Window.repaint
  split <;> exact ⟨rfl, rfl, rfl⟩

theorem session_noticeEnd (w : Window τ) : w.noticeEnd.session = w.session := by
  unfold Window.noticeEnd
  split <;> rfl

theorem advance_cases (v : Viewing τ) :
    Steady v.window v.advance.window ∨
      (∃ event rest, v.place = .handling (event :: rest) ∧ v.advance = v.handle event rest) ∨
      v.place = .noticing ∧ v.advance.window = v.window.noticeEnd := by
  obtain ⟨w, script, place⟩ := v
  cases place with
  | handling events =>
    cases events with
    | nil => exact .inl (.refl w)
    | cons event rest => exact .inr (.inl ⟨event, rest, rfl, rfl⟩)
  | noticing => exact .inr (.inr ⟨rfl, rfl⟩)
  | looping =>
    unfold advance
    dsimp only
    split <;> exact .inl (.refl w)
  | pausing rest =>
    unfold advance
    dsimp only
    split
    · exact .inl (.refl w)
    · rw [window_onward]
      exact .inl (.refl w)
  | taking =>
    refine .inl ?_
    unfold advance
    dsimp only
    rw [window_onward]
    exact steady_repaint w
  | quitting outcome => cases outcome <;> exact .inl ⟨rfl, rfl, rfl⟩
  | joining =>
    unfold advance
    dsimp only
    split <;> exact .inl (.refl w)
  | polling | leaving | finished => exact .inl ⟨rfl, rfl, rfl⟩

/-! ## What the presenter relies on -/

/-- What holds of the window at the place where its presenter stands. -/
def Fits (w : Window τ) : Place → Prop
  | .looping | .handling _ | .noticing | .polling | .taking =>
    w.paused = true → w.session.EndedWith none
  | .pausing _ => True
  | .leaving (.ok _) | .quitting (.ok _) | .joining => w.isOpen = false
  | .finished (.ok _) => w.isOpen = false ∧ w.session.EndedWith none
  | .leaving (.error e) | .quitting (.error e) | .finished (.error e) =>
    w.session.EndedWith (some e)

/-- What holds at all times of a window whose pictures can be made. -/
structure Sound (v : Viewing τ) : Prop where
  visible : ∀ d, (v.window.picture d).isOk
  started : v.window.session.thread ≠ .absent
  asked : v.window.session.EndedWith none → v.window.session.stopRequested = true
  fits : Fits v.window v.place

variable {v v' : Viewing τ} {w : Window τ} {script : List (List WindowEvent)}
  {events : List WindowEvent} {event : WindowEvent} {e : Failure}

theorem setKey_eq (w : Window τ) (key : Char) (down : Bool) :
    w.setKey key down =
      ({ w with
          session := { w.session with
            keypad := (Keyboard.key? key).elim w.session.keypad fun k =>
              w.session.keypad.put k down } }, .ok ()) := by
  unfold Window.setKey
  cases Keyboard.key? key with
  | none => rfl
  | some k =>
    have index : 0 ≤ (k.val : Int) ∧ (k.val : Int) < 16 := ⟨Int.natCast_nonneg _, by omega⟩
    simp only [Session.setKey, Session.key, dif_pos index]
    rfl

theorem handle_of_ne_pause (w : Window τ) (other : event ≠ .keyDown Keyboard.pauseKey) :
    w.handle event =
      ({ w with
          session := { w.session with keypad := event.press w.session.keypad }
          isOpen := w.isOpen && !event.closes }, .ok ()) := by
  cases event with
  | quit => simp [Window.handle, Window.close, WindowEvent.closes, WindowEvent.press]
  | keyDown key =>
    by_cases escape : key = Keyboard.escapeKey
    · have none : Keyboard.key? Keyboard.escapeKey = none := by decide
      simp [Window.handle, Window.close, WindowEvent.closes, WindowEvent.press, escape, none]
    · have pause : key ≠ Keyboard.pauseKey := fun same => other (same ▸ rfl)
      simp [Window.handle, WindowEvent.closes, WindowEvent.press, escape, pause, setKey_eq]
  | keyUp key => simp [Window.handle, WindowEvent.closes, WindowEvent.press, setKey_eq]
  | other => simp [Window.handle, WindowEvent.closes, WindowEvent.press]

theorem Fits.mono {w' : Window τ} {place : Place} (h : Fits w place)
    (open_eq : w'.isOpen = w.isOpen) (paused_eq : w'.paused = w.paused)
    (ended : ∀ failure, w.session.EndedWith failure → w'.session.EndedWith failure) :
    Fits w' place := by
  cases place with
  | looping | handling | noticing | polling | taking =>
    exact fun paused => ended _ (h (paused_eq.symm.trans paused))
  | pausing => trivial
  | joining => exact open_eq.trans h
  | leaving outcome | quitting outcome =>
    cases outcome with
    | ok => exact open_eq.trans h
    | error e => exact ended _ h
  | finished outcome =>
    cases outcome with
    | ok => exact ⟨open_eq.trans h.1, ended _ h.2⟩
    | error e => exact ended _ h

theorem Sound.drift (h : Sound v) {t : Session τ} (drifts : v.window.session.Drifts t) :
    Sound { v with window := { v.window with session := t } } where
  visible := h.visible
  started := drifts.started h.started
  asked := drifts.asked h.asked
  fits := h.fits.mono rfl rfl fun _ ended => ended.drifts drifts

theorem Sound.handle (h : Sound v) (handling : v.place = .handling (event :: events)) :
    Sound (v.handle event events) := by
  have fits : v.window.paused = true → v.window.session.EndedWith none := by
    have fits := h.fits
    rw [handling] at fits
    exact fits
  unfold Viewing.handle
  split
  · split
    · next paused =>
      rw [Session.spawn_of_rests (fits paused).rests]
      exact {
        visible := h.visible
        started := nofun
        asked := nofun
        fits := nofun }
    · exact { h with asked := fun _ => rfl, fits := trivial }
  · next other =>
    rw [handle_of_ne_pause v.window other]
    exact { h with fits := fits }

theorem Sound.wait (h : Sound v) (finished : ¬v.window.session.running = true) :
    v.window.session.EndedWith none ∧ v.window.session.join = .ok () ∨
      ∃ e, v.window.session.EndedWith (some e) ∧ v.window.session.join = .error e := by
  have ended := Session.endedWith_of_rests h.started (eq_false_of_ne_true finished)
  have join := ended.join
  cases failure : v.window.session.error with
  | none =>
    rw [failure] at ended join
    exact .inl ⟨ended, join⟩
  | some e =>
    rw [failure] at ended join
    exact .inr ⟨e, ended, join⟩

theorem Sound.advance (h : Sound v) : Sound v.advance := by
  obtain ⟨w, script, place⟩ := v
  have fits : Fits w place := h.fits
  cases place with
  | looping =>
    unfold Viewing.advance
    dsimp only
    split
    · exact { h with fits := fits }
    · next shut => exact { h with fits := eq_false_of_ne_true shut }
  | handling events =>
    cases events with
    | nil => exact { h with fits := fits }
    | cons event rest => exact h.handle rfl
  | pausing rest =>
    unfold Viewing.advance
    dsimp only
    split
    · exact h
    · next finished =>
      rcases h.wait finished with ⟨ended, join⟩ | ⟨e, ended, join⟩
      · rw [show w.session.join = .ok () from join]
        exact { h with fits := fun _ => ended }
      · rw [show w.session.join = .error e from join]
        exact { h with fits := ended }
  | noticing =>
    unfold Viewing.advance Window.noticeEnd
    dsimp only
    split
    · exact { h with fits := fits }
    · exact { h with fits := fits }
  | polling =>
    have kept : ∀ place, Fits w place → Fits w.poll.1 place := fun place h =>
      h.mono rfl rfl fun _ ended => ended
    unfold Viewing.advance
    dsimp only
    split
    · exact { h with fits := kept .taking fits }
    · exact { h with fits := kept .looping fits }
  | taking =>
    obtain ⟨picture, made⟩ := w.exists_picture (h.visible w.session.frame)
    unfold Viewing.advance Window.repaint
    dsimp only
    rw [made]
    exact { h with fits := fits }
  | leaving outcome =>
    cases outcome with
    | ok _ => exact { h with asked := fun _ => rfl, fits := fits }
    | error e => exact { h with asked := fun _ => rfl, fits := fits }
  | quitting outcome =>
    cases outcome with
    | ok _ => exact { h with fits := fits }
    | error e => exact { h with fits := fits }
  | joining =>
    unfold Viewing.advance
    dsimp only
    split
    · exact h
    · next finished =>
      rcases h.wait finished with ⟨ended, join⟩ | ⟨e, ended, join⟩
      · rw [show w.session.join = .ok () from join]
        exact { h with fits := ⟨fits, ended⟩ }
      · rw [show w.session.join = .error e from join]
        exact { h with fits := ended }
  | finished outcome => exact h

theorem Sound.takes (h : Sound v) {steps : Nat} (takes : v.Takes steps v') : Sound v' := by
  induction takes with
  | refl => exact h
  | present _ ih => exact ih.advance
  | emulate _ drifts ih => exact ih.drift drifts

theorem Sound.leads (h : Sound v) (leads : v.Leads v') : Sound v' := by
  obtain ⟨steps, takes⟩ := leads
  exact h.takes takes

theorem Sound.opening (visible : ∀ d, (w.picture d).isOk) (rests : w.session.running = false)
    (unpaused : w.paused = false) : Sound (opening w script) := by
  rw [Viewing.opening, Session.spawn_of_rests rests]
  exact {
    visible
    started := nofun
    asked := nofun
    fits := by
      intro paused
      rw [unpaused] at paused
      cases paused }

theorem isOpen_opening (w : Window τ) (script : List (List WindowEvent)) :
    (opening w script).window.isOpen = w.isOpen := by
  unfold opening
  split <;> rfl

theorem opening_of_running (runs : w.session.running = true) :
    opening w script = ⟨w, script, .finished (.error (.misuse .alreadyRunning))⟩ := by
  have refused : w.session.spawn = (w.session, .error (.misuse .alreadyRunning)) := if_pos runs
  rw [opening, refused]

/-! ## The failure stands -/

/-- A thread that has failed is not started again, since the window is paused only over a thread
that has not. -/
theorem Sound.failed_handle (h : Sound v) (handling : v.place = .handling (event :: events))
    (failed : v.window.session.EndedWith (some e)) :
    (v.handle event events).window.session.EndedWith (some e) := by
  have fits : Fits v.window v.place := h.fits
  rw [handling] at fits
  unfold Viewing.handle
  split
  · split
    · next paused => cases (fits paused).unique failed
    · exact failed
  · next other =>
    rw [handle_of_ne_pause v.window other]
    exact failed

theorem Sound.failed_advance (h : Sound v) (failed : v.window.session.EndedWith (some e)) :
    v.advance.window.session.EndedWith (some e) := by
  rcases v.advance_cases with steady | ⟨event, rest, handling, handles⟩ | ⟨-, notices⟩
  · exact steady.footing.trans failed
  · rw [handles]
    exact h.failed_handle handling failed
  · rw [notices, session_noticeEnd]
    exact failed

theorem Sound.failed_takes (h : Sound v) (failed : v.window.session.EndedWith (some e))
    {steps : Nat} (takes : v.Takes steps v') : v'.window.session.EndedWith (some e) := by
  induction takes with
  | refl => exact failed
  | present before ih => exact (h.takes before).failed_advance ih
  | emulate _ drifts ih => exact ih.drifts drifts

/-- Where it ends, the window has raised the failure of its thread. -/
theorem Sound.outcome_eq (h : Sound v) {outcome : Except Failure Unit}
    (ends : v.place = .finished outcome) (failed : v.window.session.EndedWith (some e)) :
    outcome = .error e := by
  have fits : Fits v.window v.place := h.fits
  rw [ends] at fits
  cases outcome with
  | ok _ => cases fits.2.unique failed
  | error e' => rw [Option.some.inj (Session.EndedWith.unique fits failed)]

/-! ## The failure is raised -/

/-- How many steps a presenter at the head of the loop has before it at most, if the thread has
failed. -/
def lap (w : Window τ) (script : List (List WindowEvent)) : Nat :=
  if w.isOpen then 2 * (script.headD []).length + 9 else 4

theorem le_lap (w : Window τ) (script : List (List WindowEvent)) : 4 ≤ lap w script := by
  unfold lap
  split <;> omega

def remaining (v : Viewing τ) : Nat :=
  match v.place with
  | .looping => lap v.window v.script
  | .handling events => 2 * events.length + 8
  | .pausing events => 2 * events.length + 9
  | .noticing => 7
  | .polling => lap v.window v.script + 2
  | .taking => lap v.window v.script + 1
  | .leaving _ => 3
  | .quitting _ => 2
  | .joining => 1
  | .finished _ => 0

theorem remaining_onward (script : List (List WindowEvent)) (next : Place)
    (x : Window τ × Except Failure Unit) :
    (onward script next x).remaining ≤ max 3 (remaining ⟨x.1, script, next⟩) := by
  rcases x with ⟨w, e | _⟩
  · exact Nat.le_max_left ..
  · exact Nat.le_max_right ..

theorem remaining_handle (v : Viewing τ) (event : WindowEvent) (rest : List WindowEvent) :
    (v.handle event rest).remaining < 2 * (rest.length + 1) + 8 := by
  have onward_lt (x : Window τ × Except Failure Unit) :
      (onward v.script (.handling rest) x).remaining < 2 * (rest.length + 1) + 8 := by
    refine Nat.lt_of_le_of_lt (remaining_onward ..) ?_
    simp only [remaining]
    omega
  unfold handle
  split
  · split
    · exact onward_lt _
    · simp only [remaining]
      omega
  · exact onward_lt _

theorem Sound.remaining_advance (h : Sound v) (failed : v.window.session.EndedWith (some e))
    (unfinished : 0 < v.remaining) : v.advance.remaining < v.remaining := by
  obtain ⟨w, script, place⟩ := v
  have fits : Fits w place := h.fits
  have rests : ¬w.session.running = true := by simp [failed.rests]
  have head := le_lap w script
  cases place with
  | looping =>
    unfold Viewing.advance
    dsimp only
    split
    · next shown => simp [remaining, lap, shown]
    · next shut => simp [remaining, lap, shut]
  | handling events =>
    cases events with
    | nil => simp [Viewing.advance, remaining]
    | cons event rest => exact remaining_handle ..
  | pausing rest =>
    unfold Viewing.advance
    dsimp only
    rw [if_neg rests]
    refine Nat.lt_of_le_of_lt (remaining_onward ..) ?_
    simp only [remaining]
    omega
  | noticing =>
    have unpaused : w.paused = false := by
      cases paused : w.paused with
      | false => rfl
      | true => cases (fits paused).unique failed
    simp [Viewing.advance, remaining, lap, Window.noticeEnd, Window.close, unpaused, rests]
  | polling =>
    have same : lap w.poll.1 script = lap w script := rfl
    unfold Viewing.advance
    dsimp only
    split <;> simp [remaining, same]
  | taking =>
    have same : lap w.repaint.1 script = lap w script := by
      rw [lap, (steady_repaint w).isOpen, lap]
    refine Nat.lt_of_le_of_lt (remaining_onward ..) ?_
    simp only [remaining, same]
    omega
  | leaving outcome => simp [Viewing.advance, remaining]
  | quitting outcome => cases outcome <;> simp [Viewing.advance, remaining]
  | joining => simp [Viewing.advance, remaining, rests]
  | finished outcome => cases unfinished

theorem exists_outcome (finished : v.remaining = 0) :
    ∃ outcome, v.place = .finished outcome := by
  obtain ⟨w, script, place⟩ := v
  have head := le_lap w script
  cases place with
  | finished outcome => exact ⟨outcome, rfl⟩
  | _ =>
    simp only [remaining] at finished
    omega

/-- Every step of the presenter of a failed thread brings it nearer to the end, and nothing else
takes it away from there. -/
theorem Sound.remaining_le (h : Sound v) (failed : v.window.session.EndedWith (some e))
    {steps : Nat} (takes : v.Takes steps v') : v'.remaining ≤ v.remaining - steps := by
  induction takes with
  | refl => exact Nat.le_refl _
  | @present steps u before ih =>
    have failed' := h.failed_takes failed before
    rcases Nat.eq_zero_or_pos u.remaining with finished | unfinished
    · obtain ⟨outcome, ends⟩ := exists_outcome finished
      have rests : u.advance = u := by
        unfold Viewing.advance
        rw [ends]
      rw [rests, finished]
      exact Nat.zero_le _
    · have nearer := (h.takes before).remaining_advance failed' unfinished
      omega
  | emulate _ _ ih => exact ih

theorem Sound.finishes (h : Sound v) (failed : v.window.session.EndedWith (some e)) {steps : Nat}
    (enough : v.remaining ≤ steps) (takes : v.Takes steps v') :
    v'.place = .finished (.error e) := by
  have left := h.remaining_le failed takes
  obtain ⟨outcome, ends⟩ : ∃ outcome, v'.place = .finished outcome := exists_outcome (by omega)
  have raised := (h.takes takes).outcome_eq ends (h.failed_takes failed takes)
  rw [ends, raised]

/-! ## Closing -/

/-- The moments at which the window is closed without a failure: a quit or an escape is handled, or
the thread is found to have ended on a request to stop. -/
def ClosesWell (v : Viewing τ) : Prop :=
  (∃ event rest, v.place = .handling (event :: rest) ∧ event.closes = true) ∨
    v.place = .noticing ∧ v.window.paused = false ∧ v.window.session.EndedWith none ∧
      v.window.session.stopRequested = true

theorem closes_of_handle (shown : v.window.isOpen = true)
    (shut : (v.handle event events).window.isOpen = false) : event.closes = true := by
  unfold Viewing.handle at shut
  split at shut
  · split at shut
    · rw [window_onward] at shut
      cases shown.symm.trans shut
    · cases shown.symm.trans shut
  · next other =>
    rw [window_onward, handle_of_ne_pause v.window other] at shut
    simpa [shown] using shut

theorem Sound.closes_of_noticing (h : Sound v) (noticing : v.place = .noticing)
    (shown : v.window.isOpen = true) (shut : v.window.noticeEnd.isOpen = false) :
    v.ClosesWell ∨ ∃ e, v.window.session.EndedWith (some e) := by
  unfold Window.noticeEnd at shut
  split at shut
  · next alone =>
    obtain ⟨unpaused, finished⟩ : v.window.paused = false ∧ v.window.session.running = false := by
      simpa using alone
    have ended := Session.endedWith_of_rests h.started finished
    generalize v.window.session.error = failure at ended
    cases failure with
    | none => exact .inl (.inr ⟨noticing, unpaused, ended, h.asked ended⟩)
    | some e => exact .inr ⟨e, ended⟩
  · cases shown.symm.trans shut

theorem Sound.closes (h : Sound v) (shown : v.window.isOpen = true)
    (shut : v.advance.window.isOpen = false) :
    v.ClosesWell ∨ ∃ e, v.window.session.EndedWith (some e) := by
  rcases v.advance_cases with steady | ⟨event, rest, handling, handles⟩ | ⟨noticing, notices⟩
  · cases shown.symm.trans (steady.isOpen.symm.trans shut)
  · rw [handles] at shut
    exact .inl (.inl ⟨event, rest, handling, closes_of_handle shown shut⟩)
  · rw [notices] at shut
    exact h.closes_of_noticing noticing shown shut

theorem exists_closing (shown : v.window.isOpen = true) (leads : v.Leads v')
    (shut : v'.window.isOpen = false) :
    ∃ m, v.Leads m ∧ m.advance.Leads v' ∧ m.window.isOpen = true ∧
      m.advance.window.isOpen = false := by
  obtain ⟨steps, takes⟩ := leads
  induction takes with
  | refl => cases shown.symm.trans shut
  | @present steps u before ih =>
    cases still : u.window.isOpen with
    | false =>
      obtain ⟨m, first, later, opened, closes⟩ := ih still
      exact ⟨m, first, later.trans (leads_advance u), opened, closes⟩
    | true => exact ⟨u, ⟨steps, before⟩, .refl _, still, shut⟩
  | emulate before drifts ih =>
    obtain ⟨m, first, later, opened, closes⟩ := ih shut
    exact ⟨m, first, later.trans (leads_drift _ drifts), opened, closes⟩

theorem Sound.ends_well (h : Sound v) (shown : v.window.isOpen = true) (leads : v.Leads v')
    (ends : v'.place = .finished (.ok ())) :
    v'.window.session.EndedWith none ∧ ∃ m, v.Leads m ∧ m.Leads v' ∧ m.ClosesWell := by
  obtain ⟨shut, unfailed⟩ : v'.window.isOpen = false ∧ v'.window.session.EndedWith none := by
    have fits := (h.leads leads).fits
    rw [ends] at fits
    exact fits
  obtain ⟨m, first, later, opened, closes⟩ := exists_closing shown leads shut
  have sound := h.leads first
  refine ⟨unfailed, m, first, (leads_advance m).trans later, ?_⟩
  rcases sound.closes opened closes with well | ⟨e, failed⟩
  · exact well
  · obtain ⟨steps, takes⟩ := later
    have raised := sound.advance.failed_takes (sound.failed_advance failed) takes
    cases raised.unique unfailed

/-! ## The window that is given frame by frame -/

theorem reaches_onward (script : List (List WindowEvent)) (next : Place) (w : Window τ)
    (r : Except Failure Unit) {t : Session τ} (labours : ∃ loaded, w.session.Labours loaded t) :
    (onward script next (w, r)).Reaches (onward script next ({ w with session := t }, r)) := by
  cases r with
  | ok => exact reaches_labour ⟨w, script, next⟩ labours
  | error e => exact reaches_labour ⟨w, script, .leaving (.error e)⟩ labours

theorem reaches_togglePause (w : Window τ) (script : List (List WindowEvent))
    (rest : List WindowEvent) :
    (mk w script (.handling (.keyDown Keyboard.pauseKey :: rest))).Reaches
      (onward script (.handling rest) w.togglePause) := by
  refine (reaches_advance _).trans ?_
  unfold Viewing.advance Viewing.handle Window.togglePause
  dsimp only
  rw [if_pos rfl]
  split
  · obtain ⟨answer, labours⟩ := w.session.exists_labours_start none
    rw [answer]
    exact reaches_onward _ _ { w with session := w.session.spawn.1, paused := false } _ labours
  · refine (reaches_labour _ w.session.exists_labours_stop).trans ((reaches_advance _).trans ?_)
    unfold Viewing.advance
    dsimp only
    rw [if_neg (by simp [w.session.running_stop])]
    exact .refl _

theorem reaches_handle (w : Window τ) (script : List (List WindowEvent)) (event : WindowEvent)
    (rest : List WindowEvent) :
    (mk w script (.handling (event :: rest))).Reaches
      (onward script (.handling rest) (w.handle event)) := by
  by_cases pause : event = .keyDown Keyboard.pauseKey
  · subst pause
    exact reaches_togglePause w script rest
  · have advances : (mk w script (.handling (event :: rest))).advance =
        onward script (.handling rest) (w.handle event) := if_neg pause
    exact advances ▸ reaches_advance _

theorem reaches_handleAll (w : Window τ) (script : List (List WindowEvent))
    (events : List WindowEvent) :
    (mk w script (.handling events)).Reaches
      (onward script (.handling []) (w.handleAll events)) := by
  induction events generalizing w with
  | nil => exact .refl _
  | cons event rest ih =>
    refine (reaches_handle w script event rest).trans ?_
    unfold Window.handleAll
    rcases w.handle event with ⟨w, e | _⟩
    · exact .refl _
    · exact ih w

theorem reaches_paint (w : Window τ) (script : List (List WindowEvent)) :
    (mk w script .polling).Reaches (onward script .looping w.paint) := by
  refine (reaches_advance _).trans ?_
  rw [w.paint_eq]
  unfold Viewing.advance
  dsimp only
  split
  · exact reaches_advance _
  · exact .refl _

theorem reaches_refresh (w : Window τ) (script : List (List WindowEvent))
    (events : List WindowEvent) :
    (mk w script (.handling events)).Reaches (onward script .looping (w.refresh events)) := by
  refine (reaches_handleAll w script events).trans ?_
  unfold Window.refresh
  rcases w.handleAll events with ⟨w, e | _⟩
  · exact .refl _
  · exact (reaches_advance _).trans ((reaches_advance _).trans (reaches_paint w.noticeEnd script))

theorem isOpen_refresh_quit (w : Window τ) : (w.refresh [.quit]).1.isOpen = false := by
  have noticed : w.close.noticeEnd.isOpen = false := by
    unfold Window.noticeEnd
    split <;> rfl
  show w.close.noticeEnd.paint.1.isOpen = false
  rw [Window.paint_eq]
  split
  · exact (steady_repaint _).isOpen.trans noticed
  · exact noticed

theorem reaches_leaving {w : Window τ} (shut : w.isOpen = false)
    (script : List (List WindowEvent)) :
    (mk w script .looping).Reaches ⟨w, script, .leaving (.ok ())⟩ := by
  have advances : (mk w script .looping).advance = ⟨w, script, .leaving (.ok ())⟩ :=
    if_neg (by simp [shut])
  exact advances ▸ reaches_advance _

theorem reaches_frame {w : Window τ} (shown : w.isOpen = true) (events : List WindowEvent)
    (script : List (List WindowEvent)) {t : Session τ}
    (labours : ∃ loaded, w.session.Labours loaded t) :
    (mk w (events :: script) .looping).Reaches
      (onward script .looping (Window.refresh { w with session := t } events)) := by
  refine (reaches_labour (mk w (events :: script) .looping) labours).trans ?_
  have advances : (mk { w with session := t } (events :: script) .looping).advance =
      ⟨{ w with session := t }, script, .handling events⟩ := if_pos shown
  exact (advances ▸ reaches_advance _).trans (reaches_refresh _ script events)

theorem reaches_present (frames : List (WindowFrame τ)) {w : Window τ} (shown : w.isOpen = true) :
    ∃ script, (mk w (frames.map WindowFrame.events ++ [[.quit]]) .looping).Reaches
      (onward script (.leaving (.ok ())) (Window.present frames w)) := by
  induction frames generalizing w with
  | nil =>
    have shut := isOpen_refresh_quit w
    refine ⟨[], (reaches_frame shown [.quit] [] ⟨false, .refl w.session⟩).trans ?_⟩
    unfold Window.present
    generalize w.refresh [.quit] = x at shut
    rcases x with ⟨w, e | _⟩
    · exact .refl _
    · exact reaches_leaving shut []
  | cons frame rest ih =>
    have first := reaches_frame shown frame.events (rest.map WindowFrame.events ++ [[.quit]])
      (w.session.exists_labours_release { time := some frame.time } rfl nofun)
    unfold Window.present
    generalize Window.refresh (τ := τ) _ frame.events = x at first ⊢
    rcases x with ⟨w', e | ⟨⟩⟩
    · exact ⟨_, first⟩
    · dsimp only
      split
      · next still =>
        obtain ⟨script, later⟩ := ih still
        exact ⟨script, first.trans later⟩
      · next closed => exact ⟨_, first.trans (reaches_leaving (eq_false_of_ne_true closed) _)⟩

theorem reaches_shutDown (w : Window τ) (script : List (List WindowEvent))
    (outcome : Except Failure Unit) :
    (mk w script (.leaving outcome)).Reaches
      ⟨w.shutDown, script, .finished (outcome.bind fun _ => w.shutDown.session.join)⟩ := by
  refine (reaches_advance _).trans ((reaches_labour _ w.session.exists_labours_stop).trans ?_)
  refine (reaches_advance _).trans ?_
  cases outcome with
  | error e => exact .refl _
  | ok _ =>
    have joins : (mk w.shutDown script .joining).advance =
        ⟨w.shutDown, script, .finished w.shutDown.session.join⟩ :=
      if_neg (by simp [Window.shutDown, Window.call, w.session.running_stop])
    exact joins ▸ reaches_advance _

theorem reaches_presentSession {w : Window τ} (shown : w.isOpen = true)
    (frames : List (WindowFrame τ)) :
    ∃ script, (opening w (frames.map WindowFrame.events ++ [[.quit]])).Reaches
      ⟨(w.presentSession frames).1, script, .finished (w.presentSession frames).2⟩ := by
  obtain ⟨answer, labours⟩ := w.session.exists_labours_start none
  unfold opening Window.presentSession
  generalize w.session.spawn = x at answer labours ⊢
  generalize w.session.start = y at answer labours ⊢
  obtain ⟨u, r'⟩ := x
  obtain ⟨t, r⟩ := y
  dsimp only at answer labours
  subst answer
  rcases r' with e | ⟨⟩
  · exact ⟨_, reaches_labour (mk { w with session := u } _ (.finished (.error e))) labours⟩
  · have begun := reaches_labour (mk { w with session := u }
      (frames.map WindowFrame.events ++ [[.quit]]) .looping) labours
    obtain ⟨script, presented⟩ := reaches_present frames (w := { w with session := t }) shown
    have first := begun.trans presented
    dsimp only
    generalize Window.present frames { w with session := t } = x at first
    rcases x with ⟨w', e | ⟨⟩⟩
    · exact ⟨script, first.trans (reaches_shutDown w' script (.error e))⟩
    · exact ⟨script, first.trans (reaches_shutDown w' script (.ok ()))⟩

theorem leads_presentSession {w : Window τ} (shown : w.isOpen = true)
    (frames : List (WindowFrame τ)) :
    ∃ script, (opening w (frames.map WindowFrame.events ++ [[.quit]])).Leads
      ⟨(w.presentSession frames).1, script, .finished (w.presentSession frames).2⟩ := by
  obtain ⟨script, log, plays⟩ := reaches_presentSession shown frames
  exact ⟨script, plays.leads⟩

end Viewing

/-! ## The status of the launch -/

namespace Launch

variable {τ : Type} [TimeScale τ] {o : Options} {contents : Except Failure (List UInt8)}
  {now : Quantity τ} {s : Session τ} {e : Failure}

theorem outcome_failed {logger : Logger τ} (readable : logger.start.MeasurableFrom now)
    (emulation : e.isEmulation = true) (output : String) :
    (failed logger now output e).outcome = .ok 1 := by
  obtain ⟨line, written⟩ := Logger.exists_write (Logger.stamp_of_measurableFrom readable) .error
    e.message
  unfold failed ending
  rw [if_pos emulation, written]

theorem logLevel_config {c : Config τ} (configured : config o = .ok c) :
    o.logLevel = some c.logLevel := by
  unfold config at configured
  cases level : o.logLevel with
  | none => simp [level, needed, bind, Except.bind] at configured
  | some name =>
    cases frequency : o.cpuFrequency with
    | none => simp [level, frequency, needed, bind, Except.bind] at configured
    | some cpu =>
      simp only [level, frequency, needed, bind, Except.bind, Config.checked] at configured
      split at configured
      · cases configured
      · cases configured
        rfl

theorem session_eq_ok (made : session o contents now = .ok s) :
    ∃ (c : Config τ) (rom : List UInt8), o.logLevel = some c.logLevel ∧
      Session.create c rom (FileTree.baseName o.rom) (RandomKey.ofSeed 0) now = .ok s := by
  unfold session at made
  cases configured : config (τ := τ) o with
  | error e => simp [configured, bind, Except.bind] at made
  | ok c =>
    cases contents with
    | error e => simp [configured, bind, Except.bind] at made
    | ok rom =>
      rw [configured] at made
      exact ⟨c, rom, logLevel_config configured, made⟩

theorem rests_of_session (made : session o contents now = .ok s) : s.running = false := by
  obtain ⟨c, rom, -, created⟩ := session_eq_ok made
  obtain ⟨level, machine, output, -, rfl⟩ := Session.create_eq_ok created
  rfl

theorem exists_logger (made : session o contents now = .ok s) :
    ∃ logger : Logger τ, logger.start = now ∧
      (needed .logLevel o.logLevel >>= fun level => Logger.create "chipax" level now) =
        .ok logger := by
  obtain ⟨c, rom, level, created⟩ := session_eq_ok made
  unfold Session.create Logger.create at created
  rw [level]
  unfold needed Logger.create
  cases known : LogLevel.ofName? c.logLevel with
  | none => simp [known, bind, Except.bind] at created
  | some level =>
    refine ⟨{ name := "chipax", level, start := now }, rfl, ?_⟩
    simp [known, bind, Except.bind]

theorem scaleFailure_of_isEmulation (emulation : e.isEmulation = true) (scale : Option Int) :
    scaleFailure scale e = e := by
  cases e with
  | execution | rom => rfl
  | _ => cases emulation

theorem outcome_run {name : String} {n : Int} {frames : List (WindowFrame τ)} {room : Nat}
    (made : session o contents now = .ok s) (readable : now.MeasurableFrom now)
    (windowed : o.headless = none) (scale : o.scale = some n)
    (scheme : o.colourScheme = some name)
    (fails : (Window.run s (.whole n) name frames room).2 = .error e)
    (emulation : e.isEmulation = true) : (run o contents now frames room).outcome = .ok 1 := by
  obtain ⟨logger, rfl, log⟩ := exists_logger made
  have presented : present o s frames room =
      ((Window.run s (.whole n) name frames room).1.session, .error e) := by
    unfold present Launch.windowed
    rw [windowed, scheme, scale]
    dsimp only [needed, Option.getD]
    generalize Window.run s (.whole n) name frames room = x at fails ⊢
    obtain ⟨w, r⟩ := x
    subst fails
    dsimp only
    rw [scaleFailure_of_isEmulation emulation]
  rw [run, log]
  dsimp only
  rw [made]
  dsimp only
  rw [presented]
  exact outcome_failed readable emulation _

end Launch

namespace Viewing

variable {τ : Type} [TimeScale τ]

section Running

variable {s : Session τ} {name : String} {scheme : ColourScheme} {n : Int} {room : Nat}

theorem run_eq_presentSession (known : ColourScheme.ofName name = .ok scheme)
    (frames : List (WindowFrame τ)) :
    Window.run s (.whole n) name frames room =
      (Window.opened { session := s, scale := .whole n, scheme, room }).1.presentSession frames := by
  rw [Window.run, known]
  rfl

/-- Let the picture of every frame be one that can be made. However the thread of a session and the
presenter of its window take turns, the failure that the
thread has ended with stands, and no thread is started after it. The window can end with nothing
else, and does so after finitely many steps of the presenter. A window that ends well has a thread
that did, and was closed by an event or as the thread was found stopped. A window that is given
frame by frame is one of these, and a launch ends with status one over a failure of the emulator. -/
theorem failure_raised (known : ColourScheme.ofName name = .ok scheme)
    (visible : ∀ d,
      (Window.picture { session := s, scale := .whole n, scheme, room } d).isOk = true) :
    let shown : List (List WindowEvent) → Viewing τ :=
      opening (Window.opened { session := s, scale := .whole n, scheme, room }).1
    (s.running = true → ∀ script, (shown script).window.session = s ∧
      (shown script).place = .finished (.error (.misuse .alreadyRunning))) ∧
    (s.running = false → ∀ script v, (shown script).Leads v →
      (∀ e, v.window.session.EndedWith (some e) →
        ∃ enough, ∀ steps v', v.Takes steps v' → v'.window.session.EndedWith (some e) ∧
          (∀ outcome, v'.place = .finished outcome → outcome = .error e) ∧
          (enough ≤ steps → v'.place = .finished (.error e))) ∧
      (v.place = .finished (.ok ()) → v.window.session.EndedWith none ∧
        ∃ m, (shown script).Leads m ∧ m.Leads v ∧ m.ClosesWell)) ∧
    (∀ frames, ∃ script, (shown (frames.map WindowFrame.events ++ [[.quit]])).Leads
      ⟨(Window.run s (.whole n) name frames room).1, script,
        .finished (Window.run s (.whole n) name frames room).2⟩) ∧
    ∀ e : Failure, e.isEmulation = true →
      (∀ (logger : Logger τ) now output, logger.start.MeasurableFrom now →
        (Launch.failed logger now output e).outcome = .ok 1) ∧
      ∀ o contents now frames, Launch.session o contents now = .ok s → now.MeasurableFrom now →
        o.headless = none → o.scale = some n → o.colourScheme = some name →
        (Window.run s (.whole n) name frames room).1.session.EndedWith (some e) →
        (Launch.run o contents now frames room).outcome = .ok 1 := by
  intro shown
  have sequential (frames : List (WindowFrame τ)) : ∃ script,
      (shown (frames.map WindowFrame.events ++ [[.quit]])).Leads
        ⟨(Window.run s (.whole n) name frames room).1, script,
          .finished (Window.run s (.whole n) name frames room).2⟩ := by
    rw [run_eq_presentSession known]
    exact leads_presentSession rfl frames
  have sound (rests : s.running = false) (script : List (List WindowEvent)) :
      Sound (shown script) :=
    .opening visible rests rfl
  have opens (script : List (List WindowEvent)) : (shown script).window.isOpen = true :=
    isOpen_opening ..
  refine ⟨?_, ?_, sequential, ?_⟩
  · intro runs script
    have refused : shown script = ⟨_, script, .finished (.error (.misuse .alreadyRunning))⟩ :=
      opening_of_running runs
    rw [refused]
    exact ⟨rfl, rfl⟩
  · intro rests script v leads
    have here := (sound rests script).leads leads
    refine ⟨?_, (sound rests script).ends_well (opens script) leads⟩
    intro e failed
    refine ⟨v.remaining, ?_⟩
    intro steps v' takes
    have stands := here.failed_takes failed takes
    exact ⟨stands, fun outcome ends => (here.takes takes).outcome_eq ends stands,
      fun enough => here.finishes failed enough takes⟩
  · intro e emulation
    refine ⟨fun logger now output readable => Launch.outcome_failed readable emulation output, ?_⟩
    intro o contents now frames made readable windowed scale scheme failed
    obtain ⟨script, leads⟩ := sequential frames
    have outcome := ((sound (Launch.rests_of_session made) _).leads leads).outcome_eq rfl failed
    exact Launch.outcome_run made readable windowed scale scheme outcome emulation

end Running

def unknownStart : Failure := .execution (.unknownOpcode (some 0xFFFF) (some 0x200))

theorem exists_unknown : ∃ s : Session Rat,
    Session.create {} [0xFF, 0xFF] "unknown" ⟨0, 0⟩ (.real 0) = .ok s ∧ s.running = false := by
  have info : LogLevel.ofName? ({} : Config Rat).logLevel = some .info := by decide +kernel
  obtain ⟨s, made⟩ : ∃ s : Session Rat,
      Session.create {} [0xFF, 0xFF] "unknown" ⟨0, 0⟩ (.real 0) = .ok s :=
    Session.exists_create info (by decide) (Quantity.measurableFrom_real 0 0)
  obtain ⟨level, machine, output, -, rfl⟩ := Session.create_eq_ok made
  exact ⟨_, made, rfl⟩

/-- A thread that fails before its window is paused and resumed. -/
theorem failure_raised_by_pause :
    ∃ s : Session Rat, Session.create {} [0xFF, 0xFF] "unknown" ⟨0, 0⟩ (.real 0) = .ok s ∧
      let frame : WindowFrame Rat :=
        { time := .real 1, events := [.keyDown Keyboard.pauseKey, .keyDown Keyboard.pauseKey] }
      (Window.run s (.whole 1) "classic" [frame]).2 = .error unknownStart := by
  obtain ⟨s, made, rests⟩ := exists_unknown
  refine ⟨s, made, ?_⟩
  intro frame
  have failed : (Window.run s (.whole 1) "classic" [frame]).1.session.EndedWith
      (some unknownStart) := by
    have run : (Session.create {} [0xFF, 0xFF] "unknown" ⟨0, 0⟩ (.real 0)).toOption.all
        (fun s : Session Rat => (Window.run s (.whole 1) "classic" [frame]).1.session.footing ==
          (some unknownStart, .ended)) = true := by
      decide +kernel
    rw [made] at run
    exact beq_iff_eq.mp run
  have known : ColourScheme.ofName "classic" = .ok {} := rfl
  have visible (d : Display) : (Window.picture
      { session := s, scale := .whole 1, scheme := {}, room := Picture.usualRoom } d).isOk = true := by
    have large : (Quantity.whole 1 : Quantity Rat).lt (.whole 1) = false := by decide
    have side : (Picture.side Picture.usualRoom (.whole 1 : Quantity Rat)).isOk = true := by
      decide +kernel
    rw [Window.picture_isOk, large, side]
    rfl
  obtain ⟨-, ends, sequential, -⟩ := failure_raised known visible
  obtain ⟨script, leads⟩ := sequential [frame]
  obtain ⟨raises, -⟩ := ends rests _ _ leads
  obtain ⟨enough, stands⟩ := raises unknownStart failed
  obtain ⟨-, raised, -⟩ := stands 0 _ .refl
  exact raised _ rfl

/-- At a scale of which no picture can be made, the picture fails as well, and only its failure is
raised. -/
theorem failure_hidden_by_picture :
    ∃ s : Session Rat, Session.create {} [0xFF, 0xFF] "unknown" ⟨0, 0⟩ (.real 0) = .ok s ∧
      let run := Window.run s (.whole (10 ^ 20)) "classic" [{ time := .real 1 }]
      run.1.session.EndedWith (some unknownStart) ∧
        run.2 = .error (.outOfRange (.size (10 ^ 20))) := by
  obtain ⟨s, made, -⟩ := exists_unknown
  have ended : (Session.create {} [0xFF, 0xFF] "unknown" ⟨0, 0⟩ (.real 0)).toOption.all
      (fun s : Session Rat =>
        let run := Window.run s (.whole (10 ^ 20)) "classic" [{ time := (.real 1 : Quantity Rat) }]
        run.1.session.footing == (some unknownStart, .ended) &&
          run.2 == .error (.outOfRange (.size (10 ^ 20)))) = true := by
    decide +kernel
  rw [made] at ended
  obtain ⟨failed, hidden⟩ := Bool.and_eq_true_iff.mp ended
  exact ⟨s, made, beq_iff_eq.mp failed, beq_iff_eq.mp hidden⟩

end Viewing

end Chip8
