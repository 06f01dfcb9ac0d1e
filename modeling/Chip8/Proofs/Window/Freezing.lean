import Mathlib.Algebra.Group.Nat.Even
import Chip8.Proofs.Window.Ending

/-! # Pausing

A window is paused after an odd number of presses of the pause key, and once a pause has waited for
the thread, no thread is alive until the next press. The machine stands still meanwhile. The keys do
not: every press and release is held in the session, and the machine takes them over when a thread
loads them next, whenever they were pressed.
-/

namespace Chip8

namespace Moment

def note (keypads : Keypad × Keypad) : Moment → Keypad × Keypad
  | event e => (e.press keypads.1, keypads.2)
  | load => (keypads.1, keypads.1)

def pause : Moment := event (.keyDown Keyboard.pauseKey)

end Moment

namespace Viewing

variable {τ : Type} [TimeScale τ] {v v' : Viewing τ} {log log' : List Moment}
  {event : WindowEvent} {rest : List WindowEvent}

/-- No pause waits for the thread. -/
def Settled (v : Viewing τ) : Prop := ∀ rest, v.place ≠ .pausing rest

/-- What a pause leaves behind: no thread, and no failure as long as the loop goes on. -/
def Calm (v : Viewing τ) : Prop :=
  v.window.paused = true →
    match v.place with
    | .pausing _ => True
    | .looping | .handling _ | .noticing | .polling | .taking =>
      v.window.session.running = false ∧ v.window.session.error = none
    | .leaving _ | .quitting _ | .joining | .finished _ => v.window.session.running = false

/-- A step of the presenter that leaves the window as paused as it was and changes nothing that the
thread works on. -/
structure Untouched (w w' : Window τ) : Prop where
  paused : w'.paused = w.paused
  thread : w'.session.thread = w.session.thread
  standing : w'.session.standing = w.session.standing
  keypads : w'.session.keypads = w.session.keypads

theorem Untouched.refl (w : Window τ) : Untouched w w := ⟨rfl, rfl, rfl, rfl⟩

theorem untouched_advance (v : Viewing τ) (idle : v.handled = []) :
    Untouched v.window v.advance.window := by
  obtain ⟨w, script, place⟩ := v
  cases place with
  | handling events =>
    cases events with
    | nil => exact .refl w
    | cons event rest => cases idle
  | looping =>
    unfold advance
    dsimp only
    split <;> exact .refl w
  | pausing rest =>
    unfold advance
    dsimp only
    split
    · exact .refl w
    · rw [window_onward]
      exact .refl w
  | noticing =>
    unfold advance Window.noticeEnd
    dsimp only
    split <;> exact ⟨rfl, rfl, rfl, rfl⟩
  | taking =>
    unfold advance
    dsimp only
    rw [window_onward, Window.repaint]
    split <;> exact ⟨rfl, rfl, rfl, rfl⟩
  | quitting outcome => cases outcome <;> exact ⟨rfl, rfl, rfl, rfl⟩
  | joining =>
    unfold advance
    dsimp only
    split <;> exact .refl w
  | polling | leaving | finished => exact ⟨rfl, rfl, rfl, rfl⟩

/-! ## Events -/

theorem advance_of_handling (handling : v.place = .handling (event :: rest)) :
    v.handled = [.event event] ∧ v.advance = v.handle event rest := by
  obtain ⟨w, script, place⟩ := v
  obtain rfl : place = .handling (event :: rest) := handling
  exact ⟨rfl, rfl⟩

theorem exists_handling (busy : v.handled ≠ []) :
    ∃ event rest, v.place = .handling (event :: rest) := by
  obtain ⟨w, script, place⟩ := v
  cases place with
  | handling events =>
    cases events with
    | nil => exact absurd rfl busy
    | cons event rest => exact ⟨event, rest, rfl⟩
  | _ => exact absurd rfl busy

theorem load_notMem_handled (v : Viewing τ) : .load ∉ v.handled := by
  by_cases idle : v.handled = []
  · simp [idle]
  · obtain ⟨event, rest, handling⟩ := exists_handling idle
    simp [(advance_of_handling handling).1]

theorem handle_pause (unpaused : v.window.paused = false) :
    v.handle (.keyDown Keyboard.pauseKey) rest =
      { v with
        window := { v.window with session := v.window.session.warned, paused := true }
        place := .pausing rest } := by
  rw [handle, if_pos rfl, if_neg (by simp [unpaused])]

theorem handle_resume (paused : v.window.paused = true) (rests : v.window.session.running = false) :
    v.handle (.keyDown Keyboard.pauseKey) rest =
      { v with
        window := { v.window with
          session := v.window.session.asked.onThread .asleep
          paused := false }
        place := .handling rest } := by
  rw [handle, if_pos rfl, if_pos paused, Session.spawn_of_rests rests]
  rfl

theorem handle_other (other : event ≠ .keyDown Keyboard.pauseKey) :
    v.handle event rest =
      { v with
        window := { v.window with
          session := { v.window.session with keypad := event.press v.window.session.keypad }
          isOpen := v.window.isOpen && !event.closes }
        place := .handling rest } := by
  rw [handle, if_neg other, handle_of_ne_pause v.window other]
  rfl

/-! ## Steps -/

theorem Calm.handle (calm : v.Calm) (handling : v.place = .handling (event :: rest)) :
    (v.handle event rest).Calm := by
  have quiet : v.window.paused = true →
      v.window.session.running = false ∧ v.window.session.error = none := by
    intro paused
    have rests := calm paused
    rw [handling] at rests
    exact rests
  by_cases pause : event = .keyDown Keyboard.pauseKey
  · subst pause
    cases paused : v.window.paused with
    | true =>
      rw [handle_resume paused (quiet paused).1]
      exact nofun
    | false =>
      rw [handle_pause paused]
      exact fun _ => trivial
  · rw [handle_other pause]
    exact quiet

theorem Calm.advance (calm : v.Calm) : v.advance.Calm := by
  obtain ⟨w, script, place⟩ := v
  cases place with
  | looping =>
    unfold Viewing.advance
    dsimp only
    split
    · exact calm
    · exact fun paused => (calm paused).1
  | handling events =>
    cases events with
    | nil => exact calm
    | cons event rest => exact calm.handle rfl
  | pausing rest =>
    unfold Viewing.advance
    dsimp only
    split
    · exact calm
    · next finished =>
      have rests : w.session.running = false := eq_false_of_ne_true finished
      unfold Session.join
      cases failed : w.session.error with
      | some e => exact fun _ => rests
      | none => exact fun _ => ⟨rests, failed⟩
  | noticing =>
    unfold Viewing.advance Window.noticeEnd
    dsimp only
    split <;> exact calm
  | polling =>
    unfold Viewing.advance
    dsimp only
    split <;> exact calm
  | taking =>
    unfold Viewing.advance Window.repaint
    dsimp only
    split
    · exact calm
    · exact fun paused => (calm paused).1
  | quitting outcome => cases outcome <;> exact calm
  | joining =>
    unfold Viewing.advance
    dsimp only
    split <;> exact calm
  | leaving | finished => exact calm

/-- What a step of the presenter does to a calm window. -/
structure Minds (v v' : Viewing τ) : Prop where
  standing : v'.window.session.standing = v.window.session.standing
  paused : v'.window.paused = if .pause ∈ v.handled then !v.window.paused else v.window.paused
  keypads : v'.window.session.keypads = v.handled.foldl Moment.note v.window.session.keypads

theorem Calm.minds (calm : v.Calm) : v.Minds v.advance := by
  by_cases idle : v.handled = []
  · obtain ⟨paused, -, standing, keypads⟩ := v.untouched_advance idle
    exact ⟨standing, by simp [idle, paused], by simp [idle, keypads]⟩
  · obtain ⟨event, rest, handling⟩ := exists_handling idle
    obtain ⟨handled, advances⟩ := advance_of_handling handling
    rw [advances]
    by_cases pause : event = .keyDown Keyboard.pauseKey
    · subst pause
      have here : Moment.pause ∈ v.handled := handled ▸ .head _
      cases paused : v.window.paused with
      | true =>
        have quiet := calm paused
        rw [handling] at quiet
        rw [handle_resume paused quiet.1]
        refine ⟨?_, by simp [here, paused], by rw [handled]; rfl⟩
        rw [Session.standing, Session.standing, quiet.2]
        rfl
      | false =>
        rw [handle_pause paused]
        exact ⟨rfl, by simp [here, paused], by rw [handled]; rfl⟩
    · have other : Moment.pause ∉ v.handled := by
        rw [handled]
        simpa [Moment.pause] using fun same => pause same.symm
      rw [handle_other pause]
      exact ⟨rfl, by simp [other], by rw [handled]; rfl⟩

theorem Settled.onward {script : List (List WindowEvent)} {next : Place}
    (settled : ∀ rest, next ≠ .pausing rest) (x : Window τ × Except Failure Unit) :
    (Viewing.onward script next x).Settled := by
  rcases x with ⟨w, e | _⟩
  · exact nofun
  · exact settled

theorem Settled.advance (settled : v.Settled) (unpressed : .pause ∉ v.handled) :
    v.advance.Settled := by
  obtain ⟨w, script, place⟩ := v
  cases place with
  | handling events =>
    cases events with
    | nil => exact nofun
    | cons event rest =>
      have other : event ≠ .keyDown Keyboard.pauseKey := by
        rintro rfl
        exact unpressed (.head _)
      rw [(advance_of_handling rfl).2, handle_other other]
      exact nofun
  | pausing rest => exact absurd rfl (settled rest)
  | looping =>
    unfold Viewing.advance
    dsimp only
    split <;> exact nofun
  | polling =>
    intro rest
    unfold Viewing.advance
    dsimp only
    split <;> exact nofun
  | taking =>
    have looping : ∀ rest, Place.looping ≠ .pausing rest := nofun
    exact .onward looping _
  | quitting outcome => cases outcome <;> exact nofun
  | joining =>
    unfold Viewing.advance
    dsimp only
    split <;> exact nofun
  | noticing | leaving | finished => exact nofun

/-! ## Paths -/

theorem Calm.labours (calm : v.Calm) {loaded : Bool} {t : Session τ}
    (labours : v.window.session.Labours loaded t) :
    Calm { v with window := { v.window with session := t } } := by
  intro paused
  have rests := calm paused
  have kept (idle : v.window.session.running = false) :
      t.running = false ∧ t.error = v.window.session.error := by
    have footing := labours.idle idle
    have thread : t.thread = v.window.session.thread := congrArg Prod.snd footing
    refine ⟨?_, congrArg Prod.fst footing⟩
    rw [Session.running, thread]
    exact idle
  obtain ⟨w, script, place⟩ := v
  cases place with
  | pausing => trivial
  | looping | handling | noticing | polling | taking =>
    obtain ⟨idle, failure⟩ := kept rests.1
    exact ⟨idle, failure.trans rests.2⟩
  | leaving | quitting | joining | finished => exact (kept rests).1

theorem Calm.plays (calm : v.Calm) (plays : v.Plays log v') : v'.Calm := by
  induction plays with
  | refl => exact calm
  | present _ ih => exact ih.advance
  | emulate _ labours ih => exact ih.labours labours

theorem Calm.rests (calm : v.Calm) (paused : v.window.paused = true) (settled : v.Settled) :
    v.window.session.running = false := by
  have rests := calm paused
  obtain ⟨w, script, place⟩ := v
  cases place with
  | pausing rest => exact absurd rfl (settled rest)
  | looping | handling | noticing | polling | taking => exact rests.1
  | leaving | quitting | joining | finished => exact rests

theorem Calm.keypads (calm : v.Calm) (plays : v.Plays log v') :
    v'.window.session.keypads = log.foldl Moment.note v.window.session.keypads := by
  induction plays with
  | refl => rfl
  | present before ih => rw [(calm.plays before).minds.keypads, ih, List.foldl_append]
  | @emulate log u loaded t before labours ih =>
    rw [List.foldl_append, ← ih]
    refine labours.keypads.trans ?_
    cases loaded <;> rfl

theorem count_handled (v : Viewing τ) :
    v.handled.count .pause = if .pause ∈ v.handled then 1 else 0 := by
  by_cases idle : v.handled = []
  · simp [idle]
  · obtain ⟨event, rest, handling⟩ := exists_handling idle
    rw [(advance_of_handling handling).1]
    by_cases pause : .pause = Moment.event event
    · simp [← pause]
    · simp [pause, Ne.symm pause]

theorem Calm.paused_iff (calm : v.Calm) (unpaused : v.window.paused = false)
    (plays : v.Plays log v') : v'.window.paused = true ↔ Odd (log.count .pause) := by
  induction plays with
  | refl => simp [unpaused]
  | present before ih =>
    rw [(calm.plays before).minds.paused, List.count_append, count_handled]
    split
    · simp [Nat.odd_add_one, ← ih]
    · exact ih
  | @emulate log u loaded t before labours ih =>
    have none : (if loaded then [Moment.load] else []).count .pause = 0 := by
      cases loaded <;> decide
    rw [List.count_append, none]
    exact ih

/-- What stays as it is from a pause to the next press of the pause key. -/
structure Frozen (v v' : Viewing τ) : Prop where
  paused : v'.window.paused = true
  settled : v'.Settled
  rests : v'.window.session.running = false
  standing : v'.window.session.standing = v.window.session.standing

/-- Without another press, no step of the presenter and no time that passes ends a pause, and no
thread is there that could work or load the keys. -/
theorem Calm.frozen (calm : v.Calm) (paused : v.window.paused = true) (settled : v.Settled)
    (plays : v.Plays log v') (unpressed : .pause ∉ log) : v.Frozen v' ∧ .load ∉ log := by
  induction plays with
  | refl => exact ⟨⟨paused, settled, calm.rests paused settled, rfl⟩, List.not_mem_nil⟩
  | @present log u before ih =>
    obtain ⟨earlier, here⟩ := not_or.mp (mt List.mem_append.mpr unpressed)
    obtain ⟨frozen, unloaded⟩ := ih earlier
    have calm' := calm.plays before
    have paused' : u.advance.window.paused = true := by
      rw [calm'.minds.paused, if_neg here]
      exact frozen.paused
    have settled' : u.advance.Settled := frozen.settled.advance here
    refine ⟨⟨paused', settled', calm'.advance.rests paused' settled',
      calm'.minds.standing.trans frozen.standing⟩, ?_⟩
    simpa [unloaded] using u.load_notMem_handled
  | @emulate log u loaded t before labours ih =>
    obtain ⟨earlier, -⟩ := not_or.mp (mt List.mem_append.mpr unpressed)
    obtain ⟨frozen, unloaded⟩ := ih earlier
    obtain ⟨rfl, standing⟩ := labours.rests frozen.rests
    have calm' := (calm.plays before).labours labours
    refine ⟨⟨frozen.paused, frozen.settled, ?_, standing.trans frozen.standing⟩, ?_⟩
    · exact calm'.rests frozen.paused frozen.settled
    · simpa using unloaded

/-- The next press starts a thread, and what stood still is as the pause left it. -/
theorem Calm.resumes (calm : v.Calm) (paused : v.window.paused = true)
    (handling : v.place = .handling (.keyDown Keyboard.pauseKey :: rest)) :
    v.advance.window.paused = false ∧ v.advance.window.session.running = true ∧
      v.advance.window.session.standing = v.window.session.standing := by
  have quiet := calm paused
  rw [handling] at quiet
  have standing := calm.minds.standing
  rw [(advance_of_handling handling).2, handle_resume paused quiet.1] at standing ⊢
  exact ⟨rfl, rfl, standing⟩

/-! ## The window of a session -/

theorem opened_eq (w : Window τ) :
    w.opened.1.session = w.session ∧ w.opened.1.paused = w.paused ∧
      w.opened.1.isOpen = w.isOpen := by
  unfold Window.opened
  dsimp only
  split <;> exact ⟨rfl, rfl, rfl⟩

theorem calm_of_unpaused (unpaused : v.window.paused = false) : v.Calm := by
  intro paused
  rw [unpaused] at paused
  cases paused

theorem window_opening (w : Window τ) (script : List (List WindowEvent)) :
    (opening w script).window.paused = w.paused ∧
      (opening w script).window.session.keypads = w.session.keypads := by
  cases runs : w.session.running with
  | true =>
    rw [opening_of_running runs]
    exact ⟨rfl, rfl⟩
  | false =>
    rw [opening, Session.spawn_of_rests runs]
    exact ⟨rfl, rfl⟩

/-- However the thread of a session and the presenter of its window take turns, the window is paused
exactly after an odd number of presses of the pause key. Once a pause has waited for the thread, no
thread is alive until the next press, the keys are not loaded, and the machine, its cycles, the
failure kept and the frame stay as they are through that press. At all times the session holds the
keys as they went down and up, also in a pause, the machine works with those of the last load, and
the instructions of a tick see those that are held when it begins. A window that is given frame by
frame is one of these. -/
theorem pause_freezes (s : Session τ) (scale : Quantity τ) (scheme : ColourScheme) (room : Nat) :
    let shown : List (List WindowEvent) → Viewing τ :=
      opening (Window.opened { session := s, scale, scheme, room }).1
    (∀ script log v, (shown script).Plays log v →
      (v.window.paused = true ↔ Odd (log.count .pause)) ∧
      v.window.session.keypads = log.foldl Moment.note s.keypads ∧
      v.window.session.Does v.window.session.tickWork v.window.session.tick.1 ∧
      v.window.session.machine.Sees v.window.session.tickWork v.window.session.keypad ∧
      (v.window.paused = true → v.Settled → v.window.session.running = false ∧
        ∀ log' v', v.Plays log' v' → .pause ∉ log' → v.Frozen v' ∧ .load ∉ log' ∧
          ∀ rest, v'.place = .handling (.keyDown Keyboard.pauseKey :: rest) →
            v'.advance.window.paused = false ∧ v'.advance.window.session.running = true ∧
            v'.advance.window.session.standing = v.window.session.standing ∧
            ∀ log'' u, v'.advance.Plays log'' u → u.window.session.keypads =
              (log' ++ log'').foldl Moment.note v.window.session.keypads)) ∧
    ∀ name frames, ColourScheme.ofName name = .ok scheme →
      (Window.opened { session := s, scale, scheme, room }).2 = .ok () →
      ∃ script log, (shown (frames.map WindowFrame.events ++ [[.quit]])).Plays log
        ⟨(Window.run s scale name frames room).1, script,
          .finished (Window.run s scale name frames room).2⟩ := by
  intro shown
  obtain ⟨session, unpaused, isOpen⟩ := opened_eq { session := s, scale, scheme, room }
  refine ⟨fun script log v plays => ?_, fun name frames known opens => ?_⟩
  · obtain ⟨paused, keypads⟩ := window_opening
      (Window.opened { session := s, scale, scheme, room }).1 script
    rw [unpaused] at paused
    rw [session] at keypads
    have calm : (shown script).Calm := calm_of_unpaused paused
    have here : v.Calm := calm.plays plays
    refine ⟨calm.paused_iff paused plays, keypads ▸ calm.keypads plays, Session.does_tick,
      Machine.sees_of_loading v.window.session.loading_tick, fun pausing settled => ?_⟩
    refine ⟨here.rests pausing settled, fun log' v' later unpressed => ?_⟩
    obtain ⟨frozen, unloaded⟩ := here.frozen pausing settled later unpressed
    have calm' : v'.Calm := here.plays later
    refine ⟨frozen, unloaded, fun rest handling => ?_⟩
    obtain ⟨resumed, running, standing⟩ := calm'.resumes frozen.paused handling
    refine ⟨resumed, running, standing.trans frozen.standing, fun log'' u after => ?_⟩
    have pressed : v'.advance.window.session.keypads = v'.window.session.keypads := by
      rw [calm'.minds.keypads, (advance_of_handling handling).1]
      rfl
    rw [calm'.advance.keypads after, pressed, here.keypads later, List.foldl_append]
  · have run : Window.run s scale name frames room =
        (Window.opened { session := s, scale, scheme, room }).1.presentSession frames := by
      rw [Window.run, known]
      dsimp only
      generalize Window.opened { session := s, scale, scheme, room } = x at opens ⊢
      obtain ⟨w, r⟩ := x
      dsimp only at opens
      subst opens
      rfl
    obtain ⟨script, log, plays⟩ := reaches_presentSession isOpen frames
    rw [run]
    exact ⟨script, log, plays⟩

/-- A key that goes down in a pause is loaded after it. -/
theorem pause_freezes_press :
    ∃ s : Session Rat, Session.create {} [0x12, 0x00] "loop" ⟨0, 0⟩ (.real 0) = .ok s ∧
      let shown : Viewing Rat :=
        opening (Window.opened { session := s, scale := .whole 1, scheme := {} }).1
          [[.keyDown 'p', .keyDown 'w', .keyDown 'p']]
      ∃ v v' u, shown.Plays [.pause] v ∧ v.window.paused = true ∧
        v.window.session.running = false ∧ v.Plays [.event (.keyDown 'w')] v' ∧
        v'.window.session.standing = v.window.session.standing ∧
        v'.advance.window.session.running = true ∧ v'.advance.Plays [.load] u ∧
        u.window.session.keypads = (noKeys.put 5 true, noKeys.put 5 true) := by
  have info : LogLevel.ofName? ({} : Config Rat).logLevel = some .info := by decide +kernel
  obtain ⟨s, made⟩ : ∃ s : Session Rat,
      Session.create {} [0x12, 0x00] "loop" ⟨0, 0⟩ (.real 0) = .ok s :=
    Session.exists_create info (by decide) (Quantity.measurableFrom_real 0 0)
  have idle : s.running = false := by
    obtain ⟨level, machine, output, -, rfl⟩ := Session.create_eq_ok made
    rfl
  have up : s.keypads = (noKeys, noKeys) := by
    refine Prod.ext (congrArg Core.keypad (Session.core_create made)) ?_
    rw [Session.keypads, Session.machine_create made]
    rfl
  let w : Window Rat := (Window.opened { session := s, scale := .whole 1, scheme := {} }).1
  let script : List (List WindowEvent) := [[.keyDown 'p', .keyDown 'w', .keyDown 'p']]
  -- The presenter comes to the wait of the first pause, and there the thread ends.
  let waiting : Viewing Rat :=
    ⟨{ w with session := (s.asked.onThread .asleep).warned, paused := true }, [],
      .pausing [.keyDown 'w', .keyDown 'p']⟩
  let ended : Session Rat := waiting.window.session.onThread .ended
  let v : Viewing Rat := { waiting with window := { waiting.window with session := ended } }
  have waits : (opening w script).Plays [.pause] waiting := by
    have same : w.session = s := rfl
    rw [opening, same, Session.spawn_of_rests idle]
    exact .present (.present .refl)
  have ends : waiting.window.session.Labours false ended := {
    flag := id
    idle := by rintro ⟨⟩
    alive := fun _ => .inr ⟨rfl, fun _ => rfl⟩
    keypads := rfl
    rests := by rintro ⟨⟩ }
  have paused : (opening w script).Plays [.pause] v.advance := .present (.emulate waits ends)
  have presses : v.advance.Plays [.event (.keyDown 'w')] v.advance.advance := .present .refl
  have loads : v.advance.advance.advance.window.session.Labours true
      v.advance.advance.advance.window.session.loadKeypad := {
    flag := id
    idle := by rintro ⟨⟩
    alive := .inl
    keypads := rfl
    rests := by rintro ⟨⟩ }
  obtain ⟨odd, -, -, -, freezes⟩ := (pause_freezes s (.whole 1) {} Picture.usualRoom).1 script _ _ paused
  have settled (rest : List WindowEvent) : v.advance.place ≠ .pausing rest := by rintro ⟨⟩
  obtain ⟨rests, frozen⟩ := freezes (odd.mpr (by decide)) settled
  obtain ⟨still, -, resumes⟩ := frozen _ _ presses (by decide)
  obtain ⟨-, runs, -, keys⟩ := resumes [] rfl
  have held : v.advance.window.session.keypads = (noKeys, noKeys) := up
  refine ⟨s, made, v.advance, _, _, paused, odd.mpr (by decide), rests, presses, still.standing,
    runs, .emulate .refl loads, (keys _ _ (.emulate .refl loads)).trans ?_⟩
  rw [held]
  decide

end Viewing

end Chip8
