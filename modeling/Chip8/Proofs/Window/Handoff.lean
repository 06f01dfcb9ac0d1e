import Chip8.Proofs.Session.Moves
import Chip8.Window

/-! # Handing frames to the window

The window asks in one turn at the screen whether a frame is ready, and takes the frame in a later
turn. The emulation may publish at any time, also between the two. What is painted is then the
newer frame, and the frame that is announced once more is painted once more.
-/

namespace Chip8

namespace Window

variable {τ : Type} [TimeScale τ] (w : Window τ)

/-- The first turn of painting: whether a frame is ready. -/
def poll : Window τ × Bool :=
  ({ w with session := w.session.consumeDraw.1 }, w.session.consumeDraw.2)

def picture (d : Display) : Except Failure Picture :=
  (Frame.ofDisplay d).render w.scale w.scheme w.room

/-- The second turn of painting: takes the frame and shows it. -/
def repaint : Window τ × Except Failure Unit :=
  match w.picture w.session.frame with
  | .ok picture => ((w.call (.blit picture.transpose)).call .flip, .ok ())
  | .error e => (w, .error e)

@[simp] theorem poll_ready : w.poll.2 = w.session.screen.ready := rfl

@[simp] theorem ready_poll : w.poll.1.session.screen.ready = false := rfl

def strokes (d : Display) : List (DisplayCall τ) :=
  match w.picture d with
  | .ok picture => [.blit picture.transpose, .flip]
  | .error _ => []

theorem paint_eq : w.paint = if w.poll.2 then w.poll.1.repaint else (w.poll.1, .ok ()) := rfl

theorem exists_picture {d : Display} (visible : (w.picture d).isOk) :
    ∃ picture, w.picture d = .ok picture := by
  cases made : w.picture d with
  | ok picture => exact ⟨picture, rfl⟩
  | error e =>
    rw [made] at visible
    cases visible

theorem picture_isOk (d : Display) :
    (w.picture d).isOk = (!w.scale.lt (.whole 1) && (Picture.side w.room w.scale).isOk) := by
  have framed (f : Frame) : ∃ g, Frame.ofPixels f.pixels = .ok g := ⟨_, if_neg Bool.false_ne_true⟩
  obtain ⟨f, hf⟩ := framed (Frame.ofDisplay d)
  unfold picture Frame.render Picture.render
  rw [hf]
  split
  · next small => simp [small, Except.isOk, Except.toBool]
  · next large =>
    cases Picture.side w.room w.scale <;>
      simp [large, bind, Except.bind, pure, Except.pure, Except.isOk, Except.toBool]

theorem strokes_of_ok {d : Display} {picture : Picture} (h : w.picture d = .ok picture) :
    w.strokes d = [.blit picture.transpose, .flip] := by
  rw [strokes, h]

end Window

inductive Stage where
  | watching
  /-- A frame was found ready and is yet to be taken. -/
  | told
  /-- The frame could not be shown, which ends the presenter. -/
  | failed
  deriving DecidableEq, Repr

/-- A window that is shown while the session's emulation goes on. -/
structure Presentation (τ : Type) [OfScientific τ] where
  window : Window τ
  stage : Stage := .watching
  /-- The displays published since the window was opened. -/
  published : List Display := []
  /-- The displays shown, and how many had been published when each of them was taken. -/
  painted : List (Nat × Display) := []

namespace Presentation

variable {τ : Type} [TimeScale τ]

/-- A turn at the screen. -/
inductive Access where
  /-- The emulation hands over what a machine has drawn, if it has. -/
  | publish (m : Machine)
  | present

def publish (p : Presentation τ) (m : Machine) : Presentation τ :=
  { p with
    window := { p.window with session := { p.window.session with machine := m }.publish }
    published := if m.draw then p.published ++ [m.display] else p.published }

def present (p : Presentation τ) : Presentation τ :=
  match p.stage with
  | .watching =>
    { p with window := p.window.poll.1, stage := if p.window.poll.2 then .told else .watching }
  | .told =>
    match p.window.repaint with
    | (window, .ok ()) =>
      { p with
        window
        stage := .watching
        painted := p.painted ++ [(p.published.length, p.window.session.frame)] }
    | (window, .error _) => { p with window, stage := .failed }
  | .failed => p

def access (p : Presentation τ) : Access → Presentation τ
  | .publish m => p.publish m
  | .present => p.present

def after (p : Presentation τ) (turns : List Access) : Presentation τ := turns.foldl access p

/-- What a window that was opened as `w` has shown keeps up with what was published. -/
structure Follows (w : Window τ) (p : Presentation τ) : Prop where
  easel : p.window.scale = w.scale ∧ p.window.scheme = w.scheme ∧ p.window.room = w.room
  calls : p.window.calls.toList =
    w.calls.toList ++ p.painted.flatMap fun shown => w.strokes shown.2
  latest : (w.session.frame :: p.published)[p.published.length]? = some p.window.session.frame
  shown : ∀ shown ∈ p.painted,
    (w.session.frame :: p.published)[shown.1]? = some shown.2 ∧ (w.picture shown.2).isOk
  ordered : (p.painted.map Prod.fst).Pairwise (· ≤ ·)
  current : p.stage = .watching → p.window.session.screen.ready = false →
    p.painted.getLast? = some (p.published.length, p.window.session.frame)
  failed : p.stage = .failed → ∀ d, (w.picture d).isOk = false

variable {w : Window τ} {p : Presentation τ}

theorem Follows.opened (announced : w.session.screen.ready = true) :
    Follows w { window := w } where
  easel := ⟨rfl, rfl, rfl⟩
  calls := by simp
  latest := rfl
  shown := by simp
  ordered := .nil
  current := by simp [announced]
  failed := by simp

theorem Follows.picture_eq (h : Follows w p) : p.window.picture = w.picture := by
  funext d
  obtain ⟨scale, scheme, room⟩ := h.easel
  rw [Window.picture, scale, scheme, room]
  rfl

theorem Follows.le_length (h : Follows w p) {shown : Nat × Display} (hs : shown ∈ p.painted) :
    shown.1 ≤ p.published.length :=
  Nat.le_of_lt_succ (List.getElem?_eq_some_iff.mp (h.shown shown hs).1).1

theorem Follows.publish (h : Follows w p) (m : Machine) : Follows w (p.publish m) := by
  unfold Presentation.publish Session.publish
  cases drawn : m.draw with
  | false => exact { h with }
  | true =>
    exact {
      easel := h.easel
      calls := h.calls
      latest := by simp [Session.frame, Screen.publish]
      shown := by
        intro shown hs
        obtain ⟨same, shows⟩ := h.shown shown hs
        have within := Nat.lt_succ_of_le (h.le_length hs)
        exact ⟨(List.getElem?_append_left within).trans same, shows⟩
      ordered := h.ordered
      current := by simp [Screen.publish]
      failed := h.failed }

theorem Follows.watch (h : Follows w p) (watching : p.stage = .watching) : Follows w p.present := by
  unfold present
  rw [watching]
  exact { h with
    current := by
      intro stage _
      cases ready : p.window.session.screen.ready with
      | false => exact h.current watching ready
      | true => simp [ready] at stage
    failed := by
      intro stage
      dsimp only at stage
      split at stage <;> cases stage }

theorem Follows.take (h : Follows w p) (told : p.stage = .told) : Follows w p.present := by
  unfold present Window.repaint
  rw [told, h.picture_eq]
  cases hp : w.picture p.window.session.frame with
  | error e =>
    exact { h with
      current := by simp
      failed := by
        intro _ d
        rw [w.picture_isOk, ← w.picture_isOk p.window.session.frame, hp]
        rfl }
  | ok picture =>
    exact { h with
      calls := by
        simp only [Window.call, Array.toList_push, h.calls, List.flatMap_append, List.flatMap_cons,
          List.flatMap_nil, w.strokes_of_ok hp]
        simp
      shown := by
        intro shown hs
        rcases List.mem_append.mp hs with before | now
        · exact h.shown shown before
        · rw [List.mem_singleton.mp now]
          exact ⟨h.latest, by rw [hp]; rfl⟩
      ordered := by
        rw [List.map_append, List.pairwise_append]
        refine ⟨h.ordered, List.pairwise_singleton _ _, ?_⟩
        rintro n hn _ (_ | ⟨_, ⟨⟩⟩)
        obtain ⟨shown, hs, rfl⟩ := List.mem_map.mp hn
        exact h.le_length hs
      current := fun _ _ => List.getLast?_concat
      failed := by simp }

@[simp] theorem published_present : p.present.published = p.published := by
  unfold present
  split
  · rfl
  · split <;> rfl
  · rfl

theorem Follows.access (h : Follows w p) (turn : Access) : Follows w (p.access turn) := by
  cases turn with
  | publish m => exact h.publish m
  | present =>
    cases stage : p.stage with
    | watching => exact h.watch stage
    | told => exact h.take stage
    | failed =>
      unfold Presentation.access Presentation.present
      rw [stage]
      exact h

theorem Follows.after (h : Follows w p) (turns : List Access) : Follows w (p.after turns) := by
  induction turns generalizing p with
  | nil => exact h
  | cons turn rest ih => exact ih (h.access turn)

/-! ## Catching up -/

/-- Nothing is left to be shown, as far as the presenter can tell. -/
def Idle (p : Presentation τ) : Prop :=
  p.stage = .watching ∧ p.window.session.screen.ready = false

theorem present_of_watching (h : p.stage = .watching) :
    p.present.Idle ∨ p.present.stage = .told ∧ p.present.window.session.screen.ready = false := by
  cases ready : p.window.session.screen.ready with
  | false => exact .inl (by simp [Idle, present, h, ready])
  | true => exact .inr (by simp [present, h, ready])

theorem Idle.present (h : p.Idle) : p.present.Idle := by
  simp [Idle, Presentation.present, h.1, h.2]

theorem present_of_told (h : p.stage = .told)
    (visible : (p.window.picture p.window.session.frame).isOk) :
    p.present.stage = .watching ∧ p.present.window.session.screen = p.window.session.screen := by
  obtain ⟨picture, made⟩ := p.window.exists_picture visible
  unfold present Window.repaint
  rw [h, made]
  exact ⟨rfl, rfl⟩

/-- While the emulation is silent, three turns are enough for the presenter to catch up. -/
theorem Follows.catches_up (h : Follows w p) (visible : ∀ d, (w.picture d).isOk) :
    p.present.present.present.Idle := by
  have taken {q : Presentation τ} (follows : Follows w q) (told : q.stage = .told) :=
    present_of_told told (follows.picture_eq ▸ visible q.window.session.frame)
  have watched {q : Presentation τ} (follows : Follows w q) (watching : q.stage = .watching) :
      q.present.present.Idle := by
    rcases present_of_watching watching with idle | ⟨told, ready⟩
    · exact idle.present
    · obtain ⟨stage, screen⟩ := taken (follows.watch watching) told
      exact ⟨stage, screen ▸ ready⟩
  cases stage : p.stage with
  | watching => exact (watched h stage).present
  | told => exact watched (h.take stage) (taken h stage).1
  | failed =>
    have hidden := h.failed stage p.window.session.frame
    rw [visible] at hidden
    cases hidden

/-- Whatever a session is asked to do but to be reset and to hand a frame over, it does a series
of publishes to the screen. -/
theorem exists_publishes (p : Presentation τ) {c : Command τ} (live : c.isLive = true) :
    ∃ machines : List Machine, (p.after (machines.map .publish)).window.session.screen =
      (p.window.session.perform c).1.screen := by
  refine (Session.evolves_perform live).induction (P := fun d => ∃ machines : List Machine,
    (p.after (machines.map .publish)).window.session.screen = d.screen) ?_ ⟨[], rfl⟩
  rintro d _ ⟨machines, before⟩ (⟨move⟩ | _)
  · cases move with
    | instruction | timers | loadKeypad => exact ⟨machines, before⟩
    | publish drawn =>
      refine ⟨machines ++ [d.machine], ?_⟩
      rw [List.map_append, after, List.foldl_append]
      simp [access, publish, Session.publish, drawn]
  · exact ⟨machines, before⟩

variable {s : Session τ}

/-- In whatever order the emulation and the presenter come to the screen of a new session, each
picture shows a published display, never one older than a picture before it did, and a presenter
that has nothing left to show has painted the display published last. It gets there in three turns
if the emulation rests. -/
theorem published_frames_painted {config : Config τ} {rom : List UInt8} {name : String}
    {seed : RandomKey} {start : Quantity τ}
    (made : Session.create config rom name seed start = .ok s)
    (opens : w.session = s) (turns : List Access) :
    let p : Presentation τ := Presentation.after { window := w } turns
    let displays := s.machine.display :: p.published
    (∀ shown ∈ p.painted, displays[shown.1]? = some shown.2 ∧ (w.picture shown.2).isOk) ∧
      p.window.calls.toList =
        w.calls.toList ++ p.painted.flatMap (fun shown => w.strokes shown.2) ∧
      (p.painted.map Prod.fst).Pairwise (· ≤ ·) ∧
      displays.getLast? = some p.window.session.frame ∧
      (p.stage = .watching → p.window.session.screen.ready = false →
        p.painted.getLast? = some (p.published.length, p.window.session.frame)) ∧
      (p.stage = .failed → ∀ d, (w.picture d).isOk = false) ∧
      ((∀ d, (w.picture d).isOk) → p.present.present.present.Idle) := by
  have screen : w.session.screen = Screen.publish s.machine.display := by
    rw [opens]
    exact congrArg Core.screen (Session.core_create made)
  have frame : w.session.frame = s.machine.display := congrArg Screen.frame screen
  have follows := (Follows.opened (w := w) (congrArg Screen.ready screen)).after turns
  intro p displays
  have latest := follows.latest
  have shown := follows.shown
  rw [frame] at latest shown
  refine ⟨shown, follows.calls, follows.ordered, ?_, follows.current, follows.failed,
    follows.catches_up⟩
  rw [List.getLast?_eq_getElem?]
  exact latest

/-- A frame that is published between the two turns of the presenter is shown. -/
theorem published_frames_painted_between :
    ∃ s : Session Rat, Session.create {} [] "blank" ⟨0, 0⟩ (.whole 0) = .ok s ∧
      let w : Window Rat := { session := s, scale := .whole 1, scheme := {}, room := 6144 }
      let lit : Machine := { s.machine with display := Vector.replicate 2048 1, draw := true }
      let p := Presentation.after { window := w }
        [.present, .publish lit, .present, .present, .present]
      p.painted.getLast? = some (1, lit.display) := by
  have info : LogLevel.ofName? ({} : Config Rat).logLevel = some .info := by decide +kernel
  have now := Quantity.measurableFrom_rat (.whole 0) (.whole 0)
  obtain ⟨s, made⟩ : ∃ s : Session Rat, Session.create {} [] "blank" ⟨0, 0⟩ (.whole 0) = .ok s :=
    Session.exists_create info (by decide) now
  refine ⟨s, made, ?_⟩
  intro w lit p
  have visible : ∀ d, (w.picture d).isOk := by
    intro d
    have scale : w.scale = .whole 1 := rfl
    have room : w.room = 6144 := rfl
    rw [w.picture_isOk, scale, room]
    decide
  obtain ⟨-, -, -, -, -, -, catches⟩ :=
    published_frames_painted made (w := w) rfl [.present, .publish lit]
  obtain ⟨-, -, -, latest, current, -, -⟩ := published_frames_painted made (w := w) rfl
    [.present, .publish lit, .present, .present, .present]
  have idle : p.Idle := catches visible
  have published : p.published = [lit.display] := by
    simp only [p, after, List.foldl, access, published_present]
    rfl
  rw [published] at latest current
  rw [current idle.1 idle.2, ← Option.some.inj latest]
  rfl

end Presentation

end Chip8
