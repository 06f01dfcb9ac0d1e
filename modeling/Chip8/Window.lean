import Chip8.Keyboard
import Chip8.Picture
import Chip8.Session.Run

/-! # Window

The window presents a session until it is closed, until the session ends by itself, or until
something fails. It is given frame by frame: the time that passes before a frame, during
which the session's thread runs, and the events that arrive with it. The answer lists what
was asked of the display. Whatever ends the window, a failure of the session is its outcome.
-/

namespace Chip8

/-- What happens in the window. A key is known by the character that it types. -/
inductive WindowEvent where
  | quit
  | keyDown (key : Char)
  | keyUp (key : Char)
  /-- An event that means nothing to the window. -/
  | other
  deriving DecidableEq, Repr

structure WindowFrame (τ : Type) where
  time : Quantity τ
  events : List WindowEvent := []
  deriving Repr

inductive DisplayCall (τ : Type) where
  | init
  | setMode (width height : Quantity τ)
  | setCaption (text : String)
  | blit (picture : Picture)
  | flip
  | quit
  deriving DecidableEq, Repr

structure Window (τ : Type) [OfScientific τ] where
  session : Session τ
  scale : Quantity τ
  scheme : ColourScheme
  /-- The most bytes that an array for a picture may have. -/
  room : Nat := Picture.usualRoom
  isOpen : Bool := true
  paused : Bool := false
  calls : Array (DisplayCall τ) := #[]

namespace Window

variable {τ : Type} [TimeScale τ]

def call (w : Window τ) (c : DisplayCall τ) : Window τ := { w with calls := w.calls.push c }

def close (w : Window τ) : Window τ := { w with isOpen := false }

def setKey (w : Window τ) (key : Char) (pressed : Bool) : Window τ × Except Failure Unit :=
  match Keyboard.key? key with
  | none => (w, .ok ())
  | some k =>
    let (session, outcome) := w.session.setKey (.whole k.val) pressed
    ({ w with session }, outcome)

def togglePause (w : Window τ) : Window τ × Except Failure Unit :=
  if w.paused then
    let (session, outcome) := w.session.start
    ({ w with session, paused := false }, outcome)
  else
    let session := w.session.stop
    ({ w with session, paused := true }, session.join)

def handle (w : Window τ) : WindowEvent → Window τ × Except Failure Unit
  | .quit => (w.close, .ok ())
  | .keyDown key =>
    if key = Keyboard.escapeKey then (w.close, .ok ())
    else if key = Keyboard.pauseKey then w.togglePause
    else w.setKey key true
  | .keyUp key => w.setKey key false
  | .other => (w, .ok ())

def handleAll (w : Window τ) : List WindowEvent → Window τ × Except Failure Unit
  | [] => (w, .ok ())
  | event :: rest =>
    match w.handle event with
    | (w, .error e) => (w, .error e)
    | (w, .ok ()) => w.handleAll rest

/-- A session that has ended without being paused closes the window. -/
def noticeEnd (w : Window τ) : Window τ :=
  if !w.paused && !w.session.running then w.close else w

/-- Paints the published frame if it is new. The display takes pictures width first. -/
def paint (w : Window τ) : Window τ × Except Failure Unit :=
  let (session, ready) := w.session.consumeDraw
  let w := { w with session }
  if ready then
    match (Frame.ofDisplay w.session.frame).render w.scale w.scheme w.room with
    | .ok picture => ((w.call (.blit picture.transpose)).call .flip, .ok ())
    | .error e => (w, .error e)
  else (w, .ok ())

/-- Handles the events of one frame and paints. -/
def refresh (w : Window τ) (events : List WindowEvent) : Window τ × Except Failure Unit :=
  match w.handleAll events with
  | (w, .error e) => (w, .error e)
  | (w, .ok ()) => w.noticeEnd.paint

/-- Presents frames while the window is open. After the last one the window is closed. -/
def present : List (WindowFrame τ) → Window τ → Window τ × Except Failure Unit
  | [], w => w.refresh [.quit]
  | frame :: rest, w =>
    match { w with session := w.session.release { time := some frame.time } }.refresh
      frame.events with
    | (w, .error e) => (w, .error e)
    | (w, .ok ()) => if w.isOpen then present rest w else (w, .ok ())

/-- Stops the session and gives the display back. -/
def shutDown (w : Window τ) : Window τ :=
  { w with session := w.session.stop }.call .quit

def opened (w : Window τ) : Window τ × Except Failure Unit :=
  let w := w.call .init
  match (Quantity.whole 64).mul w.scale, (Quantity.whole 32).mul w.scale with
  | .ok width, .ok height =>
    ((w.call (.setMode width height)).call (.setCaption ("chipax - " ++ w.session.name)), .ok ())
  | .error e, _ => (w, .error e)
  | _, .error e => (w, .error e)

/-- Starts the session of an open window, presents the frames and shuts down. -/
def presentSession (w : Window τ) (frames : List (WindowFrame τ)) :
    Window τ × Except Failure Unit :=
  match w.session.start with
  | (session, .error e) => ({ w with session }, .error e)
  | (session, .ok ()) =>
    match present frames { w with session } with
    | (w, .error e) => (w.shutDown, .error e)
    | (w, .ok ()) => (w.shutDown, w.shutDown.session.join)

def run (session : Session τ) (scale : Quantity τ) (schemeName : String)
    (frames : List (WindowFrame τ)) (room : Nat := Picture.usualRoom) :
    Window τ × Except Failure Unit :=
  match ColourScheme.ofName schemeName with
  | .error e => ({ session, scale, scheme := {}, room }, .error e)
  | .ok scheme =>
    match opened { session, scale, scheme, room } with
    | (w, .error e) => (w, .error e)
    | (w, .ok ()) => w.presentSession frames

end Window

end Chip8
