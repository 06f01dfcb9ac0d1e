import Chip8.Proofs.Session.Lifecycle
import Chip8.Proofs.Session.Resetting
import Chip8.Proofs.Session.Work

/-! # Keys

A driver sets keys in the session, and the machine works with a copy that ticks and runs of cycles
load before their first instruction. So their instructions see the keys that are held at the time
of the call, and single steps see those of the last load. Nothing else changes either keypad, and
an update with a key that does not exist is refused as a whole.
-/

namespace Chip8

def noKeys : Keypad := Vector.replicate 16 false

/-! ## Works and keys -/

namespace Work

def Keyless (w : List Work) : Prop := ∀ keypad, .keys keypad ∉ w

variable {w w' : List Work}

theorem Keyless.nil : Keyless [] := fun _ => List.not_mem_nil

theorem Keyless.append (h : Keyless w) (h' : Keyless w') : Keyless (w ++ w') := by
  intro keypad mem
  rcases List.mem_append.mp mem with mem | mem
  · exact h keypad mem
  · exact h' keypad mem

theorem Keyless.instruction (h : Keyless w) : Keyless (.instruction :: w) := by
  simpa [Keyless] using h

theorem Keyless.decay (h : Keyless w) (count : UInt8 → UInt8) : Keyless (.decay count :: w) := by
  simpa [Keyless] using h

theorem Keyless.publish (h : Keyless w) : Keyless (.publish :: w) := by
  simpa [Keyless] using h

/-- The works are none, or they load the keys and go on without another load. -/
inductive Loading (keypad : Keypad) : Bool → List Work → Prop where
  | none : Loading keypad false []
  | some {w : List Work} (keyless : Keyless w) : Loading keypad true (.keys keypad :: w)

end Work

open Work (Keyless Loading)

theorem Core.Emulates.keypad {c c' : Core} (h : c.Emulates c') : c'.keypad = c.keypad := by
  induction h with
  | refl => rfl
  | tail _ move ih => cases move <;> exact ih

namespace Machine

variable {m m' : Machine} {w : List Work}

theorem Works.keypad (h : m.Works w m') (keyless : Keyless w) : m'.keypad = m.keypad := by
  induction h with
  | done => rfl
  | instruction completes _ ih =>
    obtain ⟨k, -, rfl⟩ := step_eq_ok_iff.mp completes
    exact (ih fun keypad mem => keyless keypad (.tail _ mem)).trans (keypad_perform _ _ _ k)
  | decay _ _ ih => exact ih fun keypad mem => keyless keypad (.tail _ mem)
  | keys keypad => exact absurd (.head _) (keyless keypad)
  | publish _ ih => exact ih fun keypad mem => keyless keypad (.tail _ mem)

/-- Every instruction among the works is executed with these keys. -/
def Sees (m : Machine) (w : List Work) (keypad : Keypad) : Prop :=
  ∀ before after m', w = before ++ .instruction :: after → m.Works before m' → m'.keypad = keypad

theorem sees_of_keyless (keyless : Keyless w) : m.Sees w m.keypad := by
  rintro before after m' rfl works
  exact works.keypad fun keypad mem => keyless keypad (List.mem_append_left _ mem)

theorem sees_of_keys {keypad : Keypad} (keyless : Keyless w) :
    m.Sees (.keys keypad :: w) keypad := by
  intro before after m' split works
  cases before with
  | nil => cases split
  | cons first before =>
    obtain ⟨rfl, rfl⟩ := List.cons.inj split
    cases works with
    | keys _ rest => exact rest.keypad fun keypad mem => keyless keypad (List.mem_append_left _ mem)

theorem sees_of_loading {keypad : Keypad} {loaded : Bool} (h : Loading keypad loaded w) :
    m.Sees w keypad := by
  cases h with
  | none =>
    intro before after m' split
    cases before <;> cases split
  | some keyless => exact sees_of_keys keyless

theorem Works.loading {keypad : Keypad} {loaded : Bool} (h : m.Works w m')
    (loading : Loading keypad loaded w) : m'.keypad = if loaded then keypad else m.keypad := by
  cases loading with
  | none =>
    cases h
    rfl
  | some keyless =>
    cases h with
    | keys _ rest => exact rest.keypad keyless

theorem keyless_cyclesWork (r : TimerRatio) (phase : Int) (count executed : Nat) (m : Machine) :
    Keyless (cyclesWork r phase count executed m) := by
  induction count generalizing executed m with
  | zero => exact .nil
  | succ count ih =>
    unfold cyclesWork
    dsimp only
    split
    · exact ((ih _ _).decay _).instruction
    · exact .nil

end Machine

namespace Session

variable {τ : Type} [TimeScale τ] {s : Session τ}

theorem keyless_onward {α : Type} {x : Session τ × Except Failure α}
    {next : α → Session τ → List Work} (h : ∀ a s, Keyless (next a s)) :
    Keyless (onward x next) := by
  rcases x with ⟨s, e | a⟩
  · exact .nil
  · exact h a s

theorem keyless_stepWork (s : Session τ) : Keyless s.stepWork :=
  keyless_onward fun _ _ => Keyless.nil.instruction

theorem keyless_decayWork (s : Session τ) (ticks : Quantity τ) : Keyless (s.decayWork ticks) :=
  keyless_onward fun _ _ => Keyless.nil.decay _

theorem keyless_decayAtWork (s : Session τ) (schedule : Schedule τ) (cycle : Int) :
    Keyless (s.decayAtWork schedule cycle) := by
  unfold decayAtWork
  split
  · exact .nil
  · exact s.keyless_decayWork _

theorem keyless_runStepsWork (schedule : Schedule τ) (count : Nat) (cycle : Int) (s : Session τ) :
    Keyless (runStepsWork schedule count cycle s) := by
  induction count generalizing cycle s with
  | zero => exact .nil
  | succ count ih =>
    refine s.keyless_stepWork.append (keyless_onward fun _ s => ?_)
    exact (s.keyless_decayAtWork schedule cycle).append (keyless_onward fun _ s => ih _ s)

theorem keyless_advanceWork (s : Session τ) (count : Int) (schedule : Schedule τ) (phase : Int) :
    Keyless (s.advanceWork count schedule phase) := by
  unfold advanceWork runBatchWork
  split
  · exact keyless_runStepsWork schedule _ _ s
  · split
    · exact .nil
    · split
      · exact Machine.keyless_cyclesWork _ _ _ _ _
      · exact .nil

theorem keyless_runChunksWork {size : Nat} (sizePos : 0 < size) (schedule : Schedule τ)
    (done remaining : Nat) (s : Session τ) :
    Keyless (runChunksWork size sizePos schedule done remaining s) := by
  induction remaining using Nat.strongRecOn generalizing done s with
  | ind remaining ih =>
    unfold runChunksWork
    split
    · exact .nil
    · exact (s.keyless_advanceWork _ schedule _).append
        (keyless_onward fun _ s => ih _ (by omega) _ s)

def loads (s : Session τ) : Call τ → Bool
  | .tick => s.readClock.2.isOk
  | .runCycles count true => (ProgressBar.create (.whole count : Quantity τ) none none).isOk
  | .runCycles _ false => true
  | _ => false

theorem loading_tick (s : Session τ) : Loading s.keypad (s.loads .tick) s.tickWork := by
  unfold tickWork loads
  have held : s.readClock.1.keypad = s.keypad := rfl
  generalize s.readClock = x at held ⊢
  rcases x with ⟨s₁, e | due⟩
  · exact .none
  · refine held ▸ .some ?_
    exact (keyless_advanceWork _ _ _ _).append (keyless_onward fun _ s =>
      (s.keyless_decayWork _).append (keyless_onward fun _ _ => Keyless.nil.publish))

theorem loading_runCycles (s : Session τ) (count : Int) :
    Loading s.keypad true (s.runCyclesWork count) :=
  .some ((keyless_runChunksWork _ _ _ _ _).append Keyless.nil.publish)

theorem loading_runWithProgress (s : Session τ) (count : Int) :
    Loading s.keypad (s.loads (.runCycles count true)) (s.runWithProgressWork count) := by
  unfold runWithProgressWork
  show Loading _ (ProgressBar.create (.whole count : Quantity τ) none none).isOk _
  cases ProgressBar.create (.whole count : Quantity τ) none none with
  | error e => exact .none
  | ok bar => exact s.loading_runCycles count

end Session

/-! ## Updates -/

/-- Keys set one after the other by their numbers, or none of them if one does not exist. -/
def Keypad.accept (held : Keypad) (keys : List (Int × Bool)) : Keypad :=
  if ∀ k ∈ keys, 0 ≤ k.1 ∧ k.1 < 16 then
    keys.foldl (fun held k => held.put (Fin.ofNat 16 k.1.toNat) k.2) held
  else held

/-- A call that sets keys by their numbers or lets the machine go on. -/
inductive KeyedCall where
  | setKey (n : Int) (pressed : Bool)
  | setKeys (keys : List (Int × Bool))
  | tick
  | runCycles (count : Int) (progress : Bool)
  | step
  | reset

namespace KeyedCall

def call {τ : Type} : KeyedCall → Call τ
  | setKey n pressed => .setKey (.whole n) pressed
  | setKeys keys => .setKeys (keys.map fun k => (.whole k.1, k.2))
  | tick => .tick
  | runCycles count progress => .runCycles count progress
  | step => .step
  | reset => .reset

/-- The keys that are held after a call. -/
def hold (held : Keypad) : KeyedCall → Keypad
  | setKey n pressed => held.accept [(n, pressed)]
  | setKeys keys => held.accept keys
  | reset => noKeys
  | _ => held

/-- The keys of the last load after a call, before which `held` were held and `loaded` were
loaded last. -/
def load (loads : Bool) (held loaded : Keypad) : KeyedCall → Keypad
  | reset => noKeys
  | _ => if loads then held else loaded

/-- The keys held after a history, set since the session was made or last reset. -/
def held {τ : Type} (history : List (Quantity τ × KeyedCall)) : Keypad :=
  history.foldl (fun held e => e.2.hold held) noKeys

def commands {τ : Type} (history : List (Quantity τ × KeyedCall)) :
    List (Quantity τ × Command τ) := history.map fun e => (e.1, .call e.2.call)

end KeyedCall

namespace Session

variable {τ : Type} [TimeScale τ] {s : Session τ}

theorem key_whole {n : Int} (exists_key : 0 ≤ n ∧ n < 16) :
    key (.whole n : Quantity τ) = .ok (Fin.ofNat 16 n.toNat) := by
  rw [key, dif_pos exists_key]
  refine congrArg Except.ok (Fin.ext ?_)
  exact (Nat.mod_eq_of_lt (by omega)).symm

theorem setKey_of_not {n : Int} (no_key : ¬(0 ≤ n ∧ n < 16)) (pressed : Bool) :
    s.setKey (.whole n) pressed =
      (s, .error (.invalid ((Quantity.whole n : Quantity τ).refusal .key))) := by
  rw [setKey, key, dif_neg no_key]

theorem setEachKey_whole {keys : List (Int × Bool)} (exist : ∀ k ∈ keys, 0 ≤ k.1 ∧ k.1 < 16) :
    s.setEachKey (keys.map fun k => (.whole k.1, k.2)) =
      ({ s with keypad := keys.foldl (fun held k => held.put (Fin.ofNat 16 k.1.toNat) k.2) s.keypad },
        .ok ()) := by
  induction keys generalizing s with
  | nil => rfl
  | cons k rest ih =>
    obtain ⟨first, others⟩ := List.forall_mem_cons.mp exist
    rw [List.map_cons, setEachKey, setKey, key_whole first]
    exact ih others

theorem isKeyIndex_whole (n : Int) :
    isKeyIndex (.whole n : Quantity τ) = decide (0 ≤ n ∧ n < 16) := by
  rw [Bool.eq_iff_iff]
  simp [isKeyIndex, Quantity.isNegative, Quantity.lt]

theorem setKeys_whole (keys : List (Int × Bool)) :
    s.setKeys (keys.map fun k => (.whole k.1, k.2)) =
      (keys.find? fun k => !decide (0 ≤ k.1 ∧ k.1 < 16)).elim
        (s.setEachKey (keys.map fun k => (.whole k.1, k.2)))
        fun k => (s, .error (.invalid ((Quantity.whole k.1 : Quantity τ).refusal .key))) := by
  have same : (fun k : Quantity τ × Bool => !isKeyIndex k.1) ∘
      (fun k : Int × Bool => (.whole k.1, k.2)) = fun k => !decide (0 ≤ k.1 ∧ k.1 < 16) :=
    funext fun k => congrArg not (isKeyIndex_whole k.1)
  unfold setKeys
  rw [List.find?_map, same]
  cases keys.find? fun k => !decide (0 ≤ k.1 ∧ k.1 < 16) <;> rfl

theorem setKeys_of_exist {keys : List (Int × Bool)} (exist : ∀ k ∈ keys, 0 ≤ k.1 ∧ k.1 < 16) :
    s.setKeys (keys.map fun k => (.whole k.1, k.2)) =
      s.setEachKey (keys.map fun k => (.whole k.1, k.2)) := by
  have found : keys.find? (fun k => !decide (0 ≤ k.1 ∧ k.1 < 16)) = none := by
    simpa using exist
  rw [setKeys_whole, found]
  rfl

theorem setKeys_of_missing {keys : List (Int × Bool)}
    (missing : ¬∀ k ∈ keys, 0 ≤ k.1 ∧ k.1 < 16) :
    ∃ k ∈ keys, ¬(0 ≤ k.1 ∧ k.1 < 16) ∧ s.setKeys (keys.map fun k => (.whole k.1, k.2)) =
      (s, .error (.invalid ((Quantity.whole k.1 : Quantity τ).refusal .key))) := by
  cases found : keys.find? (fun k => !decide (0 ≤ k.1 ∧ k.1 < 16)) with
  | none => exact absurd (by simpa using found) missing
  | some k =>
    refine ⟨k, List.mem_of_find?_eq_some found, ?_, ?_⟩
    · intro exist
      simpa [exist] using List.find?_some found
    · rw [setKeys_whole, found]
      rfl

theorem keypad_setKeys (keys : List (Int × Bool)) :
    (s.setKeys (keys.map fun k => (.whole k.1, k.2))).1.keypad = s.keypad.accept keys := by
  unfold Keypad.accept
  split
  · next exist => rw [setKeys_of_exist exist, setEachKey_whole exist]
  · next missing =>
    obtain ⟨k, -, -, refused⟩ := setKeys_of_missing (s := s) missing
    rw [refused]

theorem keypad_setKey (n : Int) (pressed : Bool) :
    (s.setKey (.whole n) pressed).1.keypad = s.keypad.accept [(n, pressed)] := by
  unfold Keypad.accept
  split
  · next exist =>
    have first : 0 ≤ n ∧ n < 16 := exist (n, pressed) (.head _)
    rw [setKey, key_whole first]
    rfl
  · next missing =>
    have no_key : ¬(0 ≤ n ∧ n < 16) := by simpa using missing
    rw [setKey_of_not no_key]

/-! ## Histories -/

/-- The keys of the last load in a history that goes on from `s`, where `held` are held and
`loaded` were loaded last. -/
def lastLoaded : List (Quantity τ × KeyedCall) → Session τ → Keypad → Keypad → Keypad
  | [], _, _, loaded => loaded
  | (now, c) :: rest, s, held, loaded =>
    let t := s.atTime now
    lastLoaded rest (t.call c.call).1 (c.hold held) (c.load (t.loads c.call) held loaded)

/-- The session is idle and starts from `m`, in which no key is down. -/
structure Fresh (s : Session τ) (m : Machine) : Prop where
  idle : s.running = false
  origin : s.core.origin = .ok m
  keypad : m.keypad = noKeys

variable {m : Machine}

theorem Fresh.call (h : s.Fresh m) (c : KeyedCall) : (s.call c.call).1.Fresh m where
  idle := by
    unfold running
    rw [thread_call]
    exact h.idle
  origin := by
    by_cases reset : (c.call : Call τ) = .reset
    · rw [reset]
      exact congrArg Core.origin (reset_of_idle h.idle h.origin).2.1
    · have course := course_perform (s := s) .start (c := .call c.call) fun same =>
        reset (Command.call.inj same)
      exact course.origin.trans h.origin
  keypad := h.keypad

/-- What a call does to the keys that are held and to those that are loaded. -/
theorem Fresh.keypads (h : s.Fresh m) (c : KeyedCall) :
    (s.call c.call).1.keypad = c.hold s.keypad ∧
      (s.call c.call).1.machine.keypad =
        c.load (s.loads c.call) s.keypad s.machine.keypad := by
  cases c with
  | setKey n pressed =>
    exact ⟨keypad_setKey n pressed, (does_setKey _ pressed).works.keypad .nil⟩
  | setKeys keys => exact ⟨keypad_setKeys keys, (does_setKeys _).works.keypad .nil⟩
  | tick => exact ⟨emulates_tick.keypad, does_tick.works.loading s.loading_tick⟩
  | runCycles count progress =>
    cases progress with
    | false =>
      exact ⟨(emulates_runCycles count).keypad,
        (does_runCycles count).works.loading (s.loading_runCycles count)⟩
    | true =>
      exact ⟨(emulates_runWithProgress count).keypad,
        (does_runWithProgress count).works.loading (s.loading_runWithProgress count)⟩
  | step => exact ⟨emulates_step.keypad, does_step.works.keypad s.keyless_stepWork⟩
  | reset =>
    have again := (reset_of_idle h.idle h.origin).2.1
    exact ⟨congrArg Core.keypad again, (congrArg (fun c => c.machine.keypad) again).trans h.keypad⟩

theorem Fresh.after (h : s.Fresh m) (history : List (Quantity τ × KeyedCall)) :
    (s.after (KeyedCall.commands history)).keypad =
        history.foldl (fun held e => e.2.hold held) s.keypad ∧
      (s.after (KeyedCall.commands history)).machine.keypad =
        lastLoaded history s s.keypad s.machine.keypad := by
  induction history generalizing s with
  | nil => exact ⟨rfl, rfl⟩
  | cons e rest ih =>
    have here : (s.atTime e.1).Fresh m := ⟨h.idle, h.origin, h.keypad⟩
    obtain ⟨held, loaded⟩ := here.keypads e.2
    obtain ⟨helds, loadeds⟩ := ih (here.call e.2)
    refine ⟨helds.trans ?_, loadeds.trans ?_⟩
    · rw [held]
      rfl
    · rw [held, loaded]
      rfl

/-! ## What leaves the keys alone -/

/-- The keys that are held and the keys that the machine works with. -/
def keypads (s : Session τ) : Keypad × Keypad := (s.keypad, s.machine.keypad)

theorem keypads_of_keyless {t : Session τ} {w : List Work} (held : t.keypad = s.keypad)
    (does : s.Does w t) (keyless : Keyless w) : t.keypads = s.keypads :=
  Prod.ext held (does.works.keypad keyless)

theorem keypads_step : s.step.1.keypads = s.keypads :=
  keypads_of_keyless emulates_step.keypad does_step s.keyless_stepWork

theorem keypads_decay (ticks : Quantity τ) : (s.decay ticks).1.keypads = s.keypads :=
  keypads_of_keyless (emulates_decay ticks).keypad (does_decay ticks) (s.keyless_decayWork ticks)

theorem keypads_advance (count : Int) (schedule : Schedule τ) (phase : Int) :
    (s.advance count schedule phase).1.keypads = s.keypads :=
  keypads_of_keyless (emulates_advance count schedule phase).keypad
    (does_advance count schedule phase) (s.keyless_advanceWork count schedule phase)

theorem keypads_publish : s.publish.keypads = s.keypads :=
  keypads_of_keyless emulates_publish.keypad does_publish Keyless.nil.publish

section Creation

variable {config : Config τ} {rom : List UInt8} {name : String} {seed : RandomKey}
  {start : Quantity τ}

/-- After every history of calls the session holds the keys that were set since it was made or last
reset, as far as they were accepted. The instructions of a tick or a run of cycles see these keys,
and a step sees those of the last load. An update with a key that does not exist is refused and
changes nothing. No instruction, decay or publication alters either keypad. -/
theorem keys_handed_over (made : create config rom name seed start = .ok s)
    (history : List (Quantity τ × KeyedCall)) :
    let t := s.after (KeyedCall.commands history)
    t.keypad = KeyedCall.held history ∧
      (∀ now c, c ≠ .call .reset → t.Does ((t.atTime now).work c) ((t.atTime now).perform c).1) ∧
      (∀ now, t.machine.Sees ((t.atTime now).work (.call .tick)) (KeyedCall.held history)) ∧
      (∀ now count progress, t.machine.Sees
        ((t.atTime now).work (.call (.runCycles count progress))) (KeyedCall.held history)) ∧
      (∀ now, t.machine.Sees ((t.atTime now).work (.call .step))
        (lastLoaded history s noKeys noKeys)) ∧
      (∀ n pressed, ¬(0 ≤ n ∧ n < 16) →
        t.setKey (.whole n) pressed =
          (t, .error (.invalid ((Quantity.whole n : Quantity τ).refusal .key)))) ∧
      (∀ keys : List (Int × Bool), (¬∀ k ∈ keys, 0 ≤ k.1 ∧ k.1 < 16) →
        ∃ k ∈ keys, ¬(0 ≤ k.1 ∧ k.1 < 16) ∧ t.setKeys (keys.map fun k => (.whole k.1, k.2)) =
          (t, .error (.invalid ((Quantity.whole k.1 : Quantity τ).refusal .key)))) ∧
      ∀ u : Session τ, u.step.1.keypads = u.keypads ∧
        (∀ count schedule phase, (u.advance count schedule phase).1.keypads = u.keypads) ∧
        (∀ ticks, (u.decay ticks).1.keypads = u.keypads) ∧ u.publish.keypads = u.keypads := by
  intro t
  have fresh : s.core = Core.fresh s.machine := core_create made
  have none : s.machine.keypad = noKeys := by
    rw [machine_create made]
    rfl
  have idle : s.running = false := by
    obtain ⟨level, machine, output, -, rfl⟩ := create_eq_ok made
    rfl
  have up : s.keypad = noKeys := congrArg Core.keypad fresh
  have begun : s.Fresh s.machine := ⟨idle, congrArg Core.origin fresh, none⟩
  obtain ⟨held, loaded⟩ := begun.after history
  rw [up] at held loaded
  rw [none] at loaded
  change t.keypad = KeyedCall.held history at held
  refine ⟨held, fun now c noReset => ?_, fun now => ?_, fun now count progress => ?_,
    fun now => ?_, fun n pressed no_key => setKey_of_not no_key pressed,
    fun keys missing => setKeys_of_missing missing,
    fun u => ⟨keypads_step, keypads_advance, keypads_decay, keypads_publish⟩⟩
  · have does := does_perform (s := t.atTime now) noReset
    exact ⟨does.works, does.cycles, does.clock⟩
  · exact held ▸ Machine.sees_of_loading (loading_tick (t.atTime now))
  · cases progress with
    | false => exact held ▸ Machine.sees_of_loading (loading_runCycles (t.atTime now) count)
    | true => exact held ▸ Machine.sees_of_loading (loading_runWithProgress (t.atTime now) count)
  · exact loaded ▸ Machine.sees_of_keyless (keyless_stepWork (t.atTime now))

/-- Of two updates the first names a key that does not exist. The second is held, and no keys
are loaded before the next run. -/
theorem keys_handed_over_refused :
    ∃ s : Session Rat, create {} [0x00, 0xE0] "keys" ⟨0, 0⟩ (.real 0) = .ok s ∧
      let t := s.after (KeyedCall.commands
        [(.real 0, .setKeys [(3, true), (16, true)]), (.real 0, .setKey 5 true)])
      t.keypad = noKeys.put 5 true ∧
        t.machine.Sees ((t.atTime (.real 0)).work (.call (.runCycles 1 false)))
          (noKeys.put 5 true) ∧
        t.machine.Sees ((t.atTime (.real 0)).work (.call .step)) noKeys ∧
        t.setKey (.whole 16) true = (t, .error (.invalid (.key "16"))) := by
  have info : LogLevel.ofName? ({} : Config Rat).logLevel = some .info := by decide +kernel
  obtain ⟨s, made⟩ : ∃ s, create ({} : Config Rat) [0x00, 0xE0] "keys" ⟨0, 0⟩ (.real 0) = .ok s :=
    exists_create info (by decide) (Quantity.measurableFrom_real (0 : Rat) 0)
  obtain ⟨held, -, -, run, step, refused, -, -⟩ := keys_handed_over made
    [(.real 0, .setKeys [(3, true), (16, true)]), (.real 0, .setKey 5 true)]
  have keys : KeyedCall.held [((.real 0 : Quantity Rat), KeyedCall.setKeys [(3, true), (16, true)]),
      (.real 0, .setKey 5 true)] = noKeys.put 5 true := by decide
  rw [keys] at held run
  have shown : (Quantity.whole 16 : Quantity Rat).refusal .key = .key "16" :=
    if_pos (by decide +kernel)
  exact ⟨s, made, held, run (.real 0) 1 false, step (.real 0),
    shown ▸ refused 16 true (by decide)⟩

end Creation

end Session

end Chip8
