import Mathlib
import Chip8.CommandLine.Launch
import Chip8.Proofs.CommandLine.Arguments
import Chip8.Proofs.Session.Frames
import Chip8.Proofs.Session.Splitting

/-! # Launches without a window

A launch without a window loads the program, runs its cycles under a progress bar and prints the
display. Its exit status tells a wrong setting from an error of the emulator, and only a launch
that succeeds prints a display. A number of cycles with too many digits is not read, and one
without a place on the time scale has no progress bar. Then nothing is run.
-/

namespace Chip8

open Launch

/-! ## Lines -/

namespace Display

def row (d : Display) (y : Fin 32) : List Char :=
  (List.finRange 64).map fun x => if d.getD (x.val + 64 * y.val) 0 ≠ 0 then '#' else '.'

def rows (d : Display) : List (List Char) := (List.finRange 32).map d.row

theorem length_row (d : Display) (y : Fin 32) : (d.row y).length = 64 := by simp [row]

theorem newline_notMem_row (d : Display) (y : Fin 32) : '\n' ∉ d.row y := by
  intro h
  obtain ⟨x, -, hx⟩ := List.mem_map.mp h
  split at hx <;> revert hx <;> decide

theorem pixel_ofDisplay (d : Display) (x : Fin 64) (y : Fin 32) :
    (Frame.ofDisplay d).pixel x y = (d.getD (x.val + 64 * y.val) 0 != 0) := by
  have inside : x.val + 64 * y.val < 2048 := by omega
  simp [Frame.pixel, Frame.ofDisplay, Vector.getD, inside]

theorem toList_text (d : Display) :
    ((Frame.ofDisplay d).text "#" ".").toList = ['\n'].intercalate d.rows := by
  have chars (y : Fin 32) :
      (String.join (((List.finRange 64).map fun x => (Frame.ofDisplay d).pixel x y).map
        fun lit => if lit then "#" else ".")).toList = d.row y := by
    rw [String.toList_join, List.map_map, List.flatMap_map, row, List.map_eq_flatMap]
    refine congrArg (fun f => (List.finRange 64).flatMap f) (funext fun x => ?_)
    by_cases lit : d.getD (x.val + 64 * y.val) 0 = 0 <;> simp [pixel_ofDisplay, lit]
  rw [Frame.text, String.toList_intercalate, Frame.rows, rows, List.map_map, List.map_map]
  exact congrArg (['\n'].intercalate) (List.map_congr_left fun y _ => chars y)

theorem splitOn_text (d : Display) :
    ((Frame.ofDisplay d).text "#" "." ++ "\n").toList.splitOn '\n' = d.rows ++ [[]] := by
  have separate : ∀ r ∈ d.rows, '\n' ∉ r := by
    intro r hr
    obtain ⟨y, -, rfl⟩ := List.mem_map.mp hr
    exact d.newline_notMem_row y
  have nonempty : d.rows ≠ [] := List.ne_nil_of_length_pos (by simp [rows])
  rw [String.toList_append, toList_text]
  exact (List.splitOn_append_cons_self _ []).trans
    (congrArg (· ++ [[]]) (List.splitOn_intercalate '\n' separate nonempty))

end Display

/-! ## The steps of a launch -/

namespace Session

variable {τ : Type} [TimeScale τ] {s : Session τ}

theorem frame_runCycles (fresh : s.core = Core.fresh s.machine) (count : Int) :
    (s.runCycles (.whole count)).1.frame = (s.runCycles (.whole count)).1.machine.display := by
  have course : s.core.Course (s.runCycles (.whole count)).1.core :=
    Core.Course.start.evolves (emulates_runCycles count).evolves
  have shown : s.core.Shown := by
    rw [fresh]
    exact fun _ => rfl
  exact course.shown shown (draw_runCycles _)

end Session

namespace Launch

variable {τ : Type} [TimeScale τ]

/-- What a logger writes at the reading of the clock at which it was made. -/
def said (name : String) (level : LogLevel) (now : Quantity τ) (severity : LogLevel)
    (message : String) : String :=
  (({ name, level, start := now } : Logger τ).write now severity message).toOption.getD ""

theorem write_eq_said {now : Quantity τ} (readable : now.MeasurableFrom now) (name : String)
    (level severity : LogLevel) (message : String) :
    ({ name, level, start := now } : Logger τ).write now severity message =
      .ok (said name level now severity message) := by
  have stamp := Logger.stamp_of_measurableFrom (l := { name, level, start := now }) readable
  obtain ⟨text, written⟩ := Logger.exists_write stamp severity message
  rw [said, written]
  rfl

def machine (maskRegister : Bool) (rom : List UInt8) : Machine :=
  { Machine.fresh (RandomKey.ofSeed 0) maskRegister with
    memory := (Machine.fresh (RandomKey.ofSeed 0) maskRegister).memory.store programStart rom }

/-- What is asked of a launch without a window. -/
structure Asks (o : Options) (cycles cpu : Int) (level : LogLevel) : Prop where
  headless : o.headless = some (some cycles)
  cpuFrequency : o.cpuFrequency = some cpu
  logLevel : o.logLevel = some level.name

def settings (o : Options) (cpu : Int) (level : LogLevel) : Config τ :=
  { cpuFrequency := .whole cpu, maskRegister := o.maskRegister, logLevel := level.name }

variable {o : Options} {n cpu : Int} {level : LogLevel} {now : Quantity τ}

theorem config_of_nonpos (asks : Asks o n cpu level) (nonpos : cpu ≤ 0) :
    config (τ := τ) o = .error (.invalid
      ((Quantity.whole cpu : Quantity τ).refusal (.notPositive "cpu_frequency"))) := by
  simp [config, needed, asks.logLevel, asks.cpuFrequency, Config.checked, Config.violation?,
    Quantity.isNotPositive, nonpos, bind, Except.bind]

theorem config_of_pos (sleeps : ({} : Config τ).tickSleep.isNegative = false)
    (asks : Asks o n cpu level) (positive : 0 < cpu) :
    config (τ := τ) o = .ok (settings o cpu level) := by
  have large : ¬cpu ≤ 0 := Int.not_le.mpr positive
  have valid : (settings (τ := τ) o cpu level).violation? = none := by
    unfold Config.violation?
    rw [show (settings (τ := τ) o cpu level).tickSleep.isNegative = false from sleeps]
    simp [settings, Quantity.isNotPositive, large]
  have checked : (settings (τ := τ) o cpu level).checked = .ok (settings o cpu level) := by
    rw [Config.checked, valid]
  simp only [config, needed, asks.logLevel, asks.cpuFrequency, bind, Except.bind]
  exact checked

def announcement (o : Options) (rom : List UInt8) (level : LogLevel) (now : Quantity τ) : String :=
  said "chipax.driver" level now .info
    ("Loaded ROM '" ++ FileTree.baseName o.rom ++ "' (" ++ toString rom.length ++ " bytes)")

def loaded (o : Options) (cpu : Int) (rom : List UInt8) (level : LogLevel) (now : Quantity τ) :
    Session τ where
  config := settings o cpu level
  rom
  name := FileTree.baseName o.rom
  seed := RandomKey.ofSeed 0
  journal := { logger := { name := "chipax.driver", level, start := now } }
  clock := Clock.create (.whole cpu) (.whole 60) none
  machine := machine o.maskRegister rom
  screen := Screen.publish (machine o.maskRegister rom).display
  surroundings := { now, output := announcement o rom level now }

variable {rom : List UInt8}

theorem create_loaded (fits : rom.length ≤ maxRomSize) (readable : now.MeasurableFrom now) :
    Session.create (settings o cpu level) rom (FileTree.baseName o.rom) (RandomKey.ofSeed 0) now =
      .ok (loaded o cpu rom level now) := by
  have fresh : Session.freshMachine (settings (τ := τ) o cpu level) rom
      (FileTree.baseName o.rom) (RandomKey.ofSeed 0) = .ok (machine o.maskRegister rom) := by
    rw [Session.freshMachine, Machine.loadRom_of_le _ fits]
    rfl
  have logger : LogLevel.ofName? (settings (τ := τ) o cpu level).logLevel = some level :=
    Logger.ofName?_name level
  simp only [Session.create, Logger.create, logger, fresh, write_eq_said readable, bind,
    Except.bind, pure, Except.pure]
  rfl

theorem session_eq (sleeps : ({} : Config τ).tickSleep.isNegative = false)
    (asks : Asks o n cpu level) (positive : 0 < cpu) (fits : rom.length ≤ maxRomSize)
    (readable : now.MeasurableFrom now) :
    session o (.ok rom) now = .ok (loaded o cpu rom level now) := by
  rw [session, config_of_pos sleeps asks positive]
  exact create_loaded fits readable

def cycles (maskRegister : Bool) (n cpu : Int) (rom : List UInt8) : Batch :=
  (machine maskRegister rom).runTimed (tickOf cpu 60) n.toNat

variable (o rom now) in
theorem paced_loaded (positive : 0 < cpu) (small : (cpu + 10000) * 60 < 2 ^ 31) :
    (loaded o cpu rom level now).Paced cpu 60 :=
  ⟨rfl, positive, by decide, small⟩

theorem traced_loaded (quiet : level ≠ .debug) : (loaded o cpu rom level now).traced = false := by
  unfold Session.traced loaded
  rw [Logger.isEnabled_name]
  cases level with
  | debug => exact absurd rfl quiet
  | _ => rfl

theorem runCycles_loaded (positive : 0 < cpu) (small : (cpu + 10000) * 60 < 2 ^ 31)
    (quiet : level ≠ .debug) (nonneg : 0 ≤ n) :
    (loaded o cpu rom level now).runCycles (.whole n) =
      (loaded o cpu rom level now).afterRun (cycles o.maskRegister n cpu rom) := by
  obtain ⟨count, rfl⟩ := Int.eq_ofNat_of_zero_le nonneg
  exact (paced_loaded o now rom positive small).runCycles (traced_loaded quiet) count

theorem headless_of_counted (positive : 0 < cpu) (small : (cpu + 10000) * 60 < 2 ^ 31)
    (quiet : level ≠ .debug) (nonneg : 0 ≤ n) (written : Text.isWritable n = true)
    (counted : (TimeScale.ofInt? n : Option τ).isSome)
    (fits : rom.length ≤ maxRomSize) (readable : now.MeasurableFrom now) :
    headless (loaded o cpu rom level now) n =
      (((loaded o cpu rom level now).afterRun (cycles o.maskRegister n cpu rom)).1,
        (cycles o.maskRegister n cpu rom).error.elim
          (.ok ((Frame.ofDisplay (cycles o.maskRegister n cpu rom).machine.display).text "#" "." ++ "\n"))
          fun e => .error (.execution e)) := by
  obtain ⟨total, ht⟩ := Option.isSome_iff_exists.mp counted
  have bar : ∃ bar, ProgressBar.create (.whole n : Quantity τ) none none = .ok bar := by
    have title : (Quantity.whole n : Quantity τ).text Quantity.grouped = .ok _ := if_pos written
    rw [ProgressBar.create, ProgressBar.titled, ProgressBar.counted, title]
    simp [Quantity.toReal, TimeScale.ofInt, ht, bind, Except.bind, pure, Except.pure]
  obtain ⟨bar, shown⟩ := bar
  have fresh : (loaded o cpu rom level now).core = Core.fresh (machine o.maskRegister rom) :=
    Session.core_create (create_loaded fits readable)
  have run : (loaded o cpu rom level now).runCycles (.whole n) = _ :=
    runCycles_loaded positive small quiet nonneg
  have frame : ((loaded o cpu rom level now).afterRun (cycles o.maskRegister n cpu rom)).1.frame =
      (cycles o.maskRegister n cpu rom).machine.display := by
    have published := Session.frame_runCycles fresh n
    rwa [run] at published
  rw [headless, Session.runWithProgress, shown, run, ← frame]
  unfold Session.afterRun
  cases (cycles o.maskRegister n cpu rom).error <;> rfl

/-! ## The whole launch -/

def complaint (level : LogLevel) (now : Quantity τ) (message : String) : String :=
  said "chipax" level now .error message

theorem ending_eq (readable : now.MeasurableFrom now) (output message : String) (status : Nat) :
    ending { name := "chipax", level, start := now } now output message status =
      { output := output ++ complaint level now message, outcome := .ok status } := by
  rw [ending, write_eq_said readable]
  rfl

variable {frames : List (WindowFrame τ)} {room : Nat}

omit [TimeScale τ] in
theorem logger_eq (asks : Asks o n cpu level) :
    (needed .logLevel o.logLevel >>= fun name => Logger.create "chipax" name now) =
      .ok { name := "chipax", level, start := now } := by
  rw [asks.logLevel]
  show Logger.create "chipax" level.name now = _
  rw [Logger.create, Logger.ofName?_name]

theorem run_of_error (asks : Asks o n cpu level) {contents : Except Failure (List UInt8)}
    {e : Failure} (refused : session o contents now = .error e) :
    run o contents now frames room =
      failed { name := "chipax", level, start := now } now "" e := by
  simp only [run, logger_eq asks, refused]

variable (frames room) in
theorem run_of_session (asks : Asks o n cpu level) {contents : Except Failure (List UInt8)}
    {s t : Session τ} {outcome : Except Failure String} (made : session o contents now = .ok s)
    (ran : headless s n = (t, outcome)) :
    (∀ text, outcome = .ok text → run o contents now frames room =
      { output := t.surroundings.output ++ text, outcome := .ok 0 }) ∧
    ∀ e, outcome = .error e → run o contents now frames room =
      failed { name := "chipax", level, start := now } now t.surroundings.output e := by
  constructor
  · rintro text rfl
    simp only [run, logger_eq asks, made, present, asks.headless, ran]
  · rintro e rfl
    simp only [run, logger_eq asks, made, present, asks.headless, ran]

theorem run_of_nonpos (asks : Asks o n cpu level) (readable : now.MeasurableFrom now)
    (nonpos : cpu ≤ 0) (contents : Except Failure (List UInt8)) :
    run o contents now frames room =
      { output := complaint level now ("Invalid configuration: " ++
          ((Quantity.whole cpu : Quantity τ).refusal (.notPositive "cpu_frequency")).message)
        outcome := .ok 2 } := by
  have refused : session o contents now = .error (.invalid
      ((Quantity.whole cpu : Quantity τ).refusal (.notPositive "cpu_frequency"))) := by
    rw [session, config_of_nonpos asks nonpos]
    rfl
  rw [run_of_error asks refused]
  exact ending_eq readable "" _ 2

theorem run_of_unreadable (sleeps : ({} : Config τ).tickSleep.isNegative = false)
    (asks : Asks o n cpu level) (readable : now.MeasurableFrom now) (positive : 0 < cpu)
    (e : RomError) :
    run o (.error (.rom e)) now frames room =
      { output := complaint level now e.message, outcome := .ok 1 } := by
  have refused : session o (.error (.rom e)) now = .error (.rom e) := by
    rw [session, config_of_pos sleeps asks positive]
    rfl
  rw [run_of_error asks refused]
  exact ending_eq readable "" _ 1

theorem run_of_uncounted (sleeps : ({} : Config τ).tickSleep.isNegative = false)
    (asks : Asks o n cpu level) (readable : now.MeasurableFrom now) (positive : 0 < cpu)
    (fits : rom.length ≤ maxRomSize) (written : Text.isWritable n = true)
    (uncounted : (TimeScale.ofInt? n : Option τ) = none) :
    run o (.ok rom) now frames room =
      { output := announcement o rom level now, outcome := .error (.outOfRange (.float n)) } := by
  have refused : headless (loaded o cpu rom level now) n =
      (loaded o cpu rom level now, .error (.outOfRange (.float n))) := by
    rw [headless, Session.runWithProgress_of_uncountable written uncounted]
  exact (run_of_session frames room asks (session_eq sleeps asks positive fits readable)
    refused).2 _ rfl

theorem run_of_counted (sleeps : ({} : Config τ).tickSleep.isNegative = false)
    (asks : Asks o n cpu level) (readable : now.MeasurableFrom now) (positive : 0 < cpu)
    (small : (cpu + 10000) * 60 < 2 ^ 31) (quiet : level ≠ .debug) (nonneg : 0 ≤ n)
    (fits : rom.length ≤ maxRomSize) (written : Text.isWritable n = true)
    (counted : (TimeScale.ofInt? n : Option τ).isSome) :
    run o (.ok rom) now frames room =
      { output := announcement o rom level now ++ (cycles o.maskRegister n cpu rom).error.elim
          ((Frame.ofDisplay (cycles o.maskRegister n cpu rom).machine.display).text "#" "." ++ "\n")
          fun e => complaint level now e.message
        outcome := .ok ((cycles o.maskRegister n cpu rom).error.elim 0 fun _ => 1) } := by
  obtain ⟨shown, fails⟩ := run_of_session frames room asks
    (session_eq sleeps asks positive fits readable)
    (headless_of_counted positive small quiet nonneg written counted fits readable)
  cases h : (cycles o.maskRegister n cpu rom).error with
  | none =>
    rw [h] at shown
    exact shown _ rfl
  | some e =>
    rw [h] at fails
    exact (fails _ rfl).trans (ending_eq readable _ _ 1)

section Reading

variable {tree : FileTree} {file : String} (named : file.contains '\x00' = false)
  (contents : tree.read file = .ok rom)

include named contents

theorem read_of_fits (fits : rom.length ≤ 3584) : Rom.read tree file = .ok rom := by
  rw [Rom.read, named, if_neg (by decide), contents]
  exact if_neg (Nat.not_lt.mpr fits)

theorem read_of_long (long : 3584 < rom.length) :
    Rom.read tree file =
      .error (.rom (.tooLarge (FileTree.baseName file) rom.length 3584)) := by
  rw [Rom.read, named, if_neg (by decide), contents]
  exact if_pos long

end Reading

def ofArguments (arguments : List String) (tree : FileTree) (now : Quantity τ)
    (frames : List (WindowFrame τ)) (room : Nat) : Except CommandLine.Interruption Launch :=
  (Options.parse arguments).map fun o => run o (Rom.read tree o.rom) now frames room

theorem announcement_cases (o : Options) (rom : List UInt8) (level : LogLevel)
    (now : Quantity τ) :
    announcement o rom level now = "" ∨
      ∃ line : String, announcement o rom level now = line ++ "\n" := by
  unfold announcement said Logger.write Logger.log Logger.line
  split
  · cases Logger.stamp _ now with
    | error e => exact .inl rfl
    | ok stamp => exact .inr ⟨_, rfl⟩
  · exact .inl rfl

theorem splitOn_announced (o : Options) (rom : List UInt8) (level : LogLevel) (now : Quantity τ)
    (d : Display) :
    ∃ before, (announcement o rom level now ++ ((Frame.ofDisplay d).text "#" "." ++ "\n")
      ).toList.splitOn '\n' = before ++ d.rows ++ [[]] := by
  rw [String.toList_append]
  rcases announcement_cases o rom level now with empty | ⟨line, ended⟩
  · exact ⟨[], by simpa [empty] using d.splitOn_text⟩
  · refine ⟨line.toList.splitOn '\n', ?_⟩
    rw [ended, String.toList_append, List.append_assoc, List.append_assoc, ← d.splitOn_text]
    exact List.splitOn_append_cons_self _ _

theorem announcement_of_ne (o : Options) (rom : List UInt8) (now : Quantity τ)
    (quiet : level ≠ .debug) (terse : level ≠ .info) : announcement o rom level now = "" := by
  have silent : ({ name := "chipax.driver", level, start := now } : Logger τ).isEnabled
      LogLevel.info.name = false := by
    rw [Logger.isEnabled_name]
    cases level with
    | debug => exact absurd rfl quiet
    | info => exact absurd rfl terse
    | _ => rfl
  rw [announcement, said, Logger.write, Logger.log, silent]
  rfl

/-- The command line for a launch without a window is refused exactly if one of its numbers has too
many digits. Whatever command line asks for such a launch without a trace, the launch ends with
status two exactly if the frequency is not positive. Otherwise it ends with status one and prints no
display exactly if the program does not fit or one of its cycles faults, and with status zero
exactly if all complete, and then the last lines are the rows of the display. Cycles that no
progress bar can count are not run. -/
theorem headless_launch (sleeps : ({} : Config τ).tickSleep.isNegative = false)
    (small : (cpu + 10000) * 60 < 2 ^ 31) (quiet : level ≠ .debug) (nonneg : 0 ≤ n)
    {tree : FileTree} {file : String} (named : file.contains '\x00' = false)
    (contents : tree.read file = .ok rom) (readable : now.MeasurableFrom now)
    (maskRegister : Bool) (frames : List (WindowFrame τ)) (room : Nat) :
    (Options.parse (Options.commandLine file n cpu maskRegister level) =
      if Text.isWritable n = false then
        .error (.usage (.argument ["--headless"] (.notInteger (toString n))))
      else if Text.isWritable cpu = false then
        .error (.usage (.argument ["--cpu-frequency"] (.notInteger (toString cpu))))
      else
        .ok { rom := file, cpuFrequency := some cpu, maskRegister
              logLevel := some level.name, headless := some (some n) }) ∧
    ∀ arguments o, Options.parse arguments = .ok o → Asks o n cpu level → o.rom = file →
      o.maskRegister = maskRegister →
      ∃ launch, ofArguments arguments tree now frames room = .ok launch ∧
        let batch := cycles maskRegister n cpu rom
        let counted : Prop := (TimeScale.ofInt? n : Option τ).isSome
        (launch.outcome = .ok 2 ↔ cpu ≤ 0) ∧
        (launch.outcome = .ok 1 ↔
          0 < cpu ∧ (3584 < rom.length ∨ counted ∧ batch.error.isSome)) ∧
        (launch.outcome = .ok 0 ↔
          0 < cpu ∧ rom.length ≤ 3584 ∧ counted ∧ batch.error = none) ∧
        (launch.outcome = .ok 1 → launch.output =
          if 3584 < rom.length then
            complaint level now (RomError.tooLarge (FileTree.baseName file) rom.length 3584).message
          else announcement o rom level now ++
            batch.error.elim "" fun e => complaint level now e.message) ∧
        (launch.outcome = .ok 0 → ∃ before, launch.output.toList.splitOn '\n' =
          before ++ batch.machine.display.rows ++ [[]]) ∧
        (0 < cpu → rom.length ≤ 3584 → ¬counted →
          launch = { output := if level = .info then announcement o rom .info now else ""
                     outcome := .error (.outOfRange (.float n)) }) := by
  refine ⟨Options.parse_commandLine file n cpu maskRegister level, ?_⟩
  rintro arguments o parsed asks rfl rfl
  have written : Text.isWritable n = true := (Options.written_of_parse parsed).headless n asks.headless
  refine ⟨run o (Rom.read tree o.rom) now frames room, by rw [ofArguments, parsed]; rfl, ?_⟩
  intro batch counted
  rcases Int.lt_or_le 0 cpu with positive | nonpos
  · have large : ¬cpu ≤ 0 := Int.not_le.mpr positive
    by_cases long : 3584 < rom.length
    · rw [read_of_long named contents long, run_of_unreadable sleeps asks readable positive]
      simp [large, long, positive, Nat.not_le.mpr long]
    · have fits : rom.length ≤ 3584 := Nat.le_of_not_lt long
      rw [read_of_fits named contents fits]
      by_cases shown : counted
      · rw [run_of_counted sleeps asks readable positive small quiet nonneg fits written shown]
        cases h : batch.error with
        | none =>
          have printed := splitOn_announced o rom level now batch.machine.display
          simpa [batch, h, large, long, fits, positive, shown] using printed
        | some e => simp [batch, large, long, positive, shown]
      · have told : announcement o rom level now =
            if level = .info then announcement o rom .info now else "" := by
          split
          · next info => rw [info]
          · next terse => exact announcement_of_ne o rom now quiet terse
        rw [run_of_uncounted sleeps asks readable positive fits written
          (by simpa [counted] using shown)]
        simp [large, long, shown, told]
  · rw [run_of_nonpos asks readable nonpos]
    simp [nonpos, Int.not_lt.mpr nonpos]

theorem ok_of_toOption {ε α : Type} {x : Except ε α} {a : α} (h : x.toOption = some a) :
    x = .ok a := by
  cases x with
  | ok b => exact congrArg Except.ok (Option.some.inj h)
  | error e => cases h

theorem display_countTimers (m : Machine) (ticks : Int) :
    (m.countTimers ticks).display = m.display := rfl

/-- One cycle that draws in the corner of the screen ends with status zero, and a light in the
first place of the first row is printed. -/
theorem headless_launch_row :
    ∃ launch before,
      ofArguments ["--headless", "1", "rom"]
        { entries := [({ path := ["rom"] }, .file Machine.rowProgram)] }
        (.real (TimeScale.zero : Double)) [] 0 = .ok launch ∧
      launch.outcome = .ok 0 ∧
      launch.output.toList.splitOn '\n' =
        before ++ (cycles true 1 500 Machine.rowProgram).machine.display.rows ++ [[]] ∧
      (cycles true 1 500 Machine.rowProgram).machine.display.getD 0 0 = 1 := by
  have sleeps : ({} : Config Double).tickSleep.isNegative = false := by decide +kernel
  have parsed : Options.parse ["--headless", "1", "rom"] =
      .ok { rom := "rom", headless := some (some 1) } := ok_of_toOption (by decide +kernel)
  have asks : Asks { rom := "rom", headless := some (some 1) } 1 500 .info := ⟨rfl, rfl, rfl⟩
  have contents : FileTree.read { entries := [({ path := ["rom"] }, .file Machine.rowProgram)] }
      "rom" = .ok Machine.rowProgram := by cbv
  obtain ⟨-, launches⟩ := headless_launch sleeps (by decide : ((500 : Int) + 10000) * 60 < 2 ^ 31)
    (by decide : LogLevel.info ≠ .debug) (by decide : (0 : Int) ≤ 1) (by cbv) contents
    (Quantity.measurableFrom_real TimeScale.zero _) true [] 0
  obtain ⟨launch, launched, -, -, ok, -, printed, -⟩ := launches _ _ parsed asks rfl rfl
  obtain ⟨-, m', completes, -, lit⟩ := Machine.step_rowProgram
    (m := machine true Machine.rowProgram) rfl
  have batch : cycles true 1 500 Machine.rowProgram =
      { machine := m'.countTimers (tickOf 500 60 0), executed := 1 } :=
    Machine.runTimed_of_step completes _ 0
  have succeeds : launch.outcome = .ok 0 :=
    ok.mpr ⟨by decide, by decide, by decide +kernel, congrArg Batch.error batch⟩
  have display : (cycles true 1 500 Machine.rowProgram).machine.display = m'.display := by
    rw [batch]
    exact display_countTimers m' _
  obtain ⟨before, lines⟩ := printed succeeds
  refine ⟨launch, before, launched, succeeds, lines, ?_⟩
  rw [display]
  simpa [Vector.getD] using lit

/-- A launch for more cycles than a double can count fails before its first cycle, which faults,
is run. -/
theorem headless_launch_uncounted :
    ∃ launch : Launch,
      ofArguments ["rom", "--headless", toString ((2 : Int) ^ 1024)]
        { entries := [({ path := ["rom"] }, .file [0xFF, 0xFF])] }
        (.real (TimeScale.zero : Double)) [] 0 = .ok launch ∧
      (cycles true (2 ^ 1024) 500 [0xFF, 0xFF]).error.isSome ∧
      launch.outcome = .error (.outOfRange (.float (2 ^ 1024))) := by
  have written : Text.isWritable (2 ^ 1024) = true := by decide +kernel
  have parsed : Options.parse ["rom", "--headless", toString ((2 : Int) ^ 1024)] =
      .ok { rom := "rom", headless := some (some (2 ^ 1024)) } :=
    Options.parse_file_headless (by decide +kernel) written
  have uncounted : (TimeScale.ofInt? (2 ^ 1024) : Option Double) = none := by decide +kernel
  have many : (2 ^ 1024 : Int) = ((2 ^ 1024 - 1 : Nat) + 1 : Nat) := by decide +kernel
  have faults : (machine true [0xFF, 0xFF]).fault? = some .unknownOpcode := by decide +kernel
  generalize (2 : Int) ^ 1024 = count at parsed written uncounted many ⊢
  refine ⟨_, by rw [ofArguments, parsed]; rfl, ?_, ?_⟩
  · generalize (2 ^ 1024 - 1 : Nat) = k at many
    subst many
    rw [cycles, Int.toNat_natCast,
      Machine.runTimed_of_error (Machine.step_of_fault faults)]
    rfl
  · have contents : Rom.read { entries := [({ path := ["rom"] }, .file [0xFF, 0xFF])] } "rom" =
        .ok [0xFF, 0xFF] :=
      read_of_fits (by cbv) (by cbv) (by decide)
    have sleeps : ({} : Config Double).tickSleep.isNegative = false := by decide +kernel
    have asks : Asks { rom := "rom", headless := some (some count) } count 500 .info :=
      ⟨rfl, rfl, rfl⟩
    dsimp only
    rw [contents, run_of_uncounted sleeps asks (Quantity.measurableFrom_real _ _) (by decide)
      (by decide) written uncounted]

end Launch

end Chip8
