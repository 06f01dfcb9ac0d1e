import Chip8.CommandLine.Launch
import Chip8.Time.Rounded

/-! # The program

Reads the program file, launches, and prints. Without a number of cycles to run, the session
is presented on the terminal, frame after frame, until it ends by itself or is interrupted.
-/

namespace Chip8.Program

def usage : String :=
  "usage: chip8 [-h] [--scale N] [--color-scheme NAME] [--cpu-frequency N] " ++
  "[--random-mask-register | --no-random-mask-register] [--log-level LEVEL] " ++
  "[--headless CYCLES] rom"

def readContents (path : String) : IO (Except Failure (List UInt8)) := do
  if path.contains '\x00' then return .error (.invalid .pathWithNul)
  try
    let bytes ← IO.FS.readBinFile path
    return Rom.ofContents path (.ok bytes.toList)
  catch
    | .noFileOrDirectory .. => return Rom.ofContents path (.error .notFound)
    | .inappropriateType .. => return Rom.ofContents path (.error .isDirectory)
    | .invalidArgument .. => return Rom.ofContents path (.error .nameTooLong)
    | _ => return Rom.ofContents path (.error .notDirectory)

def display (s : Session Double) : IO (Session Double) := do
  IO.print s.surroundings.output
  let (s, ready) := { s with surroundings := { s.surroundings with output := "" } }.consumeDraw
  if ready then IO.println ((Frame.ofDisplay s.frame).text "█" " ")
  return s

partial def present (s : Session Double) (last : Nat) : IO (Session Double) := do
  let s ← display s
  if !s.running then return s
  IO.sleep 10
  let now ← IO.monoMsNow
  let elapsed := Float.ofNat (now - last) / 1000.0
  present (s.release { time := some (.real { value := elapsed }) }) now

def printLaunch (l : Launch) : IO UInt32 := do
  IO.print l.output
  match l.outcome with
  | .ok status => return UInt32.ofNat status
  | .error e => throw (IO.userError e.report)

def launch (o : Options) : IO UInt32 := do
  let contents ← readContents o.rom
  match o.headless, Launch.session o contents (.whole 0 : Quantity Double) with
  | none, .ok s =>
    let (s, _) := s.start
    let s ← present s (← IO.monoMsNow)
    return if s.join.isOk then 0 else 1
  | _, _ => printLaunch (Launch.run o contents (.whole 0 : Quantity Double) [])

end Chip8.Program

def main (arguments : List String) : IO UInt32 := do
  match Chip8.Options.parse arguments with
  | .ok o => Chip8.Program.launch o
  | .error .help => do
    IO.println Chip8.Program.usage
    return 0
  | .error (.usage e) => do
    IO.eprintln Chip8.Program.usage
    IO.eprintln ("chip8: error: " ++ e.message)
    return 2
