import Chip8.Listing
import Chip8.Player.Options
import Chip8.Player.Window
import Chip8.Runner

/-!
# The player

The command line of the library: lists a program, or plays it in a terminal. A
terminal has no keys that go up and down, so a program that waits for a key is given
the first character of the next line typed.
-/

namespace Chip8.Player
set_option autoImplicit false

/-- What a command line without options is answered. -/
def refusalText : Refusal → String
  | .missingRom => "error: no ROM given"
  | .unknownArgument => "error: unknown argument"
  | .invalidValue => "error: invalid or missing value for an option"
  | .badNumber => "error: the value of an option is not a number in its range"
  | .repeated => "error: an option was given twice"
  | .unwantedValue => "error: a value for an option that takes none"
  | .helpAsked =>
    "Plays a CHIP-8 ROM\n\nUsage: [OPTIONS] <ROM>\n\n  --speed <half|full|double>\n" ++
    "  --scale <N>\n  --seed <N>\n  --disassemble\n  --mute\n  -h, --help\n  -V, --version"
  | .versionAsked => "0.1.0"

/-- Whether a refusal is what the player asked for. -/
def isWanted : Refusal → Bool
  | .helpAsked | .versionAsked => true
  | _ => false

/-- A frame as lines of text, two characters to a point. -/
def frameText (frame : Frame) : String :=
  "\n".intercalate <| (List.range screenHeight).map fun y =>
    String.join ((frame.row y).map fun on => if on then "██" else "  ")

/-- The time in nanoseconds. -/
def now : IO Int := return Int.ofNat (← IO.monoNanosNow)

/-- A seed that nobody can foresee. -/
def freshSeed : IO UInt64 := do
  let bytes ← IO.getRandomBytes 8
  return bytes.foldl (fun n byte => n * 256 + byte.toUInt64) 0

/-- Asks for a line and presses the key that its first character stands for. -/
def typeKey (runner : Runner) : IO Runner := do
  let line ← (← IO.getStdin).getLine
  match line.toList with
  | [] => return runner.stop
  | mark :: _ =>
    match Window.keypadKey? mark.toUpper with
    | none => return runner
    | some key => return ((runner.call (.press key)).1.call (.release key)).1

/-- Shows the frames of a machine until its worker is gone. -/
partial def play (options : Options) (runner : Runner) : IO Runner := do
  if runner.isFinished then return runner
  let started ← now
  let runner := runner.pass started
  let (runner, copy) := runner.withMachine fun machine => (machine.takeFrame.2, machine.takeFrame.1)
  if let some frame := copy then IO.println ("\x1b[H\x1b[2J" ++ frameText frame)
  if runner.machine.soundOn && !options.mute then IO.print "\x07"
  let runner ← if runner.machine.mode = .awaitingKey then typeKey runner else pure runner
  let spent := (← now) - started
  let left := Int.ofNat options.speed.cycleTime - spent
  if 0 < left then IO.sleep (left / 1000000).toNat.toUInt32
  play options runner

/-- Lists or plays a program. -/
def run (options : Options) : IO UInt32 := do
  let program := (← IO.FS.readBinFile options.rom).toList
  let seed ← match options.seed with
    | some seed => pure seed
    | none => freshSeed
  let outcome ←
    if options.disassemble then
      match Listing.ofProgram program with
      | .ok lines => lines.forM fun line => IO.println line.text; pure (.ok ())
      | .error fault => pure (.error fault)
    else
      match (Machine.new seed).load program with
      | .ok machine => pure ((← play options (.spawn machine)).join (← now))
      | .error fault => pure (.error fault)
  match outcome with
  | .ok () => return 0
  | .error fault =>
    IO.eprintln ("Error: " ++ fault.message)
    return 1

end Chip8.Player

/-- The player's command line. -/
def main (arguments : List String) : IO UInt32 := do
  match Chip8.Options.parse arguments with
  | .ok options => Chip8.Player.run options
  | .error refusal =>
    if Chip8.Player.isWanted refusal then
      IO.println (Chip8.Player.refusalText refusal)
      return 0
    else
      IO.eprintln (Chip8.Player.refusalText refusal)
      return 2
