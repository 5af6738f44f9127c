import Chip8.Instruction.Description
import Chip8.Machine.Call

/-!
# The journal

What a machine under way has to tell: each note with the machine as it stood when the
note was made. The notes are worked out beside the step and are no part of it, so
whoever does not read them pays nothing for them, while somebody who stops the
machine at a note finds it exactly there.
-/

namespace Chip8
set_option autoImplicit false

/-- How much a note matters. -/
inductive Level where
  | trace
  | debug
  | info
  | warn
deriving DecidableEq

/-- The name of a level. -/
def Level.name : Level → String
  | trace => "TRACE"
  | debug => "DEBUG"
  | info => "INFO"
  | warn => "WARN"

/-- Something worth telling. -/
inductive Note where
  | loaded (size : Nat)
  /-- The mode changed. -/
  | modeChanged (before after : Mode)
  | leftProgram (pc : Nat)
  | fetched (pc : Nat) (instruction : Instruction)
  | drew (rows across down : UInt8) (collision : Bool)
  | failing (pc : Nat) (fault : Fault)
  /-- A worker began to drive a machine. -/
  | workerStarted (hertz : Nat)
  /-- A worker found its machine halted. -/
  | workerDone
  /-- A worker gave up over a fault. -/
  | workerFailed (fault : Fault)
  /-- A worker obeyed a request to stop. -/
  | workerStopped
deriving DecidableEq

namespace Note

/-- How much a note matters. -/
def level : Note → Level
  | fetched _ _ | drew _ _ _ _ => .trace
  | loaded _ | modeChanged _ _ | leftProgram _ | workerStarted _ | workerStopped => .debug
  | workerDone => .info
  | failing _ _ | workerFailed _ => .warn

/-- The text of an address in a note. -/
def addressText (address : Nat) : String := Numeral.hexMarked 3 address

/-- The text of a note. -/
def text : Note → String
  | loaded size =>
    "loaded " ++ Numeral.decimal size ++ " byte program at " ++ addressText programStart
  | modeChanged before after => before.name ++ " -> " ++ after.name
  | leftProgram pc => "pc " ++ addressText pc ++ " left the program"
  | fetched pc instruction => addressText pc ++ " " ++ instruction.description
  | drew rows across down collision =>
    "drew " ++ Numeral.decimal rows.toNat ++ " rows at (" ++ Numeral.decimal across.toNat ++ ", " ++
      Numeral.decimal down.toNat ++ "), collision " ++ (if collision then "true" else "false")
  | failing pc fault => "halting at " ++ addressText pc ++ ": " ++ fault.message
  | workerStarted hertz => "runner started at " ++ Numeral.decimal hertz ++ " Hz"
  | workerDone => "program finished"
  | workerFailed fault => "runner stopped: " ++ fault.message
  | workerStopped => "runner stopped on request"

/-- The text of a note after the name of its level. -/
def line (note : Note) : String := note.level.name ++ " " ++ note.text

end Note

/-- A note and the machine as it stood when the note was made. -/
structure Entry where
  note : Note
  machine : Machine

namespace Machine

/-- An entry about the machine as it stands. -/
def entry (m : Machine) (note : Note) : Entry := { note, machine := m }

/-- The entry about a change of mode, made before the change; none if nothing changes. -/
def modeEntry (m : Machine) (after : Mode) : List Entry :=
  if m.mode = after then [] else [m.entry (.modeChanged m.mode after)]

/-- The entry about a sprite that an instruction drew, made before the flag is written. -/
def drawJournal (m : Machine) : Instruction → List Entry
  | .draw x y rows =>
    match m.registers.read x.toNat, m.registers.read y.toNat, m.drawSprite x y rows with
    | .ok across, .ok down, .ok (collision, drawn) =>
      [drawn.entry (.drew rows across down collision)]
    | _, _, _ => []
  | _ => []

/-- The entries about a program counter found outside the program. -/
def settleJournal (m : Machine) : List Entry :=
  match m.inProgram with
  | .ok false => m.entry (.leftProgram m.pc) :: m.modeEntry .halted
  | _ => []

/-- The entries about the end of a step. -/
def concludeJournal (m : Machine) (progress : Progress) : List Entry :=
  match m.proceed progress with
  | .ok moved => if moved.mode = .running then moved.settleJournal else m.modeEntry moved.mode
  | .error _ => []

/-- The entries about an instruction at the program counter. -/
def instructionJournal (m : Machine) : List Entry :=
  match m.fetch with
  | .error _ => []
  | .ok instruction =>
    m.entry (.fetched m.pc instruction) :: m.drawJournal instruction ++
      match m.execute instruction with
      | (after, .ok progress) => after.concludeJournal progress
      | (_, .error _) => []

/-- The entries about a running machine, its failure apart. -/
def runJournal (m : Machine) : List Entry :=
  match m.inProgram with
  | .ok true => m.instructionJournal
  | _ => m.settleJournal

/-- The entries about a machine that waits for a key, its failure apart. The change of
mode is noted once the program counter has moved on. -/
def keyJournal (m : Machine) : List Entry :=
  match m.keypad.take with
  | (none, _) => []
  | (some (register, key), keypad) =>
    match { m with keypad }.receiveKey register key with
    | .error _ => []
    | .ok received =>
      match received.proceed .next with
      | .error _ => []
      | .ok moved => (moved.withMode m.mode).modeEntry .running ++ moved.settleJournal

/-- The entries about the failure of a cycle, made before the fault is recorded and
before the machine halts. -/
def failJournal : Machine × Except Fault Cycle → List Entry
  | (m, .error fault) =>
    m.entry (.failing m.pc fault) :: { m with fault := some fault }.modeEntry .halted
  | (_, .ok _) => []

/-- The entries about a step. -/
def stepJournal (m : Machine) : List Entry :=
  match m.mode with
  | .running => m.runJournal ++ failJournal m.runCycle
  | .awaitingKey => m.keyJournal ++ failJournal m.keyCycle
  | _ => []

/-- The entries about a call. The two changes of mode around the step of a paused
machine are not worth telling. -/
def journal (m : Machine) : Call → List Entry
  | .load program =>
    match m.load program with
    | .ok loaded =>
      let ready := loaded.withMode m.mode
      ready.entry (.loaded program.length) :: ready.modeEntry .running
    | .error _ => []
  | .step => m.stepJournal
  | .singleStep =>
    if m.mode = .paused then (m.withMode m.resumeTo).stepJournal else m.stepJournal
  | .tick now => (m.syncTimers now).stepJournal
  | .pause => m.modeEntry m.pause.mode
  | .resume => m.modeEntry m.resume.mode
  | _ => []

end Machine

end Chip8
