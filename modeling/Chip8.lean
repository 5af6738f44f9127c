import Chip8.RegisterFile
import Chip8.CallStack
import Chip8.Memory
import Chip8.Keypad
import Chip8.Clock
import Chip8.Random
import Chip8.Screen.Frame
import Chip8.Screen.Recording
import Chip8.Instruction.Opcode
import Chip8.Instruction.Description
import Chip8.Listing
import Chip8.Machine.Control
import Chip8.Machine.Journal
import Chip8.Checked
import Chip8.Machine.Checked
import Chip8.Runner
import Chip8.Player.Window
import Chip8.Player.Options
import Chip8.Main
import Chip8.Instruction.Encoding
import Chip8.Screen.Coverage
import Chip8.Keypad.History
import Chip8.Runner.Schedule
import Chip8.Machine.Operation
import Chip8.Memory.History
import Chip8.Storage
import Chip8.Machine.Storage
import Chip8.Proofs.Encoding
import Chip8.Proofs.Outcome
import Chip8.Proofs.Footprint
import Chip8.Proofs.Refusal
import Chip8.Proofs.Progress
import Chip8.Proofs.Step
import Chip8.Proofs.Soundness
import Chip8.Proofs.Calls
import Chip8.Proofs.Halting
import Chip8.Proofs.Faults
import Chip8.Proofs.KeyHistory
import Chip8.Proofs.KeyWait
import Chip8.Proofs.Join
import Chip8.Proofs.Reading
import Chip8.Proofs.Lossless
import Chip8.Proofs.Transfer
import Chip8.Proofs.Failure
import Chip8.Proofs.Outside
import Chip8.Proofs.Noninterference
import Chip8.Proofs.Bounds
import Chip8.Proofs.Setting
import Chip8.Proofs.Pausing
import Chip8.Proofs.Slicing
import Chip8.Proofs.Timing
import Chip8.Proofs.Nesting
import Chip8.Proofs.Randomness
import Chip8.Proofs.Driving
import Chip8.Proofs.Stepping
import Chip8.Proofs.Listing
import Chip8.Proofs.Loading
import Chip8.Proofs.Painting
import Chip8.Proofs.ScreenUse
import Chip8.Proofs.Conservation
import Chip8.Proofs.Rendering
import Chip8.Proofs.Transitions
import Chip8.Proofs.Course
import Chip8.Proofs.Arithmetic
import Chip8.Proofs.Confinement
import Chip8.Proofs.Exchange
import Chip8.Proofs.Redrawing
import Chip8.Proofs.ReadingBack
import Chip8.Proofs.Changes
import Chip8.Proofs.Widths
import Chip8.Proofs.Storing
import Chip8.Proofs.Storage
