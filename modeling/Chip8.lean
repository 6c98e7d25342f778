import Chip8.Instruction.Mnemonic
import Chip8.Dialect
import Chip8.Memory.Font
import Chip8.CallStack
import Chip8.Display.Sprite
import Chip8.Display.Packed
import Chip8.Timers
import Chip8.Keys
import Chip8.Shared
import Chip8.Random
import Chip8.Notice
import Chip8.Machine
import Chip8.Execution
import Chip8.Snapshot
import Chip8.Console
import Chip8.Pacing
import Chip8.Listing
import Chip8.Inspection
import Chip8.CommandLine.Help
import Chip8.Text.Utf8
import Chip8.Host.Disk.System
import Chip8.Main
import Chip8.Proofs.Snapshot.Layout
import Chip8.Proofs.Snapshot.RoundTrip
import Chip8.Proofs.Console.Restore
import Chip8.Proofs.Console.Resume
import Chip8.Proofs.Console.Command
import Chip8.Proofs.Guarded.Access
import Chip8.Proofs.Guarded.Console
import Chip8.Proofs.Execution.Addresses
import Chip8.Proofs.Console.Frame
import Chip8.Proofs.Execution.Painting
import Chip8.Proofs.Execution.Waiting
import Chip8.Proofs.Console.Waiting
import Chip8.Proofs.Console.Screen
import Chip8.Proofs.Console.Tone
import Chip8.Proofs.Execution.Independence
import Chip8.Proofs.Console.Load
import Chip8.Proofs.Console.Pause
import Chip8.Proofs.Console.Halted
import Chip8.Proofs.Pacing.Conservation
import Chip8.Proofs.Console.LoadFile
import Chip8.Proofs.Console.Programless
import Chip8.Proofs.Console.Countdown
import Chip8.Proofs.Execution.Stopping
import Chip8.Proofs.Console.Halting
import Chip8.Proofs.Guarded.Mnemonic
import Chip8.Proofs.Instruction.Unknown
import Chip8.Proofs.Host.Routing
import Chip8.Proofs.Keys.Latch
import Chip8.Proofs.Keys.Sharing
import Chip8.Proofs.Display.Drawing
import Chip8.Proofs.Execution.Drawing
import Chip8.Proofs.Execution.Arithmetic
import Chip8.Proofs.Host.Files
import Chip8.Proofs.Host.Hotkeys
import Chip8.Proofs.Execution.Continuation
import Chip8.Proofs.Execution.Transfer
import Chip8.Proofs.Execution.Succession
import Chip8.Proofs.Execution.Calls
import Chip8.Proofs.Console.Schedule
import Chip8.Proofs.Console.Blocking
import Chip8.Proofs.Display.Stamping
import Chip8.Proofs.Display.Rendering
import Chip8.Proofs.Text.Hexadecimal
import Chip8.Proofs.Listing.Reading
import Chip8.Proofs.Memory.Blocks
