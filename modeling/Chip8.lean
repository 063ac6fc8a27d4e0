import Chip8.Console.Command
import Chip8.Machine.Command
import Chip8.Main
import Chip8.Proofs.Console.Delivery
import Chip8.Proofs.Display.Parity
import Chip8.Proofs.Machine.Calls
import Chip8.Proofs.Machine.KeyWait
import Chip8.Proofs.Console.PlainLoop
import Chip8.Proofs.Console.Stopped
import Chip8.Proofs.Console.CodeAddress
import Chip8.Proofs.Machine.TickSchedule
import Chip8.Proofs.Machine.MemoryWrites
import Chip8.Proofs.Console.Repaint
import Chip8.Proofs.Machine.RandomDraws
import Chip8.Proofs.Instruction.TableOrder
import Chip8.Proofs.Machine.TimerValue
import Chip8.Proofs.Console.TimerValue
import Chip8.Proofs.Console.Divergence
import Chip8.Proofs.Machine.TransferMode
import Chip8.Proofs.Console.Policies
import Chip8.Proofs.Bounds.Checked
import Chip8.Proofs.Bounds.Loops
import Chip8.Proofs.Bounds.Effect
import Chip8.Proofs.Bounds.Safety
import Chip8.Proofs.Console.Loading
import Chip8.Proofs.Display.Collision
import Chip8.Proofs.Machine.Drawing
import Chip8.Proofs.Log.Wording
import Chip8.Proofs.Machine.Logging
import Chip8.Proofs.Console.Logging
import Chip8.Proofs.Machine.Arithmetic
import Chip8.Proofs.Machine.ProgramCounter
import Chip8.Proofs.Machine.Footprint
import Chip8.Proofs.Console.StepOutcome
import Chip8.Proofs.Machine.Alteration
import Chip8.Proofs.Machine.KeyOrder
import Chip8.Proofs.Machine.BlockTransfer
import Chip8.Proofs.Machine.Digits
import Chip8.Proofs.Display.LitPixels
import Chip8.Proofs.Machine.DataAddress
import Chip8.Proofs.Bounds.Folding
import Chip8.Proofs.Memory.Ring
