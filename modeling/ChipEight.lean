import ChipEight.Main
import ChipEight.Proofs.Outcome.Sequence
import ChipEight.Proofs.Instruction.Patterns
import ChipEight.Proofs.Text.Numeral
import ChipEight.Proofs.Memory.Stretch
import ChipEight.Proofs.Screen.Drawing
import ChipEight.Proofs.Machine.Execution
import ChipEight.Proofs.Machine.Frame
import ChipEight.Proofs.Machine.Footprint
import ChipEight.Proofs.Machine.Locality
import ChipEight.Proofs.Machine.Faults
import ChipEight.Proofs.Machine.Requests
import ChipEight.Proofs.Machine.CallSites
import ChipEight.Proofs.Machine.FaultedTick
import ChipEight.Proofs.Machine.Runs
import ChipEight.Proofs.Machine.Ticks
import ChipEight.Proofs.Machine.Timers
import ChipEight.Proofs.Machine.Resets
import ChipEight.Proofs.Machine.KeyReports
import ChipEight.Proofs.Machine.RandomBytes
import ChipEight.Proofs.Machine.Tones
import ChipEight.Proofs.Machine.Accounts
import ChipEight.Proofs.Host.Rounds
import ChipEight.Proofs.Host.EventLoop
import ChipEight.Proofs.Host.Runners
import ChipEight.Proofs.Host.Showing
import ChipEight.Proofs.CommandLine.Arguments
import ChipEight.Proofs.CommandLine.Headless
import ChipEight.Proofs.Screen.DrawingOrder
import ChipEight.Proofs.Host.Sounding
import ChipEight.Proofs.Machine.DrawnPixels
import ChipEight.Proofs.Machine.RepeatedFaults
import ChipEight.Proofs.Machine.SavedRegisters
import ChipEight.Proofs.Machine.StraightLines
import ChipEight.Proofs.Memory.LastWrite
import ChipEight.Proofs.Machine.Flags
import ChipEight.Proofs.Machine.KeyWaits
import ChipEight.Proofs.Screen.Presenting
import ChipEight.Proofs.Machine.ShownScreens
import ChipEight.Proofs.Host.HeldKeys
import ChipEight.Proofs.Host.TonesInTurn
import ChipEight.Proofs.Machine.ReportedState
import ChipEight.Proofs.Machine.DecimalDigits
import ChipEight.Proofs.Machine.OpposedSkips
