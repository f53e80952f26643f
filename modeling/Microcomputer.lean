import Microcomputer.Main
import Microcomputer.Proofs.Context
import Microcomputer.Proofs.Execution
import Microcomputer.Proofs.Dispatch
import Microcomputer.Proofs.Fault
import Microcomputer.Proofs.Handler
import Microcomputer.Proofs.Ledger
import Microcomputer.Proofs.Confinement
import Microcomputer.Proofs.Loading
import Microcomputer.Proofs.KeyCell
import Microcomputer.Proofs.Opcodes
import Microcomputer.Proofs.Reports
import Microcomputer.Proofs.Arithmetic
import Microcomputer.Proofs.Rows
import Microcomputer.Proofs.Lifecycle
import Microcomputer.Proofs.Masking
import Microcomputer.Proofs.Subroutine
import Microcomputer.Proofs.StackBounds
import Microcomputer.Proofs.Runs
import Microcomputer.Proofs.Comparison
import Microcomputer.Proofs.Streams
import Microcomputer.Proofs.Limits
import Microcomputer.Proofs.KeySchedule
import Microcomputer.Proofs.Columns
import Microcomputer.Proofs.AssemblyText
import Microcomputer.Proofs.ListingText
import Microcomputer.Proofs.Tracing
import Microcomputer.Proofs.Breakpoints
import Microcomputer.Proofs.Replay
import Microcomputer.Proofs.JsonText
import Microcomputer.Proofs.SnapshotText
import Microcomputer.Proofs.Footprint
import Microcomputer.Proofs.Restoring
import Microcomputer.Proofs.DeviceLines
import Microcomputer.Proofs.ConsoleRun
import Microcomputer.Proofs.FailedReturn
import Microcomputer.Proofs.TakenContext
import Microcomputer.Proofs.Tiling
import Microcomputer.Proofs.TimerPhase
import Microcomputer.Proofs.ProgramText
import Microcomputer.Proofs.ListStack
import Microcomputer.Proofs.LoadReport
import Microcomputer.Proofs.Window
import Microcomputer.Proofs.Picture
import Microcomputer.Proofs.MemoryPanel
