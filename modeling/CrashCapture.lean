import CrashCapture.Backend
import CrashCapture.Chain
import CrashCapture.Client
import CrashCapture.Client.Command
import CrashCapture.CommandLine
import CrashCapture.CommandLine.Help
import CrashCapture.Database
import CrashCapture.Database.Layout
import CrashCapture.Decimal.Shortest
import CrashCapture.Dsn
import CrashCapture.Emergency.Allocator
import CrashCapture.Emergency.Footprint
import CrashCapture.Emergency.Pool
import CrashCapture.Emergency.SystemHeap
import CrashCapture.Environment
import CrashCapture.Error
import CrashCapture.Event
import CrashCapture.External
import CrashCapture.Fault.Contention
import CrashCapture.Fault.Lock
import CrashCapture.Fault.Marks
import CrashCapture.FaultContext
import CrashCapture.FileTree.Basic
import CrashCapture.FileTree.Operations
import CrashCapture.FileTree.Walk
import CrashCapture.Handler.Image
import CrashCapture.Handler.Launch
import CrashCapture.Handler.Program
import CrashCapture.Handler.Script
import CrashCapture.Handler.Supervision
import CrashCapture.Handler.Supervisor
import CrashCapture.Host
import CrashCapture.Host.Call
import CrashCapture.Host.Directory
import CrashCapture.Host.Recording
import CrashCapture.InProcess
import CrashCapture.IoError
import CrashCapture.Json.Access
import CrashCapture.Json.Basic
import CrashCapture.Json.Lexical
import CrashCapture.Json.Parser
import CrashCapture.Json.Printer
import CrashCapture.Machine
import CrashCapture.Memory
import CrashCapture.Options
import CrashCapture.Path
import CrashCapture.Proofs.Backend.Ownership
import CrashCapture.Proofs.Chain.Attaching
import CrashCapture.Proofs.Chain.Honoured
import CrashCapture.Proofs.Chain.Once
import CrashCapture.Proofs.Chain.Remembered
import CrashCapture.Proofs.Chain.Repair
import CrashCapture.Proofs.Chain.Stacks
import CrashCapture.Proofs.Chain.Transparency
import CrashCapture.Proofs.Chain.Unmapping
import CrashCapture.Proofs.CommandLine.Items
import CrashCapture.Proofs.CommandLine.Spelling
import CrashCapture.Proofs.Database.Interruption
import CrashCapture.Proofs.Database.Recovery
import CrashCapture.Proofs.Database.Reopening
import CrashCapture.Proofs.Database.Sharing
import CrashCapture.Proofs.Database.Uploads
import CrashCapture.Proofs.Dsn.Grammar
import CrashCapture.Proofs.Dsn.MinidumpUrl
import CrashCapture.Proofs.Dsn.RoundTrip
import CrashCapture.Proofs.Emergency.Blocks
import CrashCapture.Proofs.Emergency.Contents
import CrashCapture.Proofs.Emergency.Routing
import CrashCapture.Proofs.External.Hooks
import CrashCapture.Proofs.External.Launching
import CrashCapture.Proofs.External.Lifetime
import CrashCapture.Proofs.External.Shutdown
import CrashCapture.Proofs.Fault.Interleaving
import CrashCapture.Proofs.Handler.CommandLine
import CrashCapture.Proofs.Handler.Resolution
import CrashCapture.Proofs.Handler.Restarts
import CrashCapture.Proofs.Host.Delivery
import CrashCapture.Proofs.Host.Places
import CrashCapture.Proofs.Host.Scope
import CrashCapture.Proofs.InProcess.Exception
import CrashCapture.Proofs.InProcess.Reporting
import CrashCapture.Proofs.RunFiles.Breadcrumbs
import CrashCapture.Proofs.RunFiles.Creation
import CrashCapture.Proofs.RunFiles.Decoding
import CrashCapture.Proofs.RunFiles.Flushing
import CrashCapture.Proofs.RunFiles.Overflow
import CrashCapture.Proofs.Unwind
import CrashCapture.Proofs.Watchdog.Arguments
import CrashCapture.Proofs.Watchdog.Report
import CrashCapture.RunFiles
import CrashCapture.Settings
import CrashCapture.Signal.Delivery
import CrashCapture.Signal.Descriptor
import CrashCapture.Signal.Disposition
import CrashCapture.Text.Bytes
import CrashCapture.Text.Split
import CrashCapture.Text.Unsigned
import CrashCapture.Trace.Calls
import CrashCapture.Trace.Files
import CrashCapture.Trace.Redaction
import CrashCapture.Trace.Signals
import CrashCapture.Trace.Values
import CrashCapture.Unwind
import CrashCapture.Uuid
import CrashCapture.Watchdog
import CrashCapture.Watchdog.Command
import CrashCapture.Watchdog.Report
import CrashCapture.Word
