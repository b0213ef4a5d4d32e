import RegisterMachine.Assembly.Printer
import RegisterMachine.Assembly.Program
import RegisterMachine.CommandLine.Compile
import RegisterMachine.CommandLine.Run
import RegisterMachine.Image.File
import RegisterMachine.Journal
import RegisterMachine.Machine.Session
import RegisterMachine.Machine.Tracer
import RegisterMachine.Main
import RegisterMachine.Record.Printer
import RegisterMachine.Record.Store
import RegisterMachine.Settings.File
import RegisterMachine.Proofs.Checks
import RegisterMachine.Proofs.Machine.Cells
import RegisterMachine.Proofs.Machine.Decision
import RegisterMachine.Proofs.Machine.Bounds
import RegisterMachine.Proofs.Machine.Heap
import RegisterMachine.Proofs.Machine.Integrity
import RegisterMachine.Proofs.Machine.Faults
import RegisterMachine.Proofs.Machine.Residue
import RegisterMachine.Proofs.Machine.Calls
import RegisterMachine.Proofs.Machine.Hooks
import RegisterMachine.Proofs.Machine.Observation
import RegisterMachine.Proofs.Machine.Width
import RegisterMachine.Proofs.Machine.Division
import RegisterMachine.Proofs.Machine.Effects
import RegisterMachine.Proofs.Machine.Atomicity
import RegisterMachine.Proofs.Machine.Allocation
import RegisterMachine.Proofs.Machine.History
import RegisterMachine.Proofs.Machine.Collision
import RegisterMachine.Proofs.Machine.Resumption
import RegisterMachine.Proofs.Machine.Immediates
import RegisterMachine.Proofs.Machine.Frame
import RegisterMachine.Proofs.Machine.Dumps
import RegisterMachine.Proofs.Text.Utf8
import RegisterMachine.Proofs.Assembly.Canonical
import RegisterMachine.Proofs.Assembly.Soundness
import RegisterMachine.Proofs.Assembly.Lexing
import RegisterMachine.Proofs.Assembly.Tiling
import RegisterMachine.Proofs.Assembly.Reading
import RegisterMachine.Proofs.Assembly.Roundtrip
import RegisterMachine.Proofs.Assembly.Resolution
import RegisterMachine.Proofs.Assembly.Containment
import RegisterMachine.Proofs.Assembly.Naming
import RegisterMachine.Proofs.Assembly.Acceptance
import RegisterMachine.Proofs.Assembly.Targets
import RegisterMachine.Proofs.Assembly.Grammar
import RegisterMachine.Proofs.Assembly.Parsing
import RegisterMachine.Proofs.Assembly.Writing
import RegisterMachine.Proofs.Assembly.Places
import RegisterMachine.Proofs.Assembly.Spacing
import RegisterMachine.Proofs.Assembly.Layout
import RegisterMachine.Proofs.Assembly.Literals
import RegisterMachine.Proofs.Cbor.Heads
import RegisterMachine.Proofs.Cbor.Items
import RegisterMachine.Proofs.Cbor.Framing
import RegisterMachine.Proofs.Cbor.Sizes
import RegisterMachine.Proofs.Image.Roundtrip
import RegisterMachine.Proofs.Image.Truncation
import RegisterMachine.Proofs.Image.Normalization
import RegisterMachine.Proofs.Files.Writing
import RegisterMachine.Proofs.Files.Paths
import RegisterMachine.Proofs.Files.Ancestors
import RegisterMachine.Proofs.Settings.Search
import RegisterMachine.Proofs.CommandLine.Recognition
import RegisterMachine.Proofs.CommandLine.Compiled
import RegisterMachine.Proofs.CommandLine.Overwriting
import RegisterMachine.Proofs.CommandLine.Loading
import RegisterMachine.Proofs.CommandLine.Precedence
import RegisterMachine.Proofs.Record.Recording
import RegisterMachine.Proofs.Record.Readback
import RegisterMachine.Proofs.Machine.StackUse
