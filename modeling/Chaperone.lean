import Chaperone.Child.Basic
import Chaperone.Child.Exit
import Chaperone.Child.Input
import Chaperone.Child.Output
import Chaperone.CommandLine.Execute
import Chaperone.CommandLine.Invocation
import Chaperone.CommandLine.Usage
import Chaperone.Document.Datum
import Chaperone.Document.Decode
import Chaperone.Failure.Error
import Chaperone.Failure.System
import Chaperone.Host
import Chaperone.Json.Printer
import Chaperone.Json.Reader
import Chaperone.Launch.Path
import Chaperone.Launch.Resolve
import Chaperone.Launch.Start
import Chaperone.Loop
import Chaperone.Machine.Boot
import Chaperone.Machine.Bytes
import Chaperone.Machine.Files
import Chaperone.Machine.Kernel
import Chaperone.Machine.Loader
import Chaperone.Machine.Pipe
import Chaperone.Machine.Printf
import Chaperone.Machine.Routine
import Chaperone.Machine.Shell
import Chaperone.Machine.Shell.Arithmetic
import Chaperone.Machine.Shell.Builtin
import Chaperone.Machine.Shell.Builtin.Basic
import Chaperone.Machine.Shell.Builtin.Options
import Chaperone.Machine.Shell.Builtin.Signals
import Chaperone.Machine.Shell.Builtin.Variables
import Chaperone.Machine.Shell.Children
import Chaperone.Machine.Shell.Command
import Chaperone.Machine.Shell.Expansion
import Chaperone.Machine.Shell.Pattern
import Chaperone.Machine.Shell.Reader
import Chaperone.Machine.Shell.Redirect
import Chaperone.Machine.Shell.Run
import Chaperone.Machine.Shell.Search
import Chaperone.Machine.Shell.Signals
import Chaperone.Machine.Shell.Source
import Chaperone.Machine.Shell.State
import Chaperone.Machine.Shell.Test
import Chaperone.Machine.Task
import Chaperone.Machine.Tool
import Chaperone.Machine.Tool.Basic
import Chaperone.Machine.Tool.Files
import Chaperone.Machine.Tool.Script
import Chaperone.Machine.Tool.Small
import Chaperone.Machine.Tool.Text
import Chaperone.Machine.World
import Chaperone.Main
import Chaperone.Number.Binary64
import Chaperone.Process.Environment
import Chaperone.Process.Event
import Chaperone.Process.Options
import Chaperone.Process.Program
import Chaperone.Process.Result
import Chaperone.Process.Schema
import Chaperone.Process.Status
import Chaperone.Proofs.Agreement
import Chaperone.Proofs.Blocking
import Chaperone.Proofs.Child.Dealings
import Chaperone.Proofs.Child.Exit
import Chaperone.Proofs.Child.Flush
import Chaperone.Proofs.Child.Hom
import Chaperone.Proofs.Child.InStep
import Chaperone.Proofs.Child.Input
import Chaperone.Proofs.Child.Output
import Chaperone.Proofs.Child.Queue
import Chaperone.Proofs.Child.Reading
import Chaperone.Proofs.Child.Refusal
import Chaperone.Proofs.Child.Rest
import Chaperone.Proofs.Child.Signals
import Chaperone.Proofs.Child.Sound
import Chaperone.Proofs.Child.Start
import Chaperone.Proofs.Child.Status
import Chaperone.Proofs.Child.Termination
import Chaperone.Proofs.Document.Defaults
import Chaperone.Proofs.Document.Records
import Chaperone.Proofs.ExitCode
import Chaperone.Proofs.Invariant
import Chaperone.Proofs.Json.RoundTrip
import Chaperone.Proofs.Launch.Failure
import Chaperone.Proofs.Launch.Search
import Chaperone.Proofs.Launch.Target
import Chaperone.Proofs.Log
import Chaperone.Proofs.Process.Configuration
import Chaperone.Proofs.Process.Event
import Chaperone.Proofs.Run
import Chaperone.Proofs.Supervise.Abandoned
import Chaperone.Proofs.Supervise.Account
import Chaperone.Proofs.Supervise.Attribution
import Chaperone.Proofs.Supervise.Chronicle
import Chaperone.Proofs.Supervise.Framing
import Chaperone.Proofs.Supervise.Ledger
import Chaperone.Proofs.Supervise.Outcomes
import Chaperone.Proofs.Supervise.Printed
import Chaperone.Proofs.Supervise.Punctual
import Chaperone.Proofs.Supervise.Rejection
import Chaperone.Proofs.Supervise.Sinks
import Chaperone.Proofs.Supervise.Telling
import Chaperone.Proofs.Supervise.Validity
import Chaperone.Proofs.Supervise.Variables
import Chaperone.Proofs.Supervisor.Apart
import Chaperone.Proofs.Supervisor.Delivery
import Chaperone.Proofs.Supervisor.Hom
import Chaperone.Proofs.Supervisor.InStep
import Chaperone.Proofs.Supervisor.Independence
import Chaperone.Proofs.Supervisor.Intake
import Chaperone.Proofs.Supervisor.Life
import Chaperone.Proofs.Supervisor.Likeness
import Chaperone.Proofs.Supervisor.Listener
import Chaperone.Proofs.Supervisor.Lives
import Chaperone.Proofs.Supervisor.Look
import Chaperone.Proofs.Supervisor.Members
import Chaperone.Proofs.Supervisor.Recording
import Chaperone.Proofs.Supervisor.Registry
import Chaperone.Proofs.Supervisor.Session
import Chaperone.Proofs.Supervisor.Signals
import Chaperone.Proofs.Supervisor.Stillness
import Chaperone.Proofs.Supervisor.Timing
import Chaperone.Proofs.Supervisor.Verdict
import Chaperone.Proofs.Supervisor.Waiting
import Chaperone.Proofs.Supervisor.Watch
import Chaperone.Proofs.Text.Chunks
import Chaperone.Proofs.Text.Encoding
import Chaperone.Proofs.Text.Held
import Chaperone.Proofs.Text.Lines
import Chaperone.Proofs.Text.Lossy
import Chaperone.Proofs.Undelivered
import Chaperone.Run
import Chaperone.Supervise.Basic
import Chaperone.Supervise.Load
import Chaperone.Supervise.Plan
import Chaperone.Supervise.Report
import Chaperone.Supervisor.Basic
import Chaperone.Supervisor.Callbacks
import Chaperone.Supervisor.Entry
import Chaperone.Supervisor.Script
import Chaperone.Text.Blank
import Chaperone.Text.Lines
import Chaperone.Text.Quoted
import Chaperone.Text.Timestamp
import Chaperone.Text.Unprintable
import Chaperone.Text.Utf8
import Chaperone.Toml.Reader
import Chaperone.Toml.Scalar
import Chaperone.Toml.Table
import Chaperone.Toml.Text
