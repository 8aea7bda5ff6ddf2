import Overseer.Bytes.Hex
import Overseer.Bytes.Sha256
import Overseer.Cadence
import Overseer.Channel.Basic
import Overseer.Channel.Socket
import Overseer.Config.Basic
import Overseer.Config.Decode
import Overseer.Config.Load
import Overseer.Config.Watch
import Overseer.Connection
import Overseer.DataDir
import Overseer.Decimal.Nearest
import Overseer.Decimal.Shortest
import Overseer.Device.Reading
import Overseer.Device.Status
import Overseer.Display
import Overseer.Effects
import Overseer.Files.Operation
import Overseer.Files.Tree
import Overseer.Installer
import Overseer.Instance
import Overseer.Json.Access
import Overseer.Json.Number
import Overseer.Json.Reader
import Overseer.Json.Record
import Overseer.Json.Token
import Overseer.Json.Value
import Overseer.Json.Writer
import Overseer.Locks
import Overseer.Main
import Overseer.Path
import Overseer.Platform
import Overseer.Poller
import Overseer.Processes.Controller
import Overseer.Processes.Listing
import Overseer.Processes.Signals
import Overseer.Program
import Overseer.Proofs.Connecting
import Overseer.Proofs.Conversations
import Overseer.Proofs.Throughout
import Overseer.Scenario.Document.Files
import Overseer.Scenario.Document.Reports
import Overseer.Scenario.Document.Script
import Overseer.Scenario.Holders
import Overseer.Scenario.Machine
import Overseer.Scenario.Monitors
import Overseer.Scenario.Observers
import Overseer.Scenario.Roster
import Overseer.Scenario.Service
import Overseer.Scenario.SocketServer
import Overseer.Scenario.Timeline
import Overseer.Scenario.World
import Overseer.Setup
import Overseer.Status.Board
import Overseer.Status.Snapshot
import Overseer.Status.Summary
import Overseer.Status.Writer
import Overseer.Supervisor
import Overseer.Text.Blank
import Overseer.Text.Hex
import Overseer.Text.Occurrence
import Overseer.Text.Printable
import Overseer.Text.Quoted
import Overseer.Text.Split
import Overseer.Text.Symbol
import Overseer.Ticker
import Overseer.Timestamp
import Overseer.Toml.Document
import Overseer.Toml.Field
import Overseer.Toml.Reader
import Overseer.Toml.Scalar
import Overseer.Toml.Value
import Overseer.Wire.Frame
import Overseer.Wire.Message
import Overseer.Wire.Report
import Overseer.Worker.Report
import Overseer.Worker.SuspendReason
import Overseer.Proofs.Stopping.Conversation
import Overseer.Proofs.Stopping.Order
import Overseer.Proofs.Polling.Locking
import Overseer.Proofs.Polling.Setup
import Overseer.Proofs.Polling.FullRead
import Overseer.Proofs.Polling.Reachable
import Overseer.Proofs.Polling.Derivation
import Overseer.Proofs.Line.Calls
import Overseer.Proofs.Line.Carried
import Overseer.Proofs.Line.Discipline
import Overseer.Proofs.Line.Standing
import Overseer.Proofs.Line.Upkeep
import Overseer.Proofs.Line.Runs
import Overseer.Proofs.Preparing.Phases
import Overseer.Proofs.Preparing.Order
import Overseer.Proofs.Line.Liveness
import Overseer.Proofs.Line.Recovery
import Overseer.Proofs.Line.Availability
import Overseer.Proofs.Notices.Log
import Overseer.Proofs.Notices.Gathering
import Overseer.Proofs.Notices.Delivery
import Overseer.Proofs.Cadence.Beats
import Overseer.Proofs.Cadence.Sampling
import Overseer.Proofs.Reloading.Applying
import Overseer.Proofs.Reloading.Sections
import Overseer.Proofs.Reloading.Watching
import Overseer.Proofs.Reloading.Agreement
import Overseer.Proofs.Polling.Settings
import Overseer.Proofs.Files.Holdings
import Overseer.Proofs.Files.Places
import Overseer.Proofs.Files.PlainNames
import Overseer.Proofs.Files.Resolving
import Overseer.Proofs.Files.Changing
import Overseer.Proofs.Files.Faulty
import Overseer.Proofs.Installing.Entries
import Overseer.Proofs.Installing.Runs
import Overseer.Proofs.Installing.Atomic
import Overseer.Proofs.Installing.Repeating
import Overseer.Proofs.Installing.Runnable
import Overseer.Proofs.Files.Writing
import Overseer.Proofs.Files.Opening
import Overseer.Proofs.Reporting.Interleaving
import Overseer.Proofs.Reporting.Freshness
import Overseer.Proofs.Shutdown.Releasing
import Overseer.Proofs.Shutdown.Handling
import Overseer.Proofs.Shutdown.Ending
import Overseer.Proofs.Starting.Attempts
import Overseer.Proofs.Starting.Contest
import Overseer.Proofs.Starting.Single
import Overseer.Proofs.Json.Numbers
import Overseer.Proofs.Json.NumberTexts
import Overseer.Proofs.Json.Texts
import Overseer.Proofs.Json.Grammar
import Overseer.Proofs.Json.Exactness
import Overseer.Proofs.Json.Rendering
import Overseer.Proofs.Json.Records
import Overseer.Proofs.Json.Editing
import Overseer.Proofs.Json.EditedRecords
import Overseer.Proofs.Wire.Reports
import Overseer.Proofs.Wire.Messages
import Overseer.Proofs.Wire.Evolving
import Overseer.Proofs.Stopping.Targets
import Overseer.Proofs.Cadence.ScreenOff
import Overseer.Proofs.Notices.Order
import Overseer.Proofs.Display.Readings
import Overseer.Proofs.Display.Reports
import Overseer.Proofs.Display.Agreement
import Overseer.Proofs.Wire.Frames
import Overseer.Proofs.Line.FarEnd
import Overseer.Proofs.Line.Replies
import Overseer.Proofs.Alternation
import Overseer.Proofs.Listing
import Overseer.Proofs.Lookup
import Overseer.Proofs.Toml.Once
import Overseer.Proofs.Toml.Kinds
import Overseer.Proofs.Loading.Fields
import Overseer.Proofs.Loading.Overriding
import Overseer.Proofs.Device.Supplies
import Overseer.Proofs.Schedule
import Overseer.Proofs.Preparing.Posts
import Overseer.Proofs.Reporting.Observing
import Overseer.Proofs.Reporting.SetupHistory
import Overseer.Proofs.Reporting.Sessions
import Overseer.Proofs.Toml.Written
import Overseer.Proofs.Reporting.StatusFile
import Overseer.Proofs.Reporting.LastSample
import Overseer.Proofs.Reporting.ComputingFlag
