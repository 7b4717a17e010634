import TwinLink.Backoff
import TwinLink.ChannelKind
import TwinLink.Command
import TwinLink.Config
import TwinLink.Console
import TwinLink.Decimal.Double
import TwinLink.Decimal.Reading
import TwinLink.Decimal.Shortest
import TwinLink.Duration
import TwinLink.Event
import TwinLink.Json.Fault
import TwinLink.Json.Number
import TwinLink.Json.Pointer
import TwinLink.Json.Printer
import TwinLink.Json.Quoted
import TwinLink.Json.Reader
import TwinLink.Json.Scan
import TwinLink.Json.Skip
import TwinLink.Json.Typed
import TwinLink.Json.Value
import TwinLink.LinkError
import TwinLink.Log
import TwinLink.Machine
import TwinLink.Main
import TwinLink.Manager.Basic
import TwinLink.Manager.Channels
import TwinLink.Manager.Hub
import TwinLink.Registry.Basic
import TwinLink.Registry.Stage
import TwinLink.Rehearsal.Channel
import TwinLink.Rehearsal.Listeners
import TwinLink.Rehearsal.Manager
import TwinLink.Rehearsal.Network
import TwinLink.Rehearsal.Play
import TwinLink.Report
import TwinLink.Roster
import TwinLink.Schedule
import TwinLink.Session.Basic
import TwinLink.Session.Transcript
import TwinLink.Snapshot
import TwinLink.Socket.Basic
import TwinLink.Socket.Link
import TwinLink.Socket.Step
import TwinLink.Stats
import TwinLink.Text.Blank
import TwinLink.Text.Printable
import TwinLink.Text.Quoted
import TwinLink.Text.Split
import TwinLink.Text.Utf8
import TwinLink.Url.Address
import TwinLink.Url.Basic
import TwinLink.Url.Fault
import TwinLink.Url.Form
import TwinLink.Url.Host
import TwinLink.Url.Label
import TwinLink.Url.Percent
import TwinLink.Url.Reader
import TwinLink.WebSocket
import TwinLink.World
import TwinLink.Proofs.Socket.Shift
import TwinLink.Proofs.Socket.Supervision
import TwinLink.Proofs.Socket.Queue
import TwinLink.Proofs.Socket.Custody
import TwinLink.Proofs.World.Moments
import TwinLink.Proofs.Socket.Governance
import TwinLink.Proofs.World.Governance
import TwinLink.Proofs.Manager.Perform
import TwinLink.Proofs.Manager.Run
import TwinLink.Proofs.Manager.Commands
import TwinLink.Proofs.Manager.Audience
import TwinLink.Proofs.Manager.Attendance
import TwinLink.Proofs.Manager.Snapshots
import TwinLink.Proofs.Socket.Retirement
import TwinLink.Proofs.Manager.Connectivity
import TwinLink.Proofs.Manager.Disconnect
import TwinLink.Proofs.Socket.Status
import TwinLink.Proofs.World.Reports
import TwinLink.Proofs.World.Acceptance
import TwinLink.Proofs.Manager.Transitions
import TwinLink.Proofs.Manager.Order
import TwinLink.Proofs.Machine.Sessions
import TwinLink.Proofs.Machine.Delays
import TwinLink.Proofs.Manager.Retention
import TwinLink.Proofs.Backoff.Doubling
import TwinLink.Proofs.Socket.Attempts
import TwinLink.Proofs.World.Timeline
import TwinLink.Proofs.Socket.Muted
import TwinLink.Proofs.Manager.Halves
import TwinLink.Proofs.Manager.Separation
import TwinLink.Proofs.Socket.Effort
import TwinLink.Proofs.Manager.Progress
import TwinLink.Proofs.Json.Grammar
import TwinLink.Proofs.Json.Strings
import TwinLink.Proofs.Json.Numerals
import TwinLink.Proofs.Json.Reading
import TwinLink.Proofs.Json.Integers
import TwinLink.Proofs.Json.Typed
import TwinLink.Proofs.Json.Unambiguity
import TwinLink.Proofs.Json.Doubles
import TwinLink.Proofs.Json.Printing
import TwinLink.Proofs.Json.Fields
import TwinLink.Proofs.Command.Codec
import TwinLink.Proofs.Snapshot.Schema
import TwinLink.Proofs.Snapshot.Pointer
import TwinLink.Proofs.Registry.Entries
import TwinLink.Proofs.Registry.Handles
import TwinLink.Proofs.Registry.Ledger
import TwinLink.Proofs.Registry.Emissions
import TwinLink.Proofs.Registry.Service
import TwinLink.Proofs.Console.Lines
import TwinLink.Proofs.Text.Utf8
import TwinLink.Proofs.Url.Pairs
import TwinLink.Proofs.Url.Parts
import TwinLink.Proofs.Manager.Addresses
import TwinLink.Proofs.Socket.Redirect
import TwinLink.Proofs.World.Redirect
import TwinLink.Proofs.Manager.Disclosure
import TwinLink.Proofs.Socket.Departure
import TwinLink.Proofs.World.Departure
import TwinLink.Proofs.Manager.Settling
import TwinLink.Proofs.Session.Lines
import TwinLink.Proofs.Session.Loop
import TwinLink.Proofs.Snapshot.Codec
import TwinLink.Proofs.Config.Lookup
