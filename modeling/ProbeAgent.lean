import ProbeAgent.Ber.Element
import ProbeAgent.Ber.Integer
import ProbeAgent.Ber.ObjectId
import ProbeAgent.CommandLine.Arguments
import ProbeAgent.CommandLine.Display
import ProbeAgent.CommandLine.Invocation
import ProbeAgent.CommandLine.Work
import ProbeAgent.Config.Basic
import ProbeAgent.Config.LogLevel
import ProbeAgent.Json.Decode
import ProbeAgent.Json.Document
import ProbeAgent.Json.Printer
import ProbeAgent.Json.Reader
import ProbeAgent.Json.Value
import ProbeAgent.Main
import ProbeAgent.Measurement.Basic
import ProbeAgent.Measurement.Definition
import ProbeAgent.Measurement.Discovery
import ProbeAgent.Measurement.Ping
import ProbeAgent.Measurement.Preparation
import ProbeAgent.Measurement.Probe
import ProbeAgent.Measurement.Registry
import ProbeAgent.Measurement.Report
import ProbeAgent.Measurement.Run
import ProbeAgent.Measurement.Statistics
import ProbeAgent.Measurement.Traceroute
import ProbeAgent.Net.Address
import ProbeAgent.Net.Scripted
import ProbeAgent.Net.Session
import ProbeAgent.Net.Socket
import ProbeAgent.Net.Target
import ProbeAgent.Proofs.Ber.CutOff
import ProbeAgent.Proofs.Ber.Element
import ProbeAgent.Proofs.Ber.Integer
import ProbeAgent.Proofs.Ber.ObjectId
import ProbeAgent.Proofs.Ber.Shortest
import ProbeAgent.Proofs.Json.Decode
import ProbeAgent.Proofs.Measurement.Attempts
import ProbeAgent.Proofs.Measurement.Cancellation
import ProbeAgent.Proofs.Measurement.CancelledStart
import ProbeAgent.Proofs.Measurement.Cycles
import ProbeAgent.Proofs.Measurement.Definition
import ProbeAgent.Proofs.Measurement.Discard
import ProbeAgent.Proofs.Measurement.Exchanges
import ProbeAgent.Proofs.Measurement.Hops
import ProbeAgent.Proofs.Measurement.Lifecycle
import ProbeAgent.Proofs.Measurement.Outcome
import ProbeAgent.Proofs.Measurement.Preparation
import ProbeAgent.Proofs.Measurement.Registry
import ProbeAgent.Proofs.Measurement.Route
import ProbeAgent.Proofs.Measurement.Sockets
import ProbeAgent.Proofs.Net.Address
import ProbeAgent.Proofs.Net.SocketUse
import ProbeAgent.Proofs.Result.Log
import ProbeAgent.Proofs.Result.Mirror
import ProbeAgent.Proofs.Result.Report
import ProbeAgent.Proofs.Result.Store
import ProbeAgent.Proofs.Schedule.Calendar
import ProbeAgent.Proofs.Schedule.CalendarFields
import ProbeAgent.Proofs.Schedule.CalendarSearch
import ProbeAgent.Proofs.Schedule.CatchUp
import ProbeAgent.Proofs.Schedule.Exhaustion
import ProbeAgent.Proofs.Schedule.Grid
import ProbeAgent.Proofs.Schedule.Monotone
import ProbeAgent.Proofs.Schedule.Periodic
import ProbeAgent.Proofs.Schedule.Reference
import ProbeAgent.Proofs.Schedule.TimeOfDay
import ProbeAgent.Proofs.Schedule.Timing
import ProbeAgent.Proofs.Schedule.Upcoming
import ProbeAgent.Proofs.Schedule.Written
import ProbeAgent.Proofs.Scheduler.Agreement
import ProbeAgent.Proofs.Scheduler.Announcements
import ProbeAgent.Proofs.Scheduler.Completion
import ProbeAgent.Proofs.Scheduler.Course
import ProbeAgent.Proofs.Scheduler.Dispatch
import ProbeAgent.Proofs.Scheduler.LastStatus
import ProbeAgent.Proofs.Scheduler.Operations
import ProbeAgent.Proofs.Scheduler.Soundness
import ProbeAgent.Proofs.Scheduler.Spacing
import ProbeAgent.Proofs.Scheduler.Stopping
import ProbeAgent.Proofs.Scheduler.Tasks
import ProbeAgent.Proofs.Simulation.Bench
import ProbeAgent.Proofs.Snmp.Hosts
import ProbeAgent.Proofs.Snmp.Message
import ProbeAgent.Proofs.Snmp.Normal
import ProbeAgent.Proofs.Task.Spec
import ProbeAgent.Proofs.Task.Target
import ProbeAgent.Proofs.Text.Decimal
import ProbeAgent.Proofs.Text.Folded
import ProbeAgent.Proofs.Time.Date
import ProbeAgent.Proofs.Time.Instant
import ProbeAgent.Proofs.Time.Text
import ProbeAgent.Result.Feed
import ProbeAgent.Result.Report
import ProbeAgent.Result.Store
import ProbeAgent.Schedule.Calendar
import ProbeAgent.Schedule.CalendarFields
import ProbeAgent.Schedule.Periodic
import ProbeAgent.Schedule.Timing
import ProbeAgent.Schedule.ValueSet
import ProbeAgent.Schedule.Window
import ProbeAgent.Scheduler.Agent
import ProbeAgent.Scheduler.Basic
import ProbeAgent.Scheduler.Task
import ProbeAgent.Simulation.Bench
import ProbeAgent.Simulation.Responder
import ProbeAgent.Simulation.Script
import ProbeAgent.Simulation.Terminal
import ProbeAgent.Simulation.World
import ProbeAgent.Snmp.Hosts
import ProbeAgent.Snmp.Message
import ProbeAgent.Task.Spec
import ProbeAgent.Text.Blank
import ProbeAgent.Text.Decimal
import ProbeAgent.Text.Fixed
import ProbeAgent.Text.Folded
import ProbeAgent.Text.Hex
import ProbeAgent.Text.Printable
import ProbeAgent.Text.Quoted
import ProbeAgent.Text.Shortest
import ProbeAgent.Text.Uppercase
import ProbeAgent.Text.Utf8
import ProbeAgent.Time.Clock
import ProbeAgent.Time.Date
import ProbeAgent.Time.Instant
import ProbeAgent.Time.Text
import ProbeAgent.Toml.Document
import ProbeAgent.Toml.Number
import ProbeAgent.Toml.Quoted
import ProbeAgent.Toml.Table
