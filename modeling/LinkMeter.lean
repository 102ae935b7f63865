import LinkMeter.Address.Basic
import LinkMeter.Address.Scope
import LinkMeter.Address.Text
import LinkMeter.Bytes
import LinkMeter.Client.Basic
import LinkMeter.Client.Run
import LinkMeter.Client.Work
import LinkMeter.CommandLine.Arguments
import LinkMeter.CommandLine.Isolation
import LinkMeter.CommandLine.Rate
import LinkMeter.CommandLine.Run
import LinkMeter.CommandLine.Switch
import LinkMeter.Console.Line
import LinkMeter.Console.Quantity
import LinkMeter.Counters.Reading
import LinkMeter.Counters.Tables
import LinkMeter.Failure
import LinkMeter.Icmp.Match
import LinkMeter.Icmp.Packet
import LinkMeter.Icmp.Probe
import LinkMeter.Json.Plain
import LinkMeter.Json.Reader
import LinkMeter.Json.Schema
import LinkMeter.Json.Value
import LinkMeter.Json.Writer
import LinkMeter.Latency
import LinkMeter.Main
import LinkMeter.Measurement
import LinkMeter.Number.Binary64
import LinkMeter.Number.Count
import LinkMeter.Number.Decimal
import LinkMeter.Number.Hexadecimal
import LinkMeter.Number.Scientific
import LinkMeter.Outcome.Basic
import LinkMeter.Outcome.Hop
import LinkMeter.Outcome.Json
import LinkMeter.Outcome.Reduce
import LinkMeter.Outcome.Summary
import LinkMeter.Pacing.Clock
import LinkMeter.Pacing.Pacer
import LinkMeter.Path.Discovery
import LinkMeter.Path.Monitor
import LinkMeter.Path.Script
import LinkMeter.Proofs.Address.RoundTrip
import LinkMeter.Proofs.Client.Course
import LinkMeter.Proofs.Client.Pings
import LinkMeter.Proofs.Client.Protocol
import LinkMeter.Proofs.Client.Schedule
import LinkMeter.Proofs.Counters.Tables
import LinkMeter.Proofs.Icmp.Checksum
import LinkMeter.Proofs.Icmp.Matching
import LinkMeter.Proofs.Json.Documents
import LinkMeter.Proofs.Json.Records
import LinkMeter.Proofs.Json.RoundTrip
import LinkMeter.Proofs.Latency.Averages
import LinkMeter.Proofs.Latency.Percentiles
import LinkMeter.Proofs.Latency.Ranks
import LinkMeter.Proofs.Number.Numerals
import LinkMeter.Proofs.Number.Rounding
import LinkMeter.Proofs.Outcome.Account
import LinkMeter.Proofs.Outcome.Additive
import LinkMeter.Proofs.Outcome.Totals
import LinkMeter.Proofs.Pacing.Boundaries
import LinkMeter.Proofs.Pacing.Budget
import LinkMeter.Proofs.Pacing.Cap
import LinkMeter.Proofs.Path.Accounts
import LinkMeter.Proofs.Path.Monitoring
import LinkMeter.Proofs.Path.Statistics
import LinkMeter.Proofs.Path.Walk
import LinkMeter.Proofs.Registry.Attended
import LinkMeter.Proofs.Registry.Buffers
import LinkMeter.Proofs.Registry.Custody
import LinkMeter.Proofs.Registry.Evolution
import LinkMeter.Proofs.Registry.History
import LinkMeter.Proofs.Registry.Idle
import LinkMeter.Proofs.Registry.Lookup
import LinkMeter.Proofs.Registry.Origins
import LinkMeter.Proofs.Registry.Race
import LinkMeter.Proofs.Registry.References
import LinkMeter.Proofs.Registry.Sound
import LinkMeter.Proofs.Registry.Spared
import LinkMeter.Proofs.Registry.Sweeping
import LinkMeter.Proofs.Server.Acceptance
import LinkMeter.Proofs.Server.Alarms
import LinkMeter.Proofs.Server.Conservation
import LinkMeter.Proofs.Server.Counted
import LinkMeter.Proofs.Server.Intake
import LinkMeter.Proofs.Server.Lingering
import LinkMeter.Proofs.Server.Opening
import LinkMeter.Proofs.Server.Rate
import LinkMeter.Proofs.Server.Service
import LinkMeter.Proofs.Server.Tallies
import LinkMeter.Proofs.Server.Turnstile
import LinkMeter.Proofs.Text.Lines
import LinkMeter.Proofs.Text.Words
import LinkMeter.Proofs.Transfer.Alignment
import LinkMeter.Proofs.Transfer.Delivery
import LinkMeter.Proofs.Transfer.Echoes
import LinkMeter.Proofs.Transfer.Limits
import LinkMeter.Proofs.Transfer.Pumps
import LinkMeter.Proofs.Transfer.RoundTrips
import LinkMeter.Proofs.Transfer.Tally
import LinkMeter.Proofs.Transfer.Windows
import LinkMeter.Proofs.Trial.Crew
import LinkMeter.Proofs.Trial.Emission
import LinkMeter.Proofs.Trial.Outlet
import LinkMeter.Proofs.Trial.Pings
import LinkMeter.Proofs.Trial.Pipeline
import LinkMeter.Proofs.Trial.Steady
import LinkMeter.Proofs.Trial.Turns
import LinkMeter.Proofs.Wire.Agreement
import LinkMeter.Proofs.Wire.Codec
import LinkMeter.Proofs.Wire.Dialogue
import LinkMeter.Proofs.Wire.Frames
import LinkMeter.Proofs.Wire.Handshake
import LinkMeter.Proofs.Wire.Language
import LinkMeter.Proofs.Wire.Layout
import LinkMeter.Proofs.Wire.Sinks
import LinkMeter.Proofs.Wire.Streams
import LinkMeter.Registry.Basic
import LinkMeter.Registry.Overview
import LinkMeter.Registry.Sweep
import LinkMeter.Request
import LinkMeter.Server.Basic
import LinkMeter.Server.Clock
import LinkMeter.Server.Connection
import LinkMeter.Settings.Basic
import LinkMeter.Settings.Json
import LinkMeter.Span
import LinkMeter.Text.Blank
import LinkMeter.Text.Lines
import LinkMeter.Transfer.Pump
import LinkMeter.Transfer.RoundTrips
import LinkMeter.Transfer.Tally
import LinkMeter.Trial.Basic
import LinkMeter.Trial.Crew
import LinkMeter.Wire.Codec
import LinkMeter.Wire.Handshake
import LinkMeter.Wire.Message
import LinkMeter.Wire.Stream
