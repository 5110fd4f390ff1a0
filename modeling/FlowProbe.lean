import FlowProbe.Keyed
import FlowProbe.Time.WindowClock
import FlowProbe.Fault
import FlowProbe.Net.Interfaces
import FlowProbe.Text.Blank
import FlowProbe.Text.Json.Reader
import FlowProbe.Telemetry.Buffer
import FlowProbe.Telemetry.Counters
import FlowProbe.Window.Handshake
import FlowProbe.Window.AckDelay
import FlowProbe.Window.PacketCount
import FlowProbe.Path.Tracker
import FlowProbe.Syscall.Tracker
import FlowProbe.Wire.Ring
import FlowProbe.Wire.Parameters
import FlowProbe.Monitor
import FlowProbe.Replay
import FlowProbe.Session
import FlowProbe.Settings.Document
import FlowProbe.Event.Line
import FlowProbe.Command.Run
import FlowProbe.Main
import FlowProbe.Proofs.Keyed
import FlowProbe.Proofs.Path.Run
import FlowProbe.Proofs.Path.Focus
import FlowProbe.Proofs.Path.Filing
import FlowProbe.Proofs.Path.Delivery
import FlowProbe.Proofs.Path.Agreement
import FlowProbe.Proofs.Path.Wanted
import FlowProbe.Proofs.Path.Ledger
import FlowProbe.Proofs.Path.Ageing
import FlowProbe.Proofs.Path.Leftover
import FlowProbe.Proofs.Window.Backlog
import FlowProbe.Proofs.Window.Totals
import FlowProbe.Proofs.Window.Memory
import FlowProbe.Proofs.Syscall.Sweep
import FlowProbe.Proofs.Session.Output
import FlowProbe.Proofs.Session.Run
import FlowProbe.Proofs.Session.Lines
import FlowProbe.Proofs.Session.Finish
import FlowProbe.Proofs.Session.Totals
import FlowProbe.Proofs.Session.Stream
import FlowProbe.Proofs.Window.HandshakeFlow
import FlowProbe.Proofs.Window.Run
import FlowProbe.Proofs.Window.AckQueue
import FlowProbe.Proofs.Path.Collision
import FlowProbe.Proofs.Window.Rounds
import FlowProbe.Proofs.Wire.Image
import FlowProbe.Proofs.Wire.Layout
import FlowProbe.Proofs.Wire.Dump
import FlowProbe.Proofs.Wire.Ring
import FlowProbe.Proofs.Wire.Walk
import FlowProbe.Proofs.Wire.Parameters
import FlowProbe.Proofs.Wire.Attempt
import FlowProbe.Proofs.Wire.Intake
import FlowProbe.Proofs.Monitor.Blocks
import FlowProbe.Proofs.Session.Accounts
import FlowProbe.Proofs.Syscall.Fate
import FlowProbe.Proofs.Session.Trail
import FlowProbe.Proofs.Window.Order
import FlowProbe.Proofs.Monitor.Order
import FlowProbe.Proofs.Window.Acts
import FlowProbe.Proofs.Window.Folding
import FlowProbe.Proofs.Window.HandshakeLedger
import FlowProbe.Proofs.Window.HandshakeLegs
import FlowProbe.Proofs.Window.AckLedger
import FlowProbe.Proofs.Window.PacketLedger
import FlowProbe.Proofs.Window.PacketTally
import FlowProbe.Proofs.Window.Clock
import FlowProbe.Proofs.Window.Cadence
import FlowProbe.Proofs.Path.Truncation
import FlowProbe.Proofs.Syscall.Rounds
import FlowProbe.Proofs.Window.Sides
import FlowProbe.Proofs.Window.Shift
import FlowProbe.Proofs.Text.Numeral
import FlowProbe.Proofs.Text.Json.Tokens
import FlowProbe.Proofs.Text.Json.Values
import FlowProbe.Proofs.Net.Ipv4
import FlowProbe.Proofs.Net.Interfaces
import FlowProbe.Proofs.Telemetry.Value
import FlowProbe.Proofs.Telemetry.Line
import FlowProbe.Proofs.Event.Line
