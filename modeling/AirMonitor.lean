import AirMonitor.At.Channel
import AirMonitor.At.Document
import AirMonitor.At.Line
import AirMonitor.At.Quoting
import AirMonitor.At.Response
import AirMonitor.At.Token
import AirMonitor.Board.Basic
import AirMonitor.Board.Bench
import AirMonitor.Board.Recorded
import AirMonitor.Config
import AirMonitor.Console.Line
import AirMonitor.Console.Rehearsal
import AirMonitor.Console.Shell
import AirMonitor.Console.Terminal
import AirMonitor.Log.Drain
import AirMonitor.Log.Entry
import AirMonitor.Log.Stream
import AirMonitor.Modem.Client
import AirMonitor.Modem.Delivery
import AirMonitor.Modem.Flags
import AirMonitor.Modem.Refresh
import AirMonitor.Modem.Session
import AirMonitor.Modem.State
import AirMonitor.Node
import AirMonitor.Output.Arena
import AirMonitor.Output.Mux
import AirMonitor.Output.Pool
import AirMonitor.Output.Rehearsal
import AirMonitor.Output.Ring
import AirMonitor.Output.Sink
import AirMonitor.Output.Station
import AirMonitor.Output.Task
import AirMonitor.Status
import AirMonitor.Sync.Guarded
import AirMonitor.Sync.Semaphore
import AirMonitor.Sync.Wait
import AirMonitor.Telemetry.Frame
import AirMonitor.Text.Bounded
import AirMonitor.Text.Fixed
import AirMonitor.Text.Numeral
import AirMonitor.Text.Quoted
import AirMonitor.Text.Utf8
import AirMonitor.Time
import AirMonitor.Proofs.Window
import AirMonitor.Proofs.Text.Fronts
import AirMonitor.Proofs.Text.Numerals
import AirMonitor.Proofs.Output.Layout
import AirMonitor.Proofs.Output.Usage
import AirMonitor.Proofs.Output.ExecutionOrder
import AirMonitor.Proofs.Output.Bypass
import AirMonitor.Proofs.Output.Handoff
import AirMonitor.Proofs.Output.Permits
import AirMonitor.Proofs.Output.Loans
import AirMonitor.Proofs.Output.Balance
import AirMonitor.Proofs.Output.Requests
import AirMonitor.Proofs.Board.Sleeping
import AirMonitor.Proofs.Output.Deliveries
import AirMonitor.Proofs.Output.Conservation
import AirMonitor.Proofs.Output.BackPressure
import AirMonitor.Proofs.Output.EmissionOrder
import AirMonitor.Proofs.At.Framing
import AirMonitor.Proofs.At.Rendering
import AirMonitor.Proofs.At.RoundTrip
import AirMonitor.Proofs.At.Numbers
import AirMonitor.Proofs.At.Lines
import AirMonitor.Proofs.At.Truncation
import AirMonitor.Proofs.Modem.Backlog
import AirMonitor.Proofs.Modem.FlagSets
import AirMonitor.Proofs.Modem.Inquiries
import AirMonitor.Proofs.At.Conversation
import AirMonitor.Proofs.Modem.Exchanges
import AirMonitor.Proofs.Modem.Refreshing
import AirMonitor.Proofs.Modem.Sending
import AirMonitor.Proofs.Modem.Operations
import AirMonitor.Proofs.Modem.PeerTable
import AirMonitor.Proofs.Modem.Acceptance
import AirMonitor.Proofs.Modem.BringingUp
import AirMonitor.Proofs.Modem.ReportedNumbers
import AirMonitor.Proofs.Output.WifiReports
import AirMonitor.Proofs.Output.LinkDown
import AirMonitor.Proofs.Output.Indifference
import AirMonitor.Proofs.Console.Typing
import AirMonitor.Proofs.Log.Ring
import AirMonitor.Proofs.Log.Pumping
import AirMonitor.Proofs.Log.Lines
import AirMonitor.Proofs.Log.Accounting
import AirMonitor.Proofs.Log.Records
import AirMonitor.Proofs.Log.Messages
import AirMonitor.Proofs.Log.WholeLines
import AirMonitor.Proofs.Output.SleepsLast
import AirMonitor.Proofs.Telemetry.Cutting
import AirMonitor.Proofs.Console.Echo
import AirMonitor.Proofs.Telemetry.Decoding
import AirMonitor.Proofs.Output.Agenda
import AirMonitor.Proofs.At.Scanning
import AirMonitor.Proofs.Output.BoundedQueue
