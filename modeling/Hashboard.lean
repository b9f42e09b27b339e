import Hashboard.Frame
import Hashboard.Reply
import Hashboard.EpochClock
import Hashboard.WorkQueue
import Hashboard.InFlight
import Hashboard.Event
import Hashboard.Buffers
import Hashboard.Simulator
import Hashboard.SharedController
import Hashboard.Poll
import Hashboard.Device
import Hashboard.Control.Simulated
import Hashboard.Discovery
import Hashboard.Thermal
import Hashboard.Feeder
import Hashboard.Decimal.Shortest
import Hashboard.HashRate
import Hashboard.Banner
import Hashboard.Json.Printer
import Hashboard.Json.Reader
import Hashboard.Program
import Hashboard.Document
import Hashboard.Main
import Hashboard.Proofs.InFlight
import Hashboard.Proofs.InsertionLog
import Hashboard.Proofs.Dispatch
import Hashboard.Proofs.Bytes
import Hashboard.Proofs.Frame
import Hashboard.Proofs.WorkQueue
import Hashboard.Proofs.Packing
import Hashboard.Proofs.Transmission
import Hashboard.Proofs.Receipt
import Hashboard.Proofs.Backpressure
import Hashboard.Proofs.Requests
import Hashboard.Proofs.Findings
import Hashboard.Proofs.Interleaving
import Hashboard.Proofs.PollLoop
import Hashboard.Proofs.Refresh
import Hashboard.Proofs.Attribution
import Hashboard.Proofs.Station
import Hashboard.Proofs.Conservation
import Hashboard.Proofs.CoreMap
import Hashboard.Proofs.Simulator
import Hashboard.Proofs.Lockstep
import Hashboard.Proofs.ReplyRoundTrip
import Hashboard.Proofs.Delivery
import Hashboard.Proofs.HardwareFlush
import Hashboard.Proofs.Reissue
import Hashboard.Proofs.FailedTransfers
import Hashboard.Proofs.SoftRefresh
import Hashboard.Proofs.LifeCycle
import Hashboard.Proofs.Drain
import Hashboard.Proofs.IdIssue
import Hashboard.Proofs.Admission
import Hashboard.Proofs.Discovery
import Hashboard.Proofs.Addressing
import Hashboard.Proofs.Placement
import Hashboard.Proofs.Submission
import Hashboard.Proofs.Feeder
import Hashboard.Proofs.Supply
import Hashboard.Proofs.TransferHealth
import Hashboard.Proofs.ClockRange
import Hashboard.Proofs.SharedController
import Hashboard.Proofs.Post
import Hashboard.Proofs.Reckoning
