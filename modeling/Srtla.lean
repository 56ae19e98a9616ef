import Srtla.Lib.Bytes
import Srtla.Lib.Agree
import Srtla.Lib.Apportion
import Srtla.Lib.Batch
import Srtla.Lib.Best
import Srtla.Lib.Blocks
import Srtla.Lib.Machine
import Srtla.Lib.Cells
import Srtla.Lib.Double
import Srtla.Lib.Text
import Srtla.Lib.Exposition
import Srtla.Lib.Keyed
import Srtla.Lib.Lifecycle
import Srtla.Lib.Lts
import Srtla.Lib.Narrowing
import Srtla.Lib.Passes
import Srtla.Lib.Ring
import Srtla.Lib.Store
import Srtla.Lib.Table
import Srtla.Common.Address
import Srtla.Common.Packet
import Srtla.Receiver.NakDedup
import Srtla.Receiver.Config
import Srtla.Receiver.RateLimiter
import Srtla.Receiver.State
import Srtla.Receiver.Quality
import Srtla.Receiver.SrtHandler
import Srtla.Receiver.SrtlaHandler
import Srtla.Receiver.Cleanup
import Srtla.Receiver.PacketSpec
import Srtla.Receiver.Registration
import Srtla.Receiver.Machine
import Srtla.Receiver.Registry
import Srtla.Receiver.Handshake
import Srtla.Receiver.Admission
import Srtla.Receiver.Balance
import Srtla.Receiver.Audit
import Srtla.Receiver.Ownership
import Srtla.Receiver.GroupStep
import Srtla.Receiver.Statistics
import Srtla.Receiver.Comparison
import Srtla.Receiver.Conservation
import Srtla.Receiver.Descriptors
import Srtla.Receiver.Sent
import Srtla.Receiver.Downstream
import Srtla.Receiver.Repeats
import Srtla.Receiver.Duplicates
import Srtla.Receiver.Refusal
import Srtla.Receiver.Eviction
import Srtla.Receiver.Lifetime
import Srtla.Receiver.Exporter
import Srtla.Receiver.Keepalive
import Srtla.Receiver.LinkOrder
import Srtla.Receiver.Throttle
import Srtla.Receiver.Lockout
import Srtla.Receiver.Relay
import Srtla.Receiver.MainLoop
import Srtla.Receiver.Scoring
import Srtla.Receiver.Measured
import Srtla.Receiver.NakRate
import Srtla.Receiver.Ranking
import Srtla.Receiver.Reaper
import Srtla.Receiver.Timeouts
import Srtla.Receiver.Recovery
import Srtla.Receiver.Weights
import Srtla.Sender.Conn
import Srtla.Sender.PacketLog
import Srtla.Sender.State
import Srtla.Sender.Handlers
import Srtla.Sender.Registration
import Srtla.Sender.Calls
import Srtla.Sender.Accounts
import Srtla.Sender.Selection
import Srtla.Sender.Apportionment
import Srtla.Sender.Bookkeeping
import Srtla.Sender.Charges
import Srtla.Sender.Dispatch
import Srtla.Sender.GivingUp
import Srtla.Sender.Journal
import Srtla.Sender.InFlight
import Srtla.Sender.Liveness
import Srtla.Sender.NakList
import Srtla.Sender.Probes
import Srtla.Sender.Received
import Srtla.Sender.Reload
import Srtla.Sender.Window
import Srtla.Sender.Wire
import Srtla.Sink.Tracker
import Srtla.Sink.Continuity
import Srtla.System.Acks
import Srtla.System.Network
import Srtla.System.Schedule
import Srtla.System.Bonding
import Srtla.System.Integrity
import Srtla.System.OneGroup
import Srtla.System.Registration
