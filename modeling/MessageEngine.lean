import MessageEngine.Lib.Bytes
import MessageEngine.Lib.Circular
import MessageEngine.Lib.Compact
import MessageEngine.Lib.Counter
import MessageEngine.Lib.Framing
import MessageEngine.Lib.Gate
import MessageEngine.Lib.Lines
import MessageEngine.Lib.Lockstep
import MessageEngine.Lib.Outcome
import MessageEngine.Lib.Overlay
import MessageEngine.Lib.Run
import MessageEngine.Lib.Slot
import MessageEngine.Lib.Stretch
import MessageEngine.Lib.Table
import MessageEngine.Lib.XorShift
import MessageEngine.Core.AckTracker
import MessageEngine.Core.Backend
import MessageEngine.Core.Datagram
import MessageEngine.Core.DatagramTransport
import MessageEngine.Core.DeliveryEngine
import MessageEngine.Core.DeliveryEvent
import MessageEngine.Core.DtlsUdpBackend
import MessageEngine.Core.DuplicateFilter
import MessageEngine.Core.Fragmentation
import MessageEngine.Core.ImpairmentConfigLoader
import MessageEngine.Core.ImpairmentEngine
import MessageEngine.Core.LocalSimHarness
import MessageEngine.Core.MessageEnvelope
import MessageEngine.Core.OrderingBuffer
import MessageEngine.Core.ReassemblyBuffer
import MessageEngine.Core.RequestReplyEngine
import MessageEngine.Core.RetryManager
import MessageEngine.Core.RingBuffer
import MessageEngine.Core.Serializer
import MessageEngine.Core.SocketUtils
import MessageEngine.Core.TcpBackend
import MessageEngine.Core.TcpTransport
import MessageEngine.Core.TlsFraming
import MessageEngine.Core.TlsTcpBackend
import MessageEngine.Core.TlsTransport
import MessageEngine.Core.Transport
import MessageEngine.Core.Types
import MessageEngine.Core.UdpBackend
import MessageEngine.Laws.AckTracker
import MessageEngine.Laws.Backend.Agreement
import MessageEngine.Laws.Backend.Binding
import MessageEngine.Laws.Backend.Discard
import MessageEngine.Laws.Backend.HelloQueue
import MessageEngine.Laws.Backend.Inbox
import MessageEngine.Laws.Backend.Notifications
import MessageEngine.Laws.Backend.Opened
import MessageEngine.Laws.Backend.PortLock
import MessageEngine.Laws.Backend.Registry
import MessageEngine.Laws.Backend.Rounds
import MessageEngine.Laws.Backend.Sending
import MessageEngine.Laws.Backend.SendingLaw
import MessageEngine.Laws.Backend.Server
import MessageEngine.Laws.Conservation.AckTracker
import MessageEngine.Laws.Conservation.Backoff
import MessageEngine.Laws.Conservation.Collection
import MessageEngine.Laws.Conservation.RetryManager
import MessageEngine.Laws.Datagram
import MessageEngine.Laws.DeliveryEngine.Arrival
import MessageEngine.Laws.DeliveryEngine.Basic
import MessageEngine.Laws.DeliveryEngine.Control
import MessageEngine.Laws.DeliveryEngine.Data
import MessageEngine.Laws.DeliveryEngine.Events
import MessageEngine.Laws.DeliveryEngine.Receive
import MessageEngine.Laws.DeliveryEngine.Reset
import MessageEngine.Laws.DeliveryEngine.Send
import MessageEngine.Laws.DeliveryEngine.Step
import MessageEngine.Laws.DeliveryEvent
import MessageEngine.Laws.DuplicateFilter
import MessageEngine.Laws.DuplicateWindow
import MessageEngine.Laws.EndToEnd.Connection
import MessageEngine.Laws.EndToEnd.Harnessed
import MessageEngine.Laws.EndToEnd.Incoming
import MessageEngine.Laws.EndToEnd.Lossless
import MessageEngine.Laws.EndToEnd.Network
import MessageEngine.Laws.EndToEnd.Numbering
import MessageEngine.Laws.EndToEnd.Outgoing
import MessageEngine.Laws.EndToEnd.Parts
import MessageEngine.Laws.EndToEnd.Streams
import MessageEngine.Laws.Fragmentation
import MessageEngine.Laws.Impairment.ConfigLoader
import MessageEngine.Laws.Impairment.Conservation
import MessageEngine.Laws.Impairment.Fifo
import MessageEngine.Laws.Impairment.Inbound
import MessageEngine.Laws.Impairment.Latency
import MessageEngine.Laws.Impairment.Outbound
import MessageEngine.Laws.Impairment.Partition
import MessageEngine.Laws.Impairment.Passage
import MessageEngine.Laws.Impairment.Prng
import MessageEngine.Laws.LocalSim.Ledger
import MessageEngine.Laws.LocalSim.Queue
import MessageEngine.Laws.LocalSim.Transparent
import MessageEngine.Laws.Ordering.Calls
import MessageEngine.Laws.Ordering.Eviction
import MessageEngine.Laws.Ordering.Independence
import MessageEngine.Laws.Ordering.Lanes
import MessageEngine.Laws.Ordering.Sequences
import MessageEngine.Laws.Ordering.Sweep
import MessageEngine.Laws.OrderingBuffer
import MessageEngine.Laws.Outbound.Booking
import MessageEngine.Laws.Outbound.Expiry
import MessageEngine.Laws.Outbound.FreshStart
import MessageEngine.Laws.Outbound.Renumbering
import MessageEngine.Laws.Outbound.Sending
import MessageEngine.Laws.Reassembly.Contents
import MessageEngine.Laws.Reassembly.Isolation
import MessageEngine.Laws.ReassemblyBuffer
import MessageEngine.Laws.RequestReply.Codec
import MessageEngine.Laws.RequestReply.Correlation
import MessageEngine.Laws.RequestReply.Desk
import MessageEngine.Laws.RequestReply.Inbound
import MessageEngine.Laws.RequestReply.Stashes
import MessageEngine.Laws.RequestReply.Step
import MessageEngine.Laws.RetryManager
import MessageEngine.Laws.RingBuffer
import MessageEngine.Laws.Runs.Assertions
import MessageEngine.Laws.Runs.Custody
import MessageEngine.Laws.Runs.Forgery
import MessageEngine.Laws.Runs.Gate
import MessageEngine.Laws.Runs.Once
import MessageEngine.Laws.Runs.Order
import MessageEngine.Laws.Runs.Passing
import MessageEngine.Laws.Runs.Staging
import MessageEngine.Laws.Serializer.Frame
import MessageEngine.Laws.Serializer.RoundTrip
import MessageEngine.Laws.Serializer.Words
import MessageEngine.Laws.SocketUtils
import MessageEngine.Laws.TcpBackend.Clients
import MessageEngine.Laws.TcpBackend.Draining
import MessageEngine.Laws.TcpBackend.Invariant
import MessageEngine.Laws.TcpBackend.Reading
import MessageEngine.Laws.TcpBackend.Step
import MessageEngine.Laws.TcpBackend.Table
import MessageEngine.Laws.TlsFraming
import MessageEngine.Laws.TlsTcpBackend
