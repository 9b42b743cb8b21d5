import ClientServer.Library.Bytes
import ClientServer.Library.Framing
import ClientServer.Library.Runs
import ClientServer.Library.Refinement
import ClientServer.Library.Descriptors
import ClientServer.Library.Holding
import ClientServer.Library.LeastLoad
import ClientServer.Library.BitFields
import ClientServer.Library.Issuing
import ClientServer.Library.Ring
import ClientServer.Library.Indexes
import ClientServer.Library.Pipe
import ClientServer.Library.Probing
import ClientServer.Library.KeyedLists
import ClientServer.Library.Scanning
import ClientServer.Netlib.Serialization
import ClientServer.Netlib.WireFormat
import ClientServer.Netlib.Parsing
import ClientServer.Netlib.ReadPath
import ClientServer.Netlib.SendPath
import ClientServer.Netlib.Handshake
import ClientServer.Netlib.Grammar
import ClientServer.Netlib.AnyStream
import ClientServer.Netlib.SendFailure
import ClientServer.Netlib.LightEpoll
import ClientServer.Netlib.Client
import ClientServer.Netlib.Server
import ClientServer.Netlib.Watched
import ClientServer.Netlib.Leaks
import ClientServer.Netlib.Unserved
import ClientServer.Netlib.MultithServer
import ClientServer.Netlib.Disconnects
import ClientServer.Netlib.SendQueue
import ClientServer.Netlib.PacketQueue
import ClientServer.Netlib.SessionUuid
import ClientServer.Netlib.FileLog
import ClientServer.Netlib.RandomNumber
import ClientServer.Mync.Epoll
import ClientServer.Mync.ClientStream
import ClientServer.Mync.Reporting
import ClientServer.Mync.Relay
import ClientServer.Mync.Server
import ClientServer.Mync.Ownership
import ClientServer.Mync.Atomic
import ClientServer.Mync.LoadCounter
import ClientServer.Mync.Lifecycle
import ClientServer.Mync.Shutdown
import ClientServer.Mync.Handoff
import ClientServer.Mync.Balance
import ClientServer.Mync.Adoption
import ClientServer.Mync.MainEpoll
import ClientServer.Mync.Broadcast
import ClientServer.Mync.BroadcastStream
import ClientServer.Mync.Snowflake
import ClientServer.Mync.SimpleFlatMap
import ClientServer.Mync.UringRelay
import ClientServer.Mync.UringClient
import ClientServer.Mync.UringHandlers
import ClientServer.Mync.UringServer
import ClientServer.Mync.UringStreams
import ClientServer.Mync.SelfSend
import ClientServer.Testcontainer.Snowflake
import ClientServer.Testcontainer.FdRegistry
import ClientServer.Testcontainer.DualRegistry
import ClientServer.Testcontainer.SimpleFlatMap
import ClientServer.Testcontainer.SocketStore
import ClientServer.Testcontainer.DoubleBufferMap
import ClientServer.Simpleepoll.EpollServer
import ClientServer.Simpleepoll.Ownership
import ClientServer.Simpleepoll.EdgeTriggered
import ClientServer.TestThreadpool.ThreadPool
import ClientServer.TestThreadpool.Shutdown
