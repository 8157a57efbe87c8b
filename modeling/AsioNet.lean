import AsioNet.Library.ByteMemory
import AsioNet.Library.CircularBuffer
import AsioNet.Library.CriticalSections
import AsioNet.Library.Exec
import AsioNet.Library.Executions
import AsioNet.Library.LengthPrefixed
import AsioNet.Library.LittleEndian
import AsioNet.Library.Lockstep
import AsioNet.Library.Mailboxes
import AsioNet.Library.OnesComplement
import AsioNet.Library.SideBySide
import AsioNet.Library.Traced
import AsioNet.Library.TransitionSystem
import AsioNet.NetUtils
import AsioNet.ReusabelBuffer
import AsioNet.Protocol
import AsioNet.MessagePacking
import AsioNet.ProtoMask
import AsioNet.Rc4
import AsioNet.Rc4Box
import AsioNet.Compression
import AsioNet.ParallelCore.SafeHashMap
import AsioNet.ParallelCore.SafeRandom
import AsioNet.ParallelCore.Spinlock
import AsioNet.ParallelCore.SafeRandomThreads
import AsioNet.ParallelCore.ObjectPool
import AsioNet.ParallelCore.PoolCounts
import AsioNet.ParallelCore.ObjectPoolThreads
import AsioNet.ParallelCore.ThreadSafePoolThreads
import AsioNet.ParallelCore.ThreadCaches
import AsioNet.ParallelCore.RingBuffer
import AsioNet.ParallelCore.RingBufferRuns
import AsioNet.ParallelCore.RingBufferPeek
import AsioNet.ParallelCore.RingBufferThreads
import AsioNet.SessionLogic
import AsioNet.ServerIds
import AsioNet.AuthenticationRoundTrip
import AsioNet.BasicAsyncSession
import AsioNet.RecvLoop
import AsioNet.ClientSessionLogic
import AsioNet.ServerSessionLogic
import AsioNet.DefaultSessionLogic
import AsioNet.InnerSessionLogic
import AsioNet.ActiveServerSessionLogic
import AsioNet.ServerStorage
import AsioNet.WholeRecords
import AsioNet.InnerStorage
import AsioNet.ProxyManager
import AsioNet.FailedWraps
import AsioNet.ProxyLogic
import AsioNet.ProxySession
import AsioNet.BodyAccesses
import AsioNet.MalformedFrames
import AsioNet.ZlibRegions
import AsioNet.Framing
import AsioNet.BufferRead
import AsioNet.PlainPeers
import AsioNet.ClientRelay
import AsioNet.ServerRelay
import AsioNet.BroadcastRelay
import AsioNet.ControlFrames
import AsioNet.Promotion
import AsioNet.AuthenticationInput
import AsioNet.AccessBounds
import AsioNet.ProxyRuns
import AsioNet.SessionTables
import AsioNet.AuthenticationResponse
import AsioNet.ReceiveRuns
import AsioNet.FullBuffer
import AsioNet.GzipRoundTrip
import AsioNet.SessionLife
import AsioNet.SessionRegistry
import AsioNet.SeparateSessions
import AsioNet.SessionClosing
import AsioNet.SendRuns
import AsioNet.RegisteredServers
import AsioNet.CleanUp
import AsioNet.KickServerPeer
import AsioNet.KeepAlive
import AsioNet.TickDivider
import AsioNet.DeadPeers
import AsioNet.Strands
import AsioNet.JobAgents
import AsioNet.VerdictFirst
import AsioNet.BackPressure
import AsioNet.SequenceNumbers
import AsioNet.ServerStreams
import AsioNet.VerdictAgreement
import AsioNet.SentContent
import AsioNet.RelayOutcomes
import AsioNet.StaleBytes
import AsioNet.LogicPool
import AsioNet.LogicRuns
import AsioNet.LogicInUse
import AsioNet.WLog
import AsioNet.LogSteps
import AsioNet.LogQueue
import AsioNet.DirectLog
import AsioNet.CsNetwork.Runtime
import AsioNet.CsNetwork.RC4Compress
import AsioNet.CsNetwork.RingBuffer
import AsioNet.CsNetwork.BlockMalloc
import AsioNet.CsNetwork.SpinLockThreads
import AsioNet.CsNetwork.SocketClient
import AsioNet.CsNetwork.FrameHeads
import AsioNet.CsNetwork.RecvRuns
import AsioNet.CsNetwork.NetworkManager
import AsioNet.CsNetwork.StateMachine
import AsioNet.CsNetwork.Serialization.Scalars
import AsioNet.CsNetwork.Serialization.BinaryFormatter
import AsioNet.CsNetwork.Serialization.RoundTrip
import AsioNet.CsNetwork.Serialization.Lengths
import AsioNet.CsNetwork.ServerToken
import AsioNet.CsNetwork.RingAccesses
import AsioNet.CsNetwork.SocketThreads
