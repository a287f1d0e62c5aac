import MiniMuduo.Library.StepSystem
import MiniMuduo.Library.Fifo
import MiniMuduo.Library.ForwardCopy
import MiniMuduo.Buffer
import MiniMuduo.BufferProofs
import MiniMuduo.BufferRefinement
import MiniMuduo.BufferStream
import MiniMuduo.Channel
import MiniMuduo.ChannelInterest
import MiniMuduo.EPollPoller
import MiniMuduo.PollerCoherence
import MiniMuduo.ChannelRegistration
import MiniMuduo.EventLoop
import MiniMuduo.LoopWakeup
import MiniMuduo.LoopFunctors
import MiniMuduo.Library.Triple
import MiniMuduo.TcpConnection
import MiniMuduo.ConnectionClose
import MiniMuduo.ConnectionOutput
import MiniMuduo.EventLoopThread
import MiniMuduo.LoopStartup
import MiniMuduo.BufferReadFd
import MiniMuduo.BufferMemory
import MiniMuduo.OutputInterest
import MiniMuduo.LoopExit
import MiniMuduo.ActiveChannels
import MiniMuduo.ActiveDispatch
import MiniMuduo.StaleChannel
import MiniMuduo.Handshake
import MiniMuduo.LoopPerThread
import MiniMuduo.CurrentThread
import MiniMuduo.StartLoop
import MiniMuduo.LoopTeardown
import MiniMuduo.HandshakeRefinement
import MiniMuduo.UpdateIdempotence
import MiniMuduo.StaleEvents
import MiniMuduo.BufferRoom
import MiniMuduo.EarlyFunctors
import MiniMuduo.BufferGrowth
import MiniMuduo.EventLoopThreadPool
import MiniMuduo.Library.RoundRobin
import MiniMuduo.LoopAssignment
import MiniMuduo.PoolStart
import MiniMuduo.Acceptor
import MiniMuduo.PeerAddress
import MiniMuduo.LogLevels
import MiniMuduo.LogPieces
import MiniMuduo.PollReports
import MiniMuduo.Library.Mutex
import MiniMuduo.LoopMutex
import MiniMuduo.LoopQuit
import MiniMuduo.LoopOrder
import MiniMuduo.LoopRounds
import MiniMuduo.Library.Pipeline
import MiniMuduo.ConnectionStreams
import MiniMuduo.ConnectionLink
import MiniMuduo.PollDelivery
import MiniMuduo.Library.Numeral
import MiniMuduo.AddressText
import MiniMuduo.Library.SharedOwnership
import MiniMuduo.ConnectionLifetime
import MiniMuduo.Thread
import MiniMuduo.ThreadLifetime
import MiniMuduo.AcceptorBacklog
import MiniMuduo.ThreadNames
import MiniMuduo.TimestampText
import MiniMuduo.Reactor
import MiniMuduo.ReactorTurns
import MiniMuduo.ReactorWakeup
