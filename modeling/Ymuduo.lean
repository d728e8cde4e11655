import Ymuduo.Runs
import Ymuduo.Oracle
import Ymuduo.Fifo
import Ymuduo.Block
import Ymuduo.Kernel
import Ymuduo.Buffer
import Ymuduo.BufferWrap
import Ymuduo.BufferHistory
import Ymuduo.RetrieveString
import Ymuduo.Channel
import Ymuduo.Poller
import Ymuduo.PollerBook
import Ymuduo.TcpConnection
import Ymuduo.OutputStream
import Ymuduo.EventLoop
import Ymuduo.FunctorQueue
import Ymuduo.QuitDrain
import Ymuduo.LoopThread
import Ymuduo.StateRace
import Ymuduo.CrossThreadSend
import Ymuduo.HalfClose
import Ymuduo.FlowControl
import Ymuduo.CallOrder
import Ymuduo.TcpServer
import Ymuduo.Acceptor
import Ymuduo.ErrnoLogging
import Ymuduo.ServerSystem
import Ymuduo.ConnView
import Ymuduo.ConnLife
import Ymuduo.CloseOnce
import Ymuduo.Wiring
import Ymuduo.ConnMap
import Ymuduo.ServerView
import Ymuduo.LifeCycle
import Ymuduo.StaleChannel
import Ymuduo.TearDown
import Ymuduo.ServerDestroy
import Ymuduo.Confinement
import Ymuduo.HandOver
import Ymuduo.FunctorLifetime
import Ymuduo.Simulation
import Ymuduo.Duplex
import Ymuduo.ConnStream
import Ymuduo.EchoServer
import Ymuduo.Quiescence
import Ymuduo.WorkBound
import Ymuduo.Settling
import Ymuduo.RoundRobin
import Ymuduo.BufferSize
import Ymuduo.ReadyList
import Ymuduo.Polling
import Ymuduo.StartLoop
import Ymuduo.ServerStart
import Ymuduo.InetAddress
import Ymuduo.ServerStream
