import EduMuduo.Library.Machine
import EduMuduo.Library.Memory
import EduMuduo.Library.BatchQueue
import EduMuduo.Library.History
import EduMuduo.Library.Crossing
import EduMuduo.Library.Conservation
import EduMuduo.Library.Fairness
import EduMuduo.Library.Doubling
import EduMuduo.Core.Buffer
import EduMuduo.Core.SafeBuffer
import EduMuduo.Core.Channel
import EduMuduo.Core.PolledChannel
import EduMuduo.Core.EPollPoller
import EduMuduo.Core.EventList
import EduMuduo.Core.TcpConnection
import EduMuduo.Core.Session
import EduMuduo.Core.EventLoop
import EduMuduo.Core.EventLoopThread
import EduMuduo.Core.ServerStart
import EduMuduo.Core.ThreadLoop
import EduMuduo.Core.Server
import EduMuduo.Core.ServerMachine
import EduMuduo.Core.Acceptor
import EduMuduo.Spec.ByteQueue
import EduMuduo.Proofs.BufferRefinement
import EduMuduo.Proofs.BufferGrowth
import EduMuduo.Proofs.ConnectionOperations
import EduMuduo.Proofs.OutputStream
import EduMuduo.Proofs.HighWaterMark
import EduMuduo.Proofs.FailedSend
import EduMuduo.Proofs.TaskQueue
import EduMuduo.Proofs.Wakeup
import EduMuduo.Proofs.OutsideCalls
import EduMuduo.Proofs.QueuedBeforeQuit
import EduMuduo.Proofs.LoopThread
import EduMuduo.Proofs.StartLoop
import EduMuduo.Proofs.PoolStart
import EduMuduo.Proofs.QuitRequest
import EduMuduo.Proofs.ServerSteps
import EduMuduo.Proofs.Placement
import EduMuduo.Proofs.TaskFlow
import EduMuduo.Proofs.Establishment
import EduMuduo.Proofs.ClosedConnection
import EduMuduo.Proofs.StackFlow
import EduMuduo.Proofs.Delivery
import EduMuduo.Proofs.Announcement
import EduMuduo.Proofs.Registry
import EduMuduo.Proofs.Lifecycle
import EduMuduo.Proofs.QueueFlow
import EduMuduo.Proofs.CallOrder
import EduMuduo.Proofs.SendOrder
import EduMuduo.Proofs.ByteStreams
import EduMuduo.Proofs.WriteInterest
import EduMuduo.Proofs.ShutdownOrder
import EduMuduo.Proofs.Range
import EduMuduo.Proofs.ShutdownKept
import EduMuduo.Proofs.StateOrder
import EduMuduo.Proofs.ConnectionNames
import EduMuduo.Proofs.ServerReferences
import EduMuduo.Proofs.Destruction
import EduMuduo.Proofs.Progress
import EduMuduo.Proofs.PollerAgreement
import EduMuduo.Proofs.ActiveChannels
import EduMuduo.Proofs.Ownership
import EduMuduo.Proofs.RawFunctors
import EduMuduo.Proofs.LoopPerThread
import EduMuduo.Proofs.AcceptErrors
import EduMuduo.Proofs.RoundRobin
import EduMuduo.Proofs.EmptyInterest
import EduMuduo.Proofs.RemovedChannels
import EduMuduo.Proofs.LoopMeasure
import EduMuduo.Proofs.Confinement
import EduMuduo.Proofs.Termination
import EduMuduo.Proofs.EventualCalls
import EduMuduo.Proofs.Cleanup
import EduMuduo.Proofs.CallbackNesting
import EduMuduo.Proofs.PolledOwned
import EduMuduo.Proofs.LoopLiveness
import EduMuduo.Library.Refinement
import EduMuduo.Proofs.SessionRefinement
