import TinySox.Common.LabelledRun
import TinySox.ByteBuffer
import TinySox.CommHelper
import TinySox.EdgeTriggered
import TinySox.TunnelJob
import TinySox.TunnelIntegrity
import TinySox.TunnelCompletion
import TinySox.Common.EffectProgram
import TinySox.IPEndpoint
import TinySox.JobProgram
import TinySox.Handshake
import TinySox.HandshakeTranscript
import TinySox.HandshakeAuth
import TinySox.SocksCodec
import TinySox.HandshakeSegments
import TinySox.Common.Custody
import TinySox.JobPipeline
import TinySox.JobCustody
import TinySox.HandlerOwnership
import TinySox.JobDispatcher
import TinySox.DispatcherShutdown
import TinySox.DispatcherPools
import TinySox.TransferBound
import TinySox.HelperSession
import TinySox.ReaderDrain
import TinySox.HandshakeConnect
import TinySox.HandshakeReply
import TinySox.HandlerRegistry
import TinySox.HandlerIds
import TinySox.TunnelWiring
import TinySox.HelperDrivers
import TinySox.ExclusiveHelpers
import TinySox.HelperRefinement
import TinySox.ShutdownSequence
import TinySox.TunnelWindDown
import TinySox.ShutdownBroadcast
import TinySox.ShutdownStops
import TinySox.Common.Comparison
import TinySox.EndpointHash
import TinySox.EndpointOrder
import TinySox.EndpointRoundTrip
import TinySox.AddressOrder
import TinySox.CommandLine
import TinySox.Common.Checks
import TinySox.MainOptions
import TinySox.OptionSettings
import TinySox.ConfiguredUser
import TinySox.ConnectTimeouts
import TinySox.ExclusiveDisposal
import TinySox.Common.Mutex
import TinySox.LockedWorker
import TinySox.LockedWorkerProtocol
import TinySox.MessageBroker
import TinySox.MessageBrokerBuilds
import TinySox.StartupGate
import TinySox.StartupGateRuns
import TinySox.Common.Simulation
import TinySox.ServerListener
import TinySox.ListenerLife
import TinySox.ProgramLife
import TinySox.ProgramGate
import TinySox.ProgramOrder
import TinySox.ProgramPhases
import TinySox.ProgramWindDown
import TinySox.DispatcherCompletion
import TinySox.WorkerRefinement
import TinySox.RegistryRefinement
import TinySox.RegistryCompletion
import TinySox.ServerDialog
import TinySox.LogLines
import TinySox.HandshakeTransfers
import TinySox.RelayedStreams
