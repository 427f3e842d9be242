import VetisTokio.ConfigData
import VetisTokio.HostModel
import VetisTokio.Library.KeyedCells
import VetisTokio.Library.Runs
import VetisTokio.Library.SignalChannel
import VetisTokio.WorkerModel
import VetisTokio.WorkerRuns
import VetisTokio.WorkerAccount
import VetisTokio.WorkerTable
import VetisTokio.WorkerTracking
import VetisTokio.WorkerIsolation
import VetisTokio.ServicePlaintext
import VetisTokio.DispatcherModel
import VetisTokio.DispatcherRuns
import VetisTokio.TcpAccept
import VetisTokio.UdpAccept
import VetisTokio.ListenerModel
import VetisTokio.Rt
import VetisTokio.Assembly
import VetisTokio.ServerStart
import VetisTokio.Library.Rows
import VetisTokio.ServerModel
import VetisTokio.WorkerDrain
import VetisTokio.DispatcherDrain
import VetisTokio.ServerStop
import VetisTokio.ServiceQuic
import VetisTokio.HostRoute
import VetisTokio.Library.Prefixes
import VetisTokio.ServicesAlike
import VetisTokio.HostRouting
import VetisTokio.HostTraversal
import VetisTokio.ServiceErrors
import VetisTokio.HostKeys
import VetisTokio.HostNames
import VetisTokio.SniTable
import VetisTokio.AddHost
import VetisTokio.PortPairs
import VetisTokio.BuilderConfig
import VetisTokio.ListenerStop
import VetisTokio.TlsSniffing
import VetisTokio.HostRemoval
import VetisTokio.HostSiblings
import VetisTokio.Library.UriReference
import VetisTokio.HstsRedirect
import VetisTokio.H3Model
import VetisTokio.IoStream
import VetisTokio.Library.Fuel
import VetisTokio.H3Answers
import VetisTokio.BuilderOrder
import VetisTokio.ListenerEquality
import VetisTokio.AlpnOrder
import VetisTokio.DefaultHeaders
import VetisTokio.HostServed
import VetisTokio.Library.Refinement
import VetisTokio.Library.WorkQueue
import VetisTokio.ConnectionQueue
import VetisTokio.Library.Components
import VetisTokio.ServerParts
import VetisTokio.QueueProgress
import VetisTokio.CrewShutdown
import VetisTokio.DispatcherShutdown
import VetisTokio.ServerShutdown
import VetisTokio.TlsStaffing
import VetisTokio.H3Streams
import VetisTokio.TenantReach
import VetisTokio.HostPaths
import VetisTokio.LogWorker
import VetisTokio.TenantKeys
import VetisTokio.PageDelivery
import VetisTokio.RoutingMap
