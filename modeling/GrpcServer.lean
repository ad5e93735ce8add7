import GrpcServer.CMemory.Scan
import GrpcServer.Transition
import GrpcServer.DpdkFilter.Types
import GrpcServer.DpdkFilter.FiltrPackets
import GrpcServer.DpdkFilter.Cache
import GrpcServer.DpdkFilter.ParsPackets
import GrpcServer.DpdkFilter.ProcPackets
import GrpcServer.DpdkFilter.ProcPackets.Fate
import GrpcServer.DpdkFilter.ParsPackets.Name
import GrpcServer.DpdkFilter.ProcPackets.Blocked
import GrpcServer.DpdkFilter.ProcPackets.Transparency
import GrpcServer.Worker.Classify.Readable
import GrpcServer.Worker.Classify.Leftover
import GrpcServer.Communication
import GrpcServer.Manager.PolicyManager
import GrpcServer.CMemory.Fill
import GrpcServer.Worker.Policy
import GrpcServer.Worker.Policy.Bounds
import GrpcServer.Worker.Policy.Encoding
import GrpcServer.Worker.Policy.IpLists
import GrpcServer.Worker.MainLoop
import GrpcServer.Worker.MainLoop.Coherence
import GrpcServer.Manager.Manager
import GrpcServer.Protocol
import GrpcServer.Protocol.Snapshot
import GrpcServer.Protocol.Agreement
import GrpcServer.Protocol.Restart
import GrpcServer.Protocol.Versions
import GrpcServer.Protocol.Enforcement
import GrpcServer.Protocol.Filtering
import GrpcServer.AdminServer
import GrpcServer.AdminServer.Concurrent
import GrpcServer.DpdkFilter.ProcPackets.Counters
import GrpcServer.DpdkFilter.Cache.Sqlite
import GrpcServer.DpdkFilter.Cache.Persistence
import GrpcServer.DpdkFilter.Cache.Lifetimes
import GrpcServer.DpdkFilter.Cache.Lifetimes.Restored
import GrpcServer.DpdkFilter.Cache.Lifetimes.RealTime
import GrpcServer.DpdkFilter.Cache.Heap
import GrpcServer.DpdkFilter.Cache.Heap.Ledger
import GrpcServer.DpdkFilter.Cache.Snapshot
import GrpcServer.DpdkFilter.ParsPackets.Domain
import GrpcServer.DpdkFilter.ParsPackets.Bounds
import GrpcServer.DpdkFilter.ParsPackets.RoundTrip
import GrpcServer.DpdkFilter.ProcPackets.PacketType
import GrpcServer.Worker.Policy.Categories
import GrpcServer.Manager.PolicyManager.Merge
import GrpcServer.Service
import GrpcServer.Service.Check
import GrpcServer.DataServer
import GrpcServer.Admin
import GrpcServer.DpdkFilter.ProcPackets.BlockedAddress
import GrpcServer.Worker.Policy.DomainLists
import GrpcServer.DpdkFilter.ProcPackets.Provenance
import GrpcServer.DpdkFilter.Cache.Calls
import GrpcServer.Worker.Classify.Order
import GrpcServer.DpdkFilter.Cache.Transaction
import GrpcServer.DpdkFilter.Cache.Resave
import GrpcServer.Worker.Policy.Strengthening
import GrpcServer.DpdkFilter.ParsPackets.Loops
import GrpcServer.IStream
import GrpcServer.Worker.MetricsCollector
import GrpcServer.Service.Extract
import GrpcServer.DpdkFilter.ProcPackets.Neighbor
import GrpcServer.DpdkFilter.ProcPackets.NonIp
import GrpcServer.NetUrl
import GrpcServer.Service.HttpClient
import GrpcServer.Service.HttpClient.Query
import GrpcServer.DataServer.Deployed
import GrpcServer.DataServer.Interleaved
import GrpcServer.DpdkFilter.Cache.Heap.Refinement
import GrpcServer.DeviceTable
import GrpcServer.DpdkFilter.NetPort
import GrpcServer.DpdkFilter.NetPort.Laws
import GrpcServer.DpdkFilter.NetPort.Slots
import GrpcServer.DpdkFilter.ProcPackets.Rewrite
import GrpcServer.Leftmost
import GrpcServer.Protocol.EndToEnd
import GrpcServer.Protocol.Answers
import GrpcServer.Protocol.Staleness
import GrpcServer.Service.Provider
import GrpcServer.Worker.MetricsCollector.CpuUsage
import GrpcServer.Worker.Startup
import GrpcServer.Worker.Startup.Managed
import GrpcServer.Worker.Startup.Teardown
import GrpcServer.Worker.Startup.Success
import GrpcServer.Protocol.Switching
import GrpcServer.DpdkFilter.Cache.Serialised
