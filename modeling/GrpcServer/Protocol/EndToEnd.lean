import GrpcServer.DataServer.Deployed
import GrpcServer.Manager.PolicyManager.Merge
import GrpcServer.Protocol.Enforcement
import GrpcServer.Worker.Policy.DomainLists
import GrpcServer.Worker.Policy.IpLists

open c_memory transition ttl_cache grpc_server.service grpc_server.dpdk_filter grpc_server.communication
open grpc_server.manager grpc_server.worker grpc_server.grpcserver

namespace grpc_server.protocol

variable {V S : Type}

/-- The block lists of a worker's policy can be stored: no name is empty, has a
zero byte or more than 259 bytes, no address is one that ends the scan of its
array, and the addresses fit. -/
structure Storage (inet : Inet) (pol : WorkerPolicy S) : Prop where
  fits : Fits pol
  names : ∀ name ∈ pol.block_domains, Storable name ∧ name ≠ []
  room4 : (parsed4 inet pol.block_ips).length ≤ MAX_IP4
  room6 : (parsed6 inet pol.block_ips).length ≤ MAX_IP6
  ip4 : ∀ ip4 ∈ parsed4 inet pol.block_ips, ip4 ≠ fun _ => 0
  ip6 : ∀ ip6 ∈ parsed6 inet pol.block_ips, ip6 0 ≠ 0

section Stored

variable {inet : Inet} {pol : WorkerPolicy S} (trust : List (Sigma fun _ : Str => Int32))

theorem Storage.check_domain_iff (h : Storage inet pol) (domain : Str) :
    check_domain_is_block domain (encoding inet trust pol) = true ↔ domain ∈ pol.block_domains := by
  have hvisible : visible pol.block_domains = pol.block_domains := by
    refine List.takeWhile_eq_self_iff.mpr fun name hname => ?_
    simpa using (h.names name hname).2
  rw [check_block_encoding inet trust h.fits.2.1 fun name hname => (h.names name hname).1, hvisible]

end Stored

end grpc_server.protocol
