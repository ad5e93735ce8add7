import GrpcServer.CMemory.CString
import Mathlib.Data.Finmap

open c_memory

namespace grpc_server.communication

/-- `message WorkerPolicy`. `S` stands for `google.protobuf.Struct`, which the
worker never looks into. -/
structure WorkerPolicy (S : Type) where
  block_categories : List Str
  block_by_trust : Finmap fun _ : Str => Int32
  block_domains : List Str
  allow_domains : List Str
  block_ips : List Str
  allow_ips : List Str
  min_trust_level : Int32
  ttl_ip : Int32
  ttl_domain : Int32
  config_version : UInt64
  extra : Option S
deriving DecidableEq

/-- `&pb.WorkerPolicy{}`. -/
def WorkerPolicy.empty {S : Type} : WorkerPolicy S :=
  { block_categories := [], block_by_trust := ∅, block_domains := [], allow_domains := [], block_ips := [],
    allow_ips := [], min_trust_level := 0, ttl_ip := 0, ttl_domain := 0, config_version := 0, extra := none }

def WorkerPolicy.with_version {S : Type} (policy : WorkerPolicy S) (config_version : UInt64) : WorkerPolicy S :=
  { policy with config_version }

/-- The two policies agree up to `config_version`. -/
def WorkerPolicy.SameRules {S : Type} (first second : WorkerPolicy S) : Prop :=
  first.with_version 0 = second.with_version 0

inductive GetPolicyResult (S : Type) where
  | provided (policy : WorkerPolicy S)
  | unchanged

structure GetPolicyResponse (S : Type) where
  result : GetPolicyResult S
  filtering_enabled : Bool

end grpc_server.communication
