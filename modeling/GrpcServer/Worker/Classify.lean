import GrpcServer.DpdkFilter.Types

open c_memory grpc_server.dpdk_filter

namespace grpc_server.worker

/-- `message ClassifyResponse`. -/
structure ClassifyResponse where
  categories : List Str
  trust_level : Int32

/-- `Worker::classify` after a successful call. Slots behind the response's
categories keep what `out_req` held, and so does the last byte of each slot
that is written. -/
def classify (resp : ClassifyResponse) (out_req : RequestedClassification) : RequestedClassification :=
  { get_trust_level := resp.trust_level
    get_categories := fun i =>
      match resp.categories[i.val]? with
      | some category => strncpy (out_req.get_categories i) category (CATEGORY_MAX_LEN - 1)
      | none => out_req.get_categories i }

end grpc_server.worker
