import GrpcServer.DpdkFilter.ProcPackets

open c_memory

namespace grpc_server.dpdk_filter

/-- `struct net_port` with the names of its device. The pool of buffers is left
out. -/
structure NamedPort extends NetPort where
  iface_name : Str
  dev_name : Str
  dev_args : Str

/-- The functions of DPDK that `net_port.c` calls, over an arbitrary state of DPDK.
The numbers of queues and the sizes of rings, the same in every call, are left out. -/
structure EthDev (σ : Type) where
  rte_vdev_init : Str → Str → σ → ℤ × σ
  rte_vdev_uninit : Str → σ → ℤ × σ
  rte_eth_dev_count_avail : σ → UInt16
  rte_eth_dev_info_get : UInt16 → σ → ℤ
  /-- `none` if it does not return 0. -/
  rte_eth_dev_get_name_by_port : UInt16 → σ → Option Str
  rte_eth_dev_is_valid_port : UInt16 → σ → Bool
  rte_eth_dev_configure : UInt16 → σ → ℤ × σ
  rte_eth_rx_queue_setup : UInt16 → σ → ℤ × σ
  rte_eth_tx_queue_setup : UInt16 → σ → ℤ × σ
  rte_eth_macaddr_get : UInt16 → σ → ℤ × Slot 6
  rte_eth_dev_start : UInt16 → σ → ℤ × σ
  rte_eth_promiscuous_enable : UInt16 → σ → ℤ × σ
  rte_eth_dev_stop : UInt16 → σ → ℤ × σ
  rte_eth_dev_close : UInt16 → σ → ℤ × σ

abbrev EINVAL : ℤ := 22

section Names

/-- `snprintf` into an array of `size` bytes. -/
def snprintf (size : ℕ) (s : Str) : Str := s.take (size - 1)

/-- What the two kinds of ports have in common: a zeroed struct with names. -/
def init_struct_port (calloc_ok : Bool) (iface_name dev_name dev_args : Str) : Option NamedPort :=
  if calloc_ok then some
    { port_id := -1
      mac_addr := fun _ => 0
      neighbor_mac := fun _ => 0
      neighbor_learned := false
      iface_name := iface_name.take 31
      dev_name := snprintf 64 dev_name
      dev_args := snprintf 256 dev_args }
  else none

def init_struct_tap_port (calloc_ok : Bool) (tap_iface_name : Str) : Option NamedPort :=
  init_struct_port calloc_ok tap_iface_name ("net_tap_".toUTF8.data.toList ++ tap_iface_name)
    ("iface=".toUTF8.data.toList ++ tap_iface_name ++ ", remote=".toUTF8.data.toList ++ tap_iface_name)

def init_struct_af_xdp_port (with_af_packet calloc_ok : Bool) (iface_name : Str) : Option NamedPort :=
  if with_af_packet then
    init_struct_port calloc_ok iface_name ("eth_af_packet_".toUTF8.data.toList ++ iface_name)
      ("iface=".toUTF8.data.toList ++ iface_name ++
        ",qpairs=1,blocksz=16384,framesz=2048,framecnt=4096".toUTF8.data.toList)
  else
    init_struct_port calloc_ok iface_name ("net_af_xdp_".toUTF8.data.toList ++ iface_name)
      ("iface=".toUTF8.data.toList ++ iface_name ++ ",start_queue=0,queue_count=1".toUTF8.data.toList)

theorem port_id_init_struct_port {calloc_ok : Bool} {iface_name dev_name dev_args : Str} {port : NamedPort}
    (h : init_struct_port calloc_ok iface_name dev_name dev_args = some port) : port.port_id = -1 := by
  unfold init_struct_port at h
  split at h
  · cases h
    rfl
  · cases h

end Names

section Calls

variable {σ : Type} (dpdk : EthDev σ)

/-- The loop of `find_port_by_dev_name` over the numbers that are left. -/
def find_port_in (dev_name : Str) (s : σ) : List UInt16 → Except ℤ UInt16
  | [] => .error (-1)
  | port_id :: rest =>
    if dpdk.rte_eth_dev_info_get port_id s ≠ 0 then .error (dpdk.rte_eth_dev_info_get port_id s)
    else if dpdk.rte_eth_dev_get_name_by_port port_id s = some dev_name then .ok port_id
    else find_port_in dev_name s rest

def find_port_by_dev_name (dev_name : Str) (s : σ) : Except ℤ UInt16 :=
  find_port_in dpdk dev_name s ((List.range (dpdk.rte_eth_dev_count_avail s).toNat).map UInt16.ofNat)

/-- Calls that are made in turn as long as none returns a negative number. -/
def try_calls : List (σ → ℤ × σ) → σ → ℤ × σ
  | [], s => (0, s)
  | call :: rest, s => match call s with
    | (ret, next) => if ret < 0 then (ret, next) else try_calls rest next

/-- The calls of `net_port_init` that set the device up. -/
def setup_calls (port_id : UInt16) : List (σ → ℤ × σ) :=
  [dpdk.rte_eth_dev_configure port_id, dpdk.rte_eth_rx_queue_setup port_id, dpdk.rte_eth_tx_queue_setup port_id]

def net_port_init (port : NamedPort) (s : σ) : ℤ × NamedPort × σ :=
  match dpdk.rte_vdev_init port.dev_name port.dev_args s with
  | (ret, s) =>
    if ret < 0 then (ret, port, s)
    else match find_port_by_dev_name dpdk port.dev_name s with
      | .error _ => (-1, port, (dpdk.rte_vdev_uninit port.dev_name s).2)
      | .ok port_id =>
        let port := { port with port_id }
        if !dpdk.rte_eth_dev_is_valid_port port_id s then (-EINVAL, port, (dpdk.rte_vdev_uninit port.dev_name s).2)
        else match try_calls (setup_calls dpdk port_id) s with
          | (ret, s) =>
            if ret < 0 then (ret, port, (dpdk.rte_vdev_uninit port.dev_name s).2)
            else match dpdk.rte_eth_macaddr_get port_id s with
              | (ret, mac_addr) =>
                if ret < 0 then (ret, port, (dpdk.rte_vdev_uninit port.dev_name s).2)
                else (0, { port with mac_addr, neighbor_learned := false }, s)

def net_port_start (port_id : UInt16) (s : σ) : ℤ × σ :=
  match dpdk.rte_eth_dev_start port_id s with
  | (ret, s) => if ret < 0 then (ret, s) else dpdk.rte_eth_promiscuous_enable port_id s

/-- Each of the three calls is made if those before it returned 0. -/
def net_port_close (port : NamedPort) (s : σ) : NamedPort × σ :=
  match dpdk.rte_eth_dev_stop port.port_id s with
  | (ret, s) =>
    if ret ≠ 0 then (port, s)
    else match dpdk.rte_eth_dev_close port.port_id s with
      | (ret, s) =>
        if ret ≠ 0 then (port, s)
        else match dpdk.rte_vdev_uninit port.dev_name s with
          | (ret, s) => if ret ≠ 0 then (port, s) else ({ port with port_id := -1 }, s)

end Calls

end grpc_server.dpdk_filter
