import BlkSwitch.Spec.TargetQueue

/-! A queue of the nvmet-tcp target and its connection (drivers/nvme/target/tcp.c). Until the host
has sent its icreq the queue is connecting: there are no digests, and no other PDU is taken. From
then on it is a live queue. -/

namespace BlkSwitch.Target

open Bytes NvmetTcpQueue

def NVME_TCP_PFV_1_0 : UInt16 := 0x0
def NVME_TCP_HDR_DIGEST_ENABLE : UInt8 := 0x1
def NVME_TCP_DATA_DIGEST_ENABLE : UInt8 := 0x2

inductive QueueState
  | connecting
  | live
  | disconnecting
  deriving DecidableEq, Repr

structure NvmetTcpConn where
  state : QueueState
  /-- with the digests the peers have agreed on, and none before -/
  config : Config
  q : NvmetTcpQueue

structure NvmeTcpIcreqPdu where
  hdr : NvmeTcpHdr
  pfv : UInt16
  hpda : UInt8
  digest : UInt8
  deriving DecidableEq, Repr

def NvmeTcpIcreqPdu.decode (b : List Byte) : NvmeTcpIcreqPdu :=
  ⟨NvmeTcpHdr.decode b, u16At b 8, u8At b 10, u8At b 11⟩

/-- `struct nvme_tcp_icresp_pdu`, with a `maxdata` of 0x400000. -/
def icresp (digest : UInt8) : List Byte :=
  (NvmeTcpHdr.mk nvmeTcpIcresp 0 128 0 128).encode ++ le 2 NVME_TCP_PFV_1_0.toNat ++
    [0, digest] ++ le 4 0x400000 ++
    List.replicate 112 0

namespace NvmetTcpConn

variable (s : NvmetTcpConn)

/-- `nvmet_tcp_handle_icreq`, where `crypto` is what `nvmet_tcp_alloc_crypto` returns. A wrong
length is reported and gone on with. `true` is an error that takes the connection down. -/
def nvmetTcpHandleIcreq (crypto : ℤ) : Bool × NvmetTcpConn :=
  let icreq := NvmeTcpIcreqPdu.decode s.q.pdu
  let s := if icreq.hdr.plen ≠ 128 then { s with q := nvmetTcpFatalError s.q } else s
  if icreq.pfv ≠ NVME_TCP_PFV_1_0 ∨ icreq.hpda ≠ 0 then (true, s)
  else
    let hdr := icreq.digest &&& NVME_TCP_HDR_DIGEST_ENABLE != 0
    let data := icreq.digest &&& NVME_TCP_DATA_DIGEST_ENABLE != 0
    let s := { s with config := { s.config with hdrDigest := hdr, dataDigest := data } }
    if (hdr || data) && crypto != 0 then (true, s)
    else
      let pdu := icresp ((if hdr then NVME_TCP_HDR_DIGEST_ENABLE else 0) |||
        if data then NVME_TCP_DATA_DIGEST_ENABLE else 0)
      let p := { s.q with pdu := pdu }.kernelSend pdu
      if p.1 < 0 then (p.1 != -EAGAIN, { s with q := p.2 })
      else (false, { s with state := .live, q := nvmetPrepareReceivePdu p.2 })

def nvmetTcpDoneRecvPdu (crypto : ℤ) (env : Env) : Bool × NvmetTcpConn :=
  if s.state = .connecting then
    if (NvmeTcpHdr.decode s.q.pdu).type ≠ nvmeTcpIcreq then
      (true, { s with q := nvmetTcpFatalError s.q })
    else s.nvmetTcpHandleIcreq crypto
  else
    let p := doneRecvLive s.config env s.q
    (p.1, { s with q := p.2 })

/-- One read of the receive path that returned `b`; `none` when it ends at a NULL pointer. -/
def nvmetTcpTryRecv (crypto : ℤ) (env : Env) (b : List Byte) : Option NvmetTcpConn :=
  let s' :=
    if s.q.rcvState = .pdu then
      let p := tryRecvHeader s.config (fun q => { s with q := q })
        (fun q => { s with q := q }.nvmetTcpDoneRecvPdu crypto env) b s.q
      if p.1 then { p.2 with q := nvmetTcpFatalError p.2.q } else p.2
    else { s with q := Target.nvmetTcpTryRecv s.config env b s.q }
  if s'.q.oops then none else some s'

end NvmetTcpConn

end BlkSwitch.Target
