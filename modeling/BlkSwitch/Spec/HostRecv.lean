import BlkSwitch.Spec.HostRequest
import Mathlib.Algebra.Order.Monoid.Unbundled.WithTop

/-! The receive path of the nvme-tcp host (drivers/nvme/host/tcp.c): `nvme_tcp_recv_skb` takes
the stream as it comes, in pieces of any size, finds the response, R2T and C2H data PDUs in
it, stores the data of reads and ends requests. Copies out of the socket buffer succeed; where a
NULL pointer is dereferenced, nothing is returned. -/

namespace BlkSwitch.Host

open Bytes

def NVME_AQ_BLK_MQ_DEPTH : UInt16 := 31

/-- What a function returns, `⊥` if it does not. -/
abbrev Ret := WithBot ℤ

inductive RecvEvent
  /-- `nvme_end_request`, and what had been stored for the request by then -/
  | endRequest (tag : UInt16) (status : UInt16) (result : UInt64) (data : List Byte)
  | completeAsyncEvent (status : UInt16) (result : UInt64)
  /-- `nvme_tcp_queue_request`, for an R2T -/
  | queueRequest (tag : UInt16)
  | receiveFailed (ret : Ret)
  deriving DecidableEq, Repr

inductive RecvState
  | pdu
  | ddgst
  | data
  deriving DecidableEq, Repr

structure RecvQueue where
  /-- `blk_mq_tag_to_rq` -/
  rqs : UInt16 → Option NvmeTcpRequest
  /-- the bytes copied through the iterator of a request since it was set up -/
  stored : UInt16 → List Byte
  /-- the header buffer, sizeof(struct nvme_tcp_rsp_pdu) + hdgst bytes -/
  pdu : List Byte
  pduRemaining : ℕ
  pduOffset : ℕ
  /-- a `size_t` -/
  dataRemaining : ℕ
  ddgstRemaining : ℕ
  /-- what `rcv_hash` has been fed -/
  rcvHash : List Byte
  recvDdgst : List Byte
  expDdgst : List Byte
  nrCqe : ℕ
  rdEnabled : Bool
  log : List RecvEvent

namespace RecvQueue

variable (q : RecvQueue)

def nvmeTcpRecvState : RecvState :=
  if q.pduRemaining ≠ 0 then .pdu else if q.ddgstRemaining ≠ 0 then .ddgst else .data

/-- `data_remaining` is set to -1. -/
def nvmeTcpInitRecvCtx (c : Config) : RecvQueue :=
  { q with
    pduRemaining := 24 + nvmeTcpHdgstLen c
    pduOffset := 0
    dataRemaining := 2 ^ 64 - 1
    ddgstRemaining := 0 }

def setRq (tag : UInt16) (r : NvmeTcpRequest) : RecvQueue :=
  { q with rqs := Function.update q.rqs tag (some r) }

def tell (e : RecvEvent) : RecvQueue := { q with log := q.log ++ [e] }

/-- `nvme_end_request` with the count of completions. -/
def endRequest (tag status : UInt16) (result : UInt64) : RecvQueue :=
  { q with
    nrCqe := q.nrCqe + 1
    log := q.log ++ [.endRequest tag status result (q.stored tag)] }

end RecvQueue

open RecvQueue

/-- A failed check leads to `nvme_tcp_error_recovery` here and in `nvme_tcp_recv_skb`. -/
def nvmeTcpProcessNvmeCqe (cqe : NvmeCompletion) (q : RecvQueue) : ℤ × RecvQueue :=
  match q.rqs cqe.commandId with
  | none => (-EINVAL, q)
  | some _ => (0, q.endRequest cqe.commandId cqe.status cqe.result)

def nvmeTcpHandleC2hData (pdu : NvmeTcpDataPdu) (q : RecvQueue) : ℤ × RecvQueue :=
  match q.rqs pdu.commandId with
  | none => (-ENOENT, q)
  | some r =>
    if r.rq.blkRqPayloadBytes = 0 then (- EIO, q)
    else
      let q := { q with dataRemaining := pdu.second.toNat }
      if pdu.hdr.flags &&& NVME_TCP_F_DATA_SUCCESS ≠ 0 ∧
          pdu.hdr.flags &&& NVME_TCP_F_DATA_LAST = 0 then
        (-EPROTO, q)
      else (0, q)

def nvmeTcpHandleComp (c : Config) (cqe : NvmeCompletion) (q : RecvQueue) : ℤ × RecvQueue :=
  if c.qid = 0 ∧ NVME_AQ_BLK_MQ_DEPTH ≤ cqe.commandId then
    (0, q.tell (.completeAsyncEvent cqe.status cqe.result))
  else nvmeTcpProcessNvmeCqe cqe q

def nvmeTcpHandleR2t (c : Config) (pdu : NvmeTcpR2tPdu) (q : RecvQueue) : ℤ × RecvQueue :=
  match q.rqs pdu.commandId with
  | none => (-ENOENT, q)
  | some r =>
    match nvmeTcpSetupH2cDataPdu c r pdu with
    | (false, r) => (-EPROTO, q.setRq pdu.commandId r)
    | (true, r) =>
      (0, (q.setRq pdu.commandId { r with state := .h2cPdu, offset := 0 }).tell
        (.queueRequest pdu.commandId))

/-- The digest is computed over the received one; a buffer that differs afterwards is not used
again. What lies behind the buffer is left open. -/
def nvmeTcpVerifyHdgst (c : Config) (pdu : List Byte) : ℤ :=
  let hdr := NvmeTcpHdr.decode pdu
  if hdr.flags &&& NVME_TCP_F_HDGST = 0 then -EPROTO
  else if (pdu.drop hdr.hlen.toNat).take NVME_TCP_DIGEST_LENGTH ≠
      c.crc (pdu.take hdr.hlen.toNat) then
    - EIO
  else 0

def nvmeTcpCheckDdgst (c : Config) (pdu : List Byte) : ℤ :=
  let hdr := NvmeTcpHdr.decode pdu
  let len := hdr.plen - hdr.hlen.toUInt32 -
    if hdr.flags &&& NVME_TCP_F_HDGST ≠ 0 then UInt32.ofNat (nvmeTcpHdgstLen c) else 0
  if len ≠ 0 ∧ hdr.flags &&& NVME_TCP_F_DDGST = 0 then -EPROTO else 0

section Pieces

variable (c : Config)

/-- What `nvme_tcp_recv_pdu` does with a whole header. -/
def recvHeader (q : RecvQueue) : ℤ × RecvQueue :=
  let hdr := NvmeTcpHdr.decode q.pdu
  let ret := if c.hdrDigest then nvmeTcpVerifyHdgst c q.pdu else 0
  if ret ≠ 0 then (ret, q)
  else
    let ret := if c.dataDigest then nvmeTcpCheckDdgst c q.pdu else 0
    if ret ≠ 0 then (ret, q)
    else
      let q := if c.dataDigest then { q with rcvHash := [] } else q
      if hdr.type = nvmeTcpC2hData then nvmeTcpHandleC2hData (NvmeTcpXferPdu.decode q.pdu) q
      else if hdr.type = nvmeTcpRsp then
        nvmeTcpHandleComp c (NvmeCompletion.decodeAt q.pdu 8) (q.nvmeTcpInitRecvCtx c)
      else if hdr.type = nvmeTcpR2t then nvmeTcpHandleR2t c (NvmeTcpXferPdu.decode q.pdu)
        (q.nvmeTcpInitRecvCtx c)
      else (-EINVAL, q)

/-- Each piece returns its result, the queue and the bytes it leaves. -/
def nvmeTcpRecvPdu (b : List Byte) (q : RecvQueue) : Ret × RecvQueue × List Byte :=
  let n := min b.length q.pduRemaining
  let q := { q with
    pdu := writeAt q.pdu q.pduOffset (b.take n)
    pduRemaining := q.pduRemaining - n
    pduOffset := q.pduOffset + n }
  if q.pduRemaining ≠ 0 then (0, q, b.drop n)
  else
    let p := recvHeader c q
    (p.1, p.2, b.drop n)

/-- An iterator that is used up goes on with the next bio, if there is one. `curr_bio->bi_next` is
read before `curr_bio` is checked. -/
def nextBio (r : NvmeTcpRequest) : Ret × NvmeTcpRequest :=
  if r.iter.count = 0 then
    if r.currBio = [] then (⊥, r)
    else
      let r := { r with currBio := r.currBio.tail }
      if r.currBio = [] then (↑(- EIO), r) else (0, { r with iter := r.initIter })
  else (0, r)

/-- The loop of `nvme_tcp_recv_data` with `len` bytes to copy, of what is at hand and what the PDU
has left: both go down together. It returns whether there was room, and the bytes copied. A turn
copies a byte or goes to the next bio, so the fuel given below is never used up. -/
def recvDataLoop : ℕ → ℕ → NvmeTcpRequest → Ret × NvmeTcpRequest × ℕ
  | 0, _, r => (0, r, 0)
  | fuel + 1, len, r =>
    if len = 0 then (0, r, 0)
    else
      match nextBio r with
      | (ret, r) =>
        if ret ≠ 0 then (ret, r, 0)
        else
          let n := min len r.iter.count
          let p := recvDataLoop fuel (len - n) { r with iter := r.iter.advance n }
          (p.1, p.2.1, n + p.2.2)

/-- `nvme_tcp_end_request` for NVME_SC_SUCCESS, if the data PDU asks for it. -/
def endIfSuccess (pdu : NvmeTcpDataPdu) (q : RecvQueue) : RecvQueue :=
  if pdu.hdr.flags &&& NVME_TCP_F_DATA_SUCCESS ≠ 0 then q.endRequest pdu.commandId 0 0 else q

def nvmeTcpRecvData (b : List Byte) (q : RecvQueue) : Ret × RecvQueue × List Byte :=
  let pdu := NvmeTcpXferPdu.decode q.pdu
  match q.rqs pdu.commandId with
  | none => (↑(-ENOENT), q, b)
  | some r =>
    let len := min b.length q.dataRemaining
    let p := recvDataLoop (len + r.currBio.length + 1) len r
    let n := p.2.2
    let q : RecvQueue := { q.setRq pdu.commandId p.2.1 with
      stored := Function.update q.stored pdu.commandId (q.stored pdu.commandId ++ b.take n)
      rcvHash := if c.dataDigest then q.rcvHash ++ b.take n else q.rcvHash
      dataRemaining := q.dataRemaining - n }
    if p.1 = ⊥ then (⊥, q, b.drop n)
    else if p.1 ≠ 0 then (p.1, q.nvmeTcpInitRecvCtx c, b.drop n)
    else if q.dataRemaining ≠ 0 then (0, q, b.drop n)
    else if c.dataDigest then
      (0, { q with expDdgst := c.crc q.rcvHash, ddgstRemaining := NVME_TCP_DIGEST_LENGTH },
        b.drop n)
    else (0, (endIfSuccess pdu q).nvmeTcpInitRecvCtx c, b.drop n)

/-- The request is looked up again, and not checked. -/
def nvmeTcpRecvDdgst (b : List Byte) (q : RecvQueue) : Ret × RecvQueue × List Byte :=
  let pdu := NvmeTcpXferPdu.decode q.pdu
  let n := min b.length q.ddgstRemaining
  let q := { q with
    recvDdgst := writeAt q.recvDdgst (NVME_TCP_DIGEST_LENGTH - q.ddgstRemaining) (b.take n)
    ddgstRemaining := q.ddgstRemaining - n }
  if q.ddgstRemaining ≠ 0 then (0, q, b.drop n)
  else if q.recvDdgst ≠ q.expDdgst then (↑(- EIO), q, b.drop n)
  else if pdu.hdr.flags &&& NVME_TCP_F_DATA_SUCCESS ≠ 0 ∧ q.rqs pdu.commandId = none then
    (⊥, q, b.drop n)
  else (0, (endIfSuccess pdu q).nvmeTcpInitRecvCtx c, b.drop n)

def recvPiece (b : List Byte) (q : RecvQueue) : Ret × RecvQueue × List Byte :=
  match q.nvmeTcpRecvState with
  | .pdu => nvmeTcpRecvPdu c b q
  | .data => nvmeTcpRecvData c b q
  | .ddgst => nvmeTcpRecvDdgst c b q

/-- The loop of `nvme_tcp_recv_skb`. A turn takes a byte or ends a data PDU that has none left, so
the fuel given below is never used up. -/
def recvSkbLoop : ℕ → List Byte → RecvQueue → Ret × RecvQueue
  | 0, _, q => (0, q)
  | fuel + 1, b, q =>
    if b = [] then (0, q)
    else
      match recvPiece c b q with
      | (ret, q, b) =>
        if ret = ⊥ then (⊥, q)
        else if ret ≠ 0 then (ret, { q.tell (.receiveFailed ret) with rdEnabled := false })
          else recvSkbLoop fuel b q

/-- `nvme_tcp_recv_skb`: the number of bytes, or an error. -/
def nvmeTcpRecvSkb (b : List Byte) (q : RecvQueue) : Ret × RecvQueue :=
  match recvSkbLoop c (2 * b.length + 1) b q with
  | (ret, q) => (if ret ≠ 0 then ret else ((b.length : ℤ) : Ret), q)

end Pieces

def blankRecvQueue (c : Config) : RecvQueue where
  rqs := fun _ => none
  stored := fun _ => []
  pdu := List.replicate (24 + nvmeTcpHdgstLen c) 0
  pduRemaining := 24 + nvmeTcpHdgstLen c
  pduOffset := 0
  dataRemaining := 2 ^ 64 - 1
  ddgstRemaining := 0
  rcvHash := []
  recvDdgst := [0, 0, 0, 0]
  expDdgst := [0, 0, 0, 0]
  nrCqe := 0
  rdEnabled := true
  log := []

end BlkSwitch.Host
