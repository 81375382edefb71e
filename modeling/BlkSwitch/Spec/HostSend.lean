import BlkSwitch.Spec.HostRequest

/-! The send path of one host queue after a request has been picked: the caravan, and what
`nvme_tcp_try_send` does from the caravan flush on (drivers/nvme/host/tcp.c). host/i10.c has
the same functions with half the aggregation size, so that size and the choice of the legacy
path are parameters here. -/

namespace BlkSwitch.Host

open Bytes

def I10_CARAVAN_CAPACITY : ℕ := 65536
def I10_AGGREGATION_SIZE : ℕ := 16
def I10_MAX_AGGREGATION_SIZE : ℕ := 32
def I10_MIN_DOORBELL_TIMEOUT : ℤ := 25

/-- Where a caravan entry points: into the header buffer of a request, or into a mapped
page. The bytes are read when the caravan is sent, not when the entry is made. -/
inductive IovBase
  | pdu (tag off : ℕ)
  | page (v : BioVec) (off : ℕ)
  deriving DecidableEq, Repr

structure Kvec where
  base : IovBase
  len : ℕ
  deriving DecidableEq, Repr

structure SendQueue where
  /-- the requests of the queue, by tag -/
  reqs : ℕ → NvmeTcpRequest
  request : Option ℕ
  caravanIovs : List Kvec
  caravanLen : ℕ
  caravanMapped : List BioVec
  sendNow : Bool
  /-- what `snd_hash` has digested since its last init -/
  sndHash : List Byte
  /-- the bytes the socket has accepted -/
  sent : List Byte
  sockNospace : Bool
  /-- the socket's answers to come; a socket with none left takes everything -/
  replies : List SockReply

def Kvec.bytes (reqs : ℕ → NvmeTcpRequest) (k : Kvec) : List Byte :=
  match k.base with
  | .pdu tag off => ((reqs tag).pdu.drop off).take k.len
  | .page v off => (v.data.drop off).take k.len

namespace SendQueue

def caravanBytes (q : SendQueue) : List Byte := q.caravanIovs.flatMap (Kvec.bytes q.reqs)

def modifyReq (q : SendQueue) (t : ℕ) (f : NvmeTcpRequest → NvmeTcpRequest) : SendQueue :=
  { q with reqs := Function.update q.reqs t (f (q.reqs t)) }

/-- `kernel_sendpage` and `kernel_sendmsg`: the socket takes a prefix, or fails. -/
def kernelSend (q : SendQueue) (b : List Byte) : ℤ × SendQueue :=
  match q.replies with
  | [] => (b.length, { q with sent := q.sent ++ b })
  | .all :: rs => (b.length, { q with sent := q.sent ++ b, replies := rs })
  | .ret r :: rs =>
    if r ≤ 0 then (r, { q with replies := rs })
    else
      let n := min r.toNat b.length
      (n, { q with sent := q.sent ++ b.take n, replies := rs })

def i10HostIsCaravanFull (aggr : ℕ) (q : SendQueue) : Bool :=
  decide (q.caravanLen ≥ I10_CARAVAN_CAPACITY) || decide (q.caravanIovs.length ≥ aggr * 2) ||
    decide (q.caravanMapped.length ≥ aggr)

def append (q : SendQueue) (k : Kvec) : SendQueue :=
  { q with
    caravanIovs := q.caravanIovs ++ [k]
    caravanLen := q.caravanLen + k.len
    caravanMapped :=
      match k.base with
      | .pdu _ _ => q.caravanMapped
      | .page v _ => q.caravanMapped ++ [v] }

/-- The three append sites: straight to the socket on the legacy path, else into the
caravan; `none` when the caravan is full. -/
def emit (aggr : ℕ) (legacy : Bool) (q : SendQueue) (k : Kvec) : Option ℤ × SendQueue :=
  if legacy then
    let p := q.kernelSend (k.bytes q.reqs)
    (some p.1, p.2)
  else if q.i10HostIsCaravanFull aggr then (none, { q with sendNow := true })
  else (some k.len, q.append k)

end SendQueue

def nvmeTcpDoneSendReq (q : SendQueue) : SendQueue := { q with request := none }

section TrySend

variable (c : Config) (aggr : ℕ) (legacy : Bool) (t : ℕ)

/-- `nvme_tcp_hdgst` on a header of `len` bytes, whose digest goes right behind it. -/
def nvmeTcpHdgst (len : ℕ) (r : NvmeTcpRequest) : NvmeTcpRequest :=
  { r with pdu := writeAt r.pdu len (c.crc (r.pdu.take len)) }

/-- What follows a chunk of `ret` bytes that got through. -/
def dataSentUpdate (chunk : List Byte) (ret : ℕ) (q : SendQueue) : SendQueue :=
  let q := q.modifyReq t (·.advanceReq ret)
  if c.dataDigest then { q with sndHash := q.sndHash ++ chunk.take ret } else q

def dataDone (q : SendQueue) : SendQueue :=
  if c.dataDigest then
    q.modifyReq t fun r => { r with ddgst := c.crc q.sndHash, state := .ddgst, offset := 0 }
  else nvmeTcpDoneSendReq q

/-- The loop of `nvme_tcp_try_send_data`. Every turn that goes on sends at least one byte of
the PDU, so the fuel given below is never used up. -/
def trySendDataLoop : ℕ → SendQueue → ℤ × SendQueue
  | 0, q => (-EAGAIN, q)
  | fuel + 1, q =>
    let r := q.reqs t
    let k : Kvec := ⟨.page r.reqCurBvec r.iter.iovOffset, r.reqCurLength⟩
    let last := r.pduLastSend k.len
    match q.emit aggr legacy k with
    | (none, q) => (1, q)
    | (some ret, q) =>
      if ret ≤ 0 then (ret, q)
      else
        let q := dataSentUpdate c t (k.bytes q.reqs) ret.toNat q
        if last ∧ ret = k.len then (1, dataDone c t q) else trySendDataLoop fuel q

def nvmeTcpTrySendData (q : SendQueue) : ℤ × SendQueue :=
  trySendDataLoop c aggr legacy t ((q.reqs t).pduLen - (q.reqs t).pduSent + 1) q

/-- The header functions: `len` bytes of header (with its digest) remain; `done` is what
happens once they are through. The `pdu + req->offset` of a caravan entry counts whole headers. -/
def trySendHdr (size : ℕ) (sendNow : Bool) (done : SendQueue → SendQueue) (q : SendQueue) :
    ℤ × SendQueue :=
  let off := (q.reqs t).offset
  let len := size + nvmeTcpHdgstLen c - off
  let q := if c.hdrDigest ∧ off = 0 then q.modifyReq t (nvmeTcpHdgst c size) else q
  match q.emit aggr legacy ⟨.pdu t (if legacy then off else size * off), len⟩ with
  | (none, q) => (1, q)
  | (some ret, q) =>
    let q := if !legacy && sendNow then { q with sendNow := true } else q
    if ret ≤ 0 then (ret, q)
    else if len - ret.toNat = 0 then (1, done q)
    else (-EAGAIN, q.modifyReq t fun r => { r with offset := r.offset + ret.toNat })

def startData (q : SendQueue) : SendQueue :=
  if c.dataDigest then { q with sndHash := [] } else q

def nvmeTcpTrySendCmdPdu (q : SendQueue) : ℤ × SendQueue :=
  let r := q.reqs t
  trySendHdr c aggr legacy t 72 (i10HostIsNodelayPath r)
    (fun q =>
      if r.hasInlineData c then
        (startData c q).modifyReq t fun r => { r with state := .data, iter := r.initIter }
      else nvmeTcpDoneSendReq q) q

def nvmeTcpTrySendDataPdu (q : SendQueue) : ℤ × SendQueue :=
  trySendHdr c aggr legacy t 24 false
    (fun q => (startData c q).modifyReq t fun r =>
      { r with state := .data, iter := if r.dataSent = 0 then r.initIter else r.iter }) q

/-- `&req->ddgst + req->offset` counts in units of `__le32`. -/
def nvmeTcpTrySendDdgst (q : SendQueue) : ℤ × SendQueue :=
  let r := q.reqs t
  let b := ((r.ddgst ++ r.afterDdgst).drop (NVME_TCP_DIGEST_LENGTH * r.offset)).take
    (NVME_TCP_DIGEST_LENGTH - r.offset)
  match q.kernelSend b with
  | (ret, q) =>
    if ret ≤ 0 then (ret, q)
    else if r.offset + ret.toNat = NVME_TCP_DIGEST_LENGTH then (1, nvmeTcpDoneSendReq q)
    else (-EAGAIN, q.modifyReq t fun r => { r with offset := r.offset + ret.toNat })

def stateOf (q : SendQueue) : SendState := (q.reqs t).state

/-- A stage of `nvme_tcp_try_send`: run it in its state, and stop when it did not succeed. -/
def stage (st : SendState) (f : SendQueue → ℤ × SendQueue)
    (next : ℤ → SendQueue → ℤ × SendQueue) (ret : ℤ) (q : SendQueue) : ℤ × SendQueue :=
  if stateOf t q = st then
    match f q with
    | (ret, q) => if ret ≤ 0 then (ret, q) else next ret q
  else next ret q

/-- `nvme_tcp_try_send` from its dispatch on `req->state` to the label `done`. -/
def trySendReq (q : SendQueue) : ℤ × SendQueue :=
  let rest := stage t .h2cPdu (nvmeTcpTrySendDataPdu c aggr legacy t) <|
    stage t .data (nvmeTcpTrySendData c aggr legacy t) <|
    stage t .ddgst (nvmeTcpTrySendDdgst t) Prod.mk
  let p :=
    stage t .cmdPdu (nvmeTcpTrySendCmdPdu c aggr legacy t)
      (fun ret q' =>
        if stateOf t q = .cmdPdu ∧ (q'.reqs t).hasInlineData c = false then (ret, q')
        else rest ret q')
      1 q
  (if p.1 = -EAGAIN then 0 else p.1, p.2)

end TrySend

def caravanSent (q : SendQueue) : SendQueue :=
  { q with caravanIovs := [], caravanMapped := [], caravanLen := 0, sendNow := false }

/-- `nvme_tcp_try_send` from the caravan flush on, when `flush` asks for one. `nospace` is
what `nvme_tcp_sndbuf_nospace` finds. -/
def trySendRest (c : Config) (aggr : ℕ) (legacy flush nospace : Bool) (q : SendQueue) :
    ℤ × SendQueue :=
  let appendReq (q : SendQueue) :=
    match q.request with
    | none => (0, q)
    | some t => trySendReq c aggr legacy t q
  if flush then
    if nospace then (0, { q with sockNospace := true })
    else
      match q.kernelSend q.caravanBytes with
      | (ret, q) => if ret ≤ 0 then (ret, q) else appendReq (caravanSent q)
  else appendReq q

end BlkSwitch.Host
