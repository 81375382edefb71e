import BlkSwitch.Spec.TargetSend

/-! The receive path of the nvmet-tcp target (drivers/nvme/target/tcp.c), one socket read at a
time: a PDU header comes in, the command is mapped and executed or asks for its data, the data
goes into the pages of the command. What the functions ask of others is a parameter: the bytes a
read returns, what `nvmet_req_init` makes of a command, and whether memory is to be had. -/

namespace BlkSwitch.Target

open Bytes NvmetTcpQueue

/-- `nvmet_req_init` accepts a command that transfers `dataLen` bytes, or completes it with an
error. -/
inductive ReqInit
  | accept (dataLen : ℕ)
  | reject (cqe : NvmeCompletion)
  deriving DecidableEq, Repr

/-- How far the allocations of `nvmet_tcp_map_data` get. -/
inductive Alloc
  | all
  | noIov
  | noSg
  deriving DecidableEq, Repr

/-- What the receive path meets on its way. -/
structure Env where
  init : ReqInit
  alloc : Alloc
  deriving DecidableEq, Repr

section Iov

/-- The loop of `nvmet_tcp_map_pdu_iovec`, from entry `j` on, with at most `fuel` entries; entry
`j` gives `length - sgOffset` bytes in 32-bit arithmetic. -/
def mapIovec (sg : SgList) (sgOffset : ℕ) : ℕ → ℕ → ℕ → List (ℕ × ℕ)
  | 0, _, _ => []
  | fuel + 1, j, length =>
    if length = 0 then []
    else
      let n := min length ((2 ^ 32 + sg.entryLen j - sgOffset) % 2 ^ 32)
      (PAGE_SIZE * j + sgOffset, n) :: mapIovec sg sgOffset fuel (j + 1) (length - n)

def divRoundUp (n d : ℕ) : ℕ := (n + d - 1) / d

/-- The pieces of the iovec for the `len` bytes of a PDU from byte `offset` of the transfer on, up
to the last entry of the list. -/
def pduIovec (sg : Option SgList) (offset len : ℕ) : List (ℕ × ℕ) :=
  let sgIdx := divRoundUp offset PAGE_SIZE
  match sg with
  | some sg => mapIovec sg (offset % PAGE_SIZE) (sg.nents - sgIdx) sgIdx len
  | none => []

/-- With bytes to map, `iov_base` is written through `cmd->iov`, and where the entries end before
the bytes `sg->length` is read through NULL: of a command without a list, or behind its last
entry. -/
def iovecOops (cmd : NvmetTcpCmd) (iov : List (ℕ × ℕ)) : Bool :=
  decide (cmd.pduLen ≠ 0) && (!cmd.recvMsg.hasIov || decide ((iov.map Prod.snd).sum < cmd.pduLen))

def nvmetTcpMapPduIovec (cmd : NvmetTcpCmd) : NvmetTcpCmd :=
  let nrMapped := divRoundUp cmd.pduLen PAGE_SIZE
  let sgIdx := divRoundUp cmd.rbytesDone PAGE_SIZE
  let iov := pduIovec cmd.req.sg cmd.rbytesDone cmd.pduLen
  { cmd with recvMsg :=
      { iov := iov.take nrMapped
        count := cmd.pduLen
        sgIdx := sgIdx
        nrMapped := nrMapped
        kmaps := cmd.recvMsg.kmaps ++ List.range' sgIdx iov.length
        kunmaps := cmd.recvMsg.kunmaps
        hasIov := cmd.recvMsg.hasIov
        oops := iovecOops cmd iov } }

def nvmetTcpUnmapPduIovec (cmd : NvmetTcpCmd) : NvmetTcpCmd :=
  { cmd with recvMsg := { cmd.recvMsg with
      kunmaps := cmd.recvMsg.kunmaps ++ List.range' cmd.recvMsg.sgIdx cmd.recvMsg.nrMapped } }

/-- Bytes read into the pieces of an iovec. -/
def iovWrite : List Byte → List (ℕ × ℕ) → List Byte → List Byte × List (ℕ × ℕ)
  | mem, [], _ => (mem, [])
  | mem, (off, len) :: iov, b =>
    if b.length < len then (writeAt mem off b, (off + b.length, len - b.length) :: iov)
    else iovWrite (writeAt mem off (b.take len)) iov (b.drop len)

/-- `sock_recvmsg` into `recv_msg` returned `b`. -/
def recvInto (b : List Byte) (cmd : NvmetTcpCmd) : NvmetTcpCmd :=
  let p := iovWrite cmd.sgData cmd.recvMsg.iov b
  { cmd.setSgData p.1 with
    recvMsg := { cmd.recvMsg with iov := p.2, count := cmd.recvMsg.count - b.length }
    pduRecv := cmd.pduRecv + b.length
    rbytesDone := cmd.rbytesDone + b.length }

end Iov

def nvmetPrepareReceivePdu (q : NvmetTcpQueue) : NvmetTcpQueue :=
  { q with offset := 0, left := 8, cmd := none, rcvState := .pdu }

def nvmetTcpFatalError (q : NvmetTcpQueue) : NvmetTcpQueue :=
  { q with rcvState := .err, fatal := true }

def nvmetTcpGetCmd (q : NvmetTcpQueue) : Option CmdId × NvmetTcpQueue :=
  match q.freeList with
  | [] => (none, q)
  | i :: rest =>
    (some i, { q with freeList := rest }.modifyCmd i fun cmd =>
      { cmd with
        rbytesDone := 0
        wbytesDone := 0
        pduLen := 0
        pduRecv := 0
        recvMsg := { cmd.recvMsg with hasIov := false }
        initFailed := false })

def nvmetReqExecute (i : CmdId) (q : NvmetTcpQueue) : NvmetTcpQueue :=
  { q with
    executing := q.executing ++ [i]
    executed := q.executed ++ [((q.cmds i).req.cmd, (q.cmds i).sgData)] }

/-- `nvmet_req_complete` with a completion entry of the backend's. -/
def nvmetReqComplete (c : Config) (i : CmdId) (cqe : NvmeCompletion) (q : NvmetTcpQueue) :
    NvmetTcpQueue :=
  nvmetTcpQueueResponse c i
    (q.modifyCmd i fun cmd => { cmd with req := { cmd.req with cqe := cqe } })

/-- The completion entry of an error that the transport finds. -/
def errorCqe (cmd : NvmetTcpCmd) (status : UInt16) : NvmeCompletion :=
  { cmd.req.cqe with commandId := cmd.req.cmd.commandId, status := status <<< 1 }

section MapData

def sglLen (cmd : NvmetTcpCmd) : ℕ := cmd.req.cmd.sgl.length.toNat

def isInline (cmd : NvmetTcpCmd) : Bool :=
  cmd.req.cmd.sgl.type == (NVME_SGL_FMT_DATA_DESC <<< 4) ||| NVME_SGL_FMT_OFFSET

def mapLen (cmd : NvmetTcpCmd) : NvmetTcpCmd :=
  { cmd with
    pduLen := if isInline cmd then sglLen cmd else cmd.pduLen
    req := { cmd.req with transferLen := cmd.req.transferLen + sglLen cmd } }

/-- The list of pages `sgl_alloc` gives it, and the iovec for data from the host. -/
def withSg (g : ℕ) (cmd : NvmetTcpCmd) : NvmetTcpCmd :=
  { cmd with
    req := { cmd.req with sg := some ⟨g, List.replicate (sglLen cmd) 0⟩ }
    curSg := some 0
    recvMsg := { cmd.recvMsg with hasIov := cmd.recvMsg.hasIov || cmd.hasDataIn } }

def sglAlloc (i : CmdId) (q : NvmetTcpQueue) : NvmetTcpQueue :=
  { q with sglAllocs := q.sglAllocs + 1 }.modifyCmd i (withSg q.sglAllocs)

/-- The status of `nvmet_tcp_map_data`, 0 when it succeeds. A list that is freed again for want
of an iovec stays in `req.sg`. -/
def nvmetTcpMapData (c : Config) (alloc : Alloc) (i : CmdId) (q : NvmetTcpQueue) :
    UInt16 × NvmetTcpQueue :=
  let cmd := q.cmds i
  if cmd.req.dataLen = 0 then (0, q)
  else if isInline cmd ∧ cmd.req.cmd.nvmeIsWrite = false then
    (NVME_SC_INVALID_FIELD ||| NVME_SC_DNR, q)
  else if isInline cmd ∧ c.inlineDataSize < sglLen cmd then
    (NVME_SC_SGL_INVALID_OFFSET ||| NVME_SC_DNR, q)
  else
    let q := q.modifyCmd i mapLen
    if alloc = .noSg then (NVME_SC_INTERNAL, q)
    else
      let q := sglAlloc i q
      if (q.cmds i).hasDataIn ∧ alloc = .noIov then
        (NVME_SC_INTERNAL, (q.modifyCmd i
          fun cmd => { cmd with recvMsg := { cmd.recvMsg with hasIov := false } }).sglFree i)
      else (0, q)

end MapData

def nvmetReqInit (c : Config) (i : CmdId) (init : ReqInit) (q : NvmetTcpQueue) :
    Bool × NvmetTcpQueue :=
  let q := q.modifyCmd i fun cmd => { cmd with req := c.reqInit cmd.req }
  match init with
  | .accept dataLen =>
    (true, q.modifyCmd i fun cmd => { cmd with req := { cmd.req with dataLen := dataLen } })
  | .reject cqe => (false, nvmetReqComplete c i cqe q)

def nvmetTcpHandleReqFailure (c : Config) (alloc : Alloc) (i : CmdId) (q : NvmetTcpQueue) :
    NvmetTcpQueue :=
  let q := q.modifyCmd i fun cmd =>
    { cmd with req := { cmd.req with dataLen := cmd.req.cmd.sgl.length.toNat } }
  if (q.cmds i).req.cmd.nvmeIsWrite = false ∨ c.inlineDataSize < (q.cmds i).req.dataLen then
    nvmetPrepareReceivePdu q
  else
    let p := nvmetTcpMapData c alloc i q
    if p.1 ≠ 0 then nvmetTcpFatalError p.2
    else
      { p.2 with rcvState := .data }.modifyCmd i fun cmd =>
        { nvmetTcpMapPduIovec cmd with initFailed := true }

/-- The part of a command's data that a PDU of `len` bytes brings. -/
def startH2c (len : ℕ) (cmd : NvmetTcpCmd) : NvmetTcpCmd :=
  nvmetTcpMapPduIovec { cmd with pduLen := len, pduRecv := 0 }

/-- The result of a receive function, `true` for an error that takes the connection down. -/
def nvmetTcpHandleH2cDataPdu (c : Config) (q : NvmetTcpQueue) : Bool × NvmetTcpQueue :=
  let data := NvmeTcpXferPdu.decode q.pdu
  let i : CmdId := .slot data.ttag.toNat
  if data.first.toNat ≠ (q.cmds i).rbytesDone then
    (true, nvmetReqComplete c i (errorCqe (q.cmds i) (NVME_SC_INVALID_FIELD ||| NVME_SC_DNR)) q)
  else
    (false, { q with cmd := some i, rcvState := .data, waiting := q.waiting.erase i }.modifyCmd i
      (startH2c data.second.toNat))

/-- `nvmet_tcp_done_recv_pdu` with a command that `nvmet_req_init` has accepted. -/
def startAccepted (c : Config) (alloc : Alloc) (i : CmdId) (q : NvmetTcpQueue) : NvmetTcpQueue :=
  let p := nvmetTcpMapData c alloc i q
  let q := p.2
  if p.1 ≠ 0 then
    nvmetPrepareReceivePdu
      (if (q.cmds i).hasInlineData then nvmetTcpFatalError q
      else nvmetReqComplete c i (errorCqe (q.cmds i) p.1) q)
  else if (q.cmds i).needDataIn then
    if (q.cmds i).hasInlineData then { q with rcvState := .data }.modifyCmd i nvmetTcpMapPduIovec
    else nvmetPrepareReceivePdu (nvmetTcpQueueResponse c i q)
  else nvmetPrepareReceivePdu (nvmetReqExecute i q)

/-- `nvmet_tcp_done_recv_pdu` of a live queue. -/
def doneRecvLive (c : Config) (env : Env) (q : NvmetTcpQueue) : Bool × NvmetTcpQueue :=
  if (NvmeTcpHdr.decode q.pdu).type = nvmeTcpH2cData then nvmetTcpHandleH2cDataPdu c q
  else
    match nvmetTcpGetCmd q with
    | (none, q) => (true, nvmetTcpFatalError { q with cmd := none })
    | (some i, q) =>
      let nvmeCmd := NvmeCommand.decodeAt q.pdu 8
      let q := { q with cmd := some i, received := q.received ++ [nvmeCmd] }.modifyCmd i fun cmd =>
        { cmd with req := { cmd.req with cmd := nvmeCmd } }
      let p := nvmetReqInit c i env.init q
      (false,
        if p.1 then startAccepted c env.alloc i p.2
        else nvmetTcpHandleReqFailure c env.alloc i p.2)

def nvmetTcpPduSize (type : UInt8) : ℕ :=
  if type = nvmeTcpIcreq then 128
  else if type = nvmeTcpCmd then 72
  else if type = nvmeTcpH2cData then 24
  else 0

/-- `nvmet_tcp_hdgst`: the digest of the first `len` bytes of a buffer is written behind them. -/
def nvmetTcpHdgst (crc : List Byte → List Byte) (pdu : List Byte) (len : ℕ) : List Byte :=
  writeAt pdu len (crc (pdu.take len))

def digestField (pdu : List Byte) : List Byte :=
  (pdu.drop (NvmeTcpHdr.decode pdu).hlen.toNat).take NVME_TCP_DIGEST_LENGTH

/-- The field is read before and after the digest is computed. Nothing reads what was written
behind `len` again, so the buffer is left as it was. -/
def nvmetTcpVerifyHdgst (crc : List Byte → List Byte) (pdu : List Byte) (len : ℕ) : Bool :=
  (NvmeTcpHdr.decode pdu).flags &&& NVME_TCP_F_HDGST != 0 &&
    digestField pdu == digestField (nvmetTcpHdgst crc pdu len)

def nvmetTcpCheckDdgst (digestLen : ℕ) (pdu : List Byte) : Bool :=
  let hdr := NvmeTcpHdr.decode pdu
  let len : UInt32 := hdr.plen - hdr.hlen.toUInt32 -
    (if hdr.flags &&& NVME_TCP_F_HDGST != 0 then UInt32.ofNat digestLen else 0)
  len == 0 || hdr.flags &&& NVME_TCP_F_DDGST != 0

def readHeader (b : List Byte) (q : NvmetTcpQueue) : NvmetTcpQueue :=
  { q with
    pdu := writeAt q.pdu q.offset b
    offset := q.offset + b.length
    left := q.left - b.length }

/-- `nvmet_tcp_try_recv_pdu` on a read that returned `b`, with what `done` makes of a whole header;
`keep` is the state of a queue that waits for the rest or falls over the header. -/
def tryRecvHeader {σ : Type} (c : Config) (keep : NvmetTcpQueue → σ)
    (done : NvmetTcpQueue → Bool × σ) (b : List Byte) (q : NvmetTcpQueue) : Bool × σ :=
  let q := readHeader b q
  if q.left ≠ 0 then (false, keep q)
  else if q.offset = 8 then
    let hdr := NvmeTcpHdr.decode q.pdu
    if nvmetTcpPduSize hdr.type = 0 then (true, keep (nvmetTcpFatalError q))
    else if hdr.hlen.toNat ≠ nvmetTcpPduSize hdr.type then (true, keep q)
    else (false, keep { q with left := hdr.hlen.toNat - q.offset + nvmetTcpHdgstLen c })
  else if c.hdrDigest ∧ nvmetTcpVerifyHdgst c.crc q.pdu q.offset = false then
    (true, keep (nvmetTcpFatalError q))
  else if c.dataDigest ∧ nvmetTcpCheckDdgst (nvmetTcpHdgstLen c) q.pdu = false then
    (true, keep (nvmetTcpFatalError q))
  else done q

/-- `nvmet_tcp_try_recv_pdu` of a live queue. -/
def nvmetTcpTryRecvPdu (c : Config) (env : Env) (b : List Byte) (q : NvmetTcpQueue) :
    Bool × NvmetTcpQueue :=
  tryRecvHeader c (fun q => q) (doneRecvLive c env) b q

def recvDataDone (c : Config) (i : CmdId) (q : NvmetTcpQueue) : NvmetTcpQueue :=
  let cmd := q.cmds i
  if cmd.initFailed = false ∧ cmd.rbytesDone = cmd.req.transferLen then
    if c.dataDigest then
      { q with offset := 0, left := NVME_TCP_DIGEST_LENGTH, rcvState := .ddgst }.modifyCmd i
        fun cmd =>
        { cmd with expDdgst := c.crc (cmd.sgData.take cmd.req.transferLen) }
    else nvmetPrepareReceivePdu (nvmetReqExecute i q)
  else if cmd.initFailed then nvmetPrepareReceivePdu q
  else nvmetPrepareReceivePdu { q with waiting := q.waiting ++ [i] }

/-- `nvmet_tcp_try_recv_data` on a read that returned `b`; nothing is read for no data. -/
def nvmetTcpTryRecvData (c : Config) (i : CmdId) (b : List Byte) (q : NvmetTcpQueue) :
    NvmetTcpQueue :=
  let q := q.modifyCmd i (recvInto b)
  if (q.cmds i).recvMsg.count = 0 then recvDataDone c i (q.modifyCmd i nvmetTcpUnmapPduIovec) else q

/-- `nvmet_tcp_try_recv_ddgst` on a read that returned `b`. -/
def nvmetTcpTryRecvDdgst (c : Config) (i : CmdId) (b : List Byte) (q : NvmetTcpQueue) :
    Bool × NvmetTcpQueue :=
  let q := { q with offset := q.offset + b.length, left := q.left - b.length }.modifyCmd i
      fun cmd =>
    { cmd with recvDdgst := writeAt cmd.recvDdgst q.offset b }
  if q.left ≠ 0 then (false, q)
  else if c.dataDigest ∧ (q.cmds i).expDdgst ≠ (q.cmds i).recvDdgst then
    (true, nvmetPrepareReceivePdu (nvmetTcpFatalError (q.sglFree i)))
  else
    let cmd := q.cmds i
    if cmd.initFailed = false ∧ cmd.rbytesDone = cmd.req.transferLen then
      (false, nvmetPrepareReceivePdu (nvmetReqExecute i q))
    else (false, nvmetPrepareReceivePdu { q with waiting := q.waiting ++ [i] })

def recvWants (q : NvmetTcpQueue) : ℕ :=
  match q.rcvState, q.cmd with
  | .pdu, _ => q.left
  | .data, some i => (q.cmds i).recvMsg.count
  | .ddgst, some _ => q.left
  | _, _ => 0

/-- One read of the receive path of a live queue that returned `b`, up to the next one. An error
that `nvmet_tcp_io_work` sees takes the connection down. -/
def nvmetTcpTryRecv (c : Config) (env : Env) (b : List Byte) (q : NvmetTcpQueue) : NvmetTcpQueue :=
  let down (p : Bool × NvmetTcpQueue) : NvmetTcpQueue := if p.1 then nvmetTcpFatalError p.2 else p.2
  match q.rcvState, q.cmd with
  | .pdu, _ => down (nvmetTcpTryRecvPdu c env b q)
  | .data, some i => nvmetTcpTryRecvData c i b q
  | .ddgst, some i => down (nvmetTcpTryRecvDdgst c i b q)
  | _, _ => q

/-- The read has ended at a NULL pointer: there is no such queue. Lists and iovecs that have been
freed are still taken for what they were. -/
def NvmetTcpQueue.oops (q : NvmetTcpQueue) : Bool :=
  q.rcvState == .data && q.cmd.any fun i => (q.cmds i).recvMsg.oops

/-- The socket holds `wire`, and each read gets at most as many bytes as `reads` says. The queue
that is reached, and what has not been read. -/
def recvWire (c : Config) (env : Env) : List ℕ → List Byte → NvmetTcpQueue →
    NvmetTcpQueue × List Byte
  | [], wire, q => (q, wire)
  | n :: reads, wire, q =>
    recvWire c env reads (wire.drop (min n (recvWants q)))
      (nvmetTcpTryRecv c env (wire.take (min n (recvWants q))) q)

end BlkSwitch.Target
