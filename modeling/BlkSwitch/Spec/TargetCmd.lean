import BlkSwitch.Spec.Pdu

/-! The command of the nvmet-tcp target (drivers/nvme/target/tcp.c): the request it carries to
the backend, its data, and the PDU headers built for it. -/

namespace BlkSwitch.Target

open Bytes

def PAGE_SIZE : ℕ := 4096
def I10_CARAVAN_CAPACITY : ℕ := 65536
def I10_TARGET_SEND_BUDGET : ℕ := 16

def NVME_SC_INVALID_FIELD : UInt16 := 0x2
def NVME_SC_INTERNAL : UInt16 := 0x6
def NVME_SC_SGL_INVALID_OFFSET : UInt16 := 0x16
def NVME_SC_DNR : UInt16 := 0x4000

/-- `&queue->connect`, or an element of `queue->cmds`. -/
inductive CmdId
  | connect
  | slot (i : ℕ)
  deriving DecidableEq, Repr

/-- A list from `sgl_alloc`: whole pages but for the last entry. `id` tells the lists apart. -/
structure SgList where
  id : ℕ
  data : List Byte
  deriving DecidableEq, Repr

namespace SgList

variable (sg : SgList)

def nents : ℕ := (sg.data.length + PAGE_SIZE - 1) / PAGE_SIZE

def entryLen (j : ℕ) : ℕ := min PAGE_SIZE (sg.data.length - PAGE_SIZE * j)

def sgNext (j : ℕ) : Option ℕ := if j + 1 < sg.nents then some (j + 1) else none

end SgList

/-- `struct nvmet_req`. The completion entry lies in the command's `rsp_pdu`. -/
structure NvmetReq where
  cmd : NvmeCommand
  cqe : NvmeCompletion
  sg : Option SgList
  dataLen : ℕ
  transferLen : ℕ

/-- What `nvmet_req_init` of the nvmet core makes of a request before it looks at the command. -/
structure NvmetReq.Reset (r r' : NvmetReq) : Prop where
  cmd : r'.cmd = r.cmd
  sg : r'.sg = none
  transferLen : r'.transferLen = 0
  status : r'.cqe.status = 0

/-- The parameters of one queue that its connection fixes. `crc` is crc32c, and `reqInit` what
`nvmet_req_init` does to every request. -/
structure Config where
  qid : ℕ
  prioClass : ℕ
  nrCmds : ℕ
  nvmetTcpAggr : Bool
  sqhdDisabled : Bool
  hdrDigest : Bool
  dataDigest : Bool
  /-- of the port -/
  inlineDataSize : ℕ
  crc : List Byte → List Byte
  crc_length : ∀ b, (crc b).length = NVME_TCP_DIGEST_LENGTH
  reqInit : NvmetReq → NvmetReq
  reqInit_reset : ∀ r : NvmetReq, r.Reset (reqInit r)

namespace Config

variable (c : Config) (r : NvmetReq)

@[simp] theorem reqInit_cmd : (c.reqInit r).cmd = r.cmd := (c.reqInit_reset r).cmd

@[simp] theorem reqInit_sg : (c.reqInit r).sg = none := (c.reqInit_reset r).sg

@[simp] theorem reqInit_transferLen : (c.reqInit r).transferLen = 0 :=
  (c.reqInit_reset r).transferLen

@[simp] theorem reqInit_status : (c.reqInit r).cqe.status = 0 := (c.reqInit_reset r).status

end Config

def nvmetTcpHdgstLen (c : Config) : ℕ := if c.hdrDigest then NVME_TCP_DIGEST_LENGTH else 0

def nvmetTcpDdgstLen (c : Config) : ℕ := if c.dataDigest then NVME_TCP_DIGEST_LENGTH else 0

def i10TargetIsAdminQueue (c : Config) : Bool := c.qid == 0 || c.prioClass == 1

/-- The sends of this queue go through the caravan. -/
def aggregates (c : Config) : Bool := c.nvmetTcpAggr && !i10TargetIsAdminQueue c

inductive SendState
  | dataPdu
  | data
  | r2t
  | ddgst
  | response
  deriving DecidableEq, Repr

/-- What is left of a `recv_msg`: where in the list each piece goes, and the bytes still to come. -/
structure RecvMsg where
  iov : List (ℕ × ℕ)
  count : ℕ
  /-- of the command: the entry the mapped pages start at, and how many there are -/
  sgIdx : ℕ
  nrMapped : ℕ
  /-- the pages `kmap` and `kunmap` were called with -/
  kmaps : List ℕ
  kunmaps : List ℕ
  /-- `cmd->iov` is not NULL -/
  hasIov : Bool
  /-- `nvmet_tcp_map_pdu_iovec` has followed a NULL pointer -/
  oops : Bool
  deriving DecidableEq, Repr

structure NvmetTcpCmd where
  req : NvmetReq
  /-- the header of `rsp_pdu` and the digest behind its completion entry -/
  rspHdr : NvmeTcpHdr
  rspDgst : List Byte
  dataPdu : List Byte
  r2tPdu : List Byte
  rbytesDone : ℕ
  wbytesDone : ℕ
  pduLen : ℕ
  pduRecv : ℕ
  recvMsg : RecvMsg
  /-- NVMET_TCP_F_INIT_FAILED -/
  initFailed : Bool
  offset : ℕ
  /-- the entry `cur_sg` points at -/
  curSg : Option ℕ
  state : SendState
  expDdgst : List Byte
  recvDdgst : List Byte

namespace NvmetTcpCmd

variable (cmd : NvmetTcpCmd)

def rspPdu : List Byte := cmd.rspHdr.encode ++ cmd.req.cqe.encode ++ cmd.rspDgst

def sgData : List Byte := (cmd.req.sg.map SgList.data).getD []

def setSgData (data : List Byte) : NvmetTcpCmd :=
  { cmd with req := { cmd.req with sg := cmd.req.sg.map fun sg => ⟨sg.id, data⟩ } }

def hasDataIn : Bool := cmd.req.cmd.nvmeIsWrite && decide (cmd.rbytesDone < cmd.req.transferLen)

def needDataIn : Bool := cmd.hasDataIn && cmd.req.cqe.status == 0

def needDataOut : Bool :=
  !cmd.req.cmd.nvmeIsWrite && decide (0 < cmd.req.transferLen) && cmd.req.cqe.status == 0

def hasInlineData : Bool := cmd.req.cmd.nvmeIsWrite && cmd.pduLen != 0 && cmd.rbytesDone == 0

end NvmetTcpCmd

section Setup

variable (c : Config)

/-- What `nvmet_tcp_hdgst` puts behind a header. -/
def hdgstOf (hdr : List Byte) : List Byte := if c.hdrDigest then c.crc hdr else []

def hdgstFlag : UInt8 := if c.hdrDigest then NVME_TCP_F_HDGST else 0

/-- `ttag` is never written and stays 0. -/
def c2hDataPdu (cmd : NvmetTcpCmd) : NvmeTcpDataPdu where
  hdr :=
    { type := nvmeTcpC2hData
      flags := NVME_TCP_F_DATA_LAST ||| (if c.sqhdDisabled then NVME_TCP_F_DATA_SUCCESS else 0) |||
        (if c.dataDigest then NVME_TCP_F_DDGST else 0) ||| hdgstFlag c
      hlen := 24
      pdo := UInt8.ofNat (24 + nvmetTcpHdgstLen c)
      plen := UInt32.ofNat (24 + nvmetTcpHdgstLen c + cmd.req.transferLen + nvmetTcpDdgstLen c) }
  commandId := cmd.req.cqe.commandId
  ttag := 0
  first := UInt32.ofNat cmd.wbytesDone
  second := UInt32.ofNat cmd.req.transferLen

def nvmetSetupC2hDataPdu (cmd : NvmetTcpCmd) : NvmetTcpCmd :=
  { cmd with
    offset := 0
    state := .dataPdu
    dataPdu := (c2hDataPdu c cmd).encode ++ hdgstOf c (c2hDataPdu c cmd).encode
    expDdgst := if c.dataDigest then c.crc (cmd.sgData.take cmd.req.transferLen) else cmd.expDdgst }

/-- `connect` lies outside `queue->cmds`; what the subtraction yields there is left open. -/
def nvmetTcpCmdTag : CmdId → UInt16
  | .slot i => UInt16.ofNat i
  | .connect => 0

def r2tPdu (i : CmdId) (cmd : NvmetTcpCmd) : NvmeTcpR2tPdu where
  hdr :=
    { type := nvmeTcpR2t
      flags := hdgstFlag c
      hlen := 24
      pdo := 0
      plen := UInt32.ofNat (24 + nvmetTcpHdgstLen c) }
  commandId := cmd.req.cmd.commandId
  ttag := nvmetTcpCmdTag i
  first := UInt32.ofNat cmd.rbytesDone
  second := UInt32.ofNat (cmd.req.transferLen - cmd.rbytesDone)

def nvmetSetupR2tPdu (i : CmdId) (cmd : NvmetTcpCmd) : NvmetTcpCmd :=
  { cmd with
    offset := 0
    state := .r2t
    r2tPdu := (r2tPdu c i cmd).encode ++ hdgstOf c (r2tPdu c i cmd).encode }

def rspHdr : NvmeTcpHdr where
  type := nvmeTcpRsp
  flags := hdgstFlag c
  hlen := 24
  pdo := 0
  plen := UInt32.ofNat (24 + nvmetTcpHdgstLen c)

def nvmetSetupResponsePdu (cmd : NvmetTcpCmd) : NvmetTcpCmd :=
  { cmd with
    offset := 0
    state := .response
    rspHdr := rspHdr c
    rspDgst := hdgstOf c ((rspHdr c).encode ++ cmd.req.cqe.encode) }

/-- The PDU `nvmet_tcp_fetch_cmd` starts a command with. -/
def setupFirstPdu (i : CmdId) (cmd : NvmetTcpCmd) : NvmetTcpCmd :=
  if cmd.needDataOut then nvmetSetupC2hDataPdu c cmd
  else if cmd.needDataIn then nvmetSetupR2tPdu c i cmd
  else nvmetSetupResponsePdu c cmd

def rspWire (cmd : NvmetTcpCmd) : List Byte :=
  let b := (rspHdr c).encode ++ cmd.req.cqe.encode
  b ++ hdgstOf c b

/-- What a command that is queued for a response has to send: its data and the response, an R2T,
or the response alone. -/
def responsePdus (i : CmdId) (cmd : NvmetTcpCmd) : List Byte :=
  if cmd.needDataOut then
    (c2hDataPdu c cmd).encode ++ hdgstOf c (c2hDataPdu c cmd).encode ++ cmd.sgData ++ rspWire c cmd
  else if cmd.needDataIn then (r2tPdu c i cmd).encode ++ hdgstOf c (r2tPdu c i cmd).encode
  else rspWire c cmd

end Setup

end BlkSwitch.Target
