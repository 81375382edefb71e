import BlkSwitch.Spec.Pdu

/-! The request of the nvme-tcp host (drivers/nvme/host/tcp.c): the block-layer request it
carries, the iterator over its data, and the PDU headers built for it. host/i10.c uses the
same request under other names. -/

namespace BlkSwitch.Host

open Bytes

/-- The `bv_len` bytes at `bv_page + bv_offset`. -/
structure BioVec where
  data : List Byte
  deriving DecidableEq, Repr

def BioVec.len (v : BioVec) : ℕ := v.data.length

structure Bio where
  opf : UInt32
  /-- the `bio_segments(bio)` entries of `bi_io_vec` from `bi_iter.bi_idx` on -/
  ioVec : List BioVec
  bvecDone : ℕ
  size : ℕ
  deriving DecidableEq, Repr

/-- What the bio transfers: `bi_size` bytes from `bi_bvec_done` on, wherever the last
`bio_vec` ends. -/
def Bio.bytes (b : Bio) : List Byte := ((b.ioVec.flatMap BioVec.data).drop b.bvecDone).take b.size

/-- What the block layer promises of a bio that has data pages. -/
structure Bio.Backed (b : Bio) : Prop where
  pos : 0 < b.size
  segs : ∀ v ∈ b.ioVec, v.data ≠ []
  done : ∀ v ∈ b.ioVec.head?, b.bvecDone < v.len
  fits : b.bvecDone + b.size ≤ (b.ioVec.flatMap BioVec.data).length
  used : (b.ioVec.dropLast.flatMap BioVec.data).length < b.bvecDone + b.size

/-- `struct request` as the driver reads it, with what the block layer promises of it. -/
structure Rq where
  /-- `rq_data_dir(rq) == WRITE` -/
  write : Bool
  nrPhysSegments : ℕ
  /-- `special_vec`, under RQF_SPECIAL_PAYLOAD -/
  specialVec : Option BioVec
  bio : List Bio
  tag : UInt16
  /-- what `nvme_setup_cmd` fills in -/
  cmd : NvmeCommand
  backed : specialVec = none → nrPhysSegments ≠ 0 → bio ≠ [] ∧ ∀ b ∈ bio, b.Backed
  special : ∀ v ∈ specialVec, v.data ≠ []
  small : (bio.map Bio.size).sum + 128 < 2 ^ 32 ∧ ∀ v ∈ specialVec, v.len + 128 < 2 ^ 32

namespace Rq

def blkRqBytes (rq : Rq) : ℕ := (rq.bio.map Bio.size).sum

def blkRqNrPhysSegments (rq : Rq) : ℕ := if rq.specialVec.isSome then 1 else rq.nrPhysSegments

def blkRqPayloadBytes (rq : Rq) : ℕ :=
  match rq.specialVec with
  | some v => v.len
  | none => rq.blkRqBytes

/-- What `nvme_tcp_setup_cmd_pdu` stores in `req->data_len`. -/
def dataLen (rq : Rq) : ℕ := if rq.blkRqNrPhysSegments ≠ 0 then rq.blkRqPayloadBytes else 0

def data (rq : Rq) : List Byte :=
  match rq.specialVec with
  | some v => v.data
  | none => rq.bio.flatMap Bio.bytes

end Rq

/-- The parameters of one queue that its connection fixes. `crc` is crc32c. -/
structure Config where
  qid : ℕ
  numOnlineCpus : ℕ
  i10DelayedDoorbellUs : ℤ
  hdrDigest : Bool
  dataDigest : Bool
  cmndCapsuleLen : ℕ
  icdoff : UInt16
  crc : List Byte → List Byte
  crc_length : ∀ b, (crc b).length = NVME_TCP_DIGEST_LENGTH

def nvmeTcpHdgstLen (c : Config) : ℕ := if c.hdrDigest then NVME_TCP_DIGEST_LENGTH else 0

def nvmeTcpDdgstLen (c : Config) : ℕ := if c.dataDigest then NVME_TCP_DIGEST_LENGTH else 0

def nvmeTcpInlineDataSize (c : Config) : ℕ := c.cmndCapsuleLen - 64

/-- `struct iov_iter` over bio_vecs: `bvec` points at the head of the list. -/
structure IovIter where
  bvec : List BioVec
  iovOffset : ℕ
  count : ℕ
  deriving DecidableEq, Repr

/-- Step over `n` bytes; a `bio_vec` that is used up is left behind. -/
def bvecAdvance : List BioVec → ℕ → ℕ → List BioVec × ℕ
  | [], off, _ => ([], off)
  | v :: vs, off, n =>
    if n < v.len - off then (v :: vs, off + n) else bvecAdvance vs 0 (n - (v.len - off))

/-- `iov_iter_advance` never goes past `count`. -/
def IovIter.advance (it : IovIter) (n : ℕ) : IovIter :=
  let n := min n it.count
  let p := bvecAdvance it.bvec it.iovOffset n
  ⟨p.1, p.2, it.count - n⟩

inductive SendState
  | cmdPdu
  | h2cPdu
  | data
  | ddgst
  deriving DecidableEq, Repr

structure NvmeTcpRequest where
  rq : Rq
  /-- the header buffer, sizeof(struct nvme_tcp_cmd_pdu) + hdgst bytes -/
  pdu : List Byte
  dataLen : ℕ
  pduLen : ℕ
  pduSent : ℕ
  ddgst : List Byte
  /-- the bytes that follow `ddgst` in the structure -/
  afterDdgst : List Byte
  /-- the chain from `curr_bio` on; empty for NULL -/
  currBio : List Bio
  iter : IovIter
  offset : ℕ
  dataSent : ℕ
  state : SendState

namespace NvmeTcpRequest

variable (r : NvmeTcpRequest)

def hasInlineData (c : Config) : Bool :=
  r.rq.write && r.dataLen != 0 && decide (r.dataLen ≤ nvmeTcpInlineDataSize c)

def reqCurBvec : BioVec := r.iter.bvec.headD ⟨[]⟩

def reqCurLength : ℕ := min (r.reqCurBvec.len - r.iter.iovOffset) (r.pduLen - r.pduSent)

def pduDataLeft : ℕ := if r.rq.write then r.pduLen - r.pduSent else 0

def pduLastSend (len : ℕ) : Bool := decide (r.pduDataLeft ≤ len)

def initIter : IovIter :=
  match r.rq.specialVec with
  | some v => ⟨[v], 0, r.rq.blkRqPayloadBytes⟩
  | none =>
    match r.currBio with
    | b :: _ => ⟨b.ioVec, b.bvecDone, b.size⟩
    | [] => ⟨[], 0, 0⟩

def advanceReq (len : ℕ) : NvmeTcpRequest :=
  let r :=
    { r with
      dataSent := r.dataSent + len
      pduSent := r.pduSent + len
      iter := r.iter.advance len }
  if r.iter.count = 0 ∧ r.dataSent < r.dataLen then
    let r := { r with currBio := r.currBio.tail }
    { r with iter := r.initIter }
  else r

end NvmeTcpRequest

/-- REQ_OP_READ | REQ_OP_WRITE | REQ_DRV | REQ_RAHEAD | REQ_SYNC | REQ_IDLE | REQ_NOMERGE -/
def I10_ALLOWED_FLAGS : UInt32 :=
  0x1 ||| 0x4000000 ||| 0x80000 ||| 0x800 ||| 0x8000 ||| 0x4000

def i10HostIsNodelayPath (r : NvmeTcpRequest) : Bool :=
  match r.currBio with
  | [] => true
  | b :: _ => b.opf &&& ~~~I10_ALLOWED_FLAGS != 0

section Setup

variable (c : Config)

def nvmeTcpSetSg (cmd : NvmeCommand) (addr : UInt64) (len : ℕ) (type : UInt8) : NvmeCommand :=
  { cmd with sgl := { cmd.sgl with addr := addr, length := UInt32.ofNat len, type := type } }

def nvmeTcpSetSgNull (cmd : NvmeCommand) : NvmeCommand :=
  nvmeTcpSetSg cmd 0 0 ((NVME_TRANSPORT_SGL_DATA_DESC <<< 4) ||| NVME_SGL_FMT_TRANSPORT_A)

def nvmeTcpSetSgInline (cmd : NvmeCommand) (dataLen : ℕ) : NvmeCommand :=
  nvmeTcpSetSg cmd c.icdoff.toUInt64 dataLen
    ((NVME_SGL_FMT_DATA_DESC <<< 4) ||| NVME_SGL_FMT_OFFSET)

def nvmeTcpSetSgHostData (cmd : NvmeCommand) (dataLen : ℕ) : NvmeCommand :=
  nvmeTcpSetSg cmd 0 dataLen ((NVME_TRANSPORT_SGL_DATA_DESC <<< 4) ||| NVME_SGL_FMT_TRANSPORT_A)

def nvmeTcpMapData (rq : Rq) (dataLen : ℕ) (cmd : NvmeCommand) : NvmeCommand :=
  let cmd := { cmd with flags := cmd.flags ||| NVME_CMD_SGL_METABUF }
  if rq.blkRqNrPhysSegments = 0 then nvmeTcpSetSgNull cmd
  else if rq.write ∧ dataLen ≤ nvmeTcpInlineDataSize c then nvmeTcpSetSgInline c cmd dataLen
  else nvmeTcpSetSgHostData cmd dataLen

def hdgstFlag : UInt8 := if c.hdrDigest then NVME_TCP_F_HDGST else 0

def cmdPdu (rq : Rq) (dataLen pduLen : ℕ) : NvmeTcpCmdPdu where
  hdr :=
    { type := nvmeTcpCmd
      flags := hdgstFlag c ||| if c.dataDigest ∧ pduLen ≠ 0 then NVME_TCP_F_DDGST else 0
      hlen := 72
      pdo := if pduLen ≠ 0 then UInt8.ofNat (72 + nvmeTcpHdgstLen c) else 0
      plen := UInt32.ofNat
        (72 + nvmeTcpHdgstLen c + pduLen + if pduLen ≠ 0 then nvmeTcpDdgstLen c else 0) }
  cmd := nvmeTcpMapData c rq dataLen rq.cmd

/-- The request `r` reused for `rq`. -/
def nvmeTcpSetupCmdPdu (rq : Rq) (r : NvmeTcpRequest) : NvmeTcpRequest :=
  let dataLen := rq.dataLen
  let inl := decide (rq.write = true ∧ dataLen ≤ nvmeTcpInlineDataSize c)
  let pduLen := if inl then dataLen else 0
  let r := { r with
    rq := rq, state := .cmdPdu, offset := 0, dataSent := 0, pduLen := pduLen, pduSent := 0,
    dataLen := dataLen, currBio := rq.bio }
  { r with
    iter := if !inl && !r.currBio.isEmpty then r.initIter else r.iter
    pdu := writeAt r.pdu 0 (cmdPdu c rq dataLen pduLen).encode }

def h2cPdu (r : NvmeTcpRequest) (ttag : UInt16) : NvmeTcpDataPdu where
  hdr :=
    { type := nvmeTcpH2cData
      flags := NVME_TCP_F_DATA_LAST ||| hdgstFlag c ||| if c.dataDigest then NVME_TCP_F_DDGST else 0
      hlen := 24
      pdo := UInt8.ofNat (24 + nvmeTcpHdgstLen c)
      plen := UInt32.ofNat (24 + nvmeTcpHdgstLen c + r.pduLen + nvmeTcpDdgstLen c) }
  commandId := r.rq.tag
  ttag := ttag
  first := UInt32.ofNat r.dataSent
  second := UInt32.ofNat r.pduLen

/-- The answer to an R2T, or -EPROTO (`false`) with `pdu_len` and `pdu_sent` already changed. -/
def nvmeTcpSetupH2cDataPdu (r : NvmeTcpRequest) (pdu : NvmeTcpR2tPdu) : Bool × NvmeTcpRequest :=
  let r := { r with pduLen := pdu.second.toNat, pduSent := 0 }
  if r.dataLen < r.dataSent + r.pduLen then (false, r)
  else if pdu.first.toNat < r.dataSent then (false, r)
  else (true, { r with pdu := writeAt r.pdu 0 (h2cPdu c r pdu.ttag).encode })

end Setup

/-- A PDU on the wire: header, header digest, data, data digest. -/
def wirePdu (c : Config) (hdr data : List Byte) : List Byte :=
  hdr ++ (if c.hdrDigest then c.crc hdr else []) ++ data ++
    if c.dataDigest ∧ data ≠ [] then c.crc data else []

end BlkSwitch.Host
