import BlkSwitch.Spec.TargetRecv

/-! How `nvmet_tcp_try_recv_pdu` (drivers/nvme/target/tcp.c; `i10_target_try_recv_pdu` of i10.c is
the same) reads one header from the socket, over the bytes of the queue that it writes to. The
buffer is as long as the longest header, and what is received behind that one falls on the digest
flags. -/

namespace BlkSwitch.Target

open Bytes

/-- Where `hdr_digest` and `data_digest` lie, counted from `pdu`. -/
def HDR_DIGEST : ℕ := 128
def DATA_DIGEST : ℕ := 129

structure HeaderRecv where
  /-- the queue from `pdu` up to `snd_hash`: the PDU, the two flags and padding -/
  mem : List Byte
  offset : ℕ
  left : ℕ

inductive HeaderRet
  | eagain
  | eio
  | eproto
  /-- `nvmet_tcp_done_recv_pdu` is called -/
  | doneRecvPdu
  deriving DecidableEq, Repr

namespace HeaderRecv

variable (s : HeaderRecv)

def hdrDigest : Bool := u8At s.mem HDR_DIGEST != 0

def dataDigest : Bool := u8At s.mem DATA_DIGEST != 0

def hdgstLen : ℕ := if s.hdrDigest then NVME_TCP_DIGEST_LENGTH else 0

end HeaderRecv

def takeIn (b : List Byte) (s : HeaderRecv) : HeaderRecv :=
  ⟨writeAt s.mem s.offset b, s.offset + b.length, s.left - b.length⟩

/-- What is made of the bytes that are in; the read that follows the first 8 is the next one. -/
def checkHeader (crc : List Byte → List Byte) (s : HeaderRecv) : HeaderRet × HeaderRecv :=
  if s.left ≠ 0 then (.eagain, s)
  else if s.offset = 8 then
    let hdr := NvmeTcpHdr.decode s.mem
    if nvmetTcpPduSize hdr.type = 0 then (.eio, s)
    else if hdr.hlen.toNat ≠ nvmetTcpPduSize hdr.type then (.eio, s)
    else (.eagain, { s with left := hdr.hlen.toNat - s.offset + s.hdgstLen })
  else if s.hdrDigest ∧ nvmetTcpVerifyHdgst crc s.mem s.offset = false then (.eproto, s)
  else if s.dataDigest ∧ nvmetTcpCheckDdgst s.hdgstLen s.mem = false then (.eproto, s)
  else (.doneRecvPdu, s)

/-- The reads of a header from the bytes `wire`, each of which finds so many bytes or what there
is. -/
def recvHeader (crc : List Byte → List Byte) : List ℕ → List Byte → HeaderRecv → HeaderRet
  | [], _, _ => .eagain
  | n :: reads, wire, s =>
    match checkHeader crc (takeIn (wire.take (min n s.left)) s) with
    | (.eagain, s') => recvHeader crc reads (wire.drop (min n s.left)) s'
    | (ret, _) => ret

end BlkSwitch.Target
