import BlkSwitch.Lib.Bytes

/-! The NVMe command and the NVMe/TCP PDUs as they lie on the wire: `struct nvme_command` and
`nvme_is_write` of include/linux/nvme.h, and the PDU structures both drivers include. All
multi-byte fields are little-endian. With them, what a socket call can answer. -/

namespace BlkSwitch

open Bytes

abbrev Byte := UInt8

/-- Bytes `i`, `i + 1`, ... of a buffer as a field of one, two, four or eight bytes. -/
def u8At (b : List Byte) (i : ℕ) : UInt8 := b.getD i 0
def u16At (b : List Byte) (i : ℕ) : UInt16 := UInt16.ofNat (readLe ((b.drop i).take 2))
def u32At (b : List Byte) (i : ℕ) : UInt32 := UInt32.ofNat (readLe ((b.drop i).take 4))
def u64At (b : List Byte) (i : ℕ) : UInt64 := UInt64.ofNat (readLe ((b.drop i).take 8))

@[simp] theorem u16At_le (x : UInt16) (r : List Byte) : u16At (le 2 x.toNat ++ r) 0 = x := by
  rw [u16At, List.drop_zero, take_le_append, readLe_le_of_lt x.toNat_lt, UInt16.ofNat_toNat]

@[simp] theorem u32At_le (x : UInt32) (r : List Byte) : u32At (le 4 x.toNat ++ r) 0 = x := by
  rw [u32At, List.drop_zero, take_le_append, readLe_le_of_lt x.toNat_lt, UInt32.ofNat_toNat]

@[simp] theorem u64At_le (x : UInt64) (r : List Byte) : u64At (le 8 x.toNat ++ r) 0 = x := by
  rw [u64At, List.drop_zero, take_le_append, readLe_le_of_lt x.toNat_lt, UInt64.ofNat_toNat]

/-- A field behind a word is the same field of the rest of the buffer. -/
theorem u8At_skip {k n i : ℕ} {r : List Byte} (h : k ≤ i) :
    u8At (le k n ++ r) i = u8At r (i - k) := by
  rw [u8At, u8At, List.getD_eq_getElem?_getD, List.getD_eq_getElem?_getD,
    List.getElem?_append_right (by simpa using h), le_length]

theorem u16At_skip {k n i : ℕ} {r : List Byte} (h : k ≤ i) :
    u16At (le k n ++ r) i = u16At r (i - k) := by
  rw [u16At, u16At, drop_le_append h]

theorem u32At_skip {k n i : ℕ} {r : List Byte} (h : k ≤ i) :
    u32At (le k n ++ r) i = u32At r (i - k) := by
  rw [u32At, u32At, drop_le_append h]

theorem u64At_skip {k n i : ℕ} {r : List Byte} (h : k ≤ i) :
    u64At (le k n ++ r) i = u64At r (i - k) := by
  rw [u64At, u64At, drop_le_append h]

theorem u8At_cons {a : Byte} {r : List Byte} {i : ℕ} : u8At (a :: r) (i + 1) = u8At r i := rfl
theorem u16At_cons {a : Byte} {r : List Byte} {i : ℕ} : u16At (a :: r) (i + 1) = u16At r i := rfl
theorem u32At_cons {a : Byte} {r : List Byte} {i : ℕ} : u32At (a :: r) (i + 1) = u32At r i := rfl
theorem u64At_cons {a : Byte} {r : List Byte} {i : ℕ} : u64At (a :: r) (i + 1) = u64At r i := rfl
@[simp] theorem u8At_zero {a : Byte} {r : List Byte} : u8At (a :: r) 0 = a := rfl

/-- A field that lies in the front part of a buffer. -/
theorem u8At_append {a r : List Byte} {i : ℕ} (h : i < a.length) : u8At (a ++ r) i = u8At a i := by
  rw [u8At, u8At, List.getD_eq_getElem?_getD, List.getD_eq_getElem?_getD,
    List.getElem?_append_left h]

theorem u32At_append {a r : List Byte} {i : ℕ} (h : i + 4 ≤ a.length) :
    u32At (a ++ r) i = u32At a i := by
  rw [u32At, u32At, List.drop_append_of_le_length (by omega),
    List.take_append_of_le_length (by simp; omega)]

def ENOENT : ℤ := 2
def EIO : ℤ := 5
def EAGAIN : ℤ := 11
def EINVAL : ℤ := 22
def EPIPE : ℤ := 32
def EPROTO : ℤ := 71
def ECONNRESET : ℤ := 104

/-- How the socket answers one send: everything, or a return value. -/
inductive SockReply
  | all
  | ret (r : ℤ)
  deriving DecidableEq, Repr

/-- The socket takes what it can, or says -EAGAIN. -/
def isPolite : SockReply → Bool
  | .all => true
  | .ret r => decide (0 ≤ r ∨ r = -EAGAIN)

def Polite (replies : List SockReply) : Prop := ∀ x ∈ replies, isPolite x = true

instance (replies : List SockReply) : Decidable (Polite replies) := by unfold Polite; infer_instance

def NVME_SGL_FMT_OFFSET : UInt8 := 0x01
def NVME_SGL_FMT_TRANSPORT_A : UInt8 := 0x0A
def NVME_SGL_FMT_DATA_DESC : UInt8 := 0x00
def NVME_TRANSPORT_SGL_DATA_DESC : UInt8 := 0x05
def NVME_CMD_SGL_METABUF : UInt8 := 0x40

structure NvmeSglDesc where
  addr : UInt64
  length : UInt32
  rsvd : UInt8 × UInt8 × UInt8
  type : UInt8
  deriving DecidableEq, Repr

/-- `struct nvme_common_command`; the fabrics view of the same 64 bytes has its `fctype` in
the low byte of `nsid`. -/
structure NvmeCommand where
  opcode : UInt8
  flags : UInt8
  commandId : UInt16
  nsid : UInt32
  cdw2 : UInt32
  cdw3 : UInt32
  metadata : UInt64
  sgl : NvmeSglDesc
  cdw10 : UInt32
  cdw11 : UInt32
  cdw12 : UInt32
  cdw13 : UInt32
  cdw14 : UInt32
  cdw15 : UInt32
  deriving DecidableEq, Repr

namespace NvmeCommand

def fctype (c : NvmeCommand) : UInt8 := UInt8.ofNat c.nsid.toNat

def nvmeIsFabrics (c : NvmeCommand) : Bool := c.opcode == 0x7f

def nvmeIsWrite (c : NvmeCommand) : Bool :=
  if c.nvmeIsFabrics then c.fctype &&& 1 != 0 else c.opcode &&& 1 != 0

def encode (c : NvmeCommand) : List Byte :=
  [c.opcode, c.flags] ++ le 2 c.commandId.toNat ++ le 4 c.nsid.toNat ++ le 4 c.cdw2.toNat ++
    le 4 c.cdw3.toNat ++ le 8 c.metadata.toNat ++ le 8 c.sgl.addr.toNat ++
    le 4 c.sgl.length.toNat ++
    [c.sgl.rsvd.1, c.sgl.rsvd.2.1, c.sgl.rsvd.2.2, c.sgl.type] ++ le 4 c.cdw10.toNat ++
    le 4 c.cdw11.toNat ++ le 4 c.cdw12.toNat ++ le 4 c.cdw13.toNat ++ le 4 c.cdw14.toNat ++
    le 4 c.cdw15.toNat

/-- The command found at byte `i` of a buffer. -/
def decodeAt (b : List Byte) (i : ℕ) : NvmeCommand where
  opcode := u8At b i
  flags := u8At b (i + 1)
  commandId := u16At b (i + 2)
  nsid := u32At b (i + 4)
  cdw2 := u32At b (i + 8)
  cdw3 := u32At b (i + 12)
  metadata := u64At b (i + 16)
  sgl := ⟨u64At b (i + 24), u32At b (i + 32),
    (u8At b (i + 36), u8At b (i + 37), u8At b (i + 38)), u8At b (i + 39)⟩
  cdw10 := u32At b (i + 40)
  cdw11 := u32At b (i + 44)
  cdw12 := u32At b (i + 48)
  cdw13 := u32At b (i + 52)
  cdw14 := u32At b (i + 56)
  cdw15 := u32At b (i + 60)

@[simp] theorem encode_length (c : NvmeCommand) : c.encode.length = 64 := by simp [encode]

end NvmeCommand

def NVME_TCP_DIGEST_LENGTH : ℕ := 4

def NVME_TCP_F_HDGST : UInt8 := 0x01
def NVME_TCP_F_DDGST : UInt8 := 0x02
def NVME_TCP_F_DATA_LAST : UInt8 := 0x04
def NVME_TCP_F_DATA_SUCCESS : UInt8 := 0x08

def nvmeTcpIcreq : UInt8 := 0x0
def nvmeTcpIcresp : UInt8 := 0x1
def nvmeTcpCmd : UInt8 := 0x4
def nvmeTcpRsp : UInt8 := 0x5
def nvmeTcpH2cData : UInt8 := 0x6
def nvmeTcpC2hData : UInt8 := 0x7
def nvmeTcpR2t : UInt8 := 0x9

structure NvmeTcpHdr where
  type : UInt8
  flags : UInt8
  hlen : UInt8
  pdo : UInt8
  plen : UInt32
  deriving DecidableEq, Repr

def NvmeTcpHdr.encode (h : NvmeTcpHdr) : List Byte :=
  [h.type, h.flags, h.hlen, h.pdo] ++ le 4 h.plen.toNat

def NvmeTcpHdr.decode (b : List Byte) : NvmeTcpHdr :=
  ⟨u8At b 0, u8At b 1, u8At b 2, u8At b 3, u32At b 4⟩

@[simp] theorem NvmeTcpHdr.encode_length (h : NvmeTcpHdr) : h.encode.length = 8 := by simp [encode]

theorem NvmeTcpHdr.decode_append {a r : List Byte} (h : 8 ≤ a.length) :
    NvmeTcpHdr.decode (a ++ r) = NvmeTcpHdr.decode a := by
  have h8 : ∀ i < 8, u8At (a ++ r) i = u8At a i := fun i hi => u8At_append (hi.trans_le h)
  rw [decode, h8 0 (by decide), h8 1 (by decide), h8 2 (by decide), h8 3 (by decide),
    u32At_append h, decode]

theorem NvmeTcpHdr.decode_encode_append (h : NvmeTcpHdr) (rest : List Byte) :
    NvmeTcpHdr.decode (h.encode ++ rest) = h := by
  simp [decode, encode, u8At_cons, u32At_cons]

structure NvmeTcpCmdPdu where
  hdr : NvmeTcpHdr
  cmd : NvmeCommand
  deriving DecidableEq, Repr

def NvmeTcpCmdPdu.encode (p : NvmeTcpCmdPdu) : List Byte := p.hdr.encode ++ p.cmd.encode

@[simp] theorem NvmeTcpCmdPdu.encode_length (p : NvmeTcpCmdPdu) :
    p.encode.length = 72 := by simp [encode]

/-- The target reads back the very command the host wrote behind the PDU header. -/
theorem NvmeTcpCmdPdu.decode_cmd (p : NvmeTcpCmdPdu) (rest : List Byte) :
    NvmeCommand.decodeAt (p.encode ++ rest) 8 = p.cmd := by
  simp (disch := decide)
    [NvmeCommand.decodeAt, encode, NvmeTcpHdr.encode, NvmeCommand.encode, u8At_cons, u16At_cons,
    u32At_cons, u64At_cons, u8At_skip, u16At_skip, u32At_skip, u64At_skip]

structure NvmeCompletion where
  result : UInt64
  sqHead : UInt16
  sqId : UInt16
  commandId : UInt16
  status : UInt16
  deriving DecidableEq, Repr

def NvmeCompletion.encode (c : NvmeCompletion) : List Byte :=
  le 8 c.result.toNat ++ le 2 c.sqHead.toNat ++ le 2 c.sqId.toNat ++ le 2 c.commandId.toNat ++
    le 2 c.status.toNat

def NvmeCompletion.decodeAt (b : List Byte) (i : ℕ) : NvmeCompletion :=
  ⟨u64At b i, u16At b (i + 8), u16At b (i + 10), u16At b (i + 12), u16At b (i + 14)⟩

structure NvmeTcpRspPdu where
  hdr : NvmeTcpHdr
  cqe : NvmeCompletion
  deriving DecidableEq, Repr

def NvmeTcpRspPdu.encode (p : NvmeTcpRspPdu) : List Byte := p.hdr.encode ++ p.cqe.encode

@[simp] theorem NvmeTcpRspPdu.encode_length (p : NvmeTcpRspPdu) : p.encode.length = 24 := by
  simp [encode, NvmeCompletion.encode]

theorem NvmeTcpRspPdu.decode_cqe (p : NvmeTcpRspPdu) (rest : List Byte) :
    NvmeCompletion.decodeAt (p.encode ++ rest) 8 = p.cqe := by
  simp (disch := decide)
    [NvmeCompletion.decodeAt, encode, NvmeTcpHdr.encode, NvmeCompletion.encode, u16At_cons,
    u64At_cons, u16At_skip, u64At_skip]

/-- `struct nvme_tcp_data_pdu` and `struct nvme_tcp_r2t_pdu` have one layout: `first` is
`data_offset` or `r2t_offset`, `second` is `data_length` or `r2t_length`. -/
structure NvmeTcpXferPdu where
  hdr : NvmeTcpHdr
  commandId : UInt16
  ttag : UInt16
  first : UInt32
  second : UInt32
  deriving DecidableEq, Repr

abbrev NvmeTcpDataPdu := NvmeTcpXferPdu
abbrev NvmeTcpR2tPdu := NvmeTcpXferPdu

def NvmeTcpXferPdu.encode (p : NvmeTcpXferPdu) : List Byte :=
  p.hdr.encode ++ le 2 p.commandId.toNat ++ le 2 p.ttag.toNat ++ le 4 p.first.toNat ++
    le 4 p.second.toNat ++ [0, 0, 0, 0]

def NvmeTcpXferPdu.decode (b : List Byte) : NvmeTcpXferPdu :=
  ⟨NvmeTcpHdr.decode b, u16At b 8, u16At b 10, u32At b 12, u32At b 16⟩

@[simp] theorem NvmeTcpXferPdu.encode_length (p : NvmeTcpXferPdu) :
    p.encode.length = 24 := by simp [encode]

theorem NvmeTcpXferPdu.decode_encode_append (p : NvmeTcpXferPdu) (rest : List Byte) :
    NvmeTcpXferPdu.decode (p.encode ++ rest) = p := by
  simp (disch := decide)
    [decode, NvmeTcpHdr.decode, encode, NvmeTcpHdr.encode, u8At_cons, u16At_cons, u32At_cons,
    u16At_skip, u32At_skip]

theorem NvmeTcpXferPdu.hdr_encode_append (p : NvmeTcpXferPdu) (rest : List Byte) :
    NvmeTcpHdr.decode (p.encode ++ rest) = p.hdr := by
  change (NvmeTcpXferPdu.decode _).hdr = _
  rw [decode_encode_append]

end BlkSwitch
