import BlkSwitch.Sanity.TargetIovec
import BlkSwitch.Proofs.TargetHeader
import BlkSwitch.Proofs.TargetHostile

/-! The data of a write that the target has asked for, sent in any number of data PDUs. The place of
a PDU's data is found by rounding its offset up to a page, so it is right at the start of a page
only. -/

namespace BlkSwitch.Target

open Bytes NvmetTcpQueue

/-- A data PDU but for its data. -/
structure H2cHeader where
  pdu : NvmeTcpDataPdu
  dgst : List Byte

namespace H2cHeader

variable (h : H2cHeader)

def offset : ℕ := h.pdu.first.toNat

def len : ℕ := h.pdu.second.toNat

def bytes (data : List Byte) : List Byte :=
  h.pdu.encode ++ h.dgst ++ (data.drop h.offset).take h.len

end H2cHeader

def stream (data : List Byte) (hs : List H2cHeader) : List Byte := hs.flatMap (·.bytes data)

section Rules

variable (c : Config) (t n : ℕ)

structure ForSlot (h : H2cHeader) : Prop where
  type : h.pdu.hdr.type = nvmeTcpH2cData
  hlen : h.pdu.hdr.hlen = 24
  flag : c.hdrDigest = true → h.pdu.hdr.flags &&& NVME_TCP_F_HDGST ≠ 0
  dgst : h.dgst.length = nvmetTcpHdgstLen c
  ttag : h.pdu.ttag.toNat = t

/-- From byte `o` of the transfer on, the PDUs bring one byte after the other up to byte `n`. -/
def Consecutive : ℕ → List H2cHeader → Prop
  | o, [] => o = n
  | o, h :: hs => h.offset = o ∧ 0 < h.len ∧ Consecutive (o + h.len) hs

/-- A division of the data of a write of `n` bytes in slot `t`. -/
structure Division (hs : List H2cHeader) : Prop where
  pdus : Consecutive n 0 hs
  headers : ∀ h ∈ hs, ForSlot c t h

/-- A write of `n` bytes in slot `t` has its pages, and nothing of its data. -/
structure Waits (q : NvmetTcpQueue) : Prop where
  idle : q.rcvState = .pdu ∧ q.offset = 0 ∧ q.left = 8
  pages : ∃ sg, (q.cmds (.slot t)).req.sg = some sg ∧ sg.data.length = n
  len : (q.cmds (.slot t)).req.transferLen = n ∧ 0 < n
  fresh : (q.cmds (.slot t)).rbytesDone = 0 ∧ (q.cmds (.slot t)).initFailed = false

/-- The pages of `req.sg` hold the data, byte `k` in page `k / PAGE_SIZE`; nothing else was written;
`kunmap` was called for every `kmap`; and the request was executed once. -/
structure Landed (data : List Byte) (q q' : NvmetTcpQueue) : Prop where
  stored : (q'.cmds (.slot t)).sgData = data
  others : ∀ i, i ≠ CmdId.slot t → q'.cmds i = q.cmds i
  pages : ∃ pages, (q'.cmds (.slot t)).recvMsg.kmaps = (q.cmds (.slot t)).recvMsg.kmaps ++ pages ∧
    (q'.cmds (.slot t)).recvMsg.kunmaps = (q.cmds (.slot t)).recvMsg.kunmaps ++ pages
  once : q'.executed = q.executed ++ [((q.cmds (.slot t)).req.cmd, data)]

end Rules

section Parts

variable {n o : ℕ} {h h' : H2cHeader} {hs : List H2cHeader}

theorem Consecutive.le (hc : Consecutive n o hs) : o ≤ n := by
  induction hs generalizing o with
  | nil => exact hc.le
  | cons h hs ih => exact (Nat.le_add_right _ _).trans (ih hc.2.2)

theorem Consecutive.le_offset (hc : Consecutive n o hs) (hmem : h ∈ hs) : o ≤ h.offset := by
  induction hs generalizing o with
  | nil => cases hmem
  | cons h' hs ih =>
    rcases List.mem_cons.1 hmem with rfl | hmem
    · exact hc.1.ge
    · exact (Nat.le_add_right _ _).trans (ih hc.2.2 hmem)

theorem Consecutive.apart (hc : Consecutive n o hs) (hmem : h ∈ hs) (hmem' : h' ∈ hs)
    (hlt : h.offset < h'.offset) :
    h.offset + h.len ≤ h'.offset := by
  induction hs generalizing o with
  | nil => cases hmem
  | cons a hs ih =>
    rcases List.mem_cons.1 hmem with rfl | hin <;> rcases List.mem_cons.1 hmem' with rfl | hin'
    · omega
    · exact hc.1 ▸ hc.2.2.le_offset hin'
    · have := hc.2.2.le_offset hin
      have := hc.1
      omega
    · exact ih hc.2.2 hin hin'

theorem Consecutive.end_le (hc : Consecutive n o hs) (hmem : h ∈ hs) : h.offset + h.len ≤ n := by
  induction hs generalizing o with
  | nil => cases hmem
  | cons a hs ih =>
    rcases List.mem_cons.1 hmem with rfl | hmem
    · exact hc.1 ▸ hc.2.2.le
    · exact ih hc.2.2 hmem

theorem Consecutive.len_pos (hc : Consecutive n o hs) (hmem : h ∈ hs) : 0 < h.len := by
  induction hs generalizing o with
  | nil => cases hmem
  | cons a hs ih =>
    rcases List.mem_cons.1 hmem with rfl | hmem
    · exact hc.2.1
    · exact ih hc.2.2 hmem

end Parts

section Stages

variable (c : Config) (t n : ℕ) (data : List Byte) (hs : List H2cHeader) (q₀ q : NvmetTcpQueue)

/-- What holds of the rest of the queue while the data comes in; `done` has been executed. -/
structure Steady (done : List (NvmeCommand × List Byte)) : Prop where
  others : ∀ i, i ≠ CmdId.slot t → q.cmds i = q₀.cmds i
  req : (q.cmds (.slot t)).req.transferLen = n ∧ (q.cmds (.slot t)).initFailed = false ∧
    (q.cmds (.slot t)).req.cmd = (q₀.cmds (.slot t)).req.cmd
  executed : q.executed = q₀.executed ++ done

structure AtHeader (k : ℕ) (wire : List Byte) : Prop where
  state : q.rcvState = .pdu ∧ q.offset = k
  left : q.left = if k < 8 then 8 - k else 24 + nvmetTcpHdgstLen c - k
  inside : k < 24 + nvmetTcpHdgstLen c ∧ k ≤ (stream data hs).length
  pdus : Consecutive n (q.cmds (.slot t)).rbytesDone hs
  pdu : ∃ mem : List Byte, q.pdu = (stream data hs).take k ++ mem.drop k
  wire : wire = (stream data hs).drop k

structure AtData (wire : List Byte) : Prop where
  state : q.rcvState = .data ∧ q.cmd = some (.slot t)
  count : 0 < (q.cmds (.slot t)).recvMsg.count
  pdus : Consecutive n ((q.cmds (.slot t)).rbytesDone + (q.cmds (.slot t)).recvMsg.count) hs
  wire : wire = (data.drop (q.cmds (.slot t)).rbytesDone).take (q.cmds (.slot t)).recvMsg.count ++
    stream data hs

end Stages

/-- What holds of the command between PDUs and what holds of it in a PDU go over into each other. -/
structure Carries (hs : List H2cHeader) (data : List Byte) (Idle Live : NvmetTcpCmd → Prop) :
    Prop where
  start : ∀ cmd, ∀ h ∈ hs, h.offset = cmd.rbytesDone → Idle cmd → Live (startH2c h.len cmd)
  read : ∀ cmd b, b.length ≤ cmd.recvMsg.count → cmd.rbytesDone + cmd.recvMsg.count ≤ data.length →
    b <+: data.drop cmd.rbytesDone → Live cmd → Live (recvInto b cmd)
  finish : ∀ cmd, cmd.recvMsg.count = 0 → Live cmd → Idle (nvmetTcpUnmapPduIovec cmd)

def doneWith (t n : ℕ) (q₀ q : NvmetTcpQueue) : List (NvmeCommand × List Byte) :=
  if (q.cmds (.slot t)).rbytesDone = n then
    [((q₀.cmds (.slot t)).req.cmd, (q.cmds (.slot t)).sgData)]
  else []

/-- Where the reads are in the PDUs of a division. -/
inductive Stage (c : Config) (t n : ℕ) (data : List Byte) (all : List H2cHeader)
    (Idle Live : NvmetTcpCmd → Prop) (q₀ q : NvmetTcpQueue) (wire : List Byte) : Prop
  | header (hs : List H2cHeader) (k : ℕ) : hs ⊆ all → AtHeader c t n data hs q k wire →
      Steady t n q₀ q (doneWith t n q₀ q) → Idle (q.cmds (.slot t)) →
        Stage c t n data all Idle Live q₀ q wire
  | data (hs : List H2cHeader) : hs ⊆ all → AtData t n data hs q wire → Steady t n q₀ q [] →
      Live (q.cmds (.slot t)) → Stage c t n data all Idle Live q₀ q wire

section Header

variable {c : Config} {env : Env} {t n k : ℕ} {data wire b : List Byte} {h : H2cHeader}
    {hs : List H2cHeader}
  {q₀ q : NvmetTcpQueue}

theorem stream_cons (data : List Byte) (h : H2cHeader) (hs : List H2cHeader) :
    stream data (h :: hs) = h.pdu.encode ++
      (h.dgst ++ ((data.drop h.offset).take h.len ++ stream data hs)) := by
  simp only [stream, List.flatMap_cons, H2cHeader.bytes, List.append_assoc]

theorem AtHeader.readHeader (hat : AtHeader c t n data hs q k wire) (hb : b <+: wire) :
    ∃ mem : List Byte, (readHeader b q).pdu =
      (stream data hs).take (k + b.length) ++ mem.drop (k + b.length) := by
  obtain ⟨mem, hmem⟩ := hat.pdu
  refine ⟨mem, ?_⟩
  rw [hat.wire] at hb
  change writeAt q.pdu q.offset b = _
  rw [hat.state.2, hmem, writeAt_filled hat.inside.2 hb]

theorem AtHeader.length_le (hat : AtHeader c t n data hs q k wire) (hb : b <+: wire) :
    k + b.length ≤ (stream data hs).length := by
  have hle := hb.length_le
  have := hat.inside.2
  rw [hat.wire, List.length_drop] at hle
  omega

theorem AtHeader.more (env : Env) (hat : AtHeader c t n data hs q k wire) (hb : b <+: wire)
    (hlt : b.length < q.left) :
    nvmetTcpTryRecv c env b q = Target.readHeader b q ∧
      AtHeader c t n data hs (Target.readHeader b q) (k + b.length) (wire.drop b.length) := by
  have hleft : (Target.readHeader b q).left ≠ 0 := by
    change q.left - b.length ≠ 0
    omega
  have hcase := hat.left
  refine ⟨?_, ⟨hat.state.1, congrArg (· + b.length) hat.state.2⟩, ?_, ⟨?_, hat.length_le hb⟩,
    hat.pdus, hat.readHeader hb, ?_⟩
  · unfold nvmetTcpTryRecv
    rw [hat.state.1]
    unfold nvmetTcpTryRecvPdu tryRecvHeader
    simp only [if_pos hleft, Bool.false_eq_true, if_false]
  · change q.left - b.length = _
    split_ifs at hcase ⊢ <;> omega
  · have := hat.inside.1
    split_ifs at hcase <;> omega
  · rw [hat.wire, List.drop_drop]

def restOfHeader (c : Config) (q : NvmetTcpQueue) : NvmetTcpQueue :=
  { q with left := 16 + nvmetTcpHdgstLen c }

theorem AtHeader.eight (env : Env) (hat : AtHeader c t n data (h :: hs) q k wire)
    (hfor : ForSlot c t h) (hb : b <+: wire) (hk : k < 8) (hend : b.length = q.left) :
    nvmetTcpTryRecv c env b q = restOfHeader c (Target.readHeader b q) ∧
      AtHeader c t n data (h :: hs) (restOfHeader c (Target.readHeader b q)) 8
      (wire.drop b.length) := by
  have hcase := hat.left
  rw [if_pos hk] at hcase
  have h8 : k + b.length = 8 := by omega
  have hlen := hat.length_le hb
  obtain ⟨mem, hmem⟩ := hat.readHeader hb
  rw [h8] at hmem hlen
  have hdr : NvmeTcpHdr.decode (Target.readHeader b q).pdu = h.pdu.hdr := by
    rw [hmem, NvmeTcpHdr.decode_append (by simp; omega), decode_take le_rfl hlen, stream_cons]
    exact h.pdu.hdr_encode_append _
  have hoff : (Target.readHeader b q).offset = 8 := by
    change q.offset + b.length = 8
    rw [hat.state.2, h8]
  have hleft : (Target.readHeader b q).left = 0 := by
    change q.left - b.length = 0
    omega
  refine ⟨?_, ⟨hat.state.1, hoff⟩, ?_, ⟨by omega, hlen⟩, hat.pdus, ⟨mem, hmem⟩, ?_⟩
  · have hrest : UInt8.toNat 24 - (Target.readHeader b q).offset + nvmetTcpHdgstLen c = 16 +
        nvmetTcpHdgstLen c := by
      rw [hoff]
      rfl
    unfold nvmetTcpTryRecv
    rw [hat.state.1]
    unfold nvmetTcpTryRecvPdu tryRecvHeader
    dsimp only
    rw [if_neg (not_not.2 hleft), if_pos hoff, hdr, hfor.type, hfor.hlen,
      if_neg (show ¬ nvmetTcpPduSize nvmeTcpH2cData = 0 by decide),
      if_neg (show ¬ UInt8.toNat 24 ≠ nvmetTcpPduSize nvmeTcpH2cData by decide), hrest]
    rfl
  · change 16 + nvmetTcpHdgstLen c = _
    rw [if_neg (lt_irrefl 8)]
    omega
  · rw [hat.wire, List.drop_drop, h8]

theorem AtHeader.whole (env : Env) (hat : AtHeader c t n data (h :: hs) q k wire)
    (hfor : ForSlot c t h) (hdd : c.dataDigest = false) (hb : b <+: wire) (hk : 8 ≤ k)
    (hend : b.length = q.left) :
    nvmetTcpTryRecv c env b q = letIn (Target.readHeader b q) ∧
      (NvmeTcpXferPdu.decode (Target.readHeader b q).pdu) = h.pdu ∧
      wire.drop b.length = (data.drop h.offset).take h.len ++ stream data hs := by
  have hcase := hat.left
  rw [if_neg (by omega)] at hcase
  have hin := hat.inside.1
  have hfull : k + b.length = 24 + nvmetTcpHdgstLen c := by omega
  have hfront : (h.pdu.encode ++ h.dgst).length = k + b.length := by simp [hfor.dgst, hfull]
  obtain ⟨mem, hmem⟩ := hat.readHeader hb
  have hbuf : (Target.readHeader b q).pdu =
      (h.pdu.encode ++ h.dgst) ++ mem.drop (k + b.length) := by
    rw [hmem, stream_cons, ← List.append_assoc, List.take_left' hfront]
  have hdec : NvmeTcpXferPdu.decode (Target.readHeader b q).pdu = h.pdu := by
    rw [hbuf, List.append_assoc, NvmeTcpXferPdu.decode_encode_append]
  have hdr : NvmeTcpHdr.decode (Target.readHeader b q).pdu = h.pdu.hdr := by
    rw [hbuf, List.append_assoc, NvmeTcpXferPdu.hdr_encode_append]
  refine ⟨?_, hdec, ?_⟩
  · have hread : headerRead q b = some (Target.readHeader b q).pdu := by
      unfold headerRead
      rw [if_pos ⟨hat.state.1, by omega, by rw [hat.state.2]; omega⟩]
      rfl
    have hflag : ¬ FlagRefused c (Target.readHeader b q).pdu (q.offset + b.length) := by
      rintro (⟨hhdr, hver⟩ | ⟨hdata, -⟩)
      · have hhd : nvmetTcpHdgstLen c = 4 := if_pos hhdr
        have hdr' : NvmeTcpHdr.decode (h.pdu.encode ++ h.dgst) = h.pdu.hdr :=
          h.pdu.hdr_encode_append _
        have hlen : (NvmeTcpHdr.decode (h.pdu.encode ++ h.dgst)).hlen.toNat +
          NVME_TCP_DIGEST_LENGTH ≤
            (h.pdu.encode ++ h.dgst).length := by
          rw [hdr', hfor.hlen, hfront, hfull, hhd]
          decide
        rw [hbuf, hat.state.2, ← hfront, verifyHdgst_eq (by omega) hlen, hdr'] at hver
        exact hfor.flag hhdr (by simpa using hver)
      · rw [hdd] at hdata
        cases hdata
    have hrun := tryRecv_h2c env hread (by rw [hdr, hfor.type]) hflag
    rcases handleH2c_cases c (Target.readHeader b q) with ⟨hne, -⟩ | ⟨-, heq⟩
    · refine absurd ?_ hne
      rw [h2cSlot, hdec, hfor.ttag]
      exact hat.pdus.1
    · rw [hrun, heq]
      rfl
  · rw [hat.wire, List.drop_drop, stream_cons, ← List.append_assoc, List.drop_left' hfront]

end Header

section Data

variable {c : Config} {env : Env} {t n : ℕ} {data wire b : List Byte} {hs : List H2cHeader}
    {q₀ q : NvmetTcpQueue}

theorem AtData.read_prefix (hat : AtData t n data hs q wire) (hn : data.length = n)
    (hb : b <+: wire) (hle : b.length ≤ (q.cmds (.slot t)).recvMsg.count) :
    b <+: data.drop (q.cmds (.slot t)).rbytesDone ∧
      wire.drop b.length = (data.drop ((q.cmds (.slot t)).rbytesDone + b.length)).take
        ((q.cmds (.slot t)).recvMsg.count - b.length) ++ stream data hs := by
  have hfit := hat.pdus.le
  have hlen : ((data.drop (q.cmds (.slot t)).rbytesDone).take
    (q.cmds (.slot t)).recvMsg.count).length =
      (q.cmds (.slot t)).recvMsg.count := by
    simp
    omega
  rw [hat.wire] at hb ⊢
  constructor
  · exact (List.prefix_of_prefix_length_le hb (List.prefix_append _ _) (by omega)).trans
      (List.take_prefix _ _)
  · rw [List.drop_append_of_le_length (by omega), List.drop_take, List.drop_drop]

theorem recvDataDone_written (hdd : c.dataDigest = false)
    (hinit : (q.cmds (.slot t)).initFailed = false) :
    ((recvDataDone c (.slot t) q).rcvState = .pdu ∧ (recvDataDone c (.slot t) q).offset = 0) ∧
      (recvDataDone c (.slot t) q).left = 8 ∧ (recvDataDone c (.slot t) q).cmds = q.cmds ∧
      (recvDataDone c (.slot t) q).executed = q.executed ++
        if (q.cmds (.slot t)).rbytesDone = (q.cmds (.slot t)).req.transferLen then
          [((q.cmds (.slot t)).req.cmd, (q.cmds (.slot t)).sgData)] else [] := by
  unfold recvDataDone
  simp only [hinit, hdd, true_and, Bool.false_eq_true, if_false]
  split_ifs with hall
  · exact ⟨⟨rfl, rfl⟩, rfl, rfl, rfl⟩
  · exact ⟨⟨rfl, rfl⟩, rfl, rfl, (List.append_nil _).symm⟩

theorem Steady.modify {done : List (NvmeCommand × List Byte)} (hst : Steady t n q₀ q done)
    {f : NvmetTcpCmd → NvmetTcpCmd} (hreq : ∀ cmd, (f cmd).req.transferLen = cmd.req.transferLen ∧
      (f cmd).initFailed = cmd.initFailed ∧ (f cmd).req.cmd = cmd.req.cmd) :
    Steady t n q₀ (q.modifyCmd (.slot t) f) done := by
  refine ⟨fun i hi => ?_, ?_, hst.executed⟩
  · rw [modifyCmd_cmds_of_ne _ _ _ hi]
    exact hst.others i hi
  · obtain ⟨h1, h2, h3⟩ := hreq (q.cmds (.slot t))
    rw [modifyCmd_cmds_self, h1, h2, h3]
    exact hst.req

section Step

variable {all : List H2cHeader} {Idle Live : NvmetTcpCmd → Prop}

theorem AtData.finish (hcar : Carries all data Idle Live) (hdd : c.dataDigest = false)
    (hsub : hs ⊆ all) (hst : Steady t n q₀ q [])
    (hpdus : Consecutive n (q.cmds (.slot t)).rbytesDone hs)
    (hcount : (q.cmds (.slot t)).recvMsg.count = 0) (hlive : Live (q.cmds (.slot t))) :
    Stage c t n data all Idle Live q₀
      (recvDataDone c (.slot t) (q.modifyCmd (.slot t) nvmetTcpUnmapPduIovec))
    (stream data hs) := by
  have hst' : Steady t n q₀ (q.modifyCmd (.slot t) nvmetTcpUnmapPduIovec) [] :=
    hst.modify fun _ => ⟨rfl, rfl, rfl⟩
  have hcmd : (q.modifyCmd (.slot t) nvmetTcpUnmapPduIovec).cmds (.slot t) =
      nvmetTcpUnmapPduIovec (q.cmds (.slot t)) := modifyCmd_cmds_self _ _ _
  obtain ⟨hstate, hleft, hcmds, hexec⟩ := recvDataDone_written hdd hst'.req.2.1
  have hcmd' : (recvDataDone c (.slot t) (q.modifyCmd (.slot t) nvmetTcpUnmapPduIovec)).cmds
    (.slot t) =
      nvmetTcpUnmapPduIovec (q.cmds (.slot t)) := by rw [hcmds, hcmd]
  refine .header hs 0 hsub ⟨hstate, hleft, ⟨by omega, Nat.zero_le _⟩, ?_, ⟨_, rfl⟩, rfl⟩
    ⟨?_, ?_, ?_⟩ ?_
  · rw [hcmd']
    exact hpdus
  · rw [hcmds]
    exact hst'.others
  · rw [hcmds]
    exact hst'.req
  · rw [hexec, hst'.executed, List.append_nil, hst'.req.1, hst'.req.2.2, doneWith, hcmds]
  · rw [hcmd']
    exact hcar.finish _ hcount hlive

theorem AtData.step (hcar : Carries all data Idle Live) (hdd : c.dataDigest = false)
    (hn : data.length = n) (hsub : hs ⊆ all) (hat : AtData t n data hs q wire)
    (hst : Steady t n q₀ q []) (hlive : Live (q.cmds (.slot t))) (hb : b <+: wire)
    (hle : b.length ≤ (q.cmds (.slot t)).recvMsg.count) :
    Stage c t n data all Idle Live q₀ (nvmetTcpTryRecv c env b q) (wire.drop b.length) := by
  obtain ⟨hpre, hdrop⟩ := hat.read_prefix hn hb hle
  have hfit := hat.pdus.le
  have hlive' := hcar.read _ b hle (by omega) hpre hlive
  have hst' : Steady t n q₀ (q.modifyCmd (.slot t) (recvInto b)) [] :=
    hst.modify fun _ => ⟨rfl, rfl, rfl⟩
  have hrun : nvmetTcpTryRecv c env b q = nvmetTcpTryRecvData c (.slot t) b q := by
    unfold nvmetTcpTryRecv
    rw [hat.state.1, hat.state.2]
  have hcmd : (q.modifyCmd (.slot t) (recvInto b)).cmds (.slot t) = recvInto b (q.cmds (.slot t)) :=
    modifyCmd_cmds_self _ _ _
  have hcount : (recvInto b (q.cmds (.slot t))).recvMsg.count =
    (q.cmds (.slot t)).recvMsg.count - b.length := rfl
  have hbytes : (recvInto b (q.cmds (.slot t))).rbytesDone =
    (q.cmds (.slot t)).rbytesDone + b.length := rfl
  rw [← hcmd] at hlive' hcount hbytes
  have hpdus : Consecutive n (((q.modifyCmd (.slot t) (recvInto b)).cmds (.slot t)).rbytesDone +
      ((q.modifyCmd (.slot t) (recvInto b)).cmds (.slot t)).recvMsg.count) hs := by
    rw [hcount, hbytes, Nat.add_assoc, Nat.add_sub_cancel' hle]
    exact hat.pdus
  rw [hrun, nvmetTcpTryRecvData, hdrop]
  by_cases hall : ((q.modifyCmd (.slot t) (recvInto b)).cmds (.slot t)).recvMsg.count = 0
  · rw [hall, Nat.add_zero] at hpdus
    rw [if_pos hall, ← hcount, hall, List.take_zero, List.nil_append]
    exact AtData.finish hcar hdd hsub hst' hpdus hall hlive'
  · rw [if_neg hall]
    exact .data hs hsub ⟨hat.state, Nat.pos_of_ne_zero hall, hpdus, by rw [hcount, hbytes]⟩ hst'
      hlive'

theorem AtHeader.step {k : ℕ} (hcar : Carries all data Idle Live) (hdd : c.dataDigest = false)
    (hfor : ∀ h ∈ all, ForSlot c t h) (hsub : hs ⊆ all) (hat : AtHeader c t n data hs q k wire)
    (hst : Steady t n q₀ q (doneWith t n q₀ q)) (hidle : Idle (q.cmds (.slot t))) (hb : b <+: wire)
    (hle : b.length ≤ q.left) :
    Stage c t n data all Idle Live q₀ (nvmetTcpTryRecv c env b q) (wire.drop b.length) := by
  rcases Nat.lt_or_ge b.length q.left with hlt | hge
  · obtain ⟨hrun, hat'⟩ := hat.more env hb hlt
    rw [hrun]
    exact .header hs _ hsub hat' ⟨hst.others, hst.req, hst.executed⟩ hidle
  · have hend : b.length = q.left := by omega
    have hpos : 0 < q.left := by
      have := hat.left
      have := hat.inside.1
      split_ifs at * <;> omega
    cases hs with
    | nil =>
      have hno := hat.length_le hb
      simp only [stream, List.flatMap_nil, List.length_nil] at hno
      omega
    | cons h hs =>
      have hmem : h ∈ all := hsub List.mem_cons_self
      by_cases hk : k < 8
      · obtain ⟨hrun, hat'⟩ := hat.eight env (hfor h hmem) hb hk hend
        rw [hrun]
        exact .header _ 8 hsub hat' ⟨hst.others, hst.req, hst.executed⟩ hidle
      · obtain ⟨hrun, hdec, hdrop⟩ := hat.whole env (hfor h hmem) hdd hb (by omega) hend
        have hslot : h2cSlot (Target.readHeader b q).pdu =
          .slot t := by rw [h2cSlot, hdec, (hfor h hmem).ttag]
        have hnone : doneWith t n q₀ q = [] := by
          have hin := hat.pdus.end_le List.mem_cons_self
          have hoff := hat.pdus.1
          have hlen := hat.pdus.2.1
          exact if_neg (by omega)
        rw [hnone] at hst
        have hcmd : (letIn (Target.readHeader b q)).cmds (.slot t) = startH2c h.len
            (q.cmds (.slot t)) := by
          rw [letIn, hslot, hdec, modifyCmd_cmds_self]
          rfl
        rw [hrun, hdrop]
        refine .data hs (fun x hx => hsub (List.mem_cons_of_mem _ hx))
          ⟨⟨rfl, congrArg some hslot⟩, ?_, ?_, ?_⟩ ?_ ?_
        · rw [hcmd]
          exact hat.pdus.2.1
        · rw [hcmd]
          exact hat.pdus.2.2
        · rw [hcmd, hat.pdus.1]
          rfl
        · rw [letIn, hslot, hdec]
          refine Steady.modify (f := startH2c _) ?_ fun _ => ⟨rfl, rfl, rfl⟩
          exact ⟨hst.others, hst.req, hst.executed⟩
        · rw [hcmd]
          exact hcar.start _ h hmem hat.pdus.1 hidle

theorem Stage.wants (h : Stage c t n data all Idle Live q₀ q wire) : 0 < recvWants q := by
  cases h with
  | header hs k hsub hat _ _ =>
    have hleft := hat.left
    have hin := hat.inside.1
    rw [recvWants, hat.state.1]
    dsimp only
    split_ifs at hleft <;> omega
  | data hs hsub hat _ _ =>
    rw [recvWants, hat.state.1, hat.state.2]
    exact hat.count

theorem Stage.step (env : Env) (hcar : Carries all data Idle Live) (hdd : c.dataDigest = false)
    (hn : data.length = n) (hfor : ∀ h ∈ all, ForSlot c t h)
    (h : Stage c t n data all Idle Live q₀ q wire) (hb : b <+: wire)
    (hle : b.length ≤ recvWants q) :
    Stage c t n data all Idle Live q₀ (nvmetTcpTryRecv c env b q) (wire.drop b.length) := by
  cases h with
  | header hs k hsub hat hst hidle =>
    rw [recvWants, hat.state.1] at hle
    exact AtHeader.step hcar hdd hfor hsub hat hst hidle hb hle
  | data hs hsub hat hst hlive =>
    rw [recvWants, hat.state.1, hat.state.2] at hle
    exact AtData.step hcar hdd hn hsub hat hst hlive hb hle

theorem drop_length_take (wire : List Byte) (m : ℕ) :
    wire.drop (wire.take m).length = wire.drop m := by
  simp

theorem Stage.run (hcar : Carries all data Idle Live) (hdd : c.dataDigest = false)
    (hn : data.length = n) (hfor : ∀ h ∈ all, ForSlot c t h) (env : Env) (reads : List ℕ)
    (h : Stage c t n data all Idle Live q₀ q wire) :
    Stage c t n data all Idle Live q₀ (recvWire c env reads wire q).1
      (recvWire c env reads wire q).2 := by
  induction reads generalizing q wire with
  | nil => exact h
  | cons m reads ih =>
    have hnext := h.step env hcar hdd hn hfor (List.take_prefix (min m (recvWants q)) wire)
      ((List.length_take_le _ _).trans (Nat.min_le_right _ _))
    rw [drop_length_take] at hnext
    exact ih hnext

theorem Stage.drains (hcar : Carries all data Idle Live) (hdd : c.dataDigest = false)
    (hn : data.length = n) (hfor : ∀ h ∈ all, ForSlot c t h) (env : Env)
    (h : Stage c t n data all Idle Live q₀ q wire) :
    (recvWire c env (List.replicate wire.length 1) wire q).2 = [] := by
  generalize hm : wire.length = m
  induction m generalizing q wire with
  | zero => exact List.length_eq_zero_iff.1 hm
  | succ m ih =>
    have hone : min 1 (recvWants q) = 1 := Nat.min_eq_left h.wants
    have hnext := h.step env hcar hdd hn hfor (List.take_prefix 1 wire)
      ((List.length_take_le _ _).trans h.wants)
    rw [drop_length_take] at hnext
    rw [List.replicate_succ, recvWire, hone]
    exact ih hnext (by simp [hm])

theorem Stage.drained (hn : data.length = n) (hfor : ∀ h ∈ all, ForSlot c t h)
    (h : Stage c t n data all Idle Live q₀ q []) :
    (q.cmds (.slot t)).rbytesDone = n ∧ Idle (q.cmds (.slot t)) ∧
      Steady t n q₀ q (doneWith t n q₀ q) := by
  cases h with
  | header hs k hsub hat hst hidle =>
    cases hs with
    | nil => exact ⟨hat.pdus, hidle, hst⟩
    | cons h hs =>
      have hlen := congrArg List.length hat.wire
      have hin := hat.inside.1
      rw [List.length_drop, stream_cons, List.length_append, List.length_append,
        NvmeTcpXferPdu.encode_length,
        (hfor h (hsub List.mem_cons_self)).dgst, List.length_nil] at hlen
      omega
  | data hs hsub hat hst hlive =>
    have hlen := congrArg List.length hat.wire
    have hfit := hat.pdus.le
    have hcount := hat.count
    rw [List.length_append, List.length_take, List.length_drop, List.length_nil] at hlen
    omega

end Step

end Data

section Aligned

variable {n : ℕ} {data mem₀ : List Byte} {all : List H2cHeader}

def Stored (id : ℕ) (data mem₀ : List Byte) (cmd : NvmetTcpCmd) : Prop :=
  cmd.req.sg = some ⟨id, data.take cmd.rbytesDone ++ mem₀.drop cmd.rbytesDone⟩

def StoredIdle (id : ℕ) (data mem₀ : List Byte) (kmaps kunmaps : List ℕ) (cmd : NvmetTcpCmd) :
    Prop :=
  Stored id data mem₀ cmd ∧ ∃ pages, cmd.recvMsg.kmaps = kmaps ++ pages ∧
    cmd.recvMsg.kunmaps = kunmaps ++ pages

/-- The rest of the iovec goes on where the data ends, and those pages are mapped that will be
unmapped. -/
def StoredLive (id : ℕ) (data mem₀ : List Byte) (kmaps kunmaps : List ℕ) (cmd : NvmetTcpCmd) :
    Prop :=
  Stored id data mem₀ cmd ∧ Adjacent cmd.rbytesDone cmd.recvMsg.iov cmd.recvMsg.count ∧
    ∃ pages, cmd.recvMsg.kmaps = kmaps ++
    (pages ++ List.range' cmd.recvMsg.sgIdx cmd.recvMsg.nrMapped) ∧
      cmd.recvMsg.kunmaps = kunmaps ++ pages

theorem carries_stored (id : ℕ) (kmaps kunmaps : List ℕ) (hn : data.length = n)
    (hmem : mem₀.length = n) (hdiv : Consecutive n 0 all)
    (hpage : ∀ h ∈ all, h.offset % PAGE_SIZE = 0) :
    Carries all data (StoredIdle id data mem₀ kmaps kunmaps)
    (StoredLive id data mem₀ kmaps kunmaps) := by
  refine ⟨?_, ?_, ?_⟩
  · rintro cmd h hin hoff ⟨hsg, pages, hmaps, hunmaps⟩
    have hend := hdiv.end_le hin
    have hlen : (data.take cmd.rbytesDone ++ mem₀.drop cmd.rbytesDone).length = n := by
      simp
      omega
    obtain ⟨hadj, hcount⟩ :=
      pduIovec_adjacent ⟨id, data.take cmd.rbytesDone ++ mem₀.drop cmd.rbytesDone⟩
      cmd.rbytesDone h.len (hoff ▸ hpage h hin) (by rw [hlen]; omega)
    rw [← hsg] at hadj hcount
    refine ⟨hsg, ?_, pages, ?_, hunmaps⟩
    · change Adjacent cmd.rbytesDone
        ((pduIovec cmd.req.sg cmd.rbytesDone h.len).take (divRoundUp h.len PAGE_SIZE)) h.len
      rw [← hcount, List.take_length]
      exact hadj
    · change cmd.recvMsg.kmaps ++ List.range' (divRoundUp cmd.rbytesDone PAGE_SIZE)
        (pduIovec cmd.req.sg cmd.rbytesDone h.len).length = _
      rw [hcount, hmaps, List.append_assoc]
      rfl
  · rintro cmd b hle hfit hpre ⟨hsg, hadj, hpages⟩
    have hlen : (data.take cmd.rbytesDone ++ mem₀.drop cmd.rbytesDone).length = n := by
      simp
      omega
    have hdata : cmd.sgData = data.take cmd.rbytesDone ++ mem₀.drop cmd.rbytesDone := by
      rw [NvmetTcpCmd.sgData, hsg]
      rfl
    obtain ⟨hwrite, hadj'⟩ := hadj.write cmd.sgData b (by rw [hdata, hlen]; omega) hle
    refine ⟨?_, hadj', hpages⟩
    change (cmd.req.sg.map fun sg => (⟨sg.id, (iovWrite cmd.sgData cmd.recvMsg.iov b).1⟩ : SgList))
      = _
    rw [hwrite, hdata, writeAt_filled (by omega) hpre, hsg]
    rfl
  · rintro cmd - ⟨hsg, -, pages, hmaps, hunmaps⟩
    refine ⟨hsg, _, hmaps, ?_⟩
    change cmd.recvMsg.kunmaps ++ List.range' cmd.recvMsg.sgIdx cmd.recvMsg.nrMapped = _
    rw [hunmaps, List.append_assoc]

end Aligned

section Misplaced

variable {n : ℕ} {all : List H2cHeader}

/-- Byte `p` is what it was, and up to there the list has its length. -/
def Missed (n p : ℕ) (x : Byte) (cmd : NvmetTcpCmd) : Prop :=
  ∃ sg, cmd.req.sg = some sg ∧ sg.data[p]? = some x ∧ (cmd.rbytesDone ≤ p → sg.data.length = n)

/-- The data that is coming in ends before `p`, or goes past it. -/
def MissedLive (n p : ℕ) (x : Byte) (cmd : NvmetTcpCmd) : Prop :=
  ∃ sg, cmd.req.sg = some sg ∧ sg.data[p]? = some x ∧
    ((sg.data.length = n ∧ Adjacent cmd.rbytesDone cmd.recvMsg.iov cmd.recvMsg.count ∧
        cmd.rbytesDone + cmd.recvMsg.count ≤ p) ∨
      PastByte p cmd.recvMsg.iov ∧ p < cmd.rbytesDone + cmd.recvMsg.count)

/-- A PDU from `p` on, in the middle of a page, leaves byte `p` as it was, and so do all others. -/
theorem carries_missed (data : List Byte) (x : Byte) (hdiv : Consecutive n 0 all) {h₀ : H2cHeader}
    (hin₀ : h₀ ∈ all) (hbad : h₀.offset % PAGE_SIZE ≠ 0)
    (hfirst : ∀ h ∈ all, h.offset < h₀.offset → h.offset % PAGE_SIZE = 0) :
    Carries all data (Missed n h₀.offset x) (MissedLive n h₀.offset x) := by
  refine ⟨?_, ?_, ?_⟩
  · rintro cmd h hin hoff ⟨sg, hsg, hx, hlen⟩
    refine ⟨sg, hsg, hx, ?_⟩
    have hiov : (startH2c h.len cmd).recvMsg.iov =
        (pduIovec (some sg) cmd.rbytesDone h.len).take (divRoundUp h.len PAGE_SIZE) := by
      rw [← hsg]
      rfl
    rw [hiov]
    rcases Nat.lt_or_ge h.offset h₀.offset with hlt | hge
    · have hapart := hdiv.apart hin hin₀ hlt
      have hall := hlen (by omega)
      have hend := hdiv.end_le hin
      obtain ⟨hadj, hcount⟩ :=
        pduIovec_adjacent sg cmd.rbytesDone h.len (hoff ▸ hfirst h hin hlt) (by omega)
      rw [← hcount, List.take_length]
      exact .inl ⟨hall, hadj, hoff ▸ hapart⟩
    · have hpos := hdiv.len_pos hin
      refine .inr ⟨fun e he => ?_,
        Nat.lt_of_lt_of_le (by omega : h₀.offset < h.offset + h.len) (hoff ▸ le_rfl)⟩
      refine pduIovec_pastByte ?_ e (List.mem_of_mem_take he)
      rcases Nat.lt_or_ge h₀.offset cmd.rbytesDone with hgt | hle
      · exact .inl hgt
      · have heq : h₀.offset = cmd.rbytesDone := by omega
        exact .inr ⟨heq, heq ▸ hbad⟩
  · rintro cmd b hle hfit hpre ⟨sg, hsg, hx, hcase⟩
    have hp : h₀.offset < sg.data.length := (List.getElem?_eq_some_iff.1 hx).1
    have hdata : cmd.sgData = sg.data := by
      rw [NvmetTcpCmd.sgData, hsg]
      rfl
    have hsg' : (recvInto b cmd).req.sg = some ⟨sg.id, (iovWrite sg.data cmd.recvMsg.iov b).1⟩ := by
      change (cmd.req.sg.map
        fun sg => (⟨sg.id, (iovWrite cmd.sgData cmd.recvMsg.iov b).1⟩ : SgList)) = _
      rw [hsg, hdata]
      rfl
    have hiov : (recvInto b cmd).recvMsg.iov = (iovWrite sg.data cmd.recvMsg.iov b).2 := by
      rw [← hdata]
      rfl
    have hsum : (recvInto b cmd).rbytesDone + (recvInto b cmd).recvMsg.count =
        cmd.rbytesDone + cmd.recvMsg.count := by
      change cmd.rbytesDone + b.length + (cmd.recvMsg.count - b.length) = _
      omega
    refine ⟨_, hsg', ?_⟩
    rw [hiov, hsum]
    rcases hcase with ⟨hlen, hadj, hbefore⟩ | ⟨hpast, hover⟩
    · obtain ⟨hwrite, hadj'⟩ := hadj.write sg.data b (by omega) hle
      rw [hwrite]
      exact ⟨(getElem?_writeAt_of_ge (by omega) (by omega)).trans hx,
        .inl ⟨(writeAt_length (by omega)).trans hlen, hadj', hbefore⟩⟩
    · obtain ⟨hx', hpast'⟩ := hpast.write b hx
      exact ⟨hx', .inr ⟨hpast', hover⟩⟩
  · rintro cmd hzero ⟨sg, hsg, hx, hcase⟩
    refine ⟨sg, hsg, hx, fun hle => ?_⟩
    rcases hcase with ⟨hlen, -, -⟩ | ⟨-, hover⟩
    · exact hlen
    · change cmd.rbytesDone ≤ _ at hle
      omega

end Misplaced

section Whole

variable {c : Config} {t n : ℕ} {data : List Byte} {hs : List H2cHeader} {q : NvmetTcpQueue}

theorem Waits.stage {Idle Live : NvmetTcpCmd → Prop} (hwait : Waits t n q)
    (hdiv : Division c t n hs) (hidle : Idle (q.cmds (.slot t))) :
    Stage c t n data hs Idle Live q q (stream data hs) := by
  have hnone : doneWith t n q q = [] := by
    have := hwait.len.2
    have := hwait.fresh.1
    exact if_neg (by omega)
  refine .header hs 0 (List.Subset.refl _)
    ⟨⟨hwait.idle.1, hwait.idle.2.1⟩, hwait.idle.2.2, ⟨by omega, Nat.zero_le _⟩,
    ?_, ⟨q.pdu, rfl⟩, rfl⟩ ⟨fun _ _ => rfl, ⟨hwait.len.1, hwait.fresh.2, rfl⟩, ?_⟩ hidle
  · rw [hwait.fresh.1]
    exact hdiv.pdus
  · rw [hnone, List.append_nil]

/-- Data whose PDUs all start a page lands where it belongs. -/
theorem Waits.landed (hwait : Waits t n q) (hdd : c.dataDigest = false) (hdiv : Division c t n hs)
    (hpage : ∀ h ∈ hs, h.offset % PAGE_SIZE = 0) (env : Env) (hn : data.length = n) (reads : List ℕ)
    (hdry : (recvWire c env reads (stream data hs) q).2 = []) :
    Landed t data q (recvWire c env reads (stream data hs) q).1 := by
  obtain ⟨⟨id, mem₀⟩, hsg, hmem⟩ := hwait.pages
  have hcar := carries_stored id (q.cmds (.slot t)).recvMsg.kmaps
    (q.cmds (.slot t)).recvMsg.kunmaps hn hmem
    hdiv.pdus hpage
  have hidle : StoredIdle id data mem₀ (q.cmds (.slot t)).recvMsg.kmaps
    (q.cmds (.slot t)).recvMsg.kunmaps
      (q.cmds (.slot t)) := by
    refine ⟨?_, [], (List.append_nil _).symm, (List.append_nil _).symm⟩
    rw [Stored, hwait.fresh.1, hsg]
    rfl
  have hend := (hwait.stage hdiv hidle).run hcar hdd hn hdiv.headers env reads
  rw [hdry] at hend
  obtain ⟨hdone, ⟨hstored, hpages⟩, hst⟩ := hend.drained hn hdiv.headers
  have hdata : ((recvWire c env reads (stream data hs) q).1.cmds (.slot t)).sgData = data := by
    rw [Stored, hdone, List.take_of_length_le hn.le, List.drop_eq_nil_of_le hmem.le,
      List.append_nil] at hstored
    rw [NvmetTcpCmd.sgData, hstored]
    rfl
  refine ⟨hdata, hst.others, hpages, ?_⟩
  rw [hst.executed, doneWith, if_pos hdone, hdata]

/-- A PDU that starts in the middle of a page leaves a byte of the list as it was, whatever the
data. -/
theorem Waits.missed (hwait : Waits t n q) (hdd : c.dataDigest = false) (hdiv : Division c t n hs)
    (hbad : ∃ h ∈ hs, h.offset % PAGE_SIZE ≠ 0) :
    ∃ (p : ℕ) (x : Byte), (q.cmds (.slot t)).sgData[p]? = some x ∧
      ∀ env data reads, data.length = n →
      (recvWire c env reads (stream data hs) q).2 = [] →
      ((recvWire c env reads (stream data hs) q).1.cmds (.slot t)).sgData[p]? = some x := by
  classical
  have hex : ∃ p, ∃ h ∈ hs, h.offset = p ∧ h.offset % PAGE_SIZE ≠ 0 := by
    obtain ⟨h, hin, hne⟩ := hbad
    exact ⟨h.offset, h, hin, rfl, hne⟩
  obtain ⟨h₀, hin₀, hp, hne₀⟩ := Nat.find_spec hex
  have hfirst : ∀ h ∈ hs, h.offset < h₀.offset → h.offset % PAGE_SIZE = 0 := by
    intro h hin hlt
    by_contra hne
    exact Nat.find_min hex (hp ▸ hlt) ⟨h, hin, rfl, hne⟩
  obtain ⟨sg, hsg, hmem⟩ := hwait.pages
  have hlt : h₀.offset < sg.data.length := by
    have := hdiv.pdus.end_le hin₀
    have := hdiv.pdus.len_pos hin₀
    omega
  have hdata : (q.cmds (.slot t)).sgData = sg.data := by
    rw [NvmetTcpCmd.sgData, hsg]
    rfl
  refine ⟨h₀.offset, sg.data[h₀.offset], by rw [hdata, List.getElem?_eq_getElem hlt], ?_⟩
  intro env data reads hn hdry
  have hcar := carries_missed data sg.data[h₀.offset] hdiv.pdus hin₀ hne₀ hfirst
  have hend := (hwait.stage hdiv ⟨sg, hsg, List.getElem?_eq_getElem hlt, fun _ => hmem⟩).run hcar
    hdd hn hdiv.headers
    env reads
  rw [hdry] at hend
  obtain ⟨-, ⟨sg', hsg', hx, -⟩, -⟩ := hend.drained hn hdiv.headers
  rw [NvmetTcpCmd.sgData, hsg']
  exact hx

theorem Waits.drains (hwait : Waits t n q) (hdd : c.dataDigest = false) (hdiv : Division c t n hs)
    (env : Env) (hn : data.length = n) :
    (recvWire c env (List.replicate (stream data hs).length 1) (stream data hs) q).2 = [] := by
  have hstage : Stage c t n data hs (fun _ => True) (fun _ => True) q q (stream data hs) :=
    hwait.stage hdiv trivial
  exact hstage.drains ⟨fun _ _ _ _ _ => trivial, fun _ _ _ _ _ _ => trivial, fun _ _ _ => trivial⟩
    hdd hn
    hdiv.headers env

/-- Data that differs from the list in every byte does not land. -/
theorem Waits.not_landed (hwait : Waits t n q) (hdd : c.dataDigest = false)
    (hdiv : Division c t n hs) (hbad : ∃ h ∈ hs, h.offset % PAGE_SIZE ≠ 0) :
    ∃ (env : Env) (data : List Byte) (reads : List ℕ), data.length = n ∧
      (recvWire c env reads (stream data hs) q).2 = [] ∧
        ¬ Landed t data q (recvWire c env reads (stream data hs) q).1 := by
  obtain ⟨p, x, hx, hmiss⟩ := hwait.missed hdd hdiv hbad
  have hn : ((q.cmds (.slot t)).sgData.map (· + 1)).length = n := by
    obtain ⟨sg, hsg, hmem⟩ := hwait.pages
    rw [List.length_map, NvmetTcpCmd.sgData, hsg]
    exact hmem
  have hdry := hwait.drains hdd hdiv ⟨.accept 0, .all⟩ hn
  refine ⟨_, _, _, hn, hdry, fun hland => ?_⟩
  have hkept := hmiss _ _ _ hn hdry
  rw [hland.stored, List.getElem?_map, hx] at hkept
  simp at hkept

end Whole

/-- For every write that waits for its data and every division of the data: it lands where it
belongs, whatever it is and however it is read, exactly if every PDU starts a page. -/
theorem h2c_data_lands_iff (c : Config) (hdd : c.dataDigest = false) (t n : ℕ) (q : NvmetTcpQueue)
    (hwait : Waits t n q) (hs : List H2cHeader) (hdiv : Division c t n hs) :
    (∀ (env : Env) (data : List Byte) (reads : List ℕ), data.length = n →
      (recvWire c env reads (stream data hs) q).2 = [] →
        Landed t data q (recvWire c env reads (stream data hs) q).1) ↔
      ∀ h ∈ hs, h.offset % PAGE_SIZE = 0 := by
  constructor
  · intro hland h hin
    by_contra hne
    obtain ⟨env, data, reads, hn, hdry, hnot⟩ := hwait.not_landed hdd hdiv ⟨h, hin, hne⟩
    exact hnot (hland env data reads hn hdry)
  · intro hpage env data reads hn hdry
    exact hwait.landed hdd hdiv hpage env hn reads hdry

section Sample

instance (t n : ℕ) (q : NvmetTcpQueue) : Decidable (Waits t n q) :=
  decidable_of_iff ((q.rcvState = .pdu ∧ q.offset = 0 ∧ q.left = 8) ∧
      (q.cmds (.slot t)).req.sg.map (·.data.length) = some n ∧
      ((q.cmds (.slot t)).req.transferLen = n ∧ 0 < n) ∧ (q.cmds (.slot t)).rbytesDone = 0 ∧
      (q.cmds (.slot t)).initFailed = false)
    ⟨fun h => ⟨h.1, Option.map_eq_some_iff.1 h.2.1, h.2.2.1, h.2.2.2⟩,
      fun h => ⟨h.idle, Option.map_eq_some_iff.2 h.pages, h.len, h.fresh⟩⟩

/-- A write of `len` bytes is told to send them. -/
def sampleAskRun (len : UInt32) : List TargetEvent :=
  let cmd := NvmeCommand.decodeAt [] 0
  let pdu : NvmeTcpCmdPdu :=
    ⟨⟨nvmeTcpCmd, 0, 72, 0, 72⟩, { cmd with opcode := 1, sgl := ⟨0, len, (0, 0, 0), 0x5a⟩ }⟩
  sampleRecv pdu.encode ⟨.accept len.toNat, .all⟩ ++
    [.sendStart 2, .sendTurn false [], .sendTurn false []]

def sampleHeaders (parts : List (UInt32 × UInt32)) : List H2cHeader :=
  parts.map fun part => ⟨⟨⟨nvmeTcpH2cData, 0, 24, 24, 24 + part.2⟩, 0, 0, part.1, part.2⟩, []⟩

theorem forSlot_sampleHeaders (parts : List (UInt32 × UInt32)) :
    ∀ h ∈ sampleHeaders parts, ForSlot plainTarget 0 h := by
  intro h hin
  obtain ⟨part, -, rfl⟩ := List.mem_map.1 hin
  exact ⟨rfl, rfl, nofun, rfl, rfl⟩

/-- A page and part of the next one. -/
theorem h2c_data_lands_iff_sample : ∃ s, (targetSystem plainTarget).Run (sampleAskRun 5000) s ∧
    Waits 0 5000 s.q ∧ ∀ (env : Env) (data : List Byte) (reads : List ℕ), data.length = 5000 →
      (recvWire plainTarget env reads (stream data (sampleHeaders [(0, 4096), (4096, 904)])) s.q).2
        = [] →
        Landed 0 data s.q
          (recvWire plainTarget env reads (stream data (sampleHeaders [(0, 4096), (4096, 904)]))
            s.q).1 := by
  obtain ⟨s, hrun, hwait⟩ : ∃ s, (targetSystem plainTarget).Run (sampleAskRun 5000) s ∧
      Waits 0 5000 s.q :=
    Runs.System.exists_runIn_of_execIn (fun s : TargetState => Waits 0 5000 s.q) (by decide +kernel)
  refine ⟨s, hrun, hwait,
    (h2c_data_lands_iff plainTarget rfl 0 5000 s.q hwait _ ⟨?_, forSlot_sampleHeaders _⟩).2 ?_⟩
  · exact ⟨rfl, by decide, rfl, by decide, rfl⟩
  · decide

/-- Two pages, the first one in two parts: the second part goes to the second page. -/
theorem h2c_data_misplaced : ∃ s, (targetSystem plainTarget).Run (sampleAskRun 8192) s ∧
    Waits 0 8192 s.q ∧ Division plainTarget 0 8192
      (sampleHeaders [(0, 100), (100, 3996), (4096, 4096)]) ∧
    ∃ (env : Env) (data : List Byte) (reads : List ℕ), data.length = 8192 ∧
      (recvWire plainTarget env reads
      (stream data (sampleHeaders [(0, 100), (100, 3996), (4096, 4096)])) s.q).2 = [] ∧
      ¬ Landed 0 data s.q
        (recvWire plainTarget env reads
          (stream data (sampleHeaders [(0, 100), (100, 3996), (4096, 4096)])) s.q).1 := by
  obtain ⟨s, hrun, hwait⟩ : ∃ s, (targetSystem plainTarget).Run (sampleAskRun 8192) s ∧
      Waits 0 8192 s.q :=
    Runs.System.exists_runIn_of_execIn (fun s : TargetState => Waits 0 8192 s.q) (by decide +kernel)
  have hdiv : Division plainTarget 0 8192
      (sampleHeaders [(0, 100), (100, 3996), (4096, 4096)]) := by
    refine ⟨⟨rfl, by decide, rfl, by decide, rfl, by decide, rfl⟩, forSlot_sampleHeaders _⟩
  refine ⟨s, hrun, hwait, hdiv, hwait.not_landed rfl hdiv ?_⟩
  exact ⟨_, List.mem_cons_of_mem _ List.mem_cons_self, by decide⟩

end Sample

end BlkSwitch.Target
