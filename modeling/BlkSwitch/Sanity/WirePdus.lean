import BlkSwitch.Sanity.HostFeeds
import BlkSwitch.Sanity.TargetPipe

/-! The PDUs of the target as the host takes them. Each leads from one header boundary to the next:
a response ends its request, an R2T has its data sent, and a data PDU is stored and, with its
success flag, ends the request as well. -/

namespace BlkSwitch

open Bytes Host Target RecvQueue

/-- The two ends of a connection without a data digest have agreed on the header digest. -/
structure Agree (hc : Host.Config) (tc : Target.Config) : Prop where
  hdgst : hc.hdrDigest = tc.hdrDigest
  crc : hc.crc = tc.crc
  host : hc.dataDigest = false
  target : tc.dataDigest = false

theorem atHeader_initRecvCtx (c : Host.Config) (q : RecvQueue) :
    AtHeader c (q.nvmeTcpInitRecvCtx c) := ⟨rfl, rfl, rfl⟩

theorem atHeader_blank (c : Host.Config) : AtHeader c (blankRecvQueue c) := ⟨rfl, rfl, rfl⟩

section Header

variable {hc : Host.Config} {tc : Target.Config} {n : UInt16 → ℕ} {q : RecvQueue} {e : List Byte}

theorem Agree.hdgstLen (h : Agree hc tc) : nvmeTcpHdgstLen hc = nvmetTcpHdgstLen tc := by
  simp [nvmeTcpHdgstLen, nvmetTcpHdgstLen, h.hdgst]

theorem wire_length (h : Agree hc tc) (he : e.length = 24) :
    (e ++ hdgstOf tc e).length = 24 + nvmeTcpHdgstLen hc := by
  rw [List.length_append, hdgstOf_length, he, h.hdgstLen]

theorem withHdgst_eq (h : Agree hc tc) (e : List Byte) : withHdgst hc e = e ++ hdgstOf tc e := by
  simp [withHdgst, hdgstOf, h.hdgst, h.crc]

/-- The header digest of the target passes the check of the host. -/
theorem headerCheck_wire (h : Agree hc tc) (he : e.length = 24)
    (hlen : (NvmeTcpHdr.decode e).hlen = 24)
    (hflags : tc.hdrDigest = true → (NvmeTcpHdr.decode e).flags &&& NVME_TCP_F_HDGST ≠ 0) :
    headerCheck hc (e ++ hdgstOf tc e) = 0 := by
  rw [← withHdgst_eq h]
  refine headerCheck_withHdgst he hlen (fun hd => hflags (h.hdgst ▸ hd)) fun hd => ?_
  rw [h.host] at hd
  cases hd

theorem feeds_wire_header (h : Agree hc tc) (hq : RecvOk hc q) (ha : AtHeader hc q)
    (he : e.length = 24) (hlen : (NvmeTcpHdr.decode e).hlen = 24)
    (hflags : tc.hdrDigest = true → (NvmeTcpHdr.decode e).flags &&& NVME_TCP_F_HDGST ≠ 0)
    (hopen : q.ended (hdrTag (e ++ hdgstOf tc e)) < n (hdrTag (e ++ hdgstOf tc e)))
    {q' : RecvQueue} (hres : handleHeader hc (gotHeader (e ++ hdgstOf tc e) q) = (0, q')) :
    Feeds hc n (e ++ hdgstOf tc e) q q' := by
  have hw := wire_length h he
  have hpos : e ++ hdgstOf tc e ≠ [] := by
    intro hnil
    rw [hnil, List.length_nil] at hw
    omega
  refine feeds_header hq (by rw [hw, ha.remaining]) hpos ?_ (by rwa [writeAt_atHeader hq ha hw])
  have hclear : ∀ q : RecvQueue, clearHash hc q = q := fun q => by simp [clearHash, h.host]
  have hcheck : headerCheck hc (gotHeader (e ++ hdgstOf tc e) q).pdu = 0 :=
    headerCheck_wire h he hlen hflags
  rw [headerBytes_atHeader hq ha hw, recvHeader_eq, hclear, if_neg (not_not.2 hcheck), hres]

theorem hdgstFlag_set (hd : tc.hdrDigest = true) :
    Target.hdgstFlag tc &&& NVME_TCP_F_HDGST ≠ 0 := by
  simp [Target.hdgstFlag, hd]
  decide

end Header

section Pdus

variable {hc : Host.Config} {tc : Target.Config} {n : UInt16 → ℕ} {q : RecvQueue}
    {r : NvmeTcpRequest}

theorem rspWire_eq (cmd : NvmetTcpCmd) :
    rspWire tc cmd = (NvmeTcpRspPdu.mk (rspHdr tc) cmd.req.cqe).encode ++
      hdgstOf tc (NvmeTcpRspPdu.mk (rspHdr tc) cmd.req.cqe).encode := rfl

theorem feeds_rsp (h : Agree hc tc) (hq : RecvOk hc q) (ha : AtHeader hc q) {cmd : NvmetTcpCmd}
    (hr : q.rqs cmd.req.cqe.commandId = some r)
    (htag : hc.qid = 0 → cmd.req.cqe.commandId < NVME_AQ_BLK_MQ_DEPTH)
    (hopen : q.ended cmd.req.cqe.commandId < n cmd.req.cqe.commandId) :
    ∃ q', Feeds hc n (rspWire tc cmd) q q' ∧ AtHeader hc q' ∧ q'.rqs = q.rqs ∧
      q'.stored = q.stored ∧
      q'.log = q.log ++ [.endRequest cmd.req.cqe.commandId cmd.req.cqe.status cmd.req.cqe.result
        (q.stored cmd.req.cqe.commandId)] := by
  rw [rspWire_eq]
  generalize hp : NvmeTcpRspPdu.mk (rspHdr tc) cmd.req.cqe = p
  have hcqe : NvmeCompletion.decodeAt (p.encode ++ hdgstOf tc p.encode) 8 = cmd.req.cqe := by
    rw [p.decode_cqe, ← hp]
  have hhdr : ∀ rest, NvmeTcpHdr.decode (p.encode ++ rest) = rspHdr tc := fun rest => by
    rw [NvmeTcpRspPdu.encode, List.append_assoc, NvmeTcpHdr.decode_encode_append, ← hp]
  have hhdr0 : NvmeTcpHdr.decode p.encode = rspHdr tc := by simpa using hhdr []
  have hhdrTag : hdrTag (p.encode ++ hdgstOf tc p.encode) = cmd.req.cqe.commandId := by
    rw [hdrTag, hhdr, rspHdr, if_pos rfl, hcqe]
  have hres : handleHeader hc (gotHeader (p.encode ++ hdgstOf tc p.encode) q) =
      (0, ((gotHeader (p.encode ++ hdgstOf tc p.encode) q).nvmeTcpInitRecvCtx hc).endRequest
        cmd.req.cqe.commandId cmd.req.cqe.status cmd.req.cqe.result) := by
    rw [handleHeader_rsp (congrArg NvmeTcpHdr.type (hhdr _)), gotHeader_pdu, hcqe]
    exact handleComp_of_rq hr htag
  have hflags : tc.hdrDigest = true →
      (NvmeTcpHdr.decode p.encode).flags &&& NVME_TCP_F_HDGST ≠ 0 := by
    rw [hhdr0]
    exact hdgstFlag_set
  exact ⟨_, feeds_wire_header h hq ha p.encode_length (by rw [hhdr0]; rfl) hflags (by rwa [hhdrTag])
    hres, ⟨rfl, rfl, rfl⟩, rfl, rfl, rfl⟩

/-- What of a request an R2T leaves alone. -/
def SameReads (r r' : NvmeTcpRequest) : Prop :=
  r'.rq = r.rq ∧ r'.dataLen = r.dataLen ∧ r'.dataSent = r.dataSent ∧ r'.currBio = r.currBio ∧
    r'.iter = r.iter

theorem feeds_r2t (h : Agree hc tc) (hq : RecvOk hc q) (ha : AtHeader hc q) {i : CmdId}
    {cmd : NvmetTcpCmd} (hr : q.rqs cmd.req.cmd.commandId = some r) (hsent : r.dataSent = 0)
    (hlen : cmd.req.transferLen - cmd.rbytesDone ≤ r.dataLen) (hsmall : r.dataLen < 2 ^ 32)
    (hopen : q.ended cmd.req.cmd.commandId < n cmd.req.cmd.commandId) :
    ∃ q' r', Feeds hc n ((r2tPdu tc i cmd).encode ++ hdgstOf tc (r2tPdu tc i cmd).encode) q q' ∧
      AtHeader hc q' ∧ q'.rqs = Function.update q.rqs cmd.req.cmd.commandId (some r') ∧
      SameReads r r' ∧ q'.stored = q.stored ∧
      q'.log = q.log ++ [.queueRequest cmd.req.cmd.commandId] := by
  generalize hp : r2tPdu tc i cmd = p
  have htag : p.commandId = cmd.req.cmd.commandId := by rw [← hp]; rfl
  have hdec : ∀ rest, NvmeTcpXferPdu.decode (p.encode ++ rest) = p := p.decode_encode_append
  have hhdr : ∀ rest, NvmeTcpHdr.decode (p.encode ++ rest) = p.hdr := p.hdr_encode_append
  have hhdr0 : NvmeTcpHdr.decode p.encode = p.hdr := by simpa using hhdr []
  have htype : p.hdr.type = nvmeTcpR2t := by rw [← hp]; rfl
  have hhdrTag : hdrTag (p.encode ++ hdgstOf tc p.encode) = cmd.req.cmd.commandId := by
    rw [hdrTag, hhdr, htype, if_neg (by decide), hdec, htag]
  have hsecond : p.second.toNat = cmd.req.transferLen - cmd.rbytesDone := by
    rw [← hp]
    exact UInt32.toNat_ofNat_of_lt' (lt_of_le_of_lt hlen hsmall)
  obtain ⟨r₁, hset, hsame⟩ : ∃ r₁, nvmeTcpSetupH2cDataPdu hc r p = (true, r₁) ∧ SameReads r r₁ := by
    unfold nvmeTcpSetupH2cDataPdu
    dsimp only
    rw [if_neg (by rw [hsent, hsecond]; omega), if_neg (by rw [hsent]; omega)]
    exact ⟨_, rfl, rfl, rfl, rfl, rfl, rfl⟩
  have hres : handleHeader hc (gotHeader (p.encode ++ hdgstOf tc p.encode) q) =
      (0, (((gotHeader (p.encode ++ hdgstOf tc p.encode) q).nvmeTcpInitRecvCtx hc).setRq p.commandId
        { r₁ with state := .h2cPdu, offset := 0 }).tell (.queueRequest p.commandId)) := by
    rw [handleHeader_r2t ((congrArg NvmeTcpHdr.type (hhdr _)).trans htype), gotHeader_pdu, hdec]
    exact handleR2t_of_rq (by rw [htag]; exact hr) hset
  rw [htag] at hres
  have hflags : tc.hdrDigest = true →
      (NvmeTcpHdr.decode p.encode).flags &&& NVME_TCP_F_HDGST ≠ 0 := by
    rw [hhdr0, ← hp]
    exact hdgstFlag_set
  exact ⟨_, { r₁ with state := .h2cPdu, offset := 0 },
    feeds_wire_header h hq ha p.encode_length (by rw [hhdr0, ← hp]; rfl) hflags
    (by rwa [hhdrTag]) hres,
    ⟨rfl, rfl, rfl⟩, rfl, hsame, rfl, rfl⟩

def dataEvents (tc : Target.Config) (cmd : NvmetTcpCmd) (data : List Byte) : List RecvEvent :=
  if tc.sqhdDisabled then [.endRequest cmd.req.cqe.commandId 0 0 data] else []

theorem c2h_flags (tc : Target.Config) (cmd : NvmetTcpCmd) :
    (tc.hdrDigest = true → (c2hDataPdu tc cmd).hdr.flags &&& NVME_TCP_F_HDGST ≠ 0) ∧
      (c2hDataPdu tc cmd).hdr.flags &&& NVME_TCP_F_DATA_LAST ≠ 0 ∧
      ((c2hDataPdu tc cmd).hdr.flags &&& NVME_TCP_F_DATA_SUCCESS ≠ 0 ↔ tc.sqhdDisabled = true) := by
  unfold c2hDataPdu Target.hdgstFlag
  dsimp only
  cases tc.hdrDigest <;> cases tc.sqhdDisabled <;> cases tc.dataDigest <;> decide

theorem endIfSuccess_fields (p : NvmeTcpDataPdu) (q : RecvQueue) :
    (endIfSuccess p q).rqs = q.rqs ∧ (endIfSuccess p q).stored = q.stored ∧
      (endIfSuccess p q).log = q.log ++
        if p.hdr.flags &&& NVME_TCP_F_DATA_SUCCESS ≠ 0 then
          [.endRequest p.commandId 0 0 (q.stored p.commandId)]
        else [] := by
  unfold endIfSuccess
  split_ifs
  · exact ⟨rfl, rfl, rfl⟩
  · exact ⟨rfl, rfl, (List.append_nil _).symm⟩

/-- The data of a read is stored; with `sqhd_disabled` that ends it. -/
theorem feeds_c2h (h : Agree hc tc) (hq : RecvOk hc q) (ha : AtHeader hc q) {cmd : NvmetTcpCmd}
    {data : List Byte} (hr : q.rqs cmd.req.cqe.commandId = some r) (hs : r.rq.specialVec = none)
    (hpayload : r.rq.blkRqPayloadBytes ≠ 0) (hdata : data.length = cmd.req.transferLen)
    (hpos : 0 < data.length) (hroom : data.length ≤ room r) (hsmall : data.length < 2 ^ 32)
    (hopen : q.ended cmd.req.cqe.commandId < n cmd.req.cqe.commandId) :
    ∃ q' r', Feeds hc n ((c2hDataPdu tc cmd).encode ++ hdgstOf tc (c2hDataPdu tc cmd).encode ++
      data) q q' ∧ AtHeader hc q' ∧ q'.rqs = Function.update q.rqs cmd.req.cqe.commandId (some r') ∧
      q'.stored = Function.update q.stored cmd.req.cqe.commandId
      (q.stored cmd.req.cqe.commandId ++ data) ∧
      q'.log = q.log ++ dataEvents tc cmd (q.stored cmd.req.cqe.commandId ++ data) := by
  obtain ⟨hhdgst, hlast, hsuccess⟩ := c2h_flags tc cmd
  have htag : (c2hDataPdu tc cmd).commandId = cmd.req.cqe.commandId := rfl
  have htype : (c2hDataPdu tc cmd).hdr.type = nvmeTcpC2hData := rfl
  have hhlen : (c2hDataPdu tc cmd).hdr.hlen = 24 := rfl
  have hsecond : (c2hDataPdu tc cmd).second.toNat = data.length := by
    rw [hdata] at hsmall ⊢
    exact UInt32.toNat_ofNat_of_lt' hsmall
  generalize c2hDataPdu tc cmd = p at *
  have hdec : ∀ rest, NvmeTcpXferPdu.decode (p.encode ++ rest) = p := p.decode_encode_append
  have hhdr : ∀ rest, NvmeTcpHdr.decode (p.encode ++ rest) = p.hdr := p.hdr_encode_append
  have hhdr0 : NvmeTcpHdr.decode p.encode = p.hdr := by simpa using hhdr []
  have hhdrTag : hdrTag (p.encode ++ hdgstOf tc p.encode) = cmd.req.cqe.commandId := by
    rw [hdrTag, hhdr, htype, if_neg (by decide), hdec, htag]
  -- the header
  set q₁ : RecvQueue :=
    { gotHeader (p.encode ++ hdgstOf tc p.encode) q with dataRemaining := p.second.toNat } with hq₁
  have hres : handleHeader hc (gotHeader (p.encode ++ hdgstOf tc p.encode) q) = (0, q₁) := by
    rw [handleHeader_c2h ((congrArg NvmeTcpHdr.type (hhdr _)).trans htype), gotHeader_pdu, hdec]
    exact handleC2hData_of_rq (by rw [htag]; exact hr) hpayload hlast
  have hheader : Feeds hc n (p.encode ++ hdgstOf tc p.encode) q q₁ := by
    refine feeds_wire_header h hq ha p.encode_length (by rw [hhdr0, hhlen]) (fun hd => ?_)
      (by rwa [hhdrTag]) hres
    rw [hhdr0]
    exact hhdgst hd
  -- the data
  have hpdu : NvmeTcpXferPdu.decode q₁.pdu = p := hdec _
  have hstate : q₁.nvmeTcpRecvState = .data := by
    rw [nvmeTcpRecvState, if_neg (not_not.2 (show q₁.pduRemaining = 0 from rfl)),
      if_neg (not_not.2 (show q₁.ddgstRemaining = 0 from ha.ddgst))]
  have hbody := feeds_data (c := hc) (n := n) (q := q₁) (r := r) (b := data) hstate
    (by rw [hpdu, htag]; exact hr) hs
    (List.length_pos_iff.1 hpos) hsecond.symm hroom (by rw [hpdu, htag]; exact hopen)
  rw [dataEnd, h.host, if_neg Bool.false_ne_true,
    show (storeData hc _ data _ q₁).pdu = q₁.pdu from rfl, hpdu] at hbody
  refine ⟨_, (copyOut data.length r).2.1, feeds_append hheader hbody, atHeader_initRecvCtx hc _, ?_⟩
  obtain ⟨hrqs, hstored, hlog⟩ :=
    endIfSuccess_fields p (storeData hc data.length data (copyOut data.length r).2.1 q₁)
  refine ⟨hrqs.trans ?_, hstored.trans ?_, hlog.trans ?_⟩
  · rw [storeData, hpdu, htag]
    rfl
  · rw [storeData, hpdu, htag, List.take_length]
    rfl
  · rw [storeData, hpdu, htag, dataEvents]
    simp only [hsuccess, Function.update_self, List.take_length]
    rfl

end Pdus

end BlkSwitch
