import BlkSwitch.Sanity.HostCaravan
import BlkSwitch.Sanity.HostExact

/-! The byte stream of a host queue without data digests: a step of `nvme_tcp_try_send` moves
bytes from the front of what is left of the request to the end of the caravan. -/

namespace BlkSwitch.Host

open Bytes SendQueue

def hdrWire (c : Config) (size : ℕ) (r : NvmeTcpRequest) : List Byte :=
  r.pdu.take size ++ if c.hdrDigest then c.crc (r.pdu.take size) else []

/-- What is left of the PDU a request is sending; for a request on `send_list`, all of it. -/
def remainder (c : Config) (r : NvmeTcpRequest) : List Byte :=
  match r.state with
  | .cmdPdu => (hdrWire c 72 r).drop r.offset ++ if r.hasInlineData c then r.rq.data else []
  | .h2cPdu => (hdrWire c 24 r).drop r.offset ++ (r.rq.data.drop r.dataSent).take r.pduLen
  | .data => (r.rq.data.drop r.dataSent).take (r.pduLen - r.pduSent)
  | .ddgst => []

def requestRest (c : Config) (q : SendQueue) : List Byte :=
  match q.request with
  | some t => remainder c (q.reqs t)
  | none => []

/-- No caravan entry points into the header buffer of `t`. -/
def NotIn (q : SendQueue) (t : ℕ) : Prop := ∀ k ∈ q.caravanIovs, ∀ off, k.base ≠ .pdu t off

structure Sound (r : NvmeTcpRequest) : Prop where
  write : r.state ≠ .cmdPdu → r.rq.write = true
  whole : r.rq.write = true → r.rq.Whole
  mid : 0 < r.dataSent → r.dataSent < r.dataLen → Exact r

/-- What the stream needs of the request a call works on. -/
def Flowing (t : ℕ) (q : SendQueue) : Prop :=
  Sound (q.reqs t) ∧ (q.request = some t →
    if (q.reqs t).state = .data then Exact (q.reqs t) else NotIn q t)

variable {c : Config} {aggr t : ℕ} {q q' : SendQueue}

/-! Header buffers. -/

theorem hdrBuf_take_size {size : ℕ} {r : NvmeTcpRequest} (h : size ≤ r.pdu.length) :
    (hdrBuf c size r).take size = r.pdu.take size := by
  unfold hdrBuf
  split_ifs
  · simp [writeAt, h]
  · rfl

theorem hdrBuf_take {size : ℕ} {r : NvmeTcpRequest} (h : size ≤ r.pdu.length) :
    (hdrBuf c size r).take (size + nvmeTcpHdgstLen c) = hdrWire c size r := by
  unfold hdrBuf hdrWire nvmeTcpHdgstLen
  split_ifs with hd
  · rw [← c.crc_length (r.pdu.take size), take_writeAt h]
  · simp

theorem hdrWire_hdrBuf {size : ℕ} {r : NvmeTcpRequest} (h : size ≤ r.pdu.length)
    {r' : NvmeTcpRequest} (hr' : r'.pdu = hdrBuf c size r) :
    hdrWire c size r' = hdrWire c size r := by
  unfold hdrWire
  rw [hr', hdrBuf_take_size h]

/-- Writing the digest behind a header changes nothing that is left to be sent. -/
theorem remainder_hdrBuf {size : ℕ} {r : NvmeTcpRequest} (h : size ≤ r.pdu.length)
    (hst : size = 72 ∧ r.state = .cmdPdu ∨ size = 24 ∧ r.state = .h2cPdu) :
    remainder c { r with pdu := hdrBuf c size r } = remainder c r := by
  have hwire : ∀ r' : NvmeTcpRequest, r'.pdu = hdrBuf c size r →
      hdrWire c size r' = hdrWire c size r :=
    fun r' => hdrWire_hdrBuf h
  rcases hst with ⟨rfl, hs⟩ | ⟨rfl, hs⟩
  · simp only [remainder, hs]
    rw [hwire _ rfl]
    rfl
  · simp only [remainder, hs]
    rw [hwire _ rfl]

theorem caravanBytes_reqs {reqs : ℕ → NvmeTcpRequest}
    (h : ∀ u, (reqs u).pdu = (q.reqs u).pdu ∨ NotIn q u) :
    q.caravanIovs.flatMap (Kvec.bytes reqs) = q.caravanBytes := by
  refine List.flatMap_congr fun k hk => ?_
  unfold Kvec.bytes
  cases hb : k.base with
  | page v off => rfl
  | pdu u off =>
    rcases h u with hpdu | hnot
    · simp only [hpdu]
    · exact absurd hb (hnot k hk off)

theorem caravanBytes_append {k : Kvec} (hsame : SameCaravan (q.append k) q')
    (h : ∀ u, (q'.reqs u).pdu = (q.reqs u).pdu ∨ NotIn q u) :
    q'.caravanBytes = q.caravanBytes ++ k.bytes q'.reqs := by
  rw [SendQueue.caravanBytes, hsame.iovs, SendQueue.append, List.flatMap_append,
    caravanBytes_reqs h]
  simp

theorem caravanBytes_same (hsame : SameCaravan q q')
    (h : ∀ u, (q'.reqs u).pdu = (q.reqs u).pdu ∨ NotIn q u) : q'.caravanBytes = q.caravanBytes := by
  rw [SendQueue.caravanBytes, hsame.iovs, caravanBytes_reqs h]

theorem SendStep.pdus (h : SendStep c aggr t q q')
    (ht : (q'.reqs t).pdu = (q.reqs t).pdu ∨ NotIn q t) :
    ∀ u, (q'.reqs u).pdu = (q.reqs u).pdu ∨ NotIn q u := by
  intro u
  by_cases hu : u = t
  · rw [hu]; exact ht
  · exact .inl (by rw [h.frame.others u hu])

/-! The payload. -/

theorem ReqGood.data_length {r : NvmeTcpRequest} (h : ReqGood c r) (hne : r.dataLen ≠ 0) :
    r.rq.data.length = r.dataLen := by
  rw [h.len]
  exact Rq.data_length (h.len ▸ hne)

theorem remainder_data {r : NvmeTcpRequest} (hs : r.state = .data) :
    remainder c r = (r.rq.data.drop r.dataSent).take (r.pduLen - r.pduSent) := by
  simp [remainder, hs]

theorem remainder_advanceReq {r : NvmeTcpRequest} (hgood : ReqGood c r) (hin : InData r)
    (hex : Exact r) (hs : r.state = .data) {n : ℕ} (hn : n ≤ r.reqCurLength) :
    (r.reqCurBvec.data.drop r.iter.iovOffset).take n ++ remainder c (r.advanceReq n) =
      remainder c r := by
  have hmore := hin.more
  have hroom := hin.room
  have hle : r.reqCurLength ≤ r.pduLen - r.pduSent := Nat.min_le_right _ _
  obtain ⟨hrq, -, hsent, hpl, hps, hst, -⟩ := advanceReq_fields r n
  rw [remainder_data hs, remainder_data (hst.trans hs), hrq, hsent, hpl, hps,
    hex.chunk hin (hgood.data_length (by omega)) hn, ← List.drop_drop]
  have hsplit : r.pduLen - r.pduSent = n + (r.pduLen - (r.pduSent + n)) := by omega
  rw [hsplit, List.take_add]

theorem Sound.advanceReq {r : NvmeTcpRequest} (h : Sound r) (hgood : ReqGood c r) (hin : InData r)
    (hex : Exact r) {n : ℕ} (hn : n ≤ r.reqCurLength) : Sound (r.advanceReq n) := by
  have hmore := hin.more
  have hroom := hin.room
  obtain ⟨hrq, hlen, hsent, -, -, hst, -⟩ := advanceReq_fields r n
  refine ⟨?_, ?_, fun _ hlt => ?_⟩
  · rw [hst, hrq]; exact h.write
  · rw [hrq]; exact h.whole
  · exact hex.advanceReq hin (hgood.data_length (by omega)) hn (by omega)

theorem remainder_last {r : NvmeTcpRequest} (hin : InData r) (hw : r.rq.write = true)
    (hs : r.state = .data) (hl : r.pduLastSend r.reqCurLength = true) :
    remainder c (r.advanceReq r.reqCurLength) = [] := by
  have hle : r.reqCurLength ≤ r.pduLen - r.pduSent := Nat.min_le_right _ _
  have hmore := hin.more
  simp only [NvmeTcpRequest.pduLastSend, NvmeTcpRequest.pduDataLeft, hw, if_true,
    decide_eq_true_eq] at hl
  obtain ⟨-, -, -, hpl, hps, hst, -⟩ := advanceReq_fields r r.reqCurLength
  rw [remainder_data (hst.trans hs), hpl, hps]
  have hzero : r.pduLen - (r.pduSent + r.reqCurLength) = 0 := by omega
  rw [hzero, List.take_zero]

theorem curKvec_bytes (reqs : ℕ → NvmeTcpRequest) (r : NvmeTcpRequest) :
    (curKvec r).bytes reqs = (r.reqCurBvec.data.drop r.iter.iovOffset).take r.reqCurLength := rfl

/-- What a step does to the stream: nothing but move its bytes from the request to the caravan. -/
structure Flows (c : Config) (q q' : SendQueue) : Prop where
  sent : q'.sent = q.sent
  bytes : q'.caravanBytes ++ requestRest c q' = q.caravanBytes ++ requestRest c q

theorem flows_chunk (hd : c.dataDigest = false) (hreq : q.request = some t)
    (hs : (q.reqs t).state = .data) (hr : Ready c (q.reqs t)) (hflow : Flowing t q) :
    (q.putChunk c t).sent = q.sent ∧
      (q.putChunk c t).caravanBytes ++ remainder c ((q.putChunk c t).reqs t) =
        q.caravanBytes ++ requestRest c q := by
  have hin : InData (q.reqs t) := by simpa only [hs] using hr.2
  have hex : Exact (q.reqs t) := by
    have := hflow.2 hreq
    rwa [if_pos hs] at this
  have hself := putChunk_reqs_self c t q
  have hpdu : ((q.putChunk c t).reqs t).pdu = (q.reqs t).pdu := by
    rw [hself, (advanceReq_fields _ _).2.2.2.2.2.2]
  have hpdus : ∀ u, ((q.putChunk c t).reqs u).pdu = (q.reqs u).pdu ∨ NotIn q u := by
    intro u
    by_cases hu : u = t
    · rw [hu]; exact .inl hpdu
    · exact .inl (by rw [(frame_putChunk c t q).others u hu])
  refine ⟨by simp [SendQueue.putChunk, dataSentUpdate, hd, SendQueue.modifyReq, SendQueue.append],
    ?_⟩
  rw [caravanBytes_append (putChunk_caravan c t q) hpdus, curKvec_bytes, hself, List.append_assoc,
    remainder_advanceReq hr.1 hin hex hs le_rfl]
  simp [requestRest, hreq]

theorem caravanBytes_hdr {size : ℕ} (hsize : size ≤ 72) (hgood : ReqGood c (q.reqs t))
    (hsame : SameCaravan (q.append (hdrKvec c t size)) q') (hframe : Frame t q q')
    (hpdu : (q'.reqs t).pdu = hdrBuf c size (q.reqs t)) (hnot : NotIn q t) :
    q'.caravanBytes = q.caravanBytes ++ hdrWire c size (q.reqs t) := by
  have hpdus : ∀ u, (q'.reqs u).pdu = (q.reqs u).pdu ∨ NotIn q u := by
    intro u
    by_cases hu : u = t
    · rw [hu]; exact .inr hnot
    · exact .inl (by rw [hframe.others u hu])
  have hbuf := hgood.buf
  have hwire := @hdrBuf_take c size (q.reqs t) (by omega)
  rw [caravanBytes_append hsame hpdus, ← hwire, ← hpdu]
  simp [hdrKvec, Kvec.bytes]

theorem Flowing.notIn (h : Flowing t q) (hreq : q.request = some t)
    (hs : (q.reqs t).state ≠ .data) :
    NotIn q t := by
  have := h.2 hreq
  rwa [if_neg hs] at this

theorem startData_sent (hd : c.dataDigest = false) (q : SendQueue) : startData c q = q := by
  simp [startData, hd]

theorem putHdr_sent (c : Config) (t : ℕ) (q : SendQueue) (size : ℕ) :
    (q.putHdr c t size).sent = q.sent := by
  unfold SendQueue.putHdr SendQueue.digestHdr
  split_ifs <;> rfl

theorem flows_fullHdr {size : ℕ} (hr : Ready c (q.reqs t)) (hflow : Flowing t q)
    (hreq : q.request = some t)
    (hst : size = 72 ∧ (q.reqs t).state = .cmdPdu ∨ size = 24 ∧ (q.reqs t).state = .h2cPdu) :
    Flows c q (q.digestHdr c t size).mark ∧ Flowing t (q.digestHdr c t size).mark := by
  have hne : (q.reqs t).state ≠ .data := by
    rcases hst with ⟨-, hs⟩ | ⟨-, hs⟩ <;> rw [hs] <;> decide
  have hnot := hflow.notIn hreq hne
  have hbuf := hr.1.buf
  have hself : (q.digestHdr c t size).mark.reqs t =
      { q.reqs t with pdu := hdrBuf c size (q.reqs t) } :=
    digestHdr_reqs_self c t q size
  have hsame := sameCaravan_digestHdr c t q size
  have hframe := frame_digestHdr c t q size
  have hpdus : ∀ u, ((q.digestHdr c t size).mark.reqs u).pdu = (q.reqs u).pdu ∨ NotIn q u := by
    intro u
    by_cases hu : u = t
    · rw [hu]; exact .inr hnot
    · exact .inl (by rw [mark_reqs, hframe.others u hu])
  refine ⟨⟨?_, ?_⟩, ?_, fun _ => ?_⟩
  · simp only [SendQueue.mark, SendQueue.digestHdr]
    split_ifs <;> rfl
  · have hsame' : SameCaravan q (q.digestHdr c t size).mark := ⟨hsame.iovs, hsame.len, hsame.mapped⟩
    rw [caravanBytes_same hsame' hpdus]
    congr 1
    have hrequest : (q.digestHdr c t size).mark.request =
      some t := by simpa [SendQueue.mark] using hreq
    simp only [requestRest, hrequest, hreq, hself]
    exact remainder_hdrBuf (by omega) hst
  · rw [hself]
    refine ⟨hflow.1.write, hflow.1.whole, fun h0 hlt => ?_⟩
    obtain ⟨h1, h2, h3⟩ := hflow.1.mid h0 hlt
    exact ⟨h1, h2, h3⟩
  · rw [hself, if_neg hne]
    intro k hk
    exact hnot k (by rw [← hsame.iovs]; exact hk)

theorem flows_cmd (hd : c.dataDigest = false) (hr : Ready c (q.reqs t)) (hflow : Flowing t q)
    (hreq : q.request = some t) (hs : (q.reqs t).state = .cmdPdu) :
    Flows c q (q.putCmd c t) ∧ Flowing t (q.putCmd c t) := by
  have hnot := hflow.notIn hreq (by rw [hs]; decide)
  have hst := hr.2
  simp only [hs] at hst
  obtain ⟨hoff, hps, hds, hpl⟩ := hst
  have hself := putCmd_reqs_self c t q
  have hrequest := putCmd_request c t q
  have hpdu : ((q.putCmd c t).reqs t).pdu = hdrBuf c 72 (q.reqs t) := by
    rw [hself]
    split_ifs <;> rfl
  have hsent : (q.putCmd c t).sent = q.sent := by
    unfold SendQueue.putCmd
    dsimp only
    split_ifs
    · simpa [startData_sent hd, SendQueue.modifyReq, SendQueue.markIf] using putHdr_sent c t q 72
    · simpa [nvmeTcpDoneSendReq, SendQueue.markIf] using putHdr_sent c t q 72
  have hbytes := caravanBytes_hdr le_rfl hr.1 (putCmd_caravan c t q) (frame_putCmd c t q) hpdu hnot
  by_cases hi : (q.reqs t).hasInlineData c = true
  · rw [if_pos hi] at hself hrequest
    have hne := hasInlineData_dataLen_ne hi
    have hwrite : (q.reqs t).rq.write = true := by
      unfold NvmeTcpRequest.hasInlineData at hi
      simp at hi
      exact hi.1.1
    have hdl := hr.1.data_length hne
    refine ⟨⟨hsent, ?_⟩, ?_, fun _ => ?_⟩
    · simp only [requestRest, hrequest, hreq, hself, hbytes, remainder, hs, hoff, hi, hds, hps,
        hpl hi]
      simp [← hdl]
    · rw [hself]
      exact ⟨fun _ => hwrite, hflow.1.whole, fun h0 => absurd hds h0.ne'⟩
    · rw [hself, if_pos rfl]
      obtain ⟨h1, h2, h3⟩ := initIter_exact hr.1 hne hds (hflow.1.whole hwrite)
      exact ⟨h1, h2, h3⟩
  · rw [if_neg hi] at hself hrequest
    refine ⟨⟨hsent, ?_⟩, ?_, fun hreq' => ?_⟩
    · simp [requestRest, hrequest, hreq, hbytes, remainder, hs, hoff, hi]
    · rw [hself]
      refine ⟨hflow.1.write, hflow.1.whole, fun h0 hlt => ?_⟩
      obtain ⟨h1, h2, h3⟩ := hflow.1.mid h0 hlt
      exact ⟨h1, h2, h3⟩
    · rw [hrequest] at hreq'
      cases hreq'

theorem flows_h2c (hd : c.dataDigest = false) (hr : Ready c (q.reqs t)) (hflow : Flowing t q)
    (hreq : q.request = some t) (hs : (q.reqs t).state = .h2cPdu) :
    Flows c q (q.putH2c c t) ∧ Flowing t (q.putH2c c t) := by
  have hnot := hflow.notIn hreq (by rw [hs]; decide)
  have hst := hr.2
  simp only [hs] at hst
  obtain ⟨hoff, hps, hpos, hroom⟩ := hst
  have hself := putH2c_reqs_self c t q
  have hrequest : (q.putH2c c t).request = some t := by simpa using hreq
  have hwrite := hflow.1.write (by rw [hs]; decide)
  have hframe : Frame t q (q.putH2c c t) :=
    ((frame_putHdr c t q 24).trans (frame_startData c t _)).trans (frame_modifyReq _ rfl)
  have hbytes := caravanBytes_hdr (by decide) hr.1 (putH2c_caravan c t q) hframe
    (by rw [hself]) hnot
  have hex : Exact ((q.putH2c c t).reqs t) := by
    rw [hself]
    by_cases h0 : (q.reqs t).dataSent = 0
    · obtain ⟨h1, h2, h3⟩ := initIter_exact hr.1 (by omega) h0 (hflow.1.whole hwrite)
      rw [if_pos h0]
      exact ⟨h1, h2, h3⟩
    · obtain ⟨h1, h2, h3⟩ := hflow.1.mid (by omega) (by omega)
      rw [if_neg h0]
      exact ⟨h1, h2, h3⟩
  refine ⟨⟨?_, ?_⟩, ⟨fun _ => ?_, ?_, fun _ _ => hex⟩, fun _ => ?_⟩
  · simpa [SendQueue.putH2c, startData_sent hd, SendQueue.modifyReq] using putHdr_sent c t q 24
  · simp only [requestRest, hrequest, hreq, hself, hbytes, remainder, hs, hoff, hps]
    simp
  · rw [hself]; exact hwrite
  · rw [hself]; exact hflow.1.whole
  · rw [if_pos (by rw [hself])]
    exact hex

/-- Every step moves bytes along the stream and leaves the request fit for the next one. -/
theorem SendStep.flows (hd : c.dataDigest = false) (h : SendStep c aggr t q q')
    (hr : Ready c (q.reqs t)) (hflow : Flowing t q) : Flows c q q' ∧ Flowing t q' := by
  cases h with
  | fullHdr size hreq hst _ => exact flows_fullHdr hr hflow hreq hst
  | fullData _ _ _ => exact ⟨⟨rfl, rfl⟩, hflow⟩
  | cmd hreq hs _ => exact flows_cmd hd hr hflow hreq hs
  | h2c hreq hs _ => exact flows_h2c hd hr hflow hreq hs
  | chunk hreq hs _ hl =>
    have hin : InData (q.reqs t) := by simpa only [hs] using hr.2
    have hex := hflow.2 hreq
    rw [if_pos hs] at hex
    obtain ⟨hsent, hbytes⟩ := flows_chunk hd hreq hs hr hflow
    have hself := putChunk_reqs_self c t q
    have hrequest : (q.putChunk c t).request = some t := by simpa using hreq
    have hmore := (hin.advanceReq hl).more
    have hroom := (hin.advanceReq hl).room
    have hdl := hin.more
    have hroom' := hin.room
    have hds := (advanceReq_fields (q.reqs t) (q.reqs t).reqCurLength).2.2.1
    have hlen := (advanceReq_fields (q.reqs t) (q.reqs t).reqCurLength).2.1
    refine ⟨⟨hsent, by simpa only [requestRest, hrequest, hreq] using hbytes⟩, ?_, fun _ => ?_⟩
    · rw [hself]
      exact hflow.1.advanceReq hr.1 hin hex le_rfl
    · rw [hself, if_pos (by rw [(advanceReq_fields _ _).2.2.2.2.2.1, hs])]
      exact hex.advanceReq hin (hr.1.data_length (by omega)) le_rfl (by omega)
  | last hreq hs _ hl =>
    have hin : InData (q.reqs t) := by simpa only [hs] using hr.2
    have hex := hflow.2 hreq
    rw [if_pos hs] at hex
    have hwrite := hflow.1.write (by rw [hs]; decide)
    obtain ⟨hsent, hbytes⟩ := flows_chunk hd hreq hs hr hflow
    have hself := putChunk_reqs_self c t q
    rw [hself, remainder_last hin hwrite hs hl, List.append_nil] at hbytes
    have hfin : (q.putChunk c t).finish c t = nvmeTcpDoneSendReq (q.putChunk c t) := by
      simp [SendQueue.finish, hd]
    rw [hfin]
    refine ⟨⟨hsent, ?_⟩, ?_, fun h => absurd h (by simp [nvmeTcpDoneSendReq])⟩
    · rw [← hbytes]
      simp [requestRest, nvmeTcpDoneSendReq, SendQueue.caravanBytes]
    · rw [doneSendReq_reqs, hself]
      exact hflow.1.advanceReq hr.1 hin hex le_rfl

theorem steps_flow (hd : c.dataDigest = false) (hr : Ready c (q.reqs t)) (hflow : Flowing t q)
    (hsteps : Relation.TransGen (SendStep c aggr t) q q') : Flows c q q' ∧ Flowing t q' ∧
      Working c t q' := by
  induction hsteps with
  | single h =>
    obtain ⟨h1, h2⟩ := h.flows hd hr hflow
    exact ⟨h1, h2, h.working hr⟩
  | tail _ h ih =>
    obtain ⟨h1, h2, hwork⟩ := ih
    have hr' := hwork.ready_of_step h
    obtain ⟨h1', h2'⟩ := h.flows hd hr' h2
    exact ⟨⟨h1'.sent.trans h1.sent, h1'.bytes.trans h1.bytes⟩, h2', h.working hr'⟩

end BlkSwitch.Host
