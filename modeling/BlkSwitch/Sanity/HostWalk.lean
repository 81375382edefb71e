import BlkSwitch.Sanity.HostLegacy

/-! What the send loop takes from the pages, whether or not that is the payload: `walk` is the
bytes the iterator passes until the PDU is full. A request that answers an R2T emits its header
and then its walk, through the caravan or straight to the socket. -/

namespace BlkSwitch.Host

open Bytes SendQueue

def curChunk (r : NvmeTcpRequest) : List Byte :=
  (r.reqCurBvec.data.drop r.iter.iovOffset).take r.reqCurLength

def walkFrom : ℕ → NvmeTcpRequest → List Byte
  | 0, _ => []
  | n + 1, r =>
    curChunk r ++
      if r.pduLastSend r.reqCurLength then [] else walkFrom n (r.advanceReq r.reqCurLength)

/-- The bytes that fill the rest of the PDU; every turn takes one at least. -/
def walk (r : NvmeTcpRequest) : List Byte := walkFrom (r.pduLen - r.pduSent) r

def dataStart (r : NvmeTcpRequest) : NvmeTcpRequest :=
  { r with state := .data, iter := if r.dataSent = 0 then r.initIter else r.iter }

variable {c : Config} {aggr t : ℕ} {q q' : SendQueue} {r : NvmeTcpRequest}

/-! The walk. -/

theorem InData.left_advanceReq (h : InData r) :
    (r.advanceReq r.reqCurLength).pduLen - (r.advanceReq r.reqCurLength).pduSent <
      r.pduLen - r.pduSent := by
  obtain ⟨-, -, -, hpl, hps, -, -⟩ := advanceReq_fields r r.reqCurLength
  have hpos := h.reqCurLength_pos
  have hmore := h.more
  omega

/-- Turn by turn through the data of a PDU, from its last chunk backwards. -/
@[elab_as_elim] theorem InData.induction {motive : ∀ r, InData r → Prop}
    (last : ∀ r h, r.pduLastSend r.reqCurLength = true → motive r h)
    (more : ∀ r h (hl : r.pduLastSend r.reqCurLength = false),
      motive (r.advanceReq r.reqCurLength) (h.advanceReq hl) → motive r h)
    (h : InData r) : motive r h := by
  induction hn : r.pduLen - r.pduSent using Nat.strong_induction_on generalizing r with
  | _ n ih =>
    cases hl : r.pduLastSend r.reqCurLength with
    | true => exact last r h hl
    | false => exact more r h hl (ih _ (hn ▸ h.left_advanceReq) (h.advanceReq hl) rfl)

theorem walkFrom_of_le (h : InData r) :
    ∀ {n m : ℕ}, r.pduLen - r.pduSent ≤ n → r.pduLen - r.pduSent ≤ m →
      walkFrom n r = walkFrom m r := by
  induction h using InData.induction with
  | last r h hl =>
    intro n m hn hm
    have hmore := h.more
    obtain ⟨n, rfl⟩ : ∃ k, n = k + 1 := ⟨n - 1, by omega⟩
    obtain ⟨m, rfl⟩ : ∃ k, m = k + 1 := ⟨m - 1, by omega⟩
    simp [walkFrom, hl]
  | more r h hl ih =>
    intro n m hn hm
    have hless := h.left_advanceReq
    obtain ⟨n, rfl⟩ : ∃ k, n = k + 1 := ⟨n - 1, by omega⟩
    obtain ⟨m, rfl⟩ : ∃ k, m = k + 1 := ⟨m - 1, by omega⟩
    have heq := @ih n m (by omega) (by omega)
    simp [walkFrom, hl, heq]

theorem walk_last (h : InData r) (hl : r.pduLastSend r.reqCurLength = true) :
    walk r = curChunk r := by
  have hmore := h.more
  have hleft : r.pduLen - r.pduSent = r.pduLen - r.pduSent - 1 + 1 := by omega
  rw [walk, hleft]
  simp [walkFrom, hl]

theorem walk_more (h : InData r) (hl : r.pduLastSend r.reqCurLength = false) :
    walk r = curChunk r ++ walk (r.advanceReq r.reqCurLength) := by
  have hless := h.left_advanceReq
  have hleft : r.pduLen - r.pduSent = r.pduLen - r.pduSent - 1 + 1 := by omega
  have heq := @walkFrom_of_le _ (h.advanceReq hl) (r.pduLen - r.pduSent - 1) _ (by omega) le_rfl
  rw [walk, hleft]
  simp [walkFrom, hl, heq, walk]

theorem curChunk_length (r : NvmeTcpRequest) : (curChunk r).length = r.reqCurLength := by
  have hcur : r.reqCurLength ≤ r.reqCurBvec.len - r.iter.iovOffset := Nat.min_le_left _ _
  rw [curChunk, List.length_take, List.length_drop]
  exact Nat.min_eq_left hcur

theorem pduLastSend_write (hw : r.rq.write = true) (n : ℕ) :
    r.pduLastSend n = decide (r.pduLen - r.pduSent ≤ n) := by
  simp [NvmeTcpRequest.pduLastSend, NvmeTcpRequest.pduDataLeft, hw]

theorem reqCurLength_last (hw : r.rq.write = true) (hl : r.pduLastSend r.reqCurLength = true) :
    r.reqCurLength = r.pduLen - r.pduSent := by
  have hle : r.reqCurLength ≤ r.pduLen - r.pduSent := Nat.min_le_right _ _
  rw [pduLastSend_write hw, decide_eq_true_eq] at hl
  exact le_antisymm hle hl

theorem walk_length (h : InData r) : r.rq.write = true →
    (walk r).length = r.pduLen - r.pduSent := by
  induction h using InData.induction with
  | last r h hl =>
    intro hw
    rw [walk_last h hl, curChunk_length, reqCurLength_last hw hl]
  | more r h hl ih =>
    intro hw
    obtain ⟨hrq, -, -, hpl, hps, -, -⟩ := advanceReq_fields r r.reqCurLength
    rw [walk_more h hl, List.length_append, curChunk_length, ih (by rw [hrq, hw]), hpl, hps]
    rw [pduLastSend_write hw, decide_eq_false_iff_not] at hl
    omega

/-- Where the request stands is not in its header buffer. -/
def withHeader (b : List Byte) (st : SendState) (r : NvmeTcpRequest) : NvmeTcpRequest :=
  { r with pdu := b, state := st }

theorem advanceReq_withHeader (b : List Byte) (st : SendState) (r : NvmeTcpRequest) (n : ℕ) :
    (withHeader b st r).advanceReq n = withHeader b st (r.advanceReq n) := by
  unfold NvmeTcpRequest.advanceReq withHeader
  dsimp only
  split_ifs <;> rfl

theorem walk_withHeader (b : List Byte) (st : SendState) (r : NvmeTcpRequest) :
    walk (withHeader b st r) = walk r := by
  have hfrom : ∀ (n : ℕ) (r : NvmeTcpRequest), walkFrom n (withHeader b st r) = walkFrom n r := by
    intro n
    induction n with
    | zero => intro r; rfl
    | succ n ih =>
      intro r
      have hadv := advanceReq_withHeader b st r r.reqCurLength
      have hcur : (withHeader b st r).reqCurLength = r.reqCurLength := rfl
      unfold walkFrom
      rw [hcur, hadv, ih]
      rfl
  exact hfrom _ r

/-- Whole bios are walked as the payload has them. -/
theorem walk_exact (h : InData r) :
    r.rq.write = true → r.rq.data.length = r.dataLen → Exact r →
      walk r = (r.rq.data.drop r.dataSent).take (r.pduLen - r.pduSent) := by
  induction h using InData.induction with
  | last r h hl =>
    intro hw hlen hex
    rw [walk_last h hl, curChunk, ← reqCurLength_last hw hl]
    exact hex.chunk h hlen le_rfl
  | more r h hl ih =>
    intro hw hlen hex
    have hmore := (h.advanceReq hl).more
    have hroom := (h.advanceReq hl).room
    obtain ⟨hrq, hdl, hds, hpl, hps, -, -⟩ := advanceReq_fields r r.reqCurLength
    have hex' := hex.advanceReq h hlen le_rfl (by omega)
    rw [walk_more h hl, ih (by rw [hrq, hw]) (by rw [hrq, hdl, hlen]) hex', curChunk,
      hex.chunk h hlen le_rfl, hrq, hds, hpl, hps, ← List.drop_drop]
    have hsplit : r.pduLen - r.pduSent = r.reqCurLength +
      (r.pduLen - (r.pduSent + r.reqCurLength)) := by omega
    rw [hsplit, List.take_add]

/-! Through the caravan. -/

def toGo (c : Config) (r : NvmeTcpRequest) : List Byte :=
  match r.state with
  | .h2cPdu => hdrWire c 24 r ++ walk (dataStart r)
  | .data => walk r
  | _ => []

/-- How many steps a request may still take: one for its header, and one for every byte at most. -/
def stepsLeft (r : NvmeTcpRequest) : ℕ :=
  (if r.state = .data then 0 else 1) + (r.pduLen - r.pduSent)

/-- Everything the queue has taken over, whether the socket has it or the caravan. -/
def SendQueue.stream (q : SendQueue) : List Byte := q.sent ++ q.caravanBytes

/-- Request `t` is sending an H2C PDU, and the stream ends up as `goal`. -/
structure Answering (c : Config) (t : ℕ) (goal : List Byte) (q : SendQueue) : Prop where
  request : q.request = some t
  ready : Ready c (q.reqs t)
  write : (q.reqs t).rq.write = true
  state : (q.reqs t).state = .h2cPdu ∧ NotIn q t ∨ (q.reqs t).state = .data
  bufs : ∀ u, (q.reqs u).pdu.length = 72 + nvmeTcpHdgstLen c
  caravan : CaravanOk c q
  bytes : q.stream ++ toGo c (q.reqs t) = goal

structure Answered (goal : List Byte) (q : SendQueue) : Prop where
  request : q.request = none
  bytes : q.stream = goal

theorem stream_flushIf (q : SendQueue) (flush : Bool) : (q.flushIf flush).stream = q.stream := by
  cases flush
  · rfl
  · simp [SendQueue.flushIf, SendQueue.flushed, caravanSent, SendQueue.stream,
      SendQueue.caravanBytes]

theorem toGo_h2c (hs : r.state = .h2cPdu) : toGo c r = hdrWire c 24 r ++ walk (dataStart r) := by
  simp [toGo, hs]

theorem toGo_data (hs : r.state = .data) : toGo c r = walk r := by
  simp [toGo, hs]

theorem stepsLeft_data (hs : r.state = .data) : stepsLeft r = r.pduLen - r.pduSent := by
  simp [stepsLeft, hs]

theorem toGo_withHdr (hs : r.state = .h2cPdu) (hbuf : 24 ≤ r.pdu.length) :
    toGo c (withHeader (hdrBuf c 24 r) .h2cPdu r) = toGo c r := by
  have hwalk := walk_withHeader (hdrBuf c 24 r) .data (dataStart r)
  have hwire := @hdrWire_hdrBuf c 24 r hbuf (withHeader (hdrBuf c 24 r) .h2cPdu r) rfl
  rw [toGo_h2c rfl, toGo_h2c hs, hwire, ← hwalk]
  rfl

theorem Ready.h2c (h : Ready c r) (hs : r.state = .h2cPdu) :
    r.offset = 0 ∧ r.pduSent = 0 ∧ 0 < r.pduLen ∧ r.dataSent + r.pduLen ≤ r.dataLen := by
  have hst := h.2
  simpa only [hs] using hst

theorem Ready.inData (h : Ready c r) (hs : r.state = .data) : InData r := by
  have hst := h.2
  simpa only [hs] using hst

theorem Answering.notIn {goal : List Byte} (h : Answering c t goal q)
    (hs : (q.reqs t).state = .h2cPdu) :
    NotIn q t := by
  rcases h.state with ⟨-, hnot⟩ | hdata
  · exact hnot
  · rw [hs] at hdata
    cases hdata

theorem Working.ready (h : Working c t q) (hreq : q.request = some t) : Ready c (q.reqs t) := by
  rcases h with ⟨-, hr⟩ | ⟨hnone, -⟩
  · exact hr
  · rw [hreq] at hnone
    cases hnone

theorem SendStep.bufs (h : SendStep c aggr t q q') (ht : ReqGood c (q'.reqs t))
    (hbufs : ∀ u, (q.reqs u).pdu.length = 72 + nvmeTcpHdgstLen c) (u : ℕ) :
    (q'.reqs u).pdu.length = 72 + nvmeTcpHdgstLen c := by
  by_cases hu : u = t
  · rw [hu]; exact ht.buf
  · rw [h.frame.others u hu]; exact hbufs u

theorem putH2c_answering {goal : List Byte} (hd : c.dataDigest = false) (h : Answering c t goal q)
    (hs : (q.reqs t).state = .h2cPdu) (hf : q.i10HostIsCaravanFull aggr = false) :
    Answering c t goal (q.putH2c c t) := by
  have hstep : SendStep c aggr t q (q.putH2c c t) := .h2c h.request hs hf
  have hnot := h.notIn hs
  have hself := putH2c_reqs_self c t q
  have hrequest : (q.putH2c c t).request = some t := by simpa using h.request
  have hbytes := caravanBytes_hdr (by decide) h.ready.1 (putH2c_caravan c t q) hstep.frame
    (by rw [hself]) hnot
  have hst' : ((q.putH2c c t).reqs t).state = .data := by rw [hself]
  have hsent : (q.putH2c c t).sent = q.sent := by
    simpa [SendQueue.putH2c, startData_sent hd, SendQueue.modifyReq] using putHdr_sent c t q 24
  have hready := (hstep.working h.ready).ready hrequest
  have hwalk : walk ((q.putH2c c t).reqs t) = walk (dataStart (q.reqs t)) := by
    rw [hself]
    exact walk_withHeader (hdrBuf c 24 (q.reqs t)) .data (dataStart (q.reqs t))
  refine ⟨hrequest, hready, by rw [hself]; exact h.write, .inr hst', hstep.bufs hready.1 h.bufs, ?_,
    ?_⟩
  · exact (putH2c_caravan c t q).ok (h.caravan.append (hdrKvec_fits c t (by decide) (by decide)))
  · rw [toGo_data hst', hwalk, SendQueue.stream, hsent, hbytes, ← h.bytes, toGo_h2c hs,
      SendQueue.stream]
    simp only [List.append_assoc]

theorem putChunk_sent (hd : c.dataDigest = false) (q : SendQueue) :
    (q.putChunk c t).sent = q.sent := by
  simp [SendQueue.putChunk, dataSentUpdate, hd, SendQueue.modifyReq, SendQueue.append]

theorem putChunk_stream (hd : c.dataDigest = false) (q : SendQueue) :
    (q.putChunk c t).stream = q.stream ++ curChunk (q.reqs t) := by
  have hpdus : ∀ u, ((q.putChunk c t).reqs u).pdu = (q.reqs u).pdu ∨ NotIn q u := by
    intro u
    by_cases hu : u = t
    · rw [hu, putChunk_reqs_self, (advanceReq_fields _ _).2.2.2.2.2.2]
      exact .inl rfl
    · exact .inl (by rw [(frame_putChunk c t q).others u hu])
  rw [SendQueue.stream, putChunk_sent hd, caravanBytes_append (putChunk_caravan c t q) hpdus,
    curKvec_bytes, SendQueue.stream, List.append_assoc]
  rfl

theorem digestHdr_answering {goal : List Byte} (h : Answering c t goal q)
    (hs : (q.reqs t).state = .h2cPdu) (hf : q.i10HostIsCaravanFull aggr = true) :
    Answering c t goal (q.digestHdr c t 24).mark := by
  have hstep : SendStep c aggr t q (q.digestHdr c t 24).mark :=
    .fullHdr 24 h.request (.inr ⟨rfl, hs⟩) hf
  have hnot := h.notIn hs
  have hbuf := h.bufs t
  have hsame : SameCaravan q (q.digestHdr c t 24).mark := by
    obtain ⟨hiovs, hlen, hmapped⟩ := sameCaravan_digestHdr c t q 24
    exact ⟨hiovs, hlen, hmapped⟩
  have hself : (q.digestHdr c t 24).mark.reqs t = withHeader (hdrBuf c 24 (q.reqs t)) .h2cPdu
      (q.reqs t) := by
    rw [mark_reqs, digestHdr_reqs_self, withHeader, ← hs]
  have hrequest : (q.digestHdr c t 24).mark.request =
    some t := by simpa [SendQueue.mark] using h.request
  have hready := (hstep.working h.ready).ready hrequest
  have hstream : (q.digestHdr c t 24).mark.stream = q.stream := by
    have hsent : (q.digestHdr c t 24).mark.sent = q.sent := by
      simp only [SendQueue.mark, SendQueue.digestHdr]
      split_ifs <;> rfl
    rw [SendQueue.stream, hsent, caravanBytes_same hsame (hstep.pdus (.inr hnot)), SendQueue.stream]
  refine ⟨hrequest, hready, by rw [hself]; exact h.write, .inl ⟨by rw [hself]; rfl, fun k hk => ?_⟩,
    hstep.bufs hready.1 h.bufs, hsame.ok h.caravan, ?_⟩
  · exact hnot k (by rw [← hsame.iovs]; exact hk)
  · rw [hstream, hself, toGo_withHdr hs (by omega), h.bytes]

/-- One step on an H2C PDU: it is still on its way, or through. -/
theorem SendStep.answering {goal : List Byte} (hd : c.dataDigest = false) (haggr : 0 < aggr)
    (h : SendStep c aggr t q q') (ha : Answering c t goal q) : Answering c t goal q' ∨
      Answered goal q' := by
  have hok := (h.caravanOk haggr ha.ready ha.caravan).1
  have hwork := h.working ha.ready
  have hbufs := fun hr => h.bufs hr ha.bufs
  cases h with
  | fullHdr size hreq hst hf =>
    rcases hst with ⟨-, hs⟩ | ⟨rfl, hs⟩
    · rcases ha.state with ⟨hst, -⟩ | hst <;> rw [hs] at hst <;> cases hst
    · exact .inl (digestHdr_answering ha hs hf)
  | fullData hreq hs hf => exact .inl ⟨hreq, ha.ready, ha.write, .inr hs, ha.bufs, hok, ha.bytes⟩
  | cmd hreq hs hf => rcases ha.state with ⟨hst, -⟩ | hst <;> rw [hs] at hst <;> cases hst
  | h2c hreq hs hf => exact .inl (putH2c_answering hd ha hs hf)
  | chunk hreq hs hf hl =>
    have hin := ha.ready.inData hs
    have hself := putChunk_reqs_self c t q
    have hrequest : (q.putChunk c t).request = some t := by simpa using hreq
    obtain ⟨hrq, -, -, -, -, hst, hpdu⟩ := advanceReq_fields (q.reqs t) (q.reqs t).reqCurLength
    have hst' : ((q.putChunk c t).reqs t).state = .data := by rw [hself, hst, hs]
    have hready := hwork.ready hrequest
    refine .inl ⟨hrequest, hready, by rw [hself, hrq, ha.write], .inr hst', hbufs hready.1, hok, ?_⟩
    rw [toGo_data hst', putChunk_stream hd, hself, List.append_assoc, ← walk_more hin hl,
      ← ha.bytes, toGo_data hs]
  | last hreq hs hf hl =>
    have hfin : (q.putChunk c t).finish c t = nvmeTcpDoneSendReq (q.putChunk c t) := by
      simp [SendQueue.finish, hd]
    refine .inr ⟨rfl, ?_⟩
    rw [hfin, ← ha.bytes, toGo_data hs, walk_last (ha.ready.inData hs) hl]
    exact putChunk_stream hd q

theorem steps_answering {goal : List Byte} (hd : c.dataDigest = false) (haggr : 0 < aggr)
    (ha : Answering c t goal q) (h : Relation.TransGen (SendStep c aggr t) q q') :
    Answering c t goal q' ∨ Answered goal q' := by
  induction h with
  | single h => exact h.answering hd haggr ha
  | tail _ h ih =>
    rcases ih with hmid | hdone
    · exact h.answering hd haggr hmid
    · -- a request that is through takes no further step
      have hnone := hdone.request
      cases h <;> simp_all

/-! The end of it. -/

/-- Between two calls the request is through, has moved on, or has found the caravan full. -/
def Progress (aggr t : ℕ) (q q' : SendQueue) : Prop :=
  q'.request = none ∨ q'.request = some t ∧ (stepsLeft (q'.reqs t) < stepsLeft (q.reqs t) ∨
    q.i10HostIsCaravanFull aggr = true ∧ stepsLeft (q'.reqs t) = stepsLeft (q.reqs t) ∧
      q'.sendNow = true)

theorem SendStep.progress (h : SendStep c aggr t q q') (hr : Ready c (q.reqs t)) :
    Progress aggr t q q' := by
  cases h with
  | fullHdr size hreq hst hf =>
    refine .inr ⟨by simpa [SendQueue.mark] using hreq, .inr ⟨hf, ?_, rfl⟩⟩
    rw [mark_reqs, digestHdr_reqs_self]
    rfl
  | fullData hreq hs hf => exact .inr ⟨hreq, .inr ⟨hf, rfl, rfl⟩⟩
  | cmd hreq hs hf =>
    rw [Progress, putCmd_request, putCmd_reqs_self]
    by_cases hi : (q.reqs t).hasInlineData c = true
    · simp [hi, hreq, stepsLeft, hs]
    · simp [hi]
  | h2c hreq hs hf =>
    refine .inr ⟨by simpa using hreq, .inl ?_⟩
    simp [putH2c_reqs_self, stepsLeft, hs]
  | chunk hreq hs hf hl =>
    have hless := (hr.inData hs).left_advanceReq
    have hst := (advanceReq_fields (q.reqs t) (q.reqs t).reqCurLength).2.2.2.2.2.1
    refine .inr ⟨by simpa using hreq, .inl ?_⟩
    rw [putChunk_reqs_self, stepsLeft_data (hst.trans hs), stepsLeft_data hs]
    exact hless
  | last hreq hs hf hl => exact .inl rfl

theorem steps_progress (hr : Ready c (q.reqs t)) (h : Relation.TransGen (SendStep c aggr t) q q') :
    Working c t q' ∧ Progress aggr t q q' := by
  induction h with
  | single h => exact ⟨h.working hr, h.progress hr⟩
  | tail _ h ih =>
    obtain ⟨hwork, hprog⟩ := ih
    have hr' := hwork.ready_of_step h
    refine ⟨h.working hr', ?_⟩
    rcases hprog with hnone | ⟨-, hprog⟩
    · cases h <;> simp_all
    · have hmono := h.frame.sendNow
      rcases h.progress hr' with hnone | ⟨hreq, hprog'⟩
      · exact .inl hnone
      · refine .inr ⟨hreq, ?_⟩
        rcases hprog with hless | ⟨hf, heq, hnow⟩
        · rcases hprog' with hless' | ⟨-, heq', -⟩ <;> exact .inl (by omega)
        · rcases hprog' with hless' | ⟨-, heq', -⟩
          · exact .inl (by omega)
          · exact .inr ⟨hf, heq'.trans heq, hmono hnow⟩

/-! Straight to the socket. -/

theorem kernelSend_all (hrep : q.replies = []) (b : List Byte) :
    q.kernelSend b = ((b.length : ℤ), { q with sent := q.sent ++ b }) := by
  unfold kernelSend
  split
  · rfl
  all_goals simp_all

def SendQueue.sendChunk (c : Config) (t : ℕ) (q : SendQueue) : SendQueue :=
  dataSentUpdate c t (curChunk (q.reqs t)) (q.reqs t).reqCurLength
    { q with sent := q.sent ++ curChunk (q.reqs t) }

theorem sendChunk_reqs_self (c : Config) (t : ℕ) (q : SendQueue) :
    (q.sendChunk c t).reqs t = (q.reqs t).advanceReq (q.reqs t).reqCurLength := by
  unfold SendQueue.sendChunk dataSentUpdate
  dsimp only
  split_ifs <;> simp

structure Wrote (c : Config) (b : List Byte) (q q' : SendQueue) : Prop where
  sent : q'.sent = q.sent ++ b
  hash : c.dataDigest = true → q'.sndHash = q.sndHash ++ b
  replies : q'.replies = q.replies
  iovs : q'.caravanIovs = q.caravanIovs

theorem Wrote.trans {b b' : List Byte} {q'' : SendQueue} (h : Wrote c b q q')
    (h' : Wrote c b' q' q'') :
    Wrote c (b ++ b') q q'' :=
  ⟨by rw [h'.sent, h.sent, List.append_assoc],
    fun hd => by rw [h'.hash hd, h.hash hd, List.append_assoc],
    h'.replies.trans h.replies, h'.iovs.trans h.iovs⟩

theorem wrote_sendChunk (c : Config) (t : ℕ) (q : SendQueue) :
    Wrote c (curChunk (q.reqs t)) q (q.sendChunk c t) := by
  have htake : (curChunk (q.reqs t)).take (q.reqs t).reqCurLength = curChunk (q.reqs t) :=
    List.take_of_length_le (curChunk_length _).le
  unfold SendQueue.sendChunk dataSentUpdate
  dsimp only
  split_ifs with hd
  · exact ⟨rfl, fun _ => by simp [SendQueue.modifyReq, htake], rfl, rfl⟩
  · exact ⟨rfl, fun hd' => absurd hd' hd, rfl, rfl⟩

theorem trySendDataLoop_direct (h : InData (q.reqs t)) (hrep : q.replies = []) (fuel : ℕ) :
    trySendDataLoop c aggr true t (fuel + 1) q =
      if (q.reqs t).pduLastSend (q.reqs t).reqCurLength then (1, dataDone c t (q.sendChunk c t))
      else trySendDataLoop c aggr true t fuel (q.sendChunk c t) := by
  have hpos := h.reqCurLength_pos
  have hne : (q.reqs t).reqCurLength ≠ 0 := by omega
  have hlen := curChunk_length (q.reqs t)
  have hbytes : Kvec.bytes q.reqs
      ⟨.page (q.reqs t).reqCurBvec (q.reqs t).iter.iovOffset, (q.reqs t).reqCurLength⟩ = curChunk
        (q.reqs t) := rfl
  by_cases hl : (q.reqs t).pduLastSend (q.reqs t).reqCurLength = true <;>
    simp [trySendDataLoop, emit, hbytes, kernelSend, hrep, hlen, hl, hne, SendQueue.sendChunk]

theorem trySendData_direct :
    ∀ (fuel : ℕ) (q : SendQueue), InData (q.reqs t) → q.replies = [] → (q.reqs t).state = .data →
      (q.reqs t).pduLen - (q.reqs t).pduSent < fuel →
      ∃ q₁, trySendDataLoop c aggr true t fuel q = (1, dataDone c t q₁) ∧
        (q₁.reqs t).state = .data ∧ Wrote c (walk (q.reqs t)) q q₁ := by
  intro fuel
  induction fuel with
  | zero => intro q _ _ _ hfuel; omega
  | succ fuel ih =>
    intro q h hrep hs hfuel
    have hself := sendChunk_reqs_self c t q
    have hless := h.left_advanceReq
    have hwrote := wrote_sendChunk c t q
    have hst : ((q.sendChunk c t).reqs t).state = .data := by
      rw [hself, (advanceReq_fields _ _).2.2.2.2.2.1, hs]
    rw [trySendDataLoop_direct h hrep]
    cases hl : (q.reqs t).pduLastSend (q.reqs t).reqCurLength with
    | true => exact ⟨q.sendChunk c t, rfl, hst, by rw [walk_last h hl]; exact hwrote⟩
    | false =>
      obtain ⟨q₁, heq, hst₁, hwrote₁⟩ := ih (q.sendChunk c t) (by rw [hself]; exact h.advanceReq hl)
        (hwrote.replies.trans hrep) hst (by rw [hself]; omega)
      rw [hself] at hwrote₁
      exact ⟨q₁, heq, hst₁, by rw [walk_more h hl]; exact hwrote.trans hwrote₁⟩

theorem trySendHdr_direct {size : ℕ} {now : Bool} {done : SendQueue → SendQueue}
    (hsize : 0 < size ∧ size ≤ 72) (hbuf : (q.reqs t).pdu.length = 72 + nvmeTcpHdgstLen c)
    (hrep : q.replies = []) (hoff : (q.reqs t).offset = 0) :
    trySendHdr c aggr true t size now done q =
      (1, done { q.digestHdr c t size with sent := q.sent ++ hdrWire c size (q.reqs t) }) := by
  have hdig : (q.digestHdr c t size).replies = [] ∧ (q.digestHdr c t size).sent = q.sent := by
    unfold SendQueue.digestHdr
    split_ifs <;> exact ⟨hrep, rfl⟩
  have hq : (if c.hdrDigest = true ∧ True then q.modifyReq t (nvmeTcpHdgst c size) else q) =
      q.digestHdr c t size := by simp [SendQueue.digestHdr]
  have hbytes : Kvec.bytes (q.digestHdr c t size).reqs ⟨.pdu t 0, size + nvmeTcpHdgstLen c⟩ =
      hdrWire c size (q.reqs t) := by
    have hwire := @hdrBuf_take c size (q.reqs t) (by omega)
    simp only [Kvec.bytes, digestHdr_reqs_self, List.drop_zero]
    exact hwire
  have hlen := @hdrWire_length c size (q.reqs t) (by omega)
  have hpos : ¬ ((size : ℤ) + (nvmeTcpHdgstLen c : ℤ) ≤ 0) := by omega
  have hall : size + nvmeTcpHdgstLen c - ((size : ℤ) + (nvmeTcpHdgstLen c : ℤ)).toNat =
    0 := by omega
  simp only [trySendHdr, hoff, hq, emit, if_true, Nat.sub_zero, hbytes, kernelSend, hdig, hlen]
  simp [hpos, hall]

theorem trySendReq_of_h2c {legacy : Bool} (hs : (q.reqs t).state ≠ .cmdPdu) :
    trySendReq c aggr legacy t q =
      let p := (stage t .h2cPdu (nvmeTcpTrySendDataPdu c aggr legacy t) <|
        stage t .data (nvmeTcpTrySendData c aggr legacy t) <| stage t .ddgst
          (nvmeTcpTrySendDdgst t) Prod.mk) 1 q
      (if p.1 = -EAGAIN then 0 else p.1, p.2) := by
  simp only [trySendReq, stage_skip hs, stateOf, hs, false_and, if_false]

def SendQueue.sendH2c (c : Config) (t : ℕ) (q : SendQueue) : SendQueue :=
  (startData c { q.digestHdr c t 24 with sent := q.sent ++ hdrWire c 24 (q.reqs t) }).modifyReq t
    fun r =>
    { r with state := .data, iter := if r.dataSent = 0 then r.initIter else r.iter }

theorem sendH2c_reqs_self (c : Config) (t : ℕ) (q : SendQueue) :
    (q.sendH2c c t).reqs t = withHeader (hdrBuf c 24 (q.reqs t)) .data (dataStart (q.reqs t)) := by
  simp [SendQueue.sendH2c, digestHdr_reqs_self, NvmeTcpRequest.initIter, withHeader, dataStart]

theorem sendH2c_fields (c : Config) (t : ℕ) (q : SendQueue) :
    (q.sendH2c c t).sent = q.sent ++ hdrWire c 24 (q.reqs t) ∧ (q.sendH2c c t).replies = q.replies ∧
      (q.sendH2c c t).caravanIovs = q.caravanIovs ∧ (q.sendH2c c t).request = q.request ∧
      (c.dataDigest = true → (q.sendH2c c t).sndHash = []) := by
  unfold SendQueue.sendH2c startData SendQueue.digestHdr SendQueue.modifyReq
  split_ifs with hd <;> simp [hd]

theorem trySendDdgst_direct (hrep : q.replies = []) (hs : (q.reqs t).state = .data) :
    ∃ q', stage t .ddgst (nvmeTcpTrySendDdgst t) Prod.mk 1 (dataDone c t q) = (1, q') ∧
      q'.request = none ∧ q'.caravanIovs = q.caravanIovs ∧
      q'.sent = q.sent ++ if c.dataDigest then c.crc q.sndHash else [] := by
  by_cases hd : c.dataDigest = true
  · have hself : (dataDone c t q).reqs t =
        { q.reqs t with ddgst := c.crc q.sndHash, state := .ddgst, offset := 0 } := by
      simp [dataDone, hd]
    have hkeep : (dataDone c t q).replies = [] ∧ (dataDone c t q).sent = q.sent ∧
        (dataDone c t q).caravanIovs = q.caravanIovs := by
      simp [dataDone, hd, SendQueue.modifyReq, hrep]
    have hall := @trySendDdgst_all t (dataDone c t q) hkeep.1 (by rw [hself])
      (by rw [hself]; exact c.crc_length _)
    refine ⟨_, stage_of_one (by rw [hself]) hall, rfl, hkeep.2.2, ?_⟩
    simp [nvmeTcpDoneSendReq, hself, hkeep.2.1, hd]
  · have hdone : dataDone c t q = nvmeTcpDoneSendReq q := by simp [dataDone, hd]
    have hst : ((dataDone c t q).reqs t).state ≠ .ddgst := by
      rw [hdone, doneSendReq_reqs, hs]
      decide
    exact ⟨_, stage_skip
      hst, by rw [hdone]; rfl, by rw [hdone]; rfl, by rw [hdone]; simp [nvmeTcpDoneSendReq, hd]⟩

/-- One call on the legacy path sends the whole PDU, digest and all. -/
theorem trySendReq_direct (hrep : q.replies = []) (hr : Ready c (q.reqs t))
    (hs : (q.reqs t).state = .h2cPdu) :
    ∃ q', trySendReq c aggr true t q = (1, q') ∧ q'.request = none ∧
      q'.caravanIovs = q.caravanIovs ∧
      q'.sent = q.sent ++ hdrWire c 24 (q.reqs t) ++ walk (dataStart (q.reqs t)) ++
        if c.dataDigest then c.crc (walk (dataStart (q.reqs t))) else [] := by
  have hhdr : nvmeTcpTrySendDataPdu c aggr true t q = (1, q.sendH2c c t) :=
    trySendHdr_direct (by decide) hr.1.buf hrep (hr.h2c hs).1
  have hself := sendH2c_reqs_self c t q
  obtain ⟨hsent, hrep₁, hiovs, -, hhash⟩ := sendH2c_fields c t q
  have hst₁ : ((q.sendH2c c t).reqs t).state = .data := by rw [hself]; rfl
  have hwalk : walk ((q.sendH2c c t).reqs t) = walk
    (dataStart (q.reqs t)) := by rw [hself, walk_withHeader]
  obtain ⟨q₂, hdata, hst₂, hwrote⟩ := @trySendData_direct c aggr t _ (q.sendH2c c t)
    (by rw [hself]; exact hr.inData_h2c hs _) (hrep₁.trans hrep) hst₁ (Nat.lt_succ_self _)
  change nvmeTcpTrySendData c aggr true t (q.sendH2c c t) = _ at hdata
  obtain ⟨q', hdig, hreq', hiovs', hsent'⟩ := @trySendDdgst_direct c t q₂
    (hwrote.replies.trans (hrep₁.trans hrep)) hst₂
  refine ⟨q', ?_, hreq', hiovs'.trans (hwrote.iovs.trans hiovs), ?_⟩
  · have hrun : stage t .h2cPdu (nvmeTcpTrySendDataPdu c aggr true t)
        (stage t .data (nvmeTcpTrySendData c aggr true t)
          (stage t .ddgst (nvmeTcpTrySendDdgst t) Prod.mk)) 1 q =
          (1, q') := by
      rw [stage_of_one hs hhdr, stage_of_one hst₁ hdata, hdig]
    rw [trySendReq_of_h2c (by rw [hs]; decide), hrun]
    rfl
  · rw [hsent', hwrote.sent, hsent, hwalk]
    by_cases hd : c.dataDigest = true
    · rw [if_pos hd, if_pos hd, hwrote.hash hd, hhash hd, hwalk, List.nil_append]
    · rw [if_neg hd, if_neg hd]

/-! An R2T for nothing. -/

/-- Request `t` has an H2C PDU without data to send. -/
structure Stuck (c : Config) (t : ℕ) (q : SendQueue) : Prop where
  request : q.request = some t
  replies : q.replies = []
  state : (q.reqs t).state = .h2cPdu ∧ (q.reqs t).offset = 0 ∨ (q.reqs t).state = .data
  left : (q.reqs t).pduLen = (q.reqs t).pduSent
  buf : (q.reqs t).pdu.length = 72 + nvmeTcpHdgstLen c

theorem Stuck.of_same (h : Stuck c t q) (hreq : q'.request = q.request)
    (hrep : q'.replies = q.replies) (hself : q'.reqs t = q.reqs t) : Stuck c t q' :=
  ⟨hreq.trans h.request, hrep.trans h.replies, by rw [hself]; exact h.state,
    by rw [hself]; exact h.left, by rw [hself]; exact h.buf⟩

/-- The data stage finds nothing to send, and so not the end of the data either. -/
theorem Stuck.data {legacy : Bool} (h : Stuck c t q) (hs : (q.reqs t).state = .data) :
    ∃ ret q', nvmeTcpTrySendData c aggr legacy t q = (ret, q') ∧ Stuck c t q' ∧
      (q'.reqs t).state = .data := by
  have hcur : (q.reqs t).reqCurLength = 0 := by
    have hle : (q.reqs t).reqCurLength ≤ (q.reqs t).pduLen - (q.reqs t).pduSent :=
      Nat.min_le_right _ _
    have hleft := h.left
    omega
  have hbytes : Kvec.bytes q.reqs ⟨.page (q.reqs t).reqCurBvec (q.reqs t).iter.iovOffset, 0⟩ =
      [] := by
    simp [Kvec.bytes]
  cases legacy with
  | true =>
    refine ⟨0, q, ?_, h, hs⟩
    simp [nvmeTcpTrySendData, trySendDataLoop, hcur, emit, hbytes, kernelSend_all h.replies]
  | false =>
    by_cases hf : q.i10HostIsCaravanFull aggr = true
    · refine ⟨1, q.mark, ?_, h.of_same rfl rfl rfl, hs⟩
      simp [nvmeTcpTrySendData, trySendDataLoop, emit, hf, SendQueue.mark]
    · refine ⟨0, q.append ⟨.page (q.reqs t).reqCurBvec (q.reqs t).iter.iovOffset, 0⟩, ?_,
        h.of_same rfl rfl rfl, hs⟩
      simp [nvmeTcpTrySendData, trySendDataLoop, hcur, emit, hf]

theorem Stuck.h2c {legacy : Bool} (h : Stuck c t q) (hs : (q.reqs t).state = .h2cPdu) :
    ∃ q', nvmeTcpTrySendDataPdu c aggr legacy t q = (1, q') ∧ Stuck c t q' := by
  have hoff : (q.reqs t).offset = 0 := by
    rcases h.state with ⟨-, hoff⟩ | hdata
    · exact hoff
    · rw [hs] at hdata
      cases hdata
  have hlen : (hdrBuf c 24 (q.reqs t)).length = 72 + nvmeTcpHdgstLen c :=
    hdrBuf_length h.buf (by decide)
  cases legacy with
  | true =>
    have hself := sendH2c_reqs_self c t q
    obtain ⟨-, hrep, -, hreq, -⟩ := sendH2c_fields c t q
    refine ⟨q.sendH2c c t, trySendHdr_direct (by decide) h.buf h.replies hoff, hreq.trans h.request,
      hrep.trans h.replies,
      .inr (by rw [hself]; rfl), by rw [hself]; exact h.left, by rw [hself]; exact hlen⟩
  | false =>
    have hhdr := @trySendHdr_caravan c aggr t q 24 false
        (fun q => (startData c q).modifyReq t fun r =>
      { r with state := .data, iter := if r.dataSent = 0 then r.initIter else r.iter }) (by decide)
        hoff
    by_cases hf : q.i10HostIsCaravanFull aggr = true
    · rw [if_pos hf] at hhdr
      have hself := digestHdr_reqs_self c t q 24
      have hrep := (frame_digestHdr c t q 24).replies
      refine ⟨(q.digestHdr c t 24).mark, hhdr, ?_, hrep.trans h.replies, .inl ?_, ?_, ?_⟩
      · simpa [SendQueue.mark] using h.request
      all_goals rw [mark_reqs, hself]
      · exact ⟨hs, hoff⟩
      · exact h.left
      · exact hlen
    · rw [if_neg hf, markIf_false] at hhdr
      have hself := putH2c_reqs_self c t q
      have hrep := ((@SendStep.h2c c aggr t q h.request hs (by simpa using hf)).frame).replies
      exact ⟨q.putH2c c t, hhdr, by simpa using h.request, hrep.trans h.replies,
        .inr (by rw [hself]), by rw [hself]; exact h.left, by rw [hself]; exact hlen⟩

theorem Stuck.trySendReq {legacy : Bool} (h : Stuck c t q) :
    Stuck c t (trySendReq c aggr legacy t q).2 := by
  have hdata : ∀ (ret : ℤ) (q : SendQueue), Stuck c t q → (q.reqs t).state = .data →
      Stuck c t (stage t .data (nvmeTcpTrySendData c aggr legacy t)
        (stage t .ddgst (nvmeTcpTrySendDdgst t) Prod.mk) ret q).2 := by
    intro ret q h hs
    obtain ⟨ret, q', heq, hstuck, hs'⟩ := @Stuck.data c aggr t q legacy h hs
    have hskip : (q'.reqs t).state ≠ .ddgst := by rw [hs']; decide
    by_cases hret : ret ≤ 0
    · simpa [stage, stateOf, hs, heq, hret] using hstuck
    · simpa [stage, stateOf, hs, heq, hret, hskip] using hstuck
  have hcmd : (q.reqs t).state ≠ .cmdPdu := by
    rcases h.state with ⟨hs, -⟩ | hs <;> rw [hs] <;> decide
  rw [trySendReq_of_h2c hcmd]
  dsimp only
  rcases h.state with ⟨hs, -⟩ | hs
  · obtain ⟨q', heq, hstuck⟩ := @Stuck.h2c c aggr t q legacy h hs
    rw [stage_of_one hs heq]
    rcases hstuck.state with ⟨hs', -⟩ | hs'
    · have hskip : (q'.reqs t).state ≠ .ddgst := by rw [hs']; decide
      rw [stage_skip (by rw [hs']; decide), stage_skip hskip]
      exact hstuck
    · exact hdata 1 q' hstuck hs'
  · rw [stage_skip (by rw [hs]; decide)]
    exact hdata 1 q h hs

theorem Stuck.trySendRest {legacy flush : Bool} (h : Stuck c t q) :
    Stuck c t (trySendRest c aggr legacy flush false q).2 := by
  cases flush with
  | false =>
    simp only [Host.trySendRest, Bool.false_eq_true, if_false, h.request]
    exact h.trySendReq
  | true =>
    have hsent : Stuck c t (caravanSent { q with sent := q.sent ++ q.caravanBytes }) :=
      h.of_same rfl rfl rfl
    have hreq := hsent.request
    simp only [Host.trySendRest, if_true, Bool.false_eq_true, if_false, kernelSend_all h.replies]
    by_cases hret : (q.caravanBytes.length : ℤ) ≤ 0
    · rw [if_pos hret]
      exact h.of_same rfl rfl rfl
    · rw [if_neg hret]
      simp only [hreq]
      exact hsent.trySendReq

end BlkSwitch.Host
