import BlkSwitch.Sanity.HostSteps

/-! One call of `nvme_tcp_try_send` on the caravan path is a sequence of `SendStep`s
(`trySendReq_steps`), so what every step preserves a call preserves. -/

namespace BlkSwitch.Host

open Bytes Relation SendQueue

theorem InData.reqCurLength_pos {r : NvmeTcpRequest} (h : InData r) : 0 < r.reqCurLength := by
  have hhead := h.iter.ok.head h.iter.pos
  have hmore := h.more
  unfold NvmeTcpRequest.reqCurLength NvmeTcpRequest.reqCurBvec
  omega

theorem InData.advanceReq {r : NvmeTcpRequest} (h : InData r)
    (hl : r.pduLastSend r.reqCurLength = false) : InData (r.advanceReq r.reqCurLength) := by
  obtain ⟨-, hlen, hsent, hpl, hps, -, -⟩ := advanceReq_fields r r.reqCurLength
  have hmore : r.reqCurLength < r.pduLen - r.pduSent := by
    unfold NvmeTcpRequest.pduLastSend NvmeTcpRequest.pduDataLeft at hl
    split_ifs at hl <;> simp at hl
    omega
  have hroom := h.room
  refine ⟨(advanceReq_ahead h.iter (by omega)).2, ?_, ?_⟩ <;> omega

theorem ReqGood.advanceReq {c : Config} {r : NvmeTcpRequest} (hr : ReqGood c r) (h : InData r) :
    ReqGood c (r.advanceReq r.reqCurLength) := by
  obtain ⟨hrq, hlen, hsent, -, -, -, hpdu⟩ := advanceReq_fields r r.reqCurLength
  have hpos := h.reqCurLength_pos
  have hle : r.reqCurLength ≤ r.pduLen - r.pduSent := Nat.min_le_right _ _
  have hroom := h.room
  refine ⟨?_, ?_, ?_, ?_, ?_⟩
  · rw [hpdu, hr.buf]
  · rw [hrq, hlen, hr.len]
  · omega
  · intro h0; omega
  · intro _ hlt
    exact (advanceReq_ahead h.iter (by omega)).2

theorem hasInlineData_dataLen_ne {c : Config} {r : NvmeTcpRequest} (h : r.hasInlineData c = true) :
    r.dataLen ≠ 0 := by
  unfold NvmeTcpRequest.hasInlineData at h
  simp at h
  exact h.1.2

theorem Ready.inData_inline {c : Config} {r : NvmeTcpRequest} (h : Ready c r)
    (hs : r.state = .cmdPdu) (hi : r.hasInlineData c = true) (b : List Byte) :
    InData { r with pdu := b, state := .data, iter := r.initIter } := by
  obtain ⟨hgood, hst⟩ := h
  simp only [hs] at hst
  obtain ⟨-, hps, hds, hpl⟩ := hst
  have hne := hasInlineData_dataLen_ne hi
  have hpl := hpl hi
  obtain ⟨hok, hpos, hlater, hen⟩ := (initIter_good hgood.len hne (hgood.first hds) hds).1
  refine ⟨⟨hok, hpos, hlater, hen⟩, ?_, ?_⟩
  · change r.pduSent < r.pduLen
    omega
  · change r.dataSent + (r.pduLen - r.pduSent) ≤ r.dataLen
    omega

theorem Ready.inData_h2c {c : Config} {r : NvmeTcpRequest} (h : Ready c r) (hs : r.state = .h2cPdu)
    (b : List Byte) :
    InData
      { r with
        pdu := b
        state := .data
        iter := if r.dataSent = 0 then r.initIter else r.iter } := by
  obtain ⟨hgood, hst⟩ := h
  simp only [hs] at hst
  obtain ⟨-, hps, hpos, hroom⟩ := hst
  have hiter : IterGood
      { r with
        pdu := b
        state := .data
        iter := if r.dataSent = 0 then r.initIter else r.iter } := by
    by_cases h0 : r.dataSent = 0
    · obtain ⟨hok, hcnt, hlater, hen⟩ := (initIter_good hgood.len (by omega) (hgood.first h0) h0).1
      rw [if_pos h0]
      exact ⟨hok, hcnt, hlater, hen⟩
    · obtain ⟨hok, hcnt, hlater, hen⟩ := hgood.more (by omega) (by omega)
      rw [if_neg h0]
      exact ⟨hok, hcnt, hlater, hen⟩
  refine ⟨hiter, ?_, ?_⟩
  · change r.pduSent < r.pduLen
    omega
  · change r.dataSent + (r.pduLen - r.pduSent) ≤ r.dataLen
    omega

/-! One call. -/

section Call

variable {c : Config} {aggr t : ℕ} {q : SendQueue}

theorem trySendHdr_caravan {size : ℕ} {sendNow : Bool} {done : SendQueue → SendQueue}
    (hsize : 0 < size) (hoff : (q.reqs t).offset = 0) :
    trySendHdr c aggr false t size sendNow done q =
      if q.i10HostIsCaravanFull aggr then (1, (q.digestHdr c t size).mark)
      else (1, done ((q.putHdr c t size).markIf sendNow)) := by
  have hfull := congrFun (digestHdr_full c t q size) aggr
  have hq : (if c.hdrDigest = true ∧ True then q.modifyReq t (nvmeTcpHdgst c size) else q) =
      q.digestHdr c t size := by simp [SendQueue.digestHdr]
  simp only [trySendHdr, hoff, hq, SendQueue.emit, Bool.false_eq_true, if_false, hfull]
  by_cases hf : q.i10HostIsCaravanFull aggr = true
  · simp [hf, SendQueue.mark]
  · have hpos : ¬ ((size : ℤ) + (nvmeTcpHdgstLen c : ℤ) ≤ 0) := by omega
    have hall : size + nvmeTcpHdgstLen c - ((size : ℤ) + (nvmeTcpHdgstLen c : ℤ)).toNat =
      0 := by omega
    cases sendNow with
    | false => simp [hf, hpos, hall, SendQueue.putHdr, hdrKvec]
    | true => simp [hf, hpos, hall, SendQueue.putHdr, hdrKvec, SendQueue.markIf]

theorem trySendDataLoop_caravan (h : InData (q.reqs t)) (fuel : ℕ) :
    trySendDataLoop c aggr false t (fuel + 1) q =
      if q.i10HostIsCaravanFull aggr then (1, q.mark)
      else if (q.reqs t).pduLastSend (q.reqs t).reqCurLength then (1, dataDone c t (q.putChunk c t))
      else trySendDataLoop c aggr false t fuel (q.putChunk c t) := by
  have hpos := h.reqCurLength_pos
  by_cases hf : q.i10HostIsCaravanFull aggr = true
  · simp [trySendDataLoop, SendQueue.emit, hf, SendQueue.mark]
  · have hne : (q.reqs t).reqCurLength ≠ 0 := by omega
    simp only [trySendDataLoop, SendQueue.emit, Bool.false_eq_true, if_false, hf]
    by_cases hl : (q.reqs t).pduLastSend (q.reqs t).reqCurLength = true
    · simp [hl, hne, SendQueue.putChunk, curKvec, SendQueue.append]
    · simp [hl, hne, SendQueue.putChunk, curKvec, SendQueue.append]

theorem trySendDataLoop_steps :
    ∀ (fuel : ℕ) (q : SendQueue), q.request = some t →
      (q.reqs t).state = .data → InData (q.reqs t) →
      (q.reqs t).pduLen - (q.reqs t).pduSent < fuel →
      ∃ q₁ q₂, trySendDataLoop c aggr false t fuel q = (1, q₂) ∧
        ReflTransGen (SendStep c aggr t) q q₁ ∧ q₁.request = some t ∧ (q₁.reqs t).state = .data ∧
        (q₁.i10HostIsCaravanFull aggr = true ∧ q₂ = q₁.mark ∨
          q₁.i10HostIsCaravanFull aggr = false ∧
            (q₁.reqs t).pduLastSend (q₁.reqs t).reqCurLength = true ∧
            q₂ = dataDone c t (q₁.putChunk c t)) := by
  intro fuel
  induction fuel with
  | zero => intro q _ _ _ h; omega
  | succ fuel ih =>
    intro q hreq hst h hfuel
    rw [trySendDataLoop_caravan h]
    by_cases hf : q.i10HostIsCaravanFull aggr = true
    · exact ⟨q, q.mark, by simp [hf], .refl, hreq, hst, .inl ⟨hf, rfl⟩⟩
    · rw [Bool.not_eq_true] at hf
      by_cases hl : (q.reqs t).pduLastSend (q.reqs t).reqCurLength = true
      · exact ⟨q, _, by simp [hf, hl], .refl, hreq, hst, .inr ⟨hf, hl, rfl⟩⟩
      · rw [Bool.not_eq_true] at hl
        have hself := putChunk_reqs_self c t q
        obtain ⟨-, -, -, hpl, hps, hst', -⟩ := advanceReq_fields (q.reqs t) (q.reqs t).reqCurLength
        have hpos := h.reqCurLength_pos
        have hmore := h.more
        obtain ⟨q₁, q₂, heq, hsteps, hrest⟩ := ih (q.putChunk c t) (by simpa using hreq)
          (by rw [hself, hst', hst]) (by rw [hself]; exact h.advanceReq hl) (by rw [hself]; omega)
        exact ⟨q₁, q₂, by simp [hf, hl, heq], hsteps.head (.chunk hreq hst hf hl), hrest⟩

theorem trySendDdgst_all (hrep : q.replies = []) (hoff : (q.reqs t).offset = 0)
    (hlen : (q.reqs t).ddgst.length = NVME_TCP_DIGEST_LENGTH) :
    nvmeTcpTrySendDdgst t q =
      (1, nvmeTcpDoneSendReq { q with sent := q.sent ++ (q.reqs t).ddgst }) := by
  have htake : (((q.reqs t).ddgst ++ (q.reqs t).afterDdgst).drop 0).take NVME_TCP_DIGEST_LENGTH =
      (q.reqs t).ddgst := by
    rw [List.drop_zero, ← hlen, List.take_left]
  have h4 : NVME_TCP_DIGEST_LENGTH ≠ 0 := by decide
  simp only [nvmeTcpTrySendDdgst, hoff, Nat.mul_zero, Nat.sub_zero, htake, SendQueue.kernelSend,
    hrep, hlen]
  simp [h4]

theorem trySendData_steps (hrep : q.replies = []) (hreq : q.request = some t)
    (hst : (q.reqs t).state = .data) (h : InData (q.reqs t)) (ret : ℤ) :
    ∃ q', stage t .data (nvmeTcpTrySendData c aggr false t)
    (stage t .ddgst (nvmeTcpTrySendDdgst t) Prod.mk)
        ret q = (1, q') ∧ TransGen (SendStep c aggr t) q q' := by
  obtain ⟨q₁, q₂, heq, hsteps, hreq₁, hst₁, hend⟩ := @trySendDataLoop_steps c aggr t
    ((q.reqs t).pduLen - (q.reqs t).pduSent + 1) q hreq hst h (Nat.lt_succ_self _)
  have hrep₁ : (q₁.putChunk c t).replies = [] :=
    (frame_putChunk c t q₁).replies.trans ((frame_of_steps hsteps).replies.trans hrep)
  simp only [stage, stateOf, hst, if_true, nvmeTcpTrySendData, heq]
  rcases hend with ⟨hf, rfl⟩ | ⟨hf, hl, rfl⟩
  · exact ⟨q₁.mark, by simp [hst₁], .tail' hsteps (.fullData hreq₁ hst₁ hf)⟩
  · refine ⟨(q₁.putChunk c t).finish c t, ?_, .tail' hsteps (.last hreq₁ hst₁ hf hl)⟩
    by_cases hd : c.dataDigest = true
    · have hreq : (dataDone c t (q₁.putChunk c t)).reqs t =
          { (q₁.putChunk c t).reqs t with
            ddgst := c.crc (q₁.putChunk c t).sndHash, state := .ddgst, offset := 0 } := by
        simp [dataDone, hd]
      have hall := trySendDdgst_all (q := dataDone c t (q₁.putChunk c t)) (t := t)
        (by simpa [dataDone, hd, SendQueue.modifyReq] using hrep₁) (by rw [hreq])
          (by rw [hreq]; exact c.crc_length _)
      have hsent : (dataDone c t (q₁.putChunk c t)).sent = (q₁.putChunk c t).sent := by
        simp [dataDone, hd, SendQueue.modifyReq]
      simp only [hreq, hsent] at hall
      simp [SendQueue.finish, hd, hall, hreq]
    · have hst₂ : ((q₁.putChunk c t).reqs t).state = .data := by
        rw [putChunk_reqs_self, (advanceReq_fields _ _).2.2.2.2.2.1, hst₁]
      simp [SendQueue.finish, dataDone, hd, hst₂]

theorem trySendReq_of_stage {p : ℤ × SendQueue} (hp : p.1 = 1)
    (h : stage t .cmdPdu (nvmeTcpTrySendCmdPdu c aggr false t)
      (fun ret q' =>
        if stateOf t q = .cmdPdu ∧ (q'.reqs t).hasInlineData c = false then (ret, q')
        else (stage t .h2cPdu (nvmeTcpTrySendDataPdu c aggr false t) <|
          stage t .data (nvmeTcpTrySendData c aggr false t) <|
          stage t .ddgst (nvmeTcpTrySendDdgst t) Prod.mk) ret q') 1 q = p) :
    trySendReq c aggr false t q = (1, p.2) := by
  simp only [trySendReq, h, hp]
  rfl

theorem trySendCmdPdu_caravan (hoff : (q.reqs t).offset = 0)
    (hf : q.i10HostIsCaravanFull aggr = false) :
    nvmeTcpTrySendCmdPdu c aggr false t q = (1, q.putCmd c t) := by
  have hhdr := @trySendHdr_caravan c aggr t q 72 (i10HostIsNodelayPath (q.reqs t)) (fun q' =>
    if (q.reqs t).hasInlineData c then
      (startData c q').modifyReq t fun r => { r with state := .data, iter := r.initIter }
    else nvmeTcpDoneSendReq q') (by decide) hoff
  simp only [nvmeTcpTrySendCmdPdu, hhdr, hf]
  rfl

theorem putCmd_inline (c : Config) (t : ℕ) (q : SendQueue) :
    ((q.putCmd c t).reqs t).hasInlineData c = (q.reqs t).hasInlineData c := by
  rw [putCmd_reqs_self]
  split_ifs <;> rfl

theorem trySendReq_cmd (hs : (q.reqs t).state = .cmdPdu) (hoff : (q.reqs t).offset = 0)
    (hf : q.i10HostIsCaravanFull aggr = false) (hi : (q.reqs t).hasInlineData c = false) :
    trySendReq c aggr false t q = (1, q.putCmd c t) := by
  have hput := @trySendCmdPdu_caravan c aggr t q hoff hf
  have hinl := (putCmd_inline c t q).trans hi
  refine trySendReq_of_stage (p := (1, q.putCmd c t)) rfl ?_
  simp [stage, stateOf, hs, hput, hinl]

/-- A call on a request that is ready always succeeds, and is made of steps. -/
theorem trySendReq_steps (hrep : q.replies = []) (hreq : q.request = some t)
    (h : Ready c (q.reqs t)) :
    ∃ q', trySendReq c aggr false t q = (1, q') ∧ TransGen (SendStep c aggr t) q q' := by
  obtain ⟨hgood, hst⟩ := h
  cases hs : (q.reqs t).state with
  | ddgst => simp [hs] at hst
  | data =>
    simp only [hs] at hst
    obtain ⟨q', heq, hsteps⟩ := @trySendData_steps c aggr t q hrep hreq hs hst 1
    refine ⟨q', trySendReq_of_stage (p := (1, q')) rfl ?_, hsteps⟩
    simpa [stage, stateOf, hs] using heq
  | h2cPdu =>
    have hoff : (q.reqs t).offset = 0 := by
      simp only [hs] at hst
      exact hst.1
    have hhdr := @trySendHdr_caravan c aggr t q 24 false
        (fun q => (startData c q).modifyReq t fun r =>
      { r with state := .data, iter := if r.dataSent = 0 then r.initIter else r.iter }) (by decide)
        hoff
    by_cases hf : q.i10HostIsCaravanFull aggr = true
    · refine ⟨_, trySendReq_of_stage (p := (1, (q.digestHdr c t 24).mark)) rfl ?_,
        .single (.fullHdr 24 hreq (.inr ⟨rfl, hs⟩) hf)⟩
      have hst' : ((q.digestHdr c t 24).reqs t).state = .h2cPdu := by simp [digestHdr_reqs_self, hs]
      simp [stage, stateOf, hs, nvmeTcpTrySendDataPdu, hhdr, hf, hst']
    · rw [Bool.not_eq_true] at hf
      have hself := putH2c_reqs_self c t q
      have hst' : ((q.putH2c c t).reqs t).state = .data := by rw [hself]
      have hrep' : (q.putH2c c t).replies = [] :=
        (@SendStep.h2c c aggr t q hreq hs hf).frame.replies.trans hrep
      obtain ⟨q', heq, hsteps⟩ := @trySendData_steps c aggr t (q.putH2c c t) hrep'
        (by simpa using hreq) hst'
        (by rw [hself]; exact Ready.inData_h2c ⟨hgood, hst⟩ hs _) 1
      refine ⟨q', trySendReq_of_stage (p := (1, q')) rfl ?_, hsteps.head (.h2c hreq hs hf)⟩
      rw [← heq]
      simp only [stage, stateOf, hs, nvmeTcpTrySendDataPdu, hhdr, hf]
      simp [SendQueue.putH2c]
  | cmdPdu =>
    have hoff : (q.reqs t).offset = 0 := by
      simp only [hs] at hst
      exact hst.1
    have hhdr := @trySendHdr_caravan c aggr t q 72 (i10HostIsNodelayPath (q.reqs t)) (fun q' =>
      if (q.reqs t).hasInlineData c then
        (startData c q').modifyReq t fun r => { r with state := .data, iter := r.initIter }
      else nvmeTcpDoneSendReq q') (by decide) hoff
    by_cases hf : q.i10HostIsCaravanFull aggr = true
    · refine ⟨_, trySendReq_of_stage (p := (1, (q.digestHdr c t 72).mark)) rfl ?_,
        .single (.fullHdr 72 hreq (.inl ⟨rfl, hs⟩) hf)⟩
      have hst' : ((q.digestHdr c t 72).reqs t).state = .cmdPdu := by simp [digestHdr_reqs_self, hs]
      simp [stage, stateOf, hs, nvmeTcpTrySendCmdPdu, hhdr, hf, hst']
    · rw [Bool.not_eq_true] at hf
      have hput := @trySendCmdPdu_caravan c aggr t q hoff hf
      have hself := putCmd_reqs_self c t q
      have hinl := putCmd_inline c t q
      by_cases hi : (q.reqs t).hasInlineData c = true
      · rw [if_pos hi] at hself
        have hst' : ((q.putCmd c t).reqs t).state = .data := by rw [hself]
        have hrep' : (q.putCmd c t).replies = [] := (frame_putCmd c t q).replies.trans hrep
        obtain ⟨q', heq, hsteps⟩ := @trySendData_steps c aggr t (q.putCmd c t) hrep'
          (by rw [putCmd_request, if_pos hi, hreq]) hst'
          (by rw [hself]; exact Ready.inData_inline ⟨hgood, hst⟩ hs hi _) 1
        refine ⟨q', trySendReq_of_stage (p := (1, q')) rfl ?_, hsteps.head (.cmd hreq hs hf)⟩
        rw [← heq]
        simp [stage, stateOf, hs, hput, hinl, hi, hst']
      · exact ⟨_, trySendReq_cmd hs hoff hf (by simpa using hi), .single (.cmd hreq hs hf)⟩

end Call

end BlkSwitch.Host
