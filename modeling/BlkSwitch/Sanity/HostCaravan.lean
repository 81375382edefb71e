import BlkSwitch.Sanity.HostSend

/-! What holds of a queue around a call of `nvme_tcp_try_send`: the counters of the caravan
agree with its entries, and the request stays fit to be sent. -/

namespace BlkSwitch.Host

open Bytes Relation SendQueue

/-- An entry stays within the buffer it points into. -/
def Kvec.Fits (c : Config) (k : Kvec) : Prop :=
  match k.base with
  | .pdu _ off => off + k.len ≤ 72 + nvmeTcpHdgstLen c
  | .page v off => off + k.len ≤ v.len

/-- The counters of the caravan agree with its entries. -/
structure CaravanOk (c : Config) (q : SendQueue) : Prop where
  len : q.caravanLen = (q.caravanIovs.map Kvec.len).sum
  entry : ∀ k ∈ q.caravanIovs, 0 < k.len ∧ k.Fits c
  mapped : q.caravanMapped.length ≤ q.caravanIovs.length

/-- Request `t` is underway, or it is through. -/
def Working (c : Config) (t : ℕ) (q : SendQueue) : Prop :=
  q.request = some t ∧ Ready c (q.reqs t) ∨ q.request = none ∧ ReqGood c (q.reqs t)

theorem Working.ready_of_step {c : Config} {aggr t : ℕ} {q q' : SendQueue} (hw : Working c t q)
    (h : SendStep c aggr t q q') : Ready c (q.reqs t) := by
  rcases hw with ⟨-, hr⟩ | ⟨hnone, -⟩
  · exact hr
  · cases h <;> simp_all

section Around

variable {c : Config} {aggr t : ℕ} {q q' : SendQueue}

theorem CaravanOk.len_eq_zero (h : CaravanOk c q) : q.caravanLen = 0 ↔ q.caravanIovs = [] := by
  rw [h.len]
  cases hq : q.caravanIovs with
  | nil => simp
  | cons k ks =>
    have hk := (h.entry k (by simp [hq])).1
    simp only [List.map_cons, List.sum_cons, reduceCtorEq, iff_false]
    omega

theorem CaravanOk.ne_nil_of_full (h : CaravanOk c q) (haggr : 0 < aggr)
    (hf : q.i10HostIsCaravanFull aggr = true) : q.caravanIovs ≠ [] := by
  intro hnil
  have hlen := h.len_eq_zero.2 hnil
  have hmapped := h.mapped
  simp only [SendQueue.i10HostIsCaravanFull, hlen, hnil, List.length_nil, I10_CARAVAN_CAPACITY,
    Bool.or_eq_true, decide_eq_true_eq] at hf hmapped
  omega

theorem CaravanOk.append (h : CaravanOk c q) {k : Kvec} (hk : 0 < k.len ∧ k.Fits c) :
    CaravanOk c (q.append k) := by
  refine ⟨?_, ?_, ?_⟩
  · simp [SendQueue.append, h.len]
  · intro k' hk'
    rcases List.mem_append.1 hk' with hk' | hk'
    · exact h.entry k' hk'
    · rwa [List.mem_singleton.1 hk']
  · have := h.mapped
    unfold SendQueue.append
    cases k.base <;> simp <;> omega

/-- `CaravanOk` and the entries depend on the caravan fields only. -/
structure SameCaravan (q q' : SendQueue) : Prop where
  iovs : q'.caravanIovs = q.caravanIovs
  len : q'.caravanLen = q.caravanLen
  mapped : q'.caravanMapped = q.caravanMapped

theorem SameCaravan.ok (h : SameCaravan q q') (hq : CaravanOk c q) : CaravanOk c q' :=
  ⟨by rw [h.len, h.iovs, hq.len], by rw [h.iovs]; exact hq.entry,
    by rw [h.iovs, h.mapped]; exact hq.mapped⟩

theorem sameCaravan_digestHdr (c : Config) (t : ℕ) (q : SendQueue) (size : ℕ) :
    SameCaravan q (q.digestHdr c t size) := by
  unfold SendQueue.digestHdr
  split_ifs <;> exact ⟨rfl, rfl, rfl⟩

theorem putHdr_caravan (c : Config) (t : ℕ) (q : SendQueue) (size : ℕ) :
    SameCaravan (q.append (hdrKvec c t size)) (q.putHdr c t size) := by
  unfold SendQueue.putHdr SendQueue.digestHdr
  split_ifs <;> exact ⟨rfl, rfl, rfl⟩

theorem putCmd_caravan (c : Config) (t : ℕ) (q : SendQueue) :
    SameCaravan (q.append (hdrKvec c t 72)) (q.putCmd c t) := by
  have h := putHdr_caravan c t q 72
  unfold SendQueue.putCmd startData
  dsimp only
  split_ifs <;> exact ⟨h.iovs, h.len, h.mapped⟩

theorem putH2c_caravan (c : Config) (t : ℕ) (q : SendQueue) :
    SameCaravan (q.append (hdrKvec c t 24)) (q.putH2c c t) := by
  have h := putHdr_caravan c t q 24
  unfold SendQueue.putH2c startData
  split_ifs <;> exact ⟨h.iovs, h.len, h.mapped⟩

theorem putChunk_caravan (c : Config) (t : ℕ) (q : SendQueue) :
    SameCaravan (q.append (curKvec (q.reqs t))) (q.putChunk c t) := by
  unfold SendQueue.putChunk dataSentUpdate
  dsimp only
  split_ifs <;> exact ⟨rfl, rfl, rfl⟩

theorem finish_caravan (c : Config) (t : ℕ) (q : SendQueue) : SameCaravan q (q.finish c t) := by
  unfold SendQueue.finish dataDone
  split_ifs <;> exact ⟨rfl, rfl, rfl⟩

theorem InData.curKvec_fits {r : NvmeTcpRequest} (h : InData r) (c : Config) :
    0 < (curKvec r).len ∧ (curKvec r).Fits c := by
  refine ⟨h.reqCurLength_pos, ?_⟩
  have hhead := h.iter.ok.head h.iter.pos
  simp only [Kvec.Fits, curKvec, NvmeTcpRequest.reqCurLength, NvmeTcpRequest.reqCurBvec]
  omega

/-- What a step does to the caravan: nothing, because it is full, or one more entry, which is
a header of the request or its next chunk. -/
theorem SendStep.entry (h : SendStep c aggr t q q') :
    (q.i10HostIsCaravanFull aggr = true ∧ SameCaravan q q') ∨
      ∃ k, SameCaravan (q.append k) q' ∧
        (k = hdrKvec c t 72 ∨ k = hdrKvec c t 24 ∨ (q.reqs t).state = .data ∧
        k = curKvec (q.reqs t)) := by
  cases h with
  | fullHdr size _ _ hf =>
    have h := sameCaravan_digestHdr c t q size
    exact .inl ⟨hf, h.iovs, h.len, h.mapped⟩
  | fullData _ _ hf => exact .inl ⟨hf, rfl, rfl, rfl⟩
  | cmd _ _ _ => exact .inr ⟨_, putCmd_caravan c t q, .inl rfl⟩
  | h2c _ _ _ => exact .inr ⟨_, putH2c_caravan c t q, .inr (.inl rfl)⟩
  | chunk _ hst _ _ => exact .inr ⟨_, putChunk_caravan c t q, .inr (.inr ⟨hst, rfl⟩)⟩
  | last _ hst _ _ =>
    have h := putChunk_caravan c t q
    have h' := finish_caravan c t (q.putChunk c t)
    exact .inr ⟨_, ⟨h'.iovs.trans h.iovs, h'.len.trans h.len, h'.mapped.trans h.mapped⟩,
      .inr (.inr ⟨hst, rfl⟩)⟩

theorem hdrKvec_fits (c : Config) (t : ℕ) {size : ℕ} (h0 : 0 < size) (h : size ≤ 72) :
    0 < (hdrKvec c t size).len ∧ (hdrKvec c t size).Fits c := by
  simp only [hdrKvec, Kvec.Fits]
  omega

theorem SendStep.caravan (h : SendStep c aggr t q q') (hr : Ready c (q.reqs t)) :
    (q.i10HostIsCaravanFull aggr = true ∧ SameCaravan q q') ∨
      ∃ k : Kvec, (0 < k.len ∧ k.Fits c) ∧ SameCaravan (q.append k) q' := by
  rcases h.entry with hfull | ⟨k, hsame, hk⟩
  · exact .inl hfull
  · refine .inr ⟨k, ?_, hsame⟩
    rcases hk with rfl | rfl | ⟨hst, rfl⟩
    · exact hdrKvec_fits c t (by decide) le_rfl
    · exact hdrKvec_fits c t (by decide) (by decide)
    · have hin : InData (q.reqs t) := by simpa only [hst] using hr.2
      exact hin.curKvec_fits c

theorem SendStep.caravanOk (h : SendStep c aggr t q q') (haggr : 0 < aggr) (hr : Ready c (q.reqs t))
    (hq : CaravanOk c q) : CaravanOk c q' ∧ q'.caravanIovs ≠ [] := by
  rcases h.caravan hr with ⟨hf, hsame⟩ | ⟨k, hk, hsame⟩
  · exact ⟨hsame.ok hq, by rw [hsame.iovs]; exact hq.ne_nil_of_full haggr hf⟩
  · exact ⟨hsame.ok (hq.append hk), by rw [hsame.iovs]; simp [SendQueue.append]⟩

theorem ReqGood.withHdr {r : NvmeTcpRequest} (h : ReqGood c r) {size : ℕ} (hsize : size ≤ 72) :
    ReqGood c { r with pdu := hdrBuf c size r } := by
  refine ⟨hdrBuf_length h.buf hsize, h.len, h.sent, h.first, fun h0 hlt => ?_⟩
  obtain ⟨hok, hpos, hlater, hen⟩ := h.more h0 hlt
  exact ⟨hok, hpos, hlater, hen⟩

theorem SendStep.working (h : SendStep c aggr t q q') (hr : Ready c (q.reqs t)) :
    Working c t q' := by
  obtain ⟨hgood, hst'⟩ := id hr
  cases h with
  | fullHdr size hreq hst hf =>
    refine .inl ⟨by simpa [SendQueue.mark] using hreq, ?_⟩
    rw [mark_reqs, digestHdr_reqs_self]
    refine ⟨hgood.withHdr (by omega), ?_⟩
    rcases hst with ⟨-, hs⟩ | ⟨-, hs⟩ <;> simp only [hs] at hst' ⊢ <;> exact hst'
  | fullData hreq _ _ => exact .inl ⟨hreq, hr⟩
  | cmd hreq hs hf =>
    have hself := putCmd_reqs_self c t q
    have hrequest := putCmd_request c t q
    by_cases hi : (q.reqs t).hasInlineData c = true
    · rw [if_pos hi] at hself hrequest
      have h0 : (q.reqs t).dataSent = 0 := by
        simp only [hs] at hst'
        exact hst'.2.2.1
      refine .inl ⟨hrequest.trans hreq, ?_⟩
      rw [hself]
      exact ⟨⟨hdrBuf_length hgood.buf le_rfl, hgood.len, hgood.sent, hgood.first,
        fun hpos => absurd h0 hpos.ne'⟩, hr.inData_inline hs hi _⟩
    · rw [if_neg hi] at hself hrequest
      exact .inr ⟨hrequest, by rw [hself]; exact hgood.withHdr le_rfl⟩
  | h2c hreq hs hf =>
    refine .inl ⟨by simpa using hreq, ?_⟩
    rw [putH2c_reqs_self]
    have hin := hr.inData_h2c hs (hdrBuf c 24 (q.reqs t))
    exact ⟨⟨hdrBuf_length hgood.buf (by decide), hgood.len, hgood.sent, hgood.first,
      fun _ _ => hin.iter⟩, hin⟩
  | chunk hreq hs hf hl =>
    have hin : InData (q.reqs t) := by simpa only [hs] using hst'
    refine .inl ⟨by simpa using hreq, ?_⟩
    rw [putChunk_reqs_self]
    refine ⟨hgood.advanceReq hin, ?_⟩
    simp only [(advanceReq_fields _ _).2.2.2.2.2.1, hs]
    exact hin.advanceReq hl
  | last hreq hs hf hl =>
    have hin : InData (q.reqs t) := by simpa only [hs] using hst'
    have hgood' := hgood.advanceReq hin
    rw [← putChunk_reqs_self c t q] at hgood'
    refine .inr ⟨rfl, ?_⟩
    unfold SendQueue.finish dataDone
    split_ifs with hd
    · simp only [doneSendReq_reqs, modifyReq_reqs_self]
      refine ⟨hgood'.buf, hgood'.len, hgood'.sent, hgood'.first, fun h0 hlt => ?_⟩
      obtain ⟨hok, hpos, hlater, hen⟩ := hgood'.more h0 hlt
      exact ⟨hok, hpos, hlater, hen⟩
    · exact hgood'

/-- The steps of a call add to the caravan, or find it full. -/
theorem steps_working (haggr : 0 < aggr) (hr : Ready c (q.reqs t)) (hq : CaravanOk c q)
    (hsteps : TransGen (SendStep c aggr t) q q') :
    Working c t q' ∧ CaravanOk c q' ∧ q'.caravanIovs ≠ [] := by
  induction hsteps with
  | single h => exact ⟨h.working hr, h.caravanOk haggr hr hq⟩
  | tail _ h ih =>
    obtain ⟨hwork, hok, -⟩ := ih
    have hr' := hwork.ready_of_step h
    exact ⟨h.working hr', h.caravanOk haggr hr' hok⟩

end Around

end BlkSwitch.Host
