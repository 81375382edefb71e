import BlkSwitch.Sanity.HostDrain

/-! How an R2T is answered: `nvme_tcp_handle_r2t` refuses it, or puts the request at the back of
`send_list`, and the calls of `nvme_tcp_try_send` that follow bring it to its turn and then emit an
H2C data PDU for it. -/

namespace BlkSwitch.Host

open Bytes SendQueue

/-- The queue after the calls of `nvme_tcp_try_send` that it takes until no request is underway. -/
inductive Through (c : Config) : NvmeTcpQueue → NvmeTcpQueue → Prop
  | done {q} (h : (nvmeTcpTrySend c q).2.request = none) : Through c q (nvmeTcpTrySend c q).2
  | more {q q'} (h : (nvmeTcpTrySend c q).2.request ≠ none)
    (h' : Through c (nvmeTcpTrySend c q).2 q') :
      Through c q q'

/-- Everything ahead of request `r` of tag `t` has left the queue. -/
structure Turn (c : Config) (t : ℕ) (r : NvmeTcpRequest) (q : NvmeTcpQueue) : Prop where
  self : q.reqs t = r
  idle : q.request = none
  next : q.sendList = [t]
  notIn : NotIn q.toSendQueue t
  bufs : ∀ u, (q.reqs u).pdu.length = 72 + nvmeTcpHdgstLen c
  prio : q.prioClass = if c.qid ≤ c.numOnlineCpus then 0 else 1
  path : LegacyQueue c ∧ q.caravanIovs = [] ∧ q.sendNow = false ∨
    ¬ LegacyQueue c ∧ CaravanOk c q.toSendQueue ∧ (q.sendNow = true → q.caravanIovs ≠ [])

def wantedPdu (c : Config) (r : NvmeTcpRequest) (pdu : NvmeTcpR2tPdu) : NvmeTcpDataPdu :=
  { h2cPdu c { r with pduLen := pdu.second.toNat } pdu.ttag with
    first := pdu.first
    second := pdu.second }

def wanted (c : Config) (r : NvmeTcpRequest) (pdu : NvmeTcpR2tPdu) : List Byte :=
  wirePdu c (wantedPdu c r pdu).encode ((r.rq.data.drop pdu.first.toNat).take pdu.second.toNat)

def sendFields (r : NvmeTcpRequest) : ℕ × ℕ × SendState × ℕ :=
  (r.pduLen, r.pduSent, r.state, r.offset)

/-- `n` calls have brought request `t` to its turn, and the calls on it emit `pdu` and leave the
queue with nothing to do. -/
def Emits (c : Config) (t : ℕ) (q : NvmeTcpQueue) (pdu : List Byte) : Prop :=
  ∃ n q', ((trySends c n q).request = none ∧ (trySends c n q).sendList = [t]) ∧
    Through c (trySends c n q) q' ∧ q'.sendList = [] ∧ q'.stream = (trySends c n q).stream ++ pdu

/-- The R2T is refused and nothing has changed, or the request is queued and, once its turn has
come, sent as asked. -/
def R2tAnswered (c : Config) (t : ℕ) (pdu : NvmeTcpR2tPdu) (q : NvmeTcpQueue) : Prop :=
  let p := q.nvmeTcpHandleR2t c t pdu
  p.1 = false ∧ sendFields (p.2.reqs t) = sendFields (q.reqs t) ∧ p.2.sendList = q.sendList ∧
      p.2.request = q.request ∨
    p.1 = true ∧ p.2.sendList = q.sendList ++ [t] ∧ Emits c t p.2 (wanted c (q.reqs t) pdu)

/-- `nvme_tcp_setup_h2c_data_pdu` lets the R2T pass. -/
def Accepts (r : NvmeTcpRequest) (pdu : NvmeTcpR2tPdu) : Prop :=
  r.dataSent + pdu.second.toNat ≤ r.dataLen ∧ r.dataSent ≤ pdu.first.toNat

instance (r : NvmeTcpRequest) (pdu : NvmeTcpR2tPdu) : Decidable (Accepts r pdu) :=
  inferInstanceAs (Decidable (_ ∧ _))

/-- An R2T that passes asks for something, from where the request stands; one that does not finds
`pdu_len` and `pdu_sent` as it would set them. -/
def Answerable (r : NvmeTcpRequest) (pdu : NvmeTcpR2tPdu) : Prop :=
  if Accepts r pdu then pdu.second ≠ 0 ∧ pdu.first.toNat = r.dataSent
  else r.pduLen = pdu.second.toNat ∧ r.pduSent = 0

instance (r : NvmeTcpRequest) (pdu : NvmeTcpR2tPdu) : Decidable (Answerable r pdu) := by
  unfold Answerable
  infer_instance

variable {c : Config} {t : ℕ} {pdu : NvmeTcpR2tPdu} {q q' : NvmeTcpQueue} {r : NvmeTcpRequest}

/-! The handler. -/

def prepared (c : Config) (r : NvmeTcpRequest) (pdu : NvmeTcpR2tPdu) : NvmeTcpRequest :=
  { (nvmeTcpSetupH2cDataPdu c r pdu).2 with state := .h2cPdu, offset := 0 }

theorem setupH2c_fst (c : Config) (r : NvmeTcpRequest) (pdu : NvmeTcpR2tPdu) :
    (nvmeTcpSetupH2cDataPdu c r pdu).1 = decide (Accepts r pdu) := by
  have hiff : Accepts r pdu ↔
      ¬ r.dataLen < r.dataSent + pdu.second.toNat ∧
        ¬ pdu.first.toNat < r.dataSent := by simp [Accepts]
  by_cases hlen : r.dataLen < r.dataSent + pdu.second.toNat
  · simp [nvmeTcpSetupH2cDataPdu, hiff, hlen]
  · by_cases hoff : pdu.first.toNat < r.dataSent <;> simp [nvmeTcpSetupH2cDataPdu, hiff, hlen, hoff]

theorem handleR2t_refused (h : ¬ Accepts (q.reqs t) pdu) :
    q.nvmeTcpHandleR2t c t pdu =
      (false, { q with
        toSendQueue := q.modifyReq t fun r =>
          { r with pduLen := pdu.second.toNat, pduSent := 0 } }) := by
  have hok : (nvmeTcpSetupH2cDataPdu c (q.reqs t) pdu).1 =
    false := by rw [setupH2c_fst]; simpa using h
  have hreq : (nvmeTcpSetupH2cDataPdu c (q.reqs t) pdu).2 =
      { q.reqs t with pduLen := pdu.second.toNat, pduSent := 0 } := by
    unfold nvmeTcpSetupH2cDataPdu at hok ⊢
    dsimp only at hok ⊢
    split_ifs at hok ⊢ <;> rfl
  simp only [NvmeTcpQueue.nvmeTcpHandleR2t, hok, Bool.false_eq_true, if_false, hreq]
  rfl

theorem requestUnlocked_fields (b : Bool) (q : NvmeTcpQueue) :
    (nvmeTcpQueueRequestUnlocked b q).2.toSendQueue = q.toSendQueue ∧
      (nvmeTcpQueueRequestUnlocked b q).2.sendList = q.sendList ∧
      (nvmeTcpQueueRequestUnlocked b q).2.prioClass = q.prioClass := by
  unfold nvmeTcpQueueRequestUnlocked
  split_ifs <;> exact ⟨rfl, rfl, rfl⟩

theorem handleR2t_accepted (h : Accepts (q.reqs t) pdu) :
    (q.nvmeTcpHandleR2t c t pdu).1 = true ∧
      (q.nvmeTcpHandleR2t c t pdu).2.toSendQueue =
      (q.modifyReq t fun _ => prepared c (q.reqs t) pdu) ∧
      (q.nvmeTcpHandleR2t c t pdu).2.sendList = q.sendList ++ [t] ∧
      (q.nvmeTcpHandleR2t c t pdu).2.prioClass = if c.qid ≤ c.numOnlineCpus then 0 else 1 := by
  have hok : (nvmeTcpSetupH2cDataPdu c (q.reqs t) pdu).1 =
    true := by rw [setupH2c_fst]; simpa using h
  obtain ⟨hsq, hlist, hprio, -⟩ := queueRequestLocked_fields c t
    { q with toSendQueue := q.modifyReq t fun _ => prepared c (q.reqs t) pdu }
  unfold NvmeTcpQueue.nvmeTcpHandleR2t
  dsimp only
  rw [if_pos hok]
  obtain ⟨hsq', hlist', hprio'⟩ := requestUnlocked_fields
    (nvmeTcpQueueRequestLocked c t
      { q with toSendQueue := q.modifyReq t fun _ => prepared c (q.reqs t) pdu }).1
    (nvmeTcpQueueRequestLocked c t
      { q with toSendQueue := q.modifyReq t fun _ => prepared c (q.reqs t) pdu }).2
  exact ⟨rfl, hsq'.trans hsq, hlist'.trans hlist, hprio'.trans hprio⟩

/-! The calls. -/

theorem Through.unique {q₁ q₂ : NvmeTcpQueue} (h : Through c q q₁) (h' : Through c q q₂) :
    q₁ = q₂ := by
  induction h with
  | done hnone =>
    cases h' with
    | done _ => rfl
    | more hsome _ => exact absurd hnone hsome
  | more hsome _ ih =>
    cases h' with
    | done hnone => exact absurd hnone hsome
    | more _ h' => exact ih h'

theorem Through.of_eq {p : NvmeTcpQueue} (heq : nvmeTcpTrySend c q = nvmeTcpTrySend c p)
    (h : Through c p q') :
    Through c q q' := by
  cases h with
  | done hnone => rw [← heq] at hnone ⊢; exact .done hnone
  | more hsome h => rw [← heq] at hsome h; exact .more hsome h

theorem Through.list (h : Through c q q') : q'.sendList = (nvmeTcpTrySend c q).2.sendList := by
  induction h with
  | done => rfl
  | more hsome _ ih =>
    obtain ⟨t, ht⟩ := Option.ne_none_iff_exists'.1 hsome
    exact ih.trans (trySend_list_of_request ht)

theorem Turn.trySend (h : Turn c t r q) : nvmeTcpTrySend c q = nvmeTcpTrySend c (taken c t q) :=
  trySend_taken h.idle (by simp [h.next])

theorem legacyPath_iff (h : q.prioClass = if c.qid ≤ c.numOnlineCpus then 0 else 1) :
    i10HostLegacyPath c q = true ↔ LegacyQueue c := by
  unfold i10HostLegacyPath i10HostIsLatency LegacyQueue
  rw [h]
  by_cases hq : c.qid ≤ c.numOnlineCpus
  · have hlt := Nat.not_lt.2 hq
    simp [hq, hlt]
  · have hlt := Nat.not_le.1 hq
    simp [hq, hlt]

theorem Answering.flushIf {goal : List Byte} {q : SendQueue} (h : Answering c t goal q)
    (flush : Bool) :
    Answering c t goal (q.flushIf flush) := by
  have hstream := stream_flushIf q flush
  refine ⟨by simpa using h.request, by simpa using h.ready, by simpa using h.write,
    ?_, by simpa using h.bufs, h.caravan.flushIf flush, by rw [hstream, flushIf_reqs]; exact h.bytes⟩
  rw [flushIf_reqs]
  cases flush with
  | false => exact h.state
  | true =>
    rcases h.state with ⟨hs, -⟩ | hs
    · exact .inl ⟨hs, fun k hk => absurd hk
        (by simp [SendQueue.flushIf, SendQueue.flushed, caravanSent])⟩
    · exact .inr hs

/-- One call through the caravan takes the PDU on, and the second of two at the latest. -/
theorem trySend_answering {goal : List Byte} (hd : c.dataDigest = false)
    (hleg : i10HostLegacyPath c q = false) (ha : Answering c t goal q.toSendQueue)
    (hnow : q.sendNow = true → q.caravanIovs ≠ []) :
    ∃ p, (nvmeTcpTrySend c q).2 = { q with toSendQueue := p } ∧ p.caravanIovs ≠ [] ∧
      (Answered goal p ∨ Answering c t goal p ∧ callsLeft t p < callsLeft t q.toSendQueue) := by
  have hne : q.sendNow = true → q.caravanBytes ≠ [] := by
    intro hq hnil
    have hlen := caravanBytes_length ha.caravan ha.bufs
    rw [hnil] at hlen
    exact hnow hq (ha.caravan.len_eq_zero.1 hlen.symm)
  have ha' : Answering c t goal q.roomy.toSendQueue :=
    ⟨ha.request, ha.ready, ha.write, ha.state, ha.bufs,
      ⟨ha.caravan.len, ha.caravan.entry, ha.caravan.mapped⟩,
      ha.bytes⟩
  have hflush := ha'.flushIf q.sendNow
  have hall := @trySendRest_all c I10_MAX_AGGREGATION_SIZE false q.sendNow false q.roomy.toSendQueue
    rfl hne
  obtain ⟨p, heq, hsteps⟩ :=
    @trySendReq_steps c I10_MAX_AGGREGATION_SIZE t _ (by rw [flushIf_replies]; rfl)
    hflush.request hflush.ready
  have hcall : (nvmeTcpTrySend c q).2 = { q with toSendQueue := p } := by
    have hpath : i10HostLegacyPath c q.roomy = false := hleg
    have hflag : q.roomy.sendNow = q.sendNow := rfl
    rw [trySend_of_request ha.request, nvmeTcpTrySendRest, hpath, hflag, hall]
    simp only [Bool.and_false, Bool.false_eq_true, if_false, ha'.request, heq]
    rfl
  obtain ⟨-, -, hiovs⟩ := steps_working (by decide) hflush.ready hflush.caravan hsteps
  obtain ⟨-, hprog⟩ := steps_progress hflush.ready hsteps
  refine ⟨p, hcall, hiovs, ?_⟩
  rcases steps_answering hd (by decide) hflush hsteps with hp | hdone
  · exact .inr ⟨hp, callsLeft_less (q := q.roomy.toSendQueue) hprog hp.request⟩
  · exact .inl hdone

theorem Answering.through {goal : List Byte} (hd : c.dataDigest = false)
    (hleg : i10HostLegacyPath c q = false) (ha : Answering c t goal q.toSendQueue)
    (hnow : q.sendNow = true → q.caravanIovs ≠ []) :
    ∃ q', Through c q q' ∧ q'.stream = goal := by
  induction hn : callsLeft t q.toSendQueue using Nat.strong_induction_on generalizing q with
  | _ n ih =>
    obtain ⟨p, heq, hiovs, hdone | ⟨hp, hless⟩⟩ := trySend_answering hd hleg ha hnow
    · have hnone : (nvmeTcpTrySend c q).2.request = none := by rw [heq]; exact hdone.request
      exact ⟨_, .done hnone, by rw [heq]; exact hdone.bytes⟩
    · have hsome : (nvmeTcpTrySend c q).2.request ≠ none := by
        rw [heq]
        exact fun hnone => by simp [hp.request] at hnone
      obtain ⟨q', hthrough, hstream⟩ := ih _ (hn ▸ hless)
        (q := { q with toSendQueue := p }) hleg hp (fun _ => hiovs) rfl
      rw [← heq] at hthrough
      exact ⟨q', .more hsome hthrough, hstream⟩

/-- What a request emits in answer to an R2T: its header, its walk, and their digests. -/
def emitted (c : Config) (r : NvmeTcpRequest) : List Byte :=
  hdrWire c 24 r ++ walk (dataStart r) ++ if c.dataDigest then c.crc (walk (dataStart r)) else []

theorem Turn.emits (hdig : c.dataDigest = true → LegacyQueue c) (h : Turn c t r q) (hr : Ready c r)
    (hs : r.state = .h2cPdu) (hw : r.rq.write = true) :
    ∃ q', Through c q q' ∧ q'.stream = q.stream ++ emitted c r := by
  have hself := h.self
  rcases h.path with ⟨hleg, hnil, hnow⟩ | ⟨hleg, hcar, hnow⟩
  · -- one call, and the caravan has nothing to do with it
    have hpath : i10HostLegacyPath c (taken c t q) = true :=
      (@legacyPath_iff c (taken c t q) h.prio).2 hleg
    obtain ⟨p, heq, hreq, hiovs, hsent⟩ := @trySendReq_direct c I10_MAX_AGGREGATION_SIZE t
      (taken c t q).roomy.toSendQueue rfl (hself ▸ hr) (hself ▸ hs)
    have hcall : (nvmeTcpTrySend c (taken c t q)).2 = { taken c t q with toSendQueue := p } := by
      have hflush : (taken c t q).roomy.sendNow = false := hnow
      have hpath' : i10HostLegacyPath c (taken c t q).roomy = true := hpath
      have hrequest : (taken c t q).roomy.request = some t := rfl
      rw [trySend_of_request (t := t) rfl, nvmeTcpTrySendRest, hpath', hflush]
      simp only [trySendRest, Bool.false_eq_true, if_false, hrequest, heq]
      rfl
    have hnone : (nvmeTcpTrySend c (taken c t q)).2.request = none := by rw [hcall]; exact hreq
    refine ⟨_, .of_eq h.trySend (.done hnone), ?_⟩
    have hiovs' : p.caravanIovs = [] := hiovs.trans hnil
    have hsent' : p.sent = q.sent ++ emitted c r := by
      rw [hsent]
      change q.sent ++ hdrWire c 24 (q.reqs t) ++ walk (dataStart (q.reqs t)) ++
        (if c.dataDigest = true then c.crc (walk (dataStart (q.reqs t))) else []) = _
      simp only [hself, emitted, List.append_assoc]
    rw [hcall]
    simp [SendQueue.stream, SendQueue.caravanBytes, hiovs', hnil, hsent']
  · have hd : c.dataDigest = false := by
      rw [Bool.eq_false_iff]
      exact fun hd => hleg (hdig hd)
    have hpath : i10HostLegacyPath c (taken c t q) = false := by
      rw [Bool.eq_false_iff]
      exact fun hp => hleg ((@legacyPath_iff c (taken c t q) h.prio).1 hp)
    have hans : Answering c t (q.stream ++ emitted c r) (taken c t q).toSendQueue := by
      refine ⟨rfl, hself ▸ hr, hself ▸ hw, .inl ⟨hself ▸ hs, h.notIn⟩, h.bufs,
        ⟨hcar.len, hcar.entry, hcar.mapped⟩, ?_⟩
      change q.stream ++ toGo c (q.reqs t) = _
      simp [hself, toGo_h2c hs, emitted, hd]
    obtain ⟨q', hthrough, hstream⟩ := hans.through hd hpath hnow
    exact ⟨q', hthrough.of_eq h.trySend, hstream⟩

/-! An R2T for nothing. -/

theorem Stuck.trySend (h : Stuck c t q.roomy.toSendQueue) :
    Stuck c t (nvmeTcpTrySend c q).2.toSendQueue := by
  rw [trySend_of_request (q := q) (t := t) h.request]
  exact h.trySendRest

theorem Stuck.not_through (h : Stuck c t q.roomy.toSendQueue) : ¬ Through c q q' := by
  intro hthrough
  induction hthrough with
  | done hnone =>
    rw [h.trySend.request] at hnone
    cases hnone
  | more hsome _ ih =>
    have hstuck := h.trySend
    exact ih (hstuck.of_same rfl hstuck.replies.symm rfl)

theorem Turn.not_through (h : Turn c t r q) (hs : r.state = .h2cPdu) (hoff : r.offset = 0)
    (hleft : r.pduLen = r.pduSent) : ¬ Through c q q' := by
  have hself := h.self
  have hstuck : Stuck c t (taken c t q).roomy.toSendQueue :=
    ⟨rfl, rfl, .inl ⟨hself ▸ hs, hself ▸ hoff⟩, hself ▸ hleft, h.bufs t⟩
  exact fun hthrough => hstuck.not_through (hthrough.of_eq h.trySend.symm)

/-! What is emitted and what is asked for. -/

theorem prepared_eq (h : Accepts r pdu) :
    prepared c r pdu =
      { r with
        pduLen := pdu.second.toNat
        pduSent := 0
        pdu := writeAt r.pdu 0
          (h2cPdu c { r with pduLen := pdu.second.toNat, pduSent := 0 } pdu.ttag).encode
        state := .h2cPdu
        offset := 0 } := by
  have hok : (nvmeTcpSetupH2cDataPdu c r pdu).1 = true := by rw [setupH2c_fst]; simpa using h
  rw [prepared, (setupH2c_accepted hok).2]

/-- The bytes the send loop takes for the next `n` bytes of the payload. -/
def walked (r : NvmeTcpRequest) (n : ℕ) : List Byte :=
  walk (dataStart { r with pduLen := n, pduSent := 0, offset := 0 })

theorem prepared_ready (hgood : ReqGood c r) (h : Accepts r pdu) (hne : pdu.second ≠ 0) :
    Ready c (prepared c r pdu) :=
  ready_setupH2c hgood (by rw [setupH2c_fst]; simpa using h) hne

theorem prepared_buf (hgood : ReqGood c r) (h : Accepts r pdu) :
    (prepared c r pdu).pdu.length = 72 + nvmeTcpHdgstLen c := by
  have hbuf := hgood.buf
  rw [prepared_eq h]
  dsimp only
  rw [writeAt_length, hbuf]
  rw [NvmeTcpXferPdu.encode_length]
  omega

theorem prepared_walk (h : Accepts r pdu) :
    walk (dataStart (prepared c r pdu)) = walked r pdu.second.toNat := by
  rw [prepared_eq h]
  exact walk_withHeader
    (writeAt r.pdu 0 (h2cPdu c { r with pduLen := pdu.second.toNat, pduSent := 0 } pdu.ttag).encode)
      .data
    (dataStart { r with pduLen := pdu.second.toNat, pduSent := 0, offset := 0 })

theorem walked_length (hgood : ReqGood c r) (hw : r.rq.write = true) (h : Accepts r pdu)
    (hne : pdu.second ≠ 0) :
    (walked r pdu.second.toNat).length = pdu.second.toNat := by
  have hready := prepared_ready hgood h hne
  have hst : (prepared c r pdu).state = .h2cPdu := rfl
  have hin := hready.inData_h2c hst (prepared c r pdu).pdu
  rw [← @prepared_walk c _ _ h]
  have hlen := walk_length hin (by rw [prepared_eq h]; exact hw)
  rw [prepared_eq h] at hlen ⊢
  exact hlen

theorem emitted_prepared (hgood : ReqGood c r) (hw : r.rq.write = true) (h : Accepts r pdu)
    (hne : pdu.second ≠ 0) :
    emitted c (prepared c r pdu) =
      wirePdu c (h2cPdu c { r with pduLen := pdu.second.toNat, pduSent := 0 } pdu.ttag).encode
        (walked r pdu.second.toNat) := by
  have hlen := walked_length hgood hw h hne
  have hpos := toNat_pos_of_ne hne
  have hdne : walked r pdu.second.toNat ≠ [] := List.ne_nil_of_length_pos (by omega)
  have h24 : ∀ p : NvmeTcpXferPdu, (writeAt r.pdu 0 p.encode).take 24 = p.encode := fun p => by
    conv_lhs => rw [← NvmeTcpXferPdu.encode_length p]
    exact take_writeAt_zero _ _
  have hwire : hdrWire c 24 (prepared c r pdu) =
      (h2cPdu c { r with pduLen := pdu.second.toNat, pduSent := 0 } pdu.ttag).encode ++
        if c.hdrDigest then
          c.crc (h2cPdu c { r with pduLen := pdu.second.toNat, pduSent := 0 } pdu.ttag).encode
        else [] := by
    rw [prepared_eq h, hdrWire]
    dsimp only
    rw [h24]
  rw [emitted, hwire, prepared_walk h, wirePdu]
  simp [hdne]

/-- Whole bios hold the bytes of the payload where the send loop looks for them. -/
theorem walked_whole (hgood : ReqGood c r) (hw : r.rq.write = true) (hsound : Sound r)
    (h : Accepts r pdu) (hne : pdu.second ≠ 0) :
    walked r pdu.second.toNat = (r.rq.data.drop r.dataSent).take pdu.second.toNat := by
  have hpos := toNat_pos_of_ne hne
  have hlen := h.1
  have hst : (prepared c r pdu).state = .h2cPdu := rfl
  have hin := (prepared_ready hgood h hne).inData_h2c hst (prepared c r pdu).pdu
  have hex : Exact { r with iter := if r.dataSent = 0 then r.initIter else r.iter } := by
    by_cases h0 : r.dataSent = 0
    · rw [if_pos h0]
      exact initIter_exact hgood (by omega) h0 (hsound.whole hw)
    · rw [if_neg h0]
      exact hsound.mid (by omega) (by omega)
  rw [prepared_eq h] at hin
  have hin' : InData (dataStart { r with pduLen := pdu.second.toNat, pduSent := 0, offset := 0 }) :=
    ⟨⟨hin.iter.ok, hin.iter.pos, hin.iter.later, hin.iter.enough⟩, hin.more, hin.room⟩
  have hwalk := walk_exact hin' hw (hgood.data_length (by omega)) ⟨hex.ahead, hex.cur, hex.rest⟩
  exact hwalk

theorem wantedPdu_eq (h : pdu.first.toNat = r.dataSent) :
    wantedPdu c r pdu = h2cPdu c { r with pduLen := pdu.second.toNat, pduSent := 0 } pdu.ttag := by
  simp [wantedPdu, h2cPdu, ← h]

theorem emitted_wanted_iff (hgood : ReqGood c r) (hw : r.rq.write = true) (hsound : Sound r)
    (h : Accepts r pdu) (hne : pdu.second ≠ 0) : emitted c (prepared c r pdu) = wanted c r pdu ↔
      pdu.first.toNat = r.dataSent := by
  have hwalk := walked_whole hgood hw hsound h hne
  have hsmall := r.rq.dataLen_small
  have hdl := hgood.len
  have hsent := hgood.sent
  rw [emitted_prepared hgood hw h hne, wanted]
  constructor
  · intro heq
    have hdec := congrArg (fun b => (NvmeTcpXferPdu.decode b).first) heq
    simp only [wirePdu, List.append_assoc, NvmeTcpXferPdu.decode_encode_append, h2cPdu,
      wantedPdu] at hdec
    rw [← hdec, toNat_ofNat_of_small (by omega)]
  · intro hfirst
    rw [wantedPdu_eq hfirst, hfirst, hwalk]

/-! The turn. -/

theorem trySends_nil (c : Config) (n : ℕ) (h : q.sendList = []) :
    (trySends c n q).sendList = [] := by
  induction n generalizing q with
  | zero => exact h
  | succ n ih =>
    rw [trySends_succ]
    refine ih ?_
    cases hreq : q.request with
    | some t => rw [trySend_list_of_request hreq, h]
    | none =>
      unfold nvmeTcpTrySend
      obtain ⟨t, hsome, -⟩ | ⟨t, rest, -, hlist, -⟩ | ⟨-, -, -, -, heq⟩ | ⟨-, -, -, heq⟩ :=
        trySendDequeue_cases c q
      · rw [hreq] at hsome
        cases hsome
      · rw [h] at hlist
        cases hlist
      · rw [heq]
        exact h
      · rw [heq]
        dsimp only
        split_ifs <;> exact h

theorem trySends_add (c : Config) (n m : ℕ) (q : NvmeTcpQueue) :
    trySends c (n + m) q = trySends c m (trySends c n q) := by
  rw [Nat.add_comm]
  exact Function.iterate_add_apply _ m n q

theorem turn_once {n m : ℕ} (hn : (trySends c n q).request = none ∧ (trySends c n q).sendList = [t])
    (hm : (trySends c m q).sendList = [t]) : m ≤ n := by
  by_contra hlt
  obtain ⟨k, rfl⟩ : ∃ k, m = n + (k + 1) := ⟨m - n - 1, by omega⟩
  have htail : (nvmeTcpTrySend c (trySends c n q)).2.sendList = [] := by
    rw [trySend_list_of_head hn.1 (by rw [hn.2]; rfl), hn.2]
    rfl
  rw [trySends_add, trySends_succ, trySends_nil c k htail] at hm
  cases hm

theorem Emits.of_turn {n : ℕ} {b : List Byte} (hturn : Turn c t r (trySends c n q)) :
    Emits c t q b ↔ ∃ q', Through c (trySends c n q) q' ∧
      q'.stream = (trySends c n q).stream ++ b := by
  constructor
  · rintro ⟨m, q', hm, hthrough, -, hstream⟩
    have heq : m = n := le_antisymm (turn_once ⟨hturn.idle, hturn.next⟩ hm.2)
      (turn_once hm hturn.next)
    exact ⟨q', heq ▸ hthrough, heq ▸ hstream⟩
  · rintro ⟨q', hthrough, hstream⟩
    refine ⟨n, q', ⟨hturn.idle, hturn.next⟩, hthrough, ?_, hstream⟩
    rw [hthrough.list, trySend_list_of_head hturn.idle (by rw [hturn.next]; rfl), hturn.next]
    rfl

def ahead (c : Config) (t : ℕ) (pdu : NvmeTcpR2tPdu) (q : NvmeTcpQueue) : NvmeTcpQueue :=
  { (q.nvmeTcpHandleR2t c t pdu).2 with sendList := q.sendList }

theorem handleR2t_behind (h : Accepts (q.reqs t) pdu) :
    (q.nvmeTcpHandleR2t c t pdu).2 = (ahead c t pdu q).behind [t] := by
  obtain ⟨-, -, hlist, -⟩ := @handleR2t_accepted c t pdu q h
  unfold ahead NvmeTcpQueue.behind
  rw [← hlist]

theorem prepared_sound (hsound : Sound r) (hw : r.rq.write = true) : Sound (prepared c r pdu) :=
  sound_setupH2c hsound hw pdu

theorem Sendable.good (h : Sendable c q) (u : ℕ) : ReqGood c (q.reqs u) := by
  rcases h.path with ⟨-, hq⟩ | ⟨-, hq⟩
  · exact hq.good u
  · exact hq.good u

theorem prepared_good (hgood : ReqGood c r) (h : Accepts r pdu) : ReqGood c (prepared c r pdu) := by
  refine ⟨prepared_buf hgood h, ?_, ?_, ?_, ?_⟩ <;> rw [prepared_eq h]
  · exact hgood.len
  · exact hgood.sent
  · exact hgood.first
  · intro h0 hlt
    obtain ⟨h1, h2, h3, h4⟩ := hgood.more h0 hlt
    exact ⟨h1, h2, h3, h4⟩

theorem Sendable.ahead (hq : Sendable c q) (hu : Unused q t) (hw : (q.reqs t).rq.write = true)
    (h : Accepts (q.reqs t) pdu) : Sendable c (ahead c t pdu q) := by
  obtain ⟨-, hsq, -, hprio⟩ := @handleR2t_accepted c t pdu q h
  have hgood := @prepared_good c pdu _ (hq.good t) h
  have hsound : Sound (prepared c (q.reqs t) pdu) := prepared_sound (hq.streams.sound t) hw
  have hs := hq.streams.replace hu hsound
  have hsq' : (Host.ahead c t pdu q).toSendQueue = q.modifyReq t fun _ =>
    prepared c (q.reqs t) pdu := hsq
  have hprio' : (Host.ahead c t pdu q).prioClass = if c.qid ≤ c.numOnlineCpus then 0 else 1 := hprio
  refine ⟨⟨?_, ?_, ?_⟩, ?_⟩
  · rw [hsq']; exact hs.sound
  · rw [hsq']; exact hs.active
  · rw [hsq']; exact hs.waiting
  · rcases hq.path with ⟨hc, hok⟩ | ⟨hc, hok⟩
    · refine .inl ⟨hc, (hok.replace hu hgood).of_eq hsq' rfl ?_⟩
      rw [hprio', if_pos hc.cpu]
      exact hok.prio.symm
    · refine .inr ⟨hc, (hok.toListOk.replace hu hgood).of_eq (by rw [hsq']) (by rw [hsq']) rfl,
        fun _ => ?_, ?_⟩
      · exact (legacyPath_iff hprio').2 hc
      · rw [hsq']
        exact hok.empty

theorem turn_of_sendable (hq : Sendable c q) (hself : q.reqs t = r) (hreq : q.request = none)
    (hlist : q.sendList = []) (hnot : NotIn q.toSendQueue t)
    (hprio : q.prioClass = if c.qid ≤ c.numOnlineCpus then 0 else 1) :
    Turn c t r (q.behind [t]) := by
  have hbufs : ∀ u, (q.reqs u).pdu.length = 72 + nvmeTcpHdgstLen c := fun u => (hq.good u).buf
  have hnext : (q.behind [t]).sendList = [t] := by simp [NvmeTcpQueue.behind, hlist]
  refine ⟨hself, hreq, hnext, hnot, hbufs, hprio, ?_⟩
  rcases hq.path with ⟨hc, hok⟩ | ⟨hc, hok⟩
  · refine .inr ⟨fun hleg => ?_, hok.caravan, hok.now⟩
    have hpath := (legacyPath_iff hprio).2 hleg
    rw [hc.legacy hok.prio] at hpath
    cases hpath
  · exact .inl ⟨hc, hok.empty.1, hok.empty.2.2⟩

/-- The calls bring the request to its turn, as it was prepared. -/
theorem turn_comes (hq : Sendable c q) (hu : Unused q t) (hw : (q.reqs t).rq.write = true)
    (hdig : c.dataDigest = true → q.request = none ∧ q.sendList = []) (h : Accepts (q.reqs t) pdu) :
    ∃ n, Turn c t (prepared c (q.reqs t) pdu) (trySends c n (q.nvmeTcpHandleR2t c t pdu).2) := by
  obtain ⟨-, hsq, -, hprio⟩ := @handleR2t_accepted c t pdu q h
  have hself : (ahead c t pdu q).reqs t = prepared c (q.reqs t) pdu := by
    change (q.nvmeTcpHandleR2t c t pdu).2.reqs t = _
    rw [hsq, modifyReq_reqs_self]
  have hnot : NotIn (ahead c t pdu q).toSendQueue t := by
    change NotIn (q.nvmeTcpHandleR2t c t pdu).2.toSendQueue t
    rw [hsq]
    exact hu.2.2
  have hreq : (ahead c t pdu q).request = q.request := by
    change (q.nvmeTcpHandleR2t c t pdu).2.request = _
    rw [hsq]
    rfl
  have hok := hq.ahead hu hw h
  rw [handleR2t_behind h]
  by_cases hd : c.dataDigest = true
  · obtain ⟨hnone, hlist⟩ := hdig hd
    exact ⟨0, turn_of_sendable hok hself (hreq.trans hnone) hlist hnot hprio⟩
  · obtain ⟨n, q', hrun, hnone, hlist, hok', hprio', hapart⟩ := hok.drains (by simpa using hd)
    obtain ⟨hreqs, hnot'⟩ := hapart t ⟨hu.1, by rw [hreq]; exact hu.2.1⟩
    refine ⟨n, ?_⟩
    rw [hrun]
    exact turn_of_sendable hok' (hreqs.trans hself) hnone hlist (hnot' hnot) (hprio'.trans hprio)

/-! The answer. -/

theorem answered_of_refused (h : ¬ Accepts (q.reqs t) pdu) :
    R2tAnswered c t pdu q ↔ (q.reqs t).pduLen = pdu.second.toNat ∧ (q.reqs t).pduSent = 0 := by
  rw [R2tAnswered, handleR2t_refused h]
  dsimp only
  rw [modifyReq_reqs_self]
  constructor
  · rintro (⟨-, hfields, -, -⟩ | ⟨htrue, -, -⟩)
    · simp only [sendFields, Prod.mk.injEq] at hfields
      exact ⟨hfields.1.symm, hfields.2.1.symm⟩
    · cases htrue
  · rintro ⟨hlen, hsent⟩
    exact .inl ⟨rfl, by simp [sendFields, hlen, hsent], rfl, rfl⟩

theorem not_emits_of_zero {n : ℕ} {p : NvmeTcpQueue} {b : List Byte} (h : Accepts r pdu)
    (h0 : pdu.second = 0) (hturn : Turn c t (prepared c r pdu) (trySends c n p)) :
    ¬ Emits c t p b := by
  rw [Emits.of_turn hturn]
  rintro ⟨q', hthrough, -⟩
  refine hturn.not_through rfl rfl ?_ hthrough
  rw [prepared_eq h]
  simp [h0]

/-- What is emitted is what the send loop makes of the request. -/
theorem emits_iff {n : ℕ} {p : NvmeTcpQueue} {b : List Byte} (hgood : ReqGood c r)
    (hw : r.rq.write = true) (hdig : c.dataDigest = true → LegacyQueue c) (h : Accepts r pdu)
    (hne : pdu.second ≠ 0) (hturn : Turn c t (prepared c r pdu) (trySends c n p)) : Emits c t p b ↔
      emitted c (prepared c r pdu) = b := by
  have hwrite : (prepared c r pdu).rq.write = true := by rw [prepared_eq h]; exact hw
  obtain ⟨q₂, hthrough, hstream⟩ := hturn.emits hdig (prepared_ready hgood h hne) rfl hwrite
  rw [Emits.of_turn hturn]
  constructor
  · rintro ⟨q₃, hthrough', hstream'⟩
    -- the calls leave no choice
    rw [hthrough.unique hthrough', hstream'] at hstream
    exact (List.append_cancel_left hstream).symm
  · rintro rfl
    exact ⟨q₂, hthrough, hstream⟩

theorem answered_of_accepted (h : Accepts (q.reqs t) pdu) :
    R2tAnswered c t pdu q ↔ Emits c t (q.nvmeTcpHandleR2t c t pdu).2 (wanted c (q.reqs t) pdu) := by
  obtain ⟨hfst, -, hlist, -⟩ := @handleR2t_accepted c t pdu q h
  unfold R2tAnswered
  simp [hfst, hlist]

section Sample

/-- A write is submitted, and its command leaves with the next caravan. -/
def sentRun (rq : Rq) : List HostEvent :=
  [.queueRq 0 rq, .requestUnlocked 0, .doorbellTimeout, .workStart .thru, .sendDequeue .thru,
    .sendRest .thru false [], .tryRecv .thru false false, .sendDequeue .thru,
    .sendRest .thru false []]

def sentLegacyRun : List HostEvent :=
  [.queueRq 0 sampleWrite, .requestUnlocked 0, .workStart .thru, .sendDequeue .thru,
    .sendRest .thru false []]

theorem r2tConfig_thru : Thru r2tConfig := ⟨by decide, by decide, by decide⟩

def digestConfig : Config := { r2tConfig with dataDigest := true, crc := fun _ => [1, 2, 3, 4] }

/-- One call ends the request, and the stream is not what was asked for. -/
def Misses (c : Config) (pdu : NvmeTcpR2tPdu) (q : NvmeTcpQueue) : Prop :=
  let p := (q.nvmeTcpHandleR2t c 0 pdu).2
  Accepts (q.reqs 0) pdu ∧ (p.request = none ∧ p.sendList = [0]) ∧
    (nvmeTcpTrySend c p).2.request = none ∧
    (nvmeTcpTrySend c p).2.stream ≠ p.stream ++ wanted c (q.reqs 0) pdu

instance (c : Config) (pdu : NvmeTcpR2tPdu) (q : NvmeTcpQueue) : Decidable (Misses c pdu q) :=
  inferInstanceAs (Decidable (_ ∧ _ ∧ _ ∧ _))

theorem Misses.not_answered (h : Misses c pdu q) : ¬ R2tAnswered c 0 pdu q := by
  obtain ⟨hacc, hidle, hend, hstream⟩ := h
  rw [answered_of_accepted hacc]
  rintro ⟨n, q', hn, hthrough, -, hans⟩
  obtain rfl : n = 0 := Nat.le_zero.1 (turn_once (n := 0) hidle hn.2)
  change Through c (q.nvmeTcpHandleR2t c 0 pdu).2 q' at hthrough
  cases hthrough with
  | done _ => exact hstream hans
  | more hsome _ => exact hsome hend

end Sample

end BlkSwitch.Host
