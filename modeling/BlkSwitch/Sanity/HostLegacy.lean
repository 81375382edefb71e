import BlkSwitch.Sanity.HostQueue
import BlkSwitch.Sanity.HostStream

/-! The legacy path of `nvme_tcp_try_send`: headers and chunks go straight to the socket, which
may take any part of them or tell the caller to come back. Nothing is ever in the caravan. -/

namespace BlkSwitch.Host

open Bytes SendQueue

/-- A queue all of whose requests take the legacy path. -/
def LegacyQueue (c : Config) : Prop :=
  c.qid = 0 ∨ c.i10DelayedDoorbellUs < I10_MIN_DOORBELL_TIMEOUT ∨ c.numOnlineCpus < c.qid

/-- A header of which a part may be through; its digest is then in place. -/
def HdrReady (c : Config) (size : ℕ) (r : NvmeTcpRequest) : Prop :=
  r.offset < size + nvmeTcpHdgstLen c ∧
    (r.offset ≠ 0 → r.pdu.take (size + nvmeTcpHdgstLen c) = hdrWire c size r)

def LegacyReady (c : Config) (r : NvmeTcpRequest) : Prop :=
  ReqGood c r ∧
    match r.state with
    | .cmdPdu => HdrReady c 72 r ∧ r.pduSent = 0 ∧ r.dataSent = 0 ∧
        (r.hasInlineData c = true → r.pduLen = r.dataLen)
    | .h2cPdu => HdrReady c 24 r ∧ r.pduSent = 0 ∧ 0 < r.pduLen ∧ r.dataSent + r.pduLen ≤ r.dataLen
    | .data => InData r
    | .ddgst => False

structure LegacyIn (c : Config) (t : ℕ) (q : SendQueue) : Prop where
  request : q.request = some t
  ready : LegacyReady c (q.reqs t)
  sound : Sound (q.reqs t)
  exact : (q.reqs t).state = .data → Exact (q.reqs t)
  polite : Polite q.replies

/-- What a call does: a piece of what is left goes to the socket. -/
structure Sends (c : Config) (t : ℕ) (q q' : SendQueue) : Prop where
  others : ∀ u, u ≠ t → q'.reqs u = q.reqs u
  iovs : q'.caravanIovs = q.caravanIovs
  len : q'.caravanLen = q.caravanLen
  sendNow : q'.sendNow = q.sendNow
  space : q.replies = [] → q'.replies = []
  stream : ∃ x, q'.sent = q.sent ++ x ∧ requestRest c q = x ++ requestRest c q'

structure LegacyDone (c : Config) (t : ℕ) (q : SendQueue) : Prop where
  request : q.request = none
  good : ReqGood c (q.reqs t)
  sound : Sound (q.reqs t)
  state : (q.reqs t).state ≠ .ddgst

variable {c : Config} {aggr t : ℕ} {q q' : SendQueue}

theorem Ready.legacy {r : NvmeTcpRequest} (h : Ready c r) : LegacyReady c r := by
  obtain ⟨hgood, hst⟩ := h
  refine ⟨hgood, ?_⟩
  cases hs : r.state with
  | cmdPdu =>
    simp only [hs] at hst ⊢
    exact ⟨⟨by omega, fun hne => absurd hst.1 hne⟩, hst.2⟩
  | h2cPdu =>
    simp only [hs] at hst ⊢
    exact ⟨⟨by omega, fun hne => absurd hst.1 hne⟩, hst.2⟩
  | data => simpa only [hs] using hst
  | ddgst => simp only [hs] at hst

theorem Sends.trans {q₁ q₂ q₃ : SendQueue} (h : Sends c t q₁ q₂) (h' : Sends c t q₂ q₃) :
    Sends c t q₁ q₃ := by
  obtain ⟨x, hx, hr⟩ := h.stream
  obtain ⟨x', hx', hr'⟩ := h'.stream
  exact ⟨fun u hu => (h'.others u hu).trans (h.others u hu), h'.iovs.trans h.iovs,
    h'.len.trans h.len, h'.sendNow.trans h.sendNow, fun hrep => h'.space (h.space hrep),
    x ++ x', by rw [hx', hx, List.append_assoc], by rw [hr, hr', List.append_assoc]⟩

theorem kernelSend_polite (hp : Polite q.replies) {b : List Byte} (hb : b ≠ []) :
    ∃ n rs, Polite rs ∧ n ≤ b.length ∧
      ∃ ret : ℤ, q.kernelSend b = (ret, { q with sent := q.sent ++ b.take n, replies := rs }) ∧
        (n = 0 ∧ (ret = 0 ∨ ret = -EAGAIN) ∨ 0 < n ∧ ret = n) ∧
          (q.replies = [] → n = b.length ∧ rs = []) := by
  have hpos : 0 < b.length := List.length_pos_iff.2 hb
  cases hr : q.replies with
  | nil => exact ⟨b.length,
    [], by simp [Polite], le_rfl, b.length, by simp [kernelSend, hr], .inr ⟨hpos, rfl⟩,
      fun _ => ⟨rfl, rfl⟩⟩
  | cons x rs =>
    have hsome : x :: rs = [] → ∀ n : ℕ, n = b.length ∧ rs = [] :=
      fun h => absurd h (List.cons_ne_nil x rs)
    have hrs : Polite rs := fun y hmem => hp y (by rw [hr]; exact List.mem_cons_of_mem _ hmem)
    cases x with
    | all =>
      exact ⟨b.length, rs, hrs, le_rfl,
        b.length, by simp [kernelSend, hr], .inr ⟨hpos, rfl⟩, fun h => hsome h _⟩
    | ret r =>
      by_cases h0 : r ≤ 0
      · refine ⟨0, rs, hrs, Nat.zero_le _, r, by simp [kernelSend, hr, h0], .inl ⟨rfl, ?_⟩,
          fun h => hsome h _⟩
        have hx := hp (.ret r) (by simp [hr])
        rcases (by simpa [isPolite] using hx : 0 ≤ r ∨ r = -EAGAIN) with hr0 | hr0
        · exact .inl (by omega)
        · exact .inr hr0
      · refine ⟨min r.toNat b.length, rs, hrs, Nat.min_le_right _ _, min r.toNat b.length,
          by simp [kernelSend, hr, h0], .inr ⟨by omega, by simp⟩, fun h => hsome h _⟩

/-! Headers. -/

/-- The header buffer while the header is on its way: the digest is written when it starts. -/
def legacyBuf (c : Config) (size : ℕ) (r : NvmeTcpRequest) : List Byte :=
  if r.offset = 0 then hdrBuf c size r else r.pdu

theorem legacyBuf_take {size : ℕ} {r : NvmeTcpRequest} (h : HdrReady c size r)
    (hsize : size ≤ r.pdu.length) :
    (legacyBuf c size r).take (size + nvmeTcpHdgstLen c) = hdrWire c size r := by
  unfold legacyBuf
  split_ifs with h0
  · exact hdrBuf_take hsize
  · exact h.2 h0

theorem legacyBuf_take_size {size : ℕ} {r : NvmeTcpRequest} (hsize : size ≤ r.pdu.length) :
    (legacyBuf c size r).take size = r.pdu.take size := by
  unfold legacyBuf
  split_ifs
  · exact hdrBuf_take_size hsize
  · rfl

theorem hdrWire_legacyBuf {size : ℕ} {r r' : NvmeTcpRequest} (hsize : size ≤ r.pdu.length)
    (hr' : r'.pdu = legacyBuf c size r) : hdrWire c size r' = hdrWire c size r := by
  unfold hdrWire
  rw [hr', legacyBuf_take_size hsize]

theorem hdrWire_length {size : ℕ} {r : NvmeTcpRequest} (hsize : size ≤ r.pdu.length) :
    (hdrWire c size r).length = size + nvmeTcpHdgstLen c := by
  unfold hdrWire nvmeTcpHdgstLen
  split_ifs <;> simp [c.crc_length, hsize]

def hdrMoved (c : Config) (size n : ℕ) (r : NvmeTcpRequest) : NvmeTcpRequest :=
  { r with pdu := legacyBuf c size r, offset := r.offset + n }

theorem hdrMoved_good {size n : ℕ} (hsize : size ≤ 72) {r : NvmeTcpRequest} (h : ReqGood c r) :
    ReqGood c (hdrMoved c size n r) := by
  have hbuf : (legacyBuf c size r).length = 72 + nvmeTcpHdgstLen c := by
    unfold legacyBuf
    split_ifs
    · exact hdrBuf_length h.buf hsize
    · exact h.buf
  refine ⟨hbuf, h.len, h.sent, h.first, fun h0 hlt => ?_⟩
  obtain ⟨h1, h2, h3, h4⟩ := h.more h0 hlt
  exact ⟨h1, h2, h3, h4⟩

theorem hdrMoved_sound {size n : ℕ} {r : NvmeTcpRequest} (h : Sound r) :
    Sound (hdrMoved c size n r) := by
  refine ⟨h.write, h.whole, fun h0 hlt => ?_⟩
  obtain ⟨h1, h2, h3⟩ := h.mid h0 hlt
  exact ⟨h1, h2, h3⟩

theorem hdrMoved_hdrReady {size n : ℕ} {r : NvmeTcpRequest} (h : HdrReady c size r)
    (hsize : size ≤ r.pdu.length) (hn : r.offset + n < size + nvmeTcpHdgstLen c) :
    HdrReady c size (hdrMoved c size n r) :=
  ⟨hn, fun _ => (legacyBuf_take h hsize).trans (hdrWire_legacyBuf hsize rfl).symm⟩

theorem remainder_hdrMoved {size n : ℕ} {r : NvmeTcpRequest} (hsize : size ≤ r.pdu.length)
    (hst : size = 72 ∧ r.state = .cmdPdu ∨ size = 24 ∧ r.state = .h2cPdu)
    (hn : r.offset + n ≤ size + nvmeTcpHdgstLen c) :
    remainder c r = ((hdrWire c size r).drop r.offset).take n ++ remainder c
      (hdrMoved c size n r) := by
  have hwire : ∀ r' : NvmeTcpRequest, r'.pdu = legacyBuf c size r →
      hdrWire c size r' = hdrWire c size r :=
    fun r' => hdrWire_legacyBuf hsize
  have hsplit := List.take_append_drop n ((hdrWire c size r).drop r.offset)
  rw [List.drop_drop] at hsplit
  have hoff : (hdrMoved c size n r).offset = r.offset + n := rfl
  rcases hst with ⟨rfl, hs⟩ | ⟨rfl, hs⟩
  · have hs' : (hdrMoved c 72 n r).state = .cmdPdu := hs
    simp only [remainder, hs, hs']
    rw [hwire (hdrMoved c 72 n r) rfl, hoff, ← List.append_assoc, hsplit]
    rfl
  · have hs' : (hdrMoved c 24 n r).state = .h2cPdu := hs
    simp only [remainder, hs, hs']
    rw [hwire (hdrMoved c 24 n r) rfl, hoff, ← List.append_assoc, hsplit]
    rfl

theorem legacyReady_hdr {size : ℕ} {r : NvmeTcpRequest} (h : LegacyReady c r)
    (hst : size = 72 ∧ r.state = .cmdPdu ∨ size = 24 ∧ r.state = .h2cPdu) : HdrReady c size r := by
  have hr := h.2
  rcases hst with ⟨rfl, hs⟩ | ⟨rfl, hs⟩ <;> simp only [hs] at hr <;> exact hr.1

theorem hdrMoved_ready {size n : ℕ} {r : NvmeTcpRequest} (h : LegacyReady c r)
    (hst : size = 72 ∧ r.state = .cmdPdu ∨ size = 24 ∧ r.state = .h2cPdu)
    (hn : r.offset + n < size + nvmeTcpHdgstLen c) : LegacyReady c (hdrMoved c size n r) := by
  have hbuf := h.1.buf
  have hhdr := hdrMoved_hdrReady (legacyReady_hdr h hst) (by omega) hn
  have hr := h.2
  refine ⟨hdrMoved_good (by omega) h.1, ?_⟩
  rcases hst with ⟨rfl, hs⟩ | ⟨rfl, hs⟩
  · have hs' : (hdrMoved c 72 n r).state = .cmdPdu := hs
    simp only [hs, hs'] at hr ⊢
    exact ⟨hhdr, hr.2⟩
  · have hs' : (hdrMoved c 24 n r).state = .h2cPdu := hs
    simp only [hs, hs'] at hr ⊢
    exact ⟨hhdr, hr.2⟩

/-- The queue as the header functions hand it to the socket. -/
def hdrStarted (c : Config) (t size : ℕ) (q : SendQueue) : SendQueue :=
  if c.hdrDigest ∧ (q.reqs t).offset = 0 then q.modifyReq t (nvmeTcpHdgst c size) else q

theorem hdrStarted_reqs_self (c : Config) (t size : ℕ) (q : SendQueue) :
    (hdrStarted c t size q).reqs t = hdrMoved c size 0 (q.reqs t) := by
  unfold hdrStarted hdrMoved legacyBuf hdrBuf
  by_cases hd : c.hdrDigest = true
  · by_cases h0 : (q.reqs t).offset = 0 <;> simp [hd, h0, nvmeTcpHdgst]
  · simp [hd]

theorem frame_hdrStarted (c : Config) (t size : ℕ) (q : SendQueue) :
    Frame t q (hdrStarted c t size q) := by
  unfold hdrStarted
  split_ifs
  · exact frame_modifyReq q rfl
  · exact .refl t q

theorem sends_hdr {size n : ℕ} {rs : List SockReply} (h : LegacyIn c t q)
    (hst : size = 72 ∧ (q.reqs t).state = .cmdPdu ∨ size = 24 ∧ (q.reqs t).state = .h2cPdu)
    (hn : (q.reqs t).offset + n < size + nvmeTcpHdgstLen c) (hrs : Polite rs)
    (hspace : q.replies = [] → rs = []) {q₁ : SendQueue}
    (hself : q₁.reqs t = hdrMoved c size n (q.reqs t)) (hother : ∀ u, u ≠ t → q₁.reqs u = q.reqs u)
    (hreq : q₁.request = q.request) (hiovs : q₁.caravanIovs = q.caravanIovs)
    (hlen : q₁.caravanLen = q.caravanLen) (hnow : q₁.sendNow = q.sendNow) (hrep : q₁.replies = rs)
    (hsent : q₁.sent = q.sent ++ ((hdrWire c size (q.reqs t)).drop (q.reqs t).offset).take n) :
    LegacyIn c t q₁ ∧ Sends c t q q₁ := by
  have hbuf := h.ready.1.buf
  have hst₁ : (q₁.reqs t).state = (q.reqs t).state := by rw [hself]; rfl
  refine ⟨⟨hreq.trans h.request, ?_, ?_, ?_, by rw [hrep]; exact hrs⟩, hother, hiovs, hlen, hnow,
    fun h => hrep.trans (hspace h), _, hsent, ?_⟩
  · rw [hself]; exact hdrMoved_ready h.ready hst hn
  · rw [hself]; exact hdrMoved_sound h.sound
  · intro hdata
    rw [hst₁] at hdata
    rcases hst with ⟨-, hs⟩ | ⟨-, hs⟩ <;> rw [hs] at hdata <;> cases hdata
  · simp only [requestRest, hreq, h.request, hself]
    exact remainder_hdrMoved (by omega) hst hn.le

/-- The header functions: a part of the header goes and they stop, or the rest of it goes. -/
theorem trySendHdr_legacy {size : ℕ} (h : LegacyIn c t q)
    (hst : size = 72 ∧ (q.reqs t).state = .cmdPdu ∨ size = 24 ∧ (q.reqs t).state = .h2cPdu)
    (sendNow : Bool) (done : SendQueue → SendQueue) :
    (∃ ret q₁, trySendHdr c aggr true t size sendNow done q = (ret, q₁) ∧
      (ret = 0 ∨ ret = -EAGAIN) ∧ q.replies ≠ [] ∧ LegacyIn c t q₁ ∧ Sends c t q q₁) ∨
    (∃ rs, Polite rs ∧ (q.replies = [] → rs = []) ∧ trySendHdr c aggr true t size sendNow done q =
      (1, done { hdrStarted c t size q with
        sent := q.sent ++ (hdrWire c size (q.reqs t)).drop (q.reqs t).offset, replies :=
          rs })) := by
  have hbuf := h.ready.1.buf
  have hhdr := legacyReady_hdr h.ready hst
  have hframe := frame_hdrStarted c t size q
  have hself := hdrStarted_reqs_self c t size q
  have hsame : (hdrStarted c t size q).sent = q.sent ∧ (hdrStarted c t size q).request = q.request ∧
      (hdrStarted c t size q).caravanIovs = q.caravanIovs ∧
      (hdrStarted c t size q).caravanLen = q.caravanLen ∧
        (hdrStarted c t size q).sendNow = q.sendNow := by
    unfold hdrStarted
    split_ifs <;> exact ⟨rfl, rfl, rfl, rfl, rfl⟩
  obtain ⟨hsent, hreq, hiovs, hlen, hnow⟩ := hsame
  set off := (q.reqs t).offset with hoff
  set b := (hdrWire c size (q.reqs t)).drop off with hb
  have hblen : b.length = size + nvmeTcpHdgstLen c - off := by
    rw [hb, List.length_drop, hdrWire_length (by omega)]
  have hbytes : Kvec.bytes (hdrStarted c t size q).reqs
      ⟨.pdu t off, size + nvmeTcpHdgstLen c - off⟩ = b := by
    simp only [Kvec.bytes, hself, hdrMoved]
    rw [hb, ← legacyBuf_take hhdr (by omega), List.drop_take]
  have hbne : b ≠ [] := List.ne_nil_of_length_pos (by have := hhdr.1; omega)
  obtain ⟨n, rs, hrs, hn, ret, hsend, hret, hall'⟩ := kernelSend_polite (q := hdrStarted c t size q)
    (by rw [hframe.replies]; exact h.polite) hbne
  rw [hframe.replies] at hall'
  have hspace : q.replies = [] → rs = [] := fun hrep => (hall' hrep).2
  have hblen0 : 0 < b.length := List.length_pos_iff.2 hbne
  have heq : trySendHdr c aggr true t size sendNow done q =
      if ret ≤ 0 then (ret,
        { hdrStarted c t size q with sent := q.sent ++ b.take n, replies := rs })
      else if size + nvmeTcpHdgstLen c - off - ret.toNat = 0 then
        (1, done { hdrStarted c t size q with sent := q.sent ++ b.take n, replies := rs })
      else (-EAGAIN, SendQueue.modifyReq
        { hdrStarted c t size q with sent := q.sent ++ b.take n, replies := rs } t
        fun r => { r with offset := r.offset + ret.toNat }) := by
    rw [hsent] at hsend
    unfold trySendHdr
    simp only [← hoff]
    rw [show (if c.hdrDigest = true ∧ off = 0 then q.modifyReq t (nvmeTcpHdgst c size) else q) =
      hdrStarted c t size q from rfl]
    simp only [emit, if_true, hbytes, hsend]
    rfl
  rcases hret with ⟨rfl, hret⟩ | ⟨hpos, rfl⟩
  · refine .inl ⟨ret, _, by rw [heq, if_pos (by rcases hret with rfl | rfl <;> decide)], hret,
      fun hrep => by have := (hall' hrep).1; omega, ?_⟩
    exact sends_hdr (n := 0) h hst hhdr.1 hrs hspace hself hframe.others hreq hiovs hlen hnow rfl
      rfl
  · have hnpos : ¬ ((n : ℤ) ≤ 0) := by omega
    by_cases hall : n = b.length
    · refine .inr ⟨rs, hrs, hspace, ?_⟩
      rw [heq, if_neg hnpos, if_pos (by simp; omega), hall, List.take_length]
    · refine .inl ⟨-EAGAIN, _, by rw [heq, if_neg hnpos, if_neg (by simp; omega)], .inr rfl,
        fun hrep => hall (hall' hrep).1, ?_⟩
      refine sends_hdr (n := n) h hst (by omega) hrs hspace ?_ ?_ hreq hiovs hlen hnow rfl rfl
      · simp [hself, hdrMoved]
      · intro u hu
        simp [hu, hframe.others u hu]

/-! Data. -/

theorem sends_chunk {n : ℕ} {rs : List SockReply} (h : LegacyIn c t q)
    (hs : (q.reqs t).state = .data) (hn : n ≤ (q.reqs t).reqCurLength)
    (hmore : (q.reqs t).pduSent + n < (q.reqs t).pduLen) (hpos : 0 < n) (hrs : Polite rs)
    (hspace : q.replies = [] → rs = []) :
    let q₁ : SendQueue := { q with
      reqs := Function.update q.reqs t ((q.reqs t).advanceReq n)
      sent := q.sent ++ ((q.reqs t).reqCurBvec.data.drop (q.reqs t).iter.iovOffset).take n
      replies := rs }
    LegacyIn c t q₁ ∧ Sends c t q q₁ := by
  have hin : InData (q.reqs t) := by simpa only [hs] using h.ready.2
  have hex := h.exact hs
  have hroom := hin.room
  have hpm := hin.more
  have hdl := h.ready.1.data_length (by omega)
  obtain ⟨hrq, hlen, hds, hpl, hps, hst, hpdu⟩ := advanceReq_fields (q.reqs t) n
  have hgood := h.ready.1
  have hiter := (advanceReq_ahead hin.iter (n := n) (by omega)).2
  have hgood' : ReqGood c ((q.reqs t).advanceReq n) := by
    refine ⟨by rw [hpdu]; exact hgood.buf, by rw [hrq, hlen]; exact hgood.len, by omega,
      fun h0 => ?_, fun _ _ => hiter⟩
    omega
  intro q₁
  have hself : q₁.reqs t = (q.reqs t).advanceReq n := by simp [q₁]
  refine ⟨⟨h.request, ?_, ?_, fun _ => ?_, hrs⟩,
    fun u hu => by simp [q₁, hu], rfl, rfl, rfl, hspace, _, rfl, ?_⟩
  · rw [hself]
    refine ⟨hgood', ?_⟩
    simp only [hst, hs]
    exact ⟨hiter, by omega, by omega⟩
  · rw [hself]; exact h.sound.advanceReq hgood hin hex hn
  · rw [hself]; exact hex.advanceReq hin hdl hn (by omega)
  · have hreq₁ : q₁.request = some t := h.request
    simp only [requestRest, h.request, hreq₁, hself]
    exact (remainder_advanceReq hgood hin hex hs hn).symm

/-- How a stage of the legacy path ends: interrupted by the socket, or with the request through. -/
def StageEnd (c : Config) (t : ℕ) (q : SendQueue) (ret : ℤ) (q' : SendQueue) : Prop :=
  (ret = 0 ∨ ret = -EAGAIN) ∧ q.replies ≠ [] ∧ LegacyIn c t q' ∨ ret = 1 ∧ LegacyDone c t q'

theorem Sends.stageEnd {q₁ : SendQueue} {ret : ℤ} (h : Sends c t q q₁)
    (hend : StageEnd c t q₁ ret q') :
    StageEnd c t q ret q' :=
  hend.imp_left fun ⟨hret, hrep, hin⟩ => ⟨hret, fun hnil => hrep (h.space hnil), hin⟩

theorem sends_last {rs : List SockReply} (hspace : q.replies = [] → rs = []) (h : LegacyIn c t q)
    (hs : (q.reqs t).state = .data) (hl : (q.reqs t).pduLastSend (q.reqs t).reqCurLength = true) :
    let q₁ : SendQueue := { q with
      reqs := Function.update q.reqs t ((q.reqs t).advanceReq (q.reqs t).reqCurLength)
      request := none
      sent := q.sent ++ ((q.reqs t).reqCurBvec.data.drop (q.reqs t).iter.iovOffset).take
        (q.reqs t).reqCurLength
      replies := rs }
    LegacyDone c t q₁ ∧ Sends c t q q₁ := by
  have hin : InData (q.reqs t) := by simpa only [hs] using h.ready.2
  have hex := h.exact hs
  have hwrite := h.sound.write (by rw [hs]; decide)
  intro q₁
  have hself : q₁.reqs t = (q.reqs t).advanceReq (q.reqs t).reqCurLength := by simp [q₁]
  refine ⟨⟨rfl, ?_, ?_, ?_⟩, fun u hu => by simp [q₁, hu], rfl, rfl, rfl, hspace, _, rfl, ?_⟩
  · rw [hself]; exact h.ready.1.advanceReq hin
  · rw [hself]; exact h.sound.advanceReq h.ready.1 hin hex le_rfl
  · rw [hself, (advanceReq_fields _ _).2.2.2.2.2.1, hs]; decide
  · have hrest := remainder_advanceReq h.ready.1 hin hex hs le_rfl
    rw [remainder_last hin hwrite hs hl, List.append_nil] at hrest
    simp only [requestRest, h.request, ← hrest, q₁, List.append_nil]

theorem trySendDataLoop_legacy (hd : c.dataDigest = false) :
    ∀ (fuel : ℕ) (q : SendQueue), LegacyIn c t q → (q.reqs t).state = .data →
      (q.reqs t).pduLen - (q.reqs t).pduSent < fuel →
      ∃ ret q', trySendDataLoop c aggr true t fuel q = (ret, q') ∧ StageEnd c t q ret q' ∧
        Sends c t q q' := by
  intro fuel
  induction fuel with
  | zero => intro q _ _ hf; omega
  | succ fuel ih =>
    intro q h hs hfuel
    have hin : InData (q.reqs t) := by simpa only [hs] using h.ready.2
    have hpos := hin.reqCurLength_pos
    have hleft : (q.reqs t).reqCurLength ≤ (q.reqs t).pduLen - (q.reqs t).pduSent :=
      Nat.min_le_right _ _
    have hfits := (hin.curKvec_fits c).2
    set b := ((q.reqs t).reqCurBvec.data.drop (q.reqs t).iter.iovOffset).take
      (q.reqs t).reqCurLength with hb
    have hblen : b.length = (q.reqs t).reqCurLength := by
      simp only [Kvec.Fits, curKvec, BioVec.len] at hfits
      rw [hb]
      simp
      omega
    obtain ⟨n, rs, hrs, hn, ret, hsend, hret, hall⟩ :=
      kernelSend_polite h.polite (List.ne_nil_of_length_pos (by omega : 0 < b.length))
    have hspace : q.replies = [] → rs = [] := fun hrep => (hall hrep).2
    have htake : ∀ m, m ≤ b.length → b.take m =
        ((q.reqs t).reqCurBvec.data.drop (q.reqs t).iter.iovOffset).take m := by
      intro m hm
      rw [hb, List.take_take, Nat.min_eq_left (by omega)]
    rw [htake n hn] at hsend
    have hbytes : Kvec.bytes q.reqs
        ⟨.page (q.reqs t).reqCurBvec (q.reqs t).iter.iovOffset, (q.reqs t).reqCurLength⟩ = b := rfl
    rcases hret with ⟨rfl, hret⟩ | ⟨hn0, rfl⟩
    · have hle : ret ≤ 0 := by rcases hret with rfl | rfl <;> decide
      have hcut : q.replies ≠ [] := fun hrep => by have := (hall hrep).1; omega
      refine ⟨ret, { q with replies := rs }, ?_,
        .inl ⟨hret, hcut, ⟨h.request, h.ready, h.sound, h.exact, hrs⟩⟩, fun _ _ => rfl, rfl, rfl,
        rfl, hspace, [], by simp, rfl⟩
      simp [trySendDataLoop, emit, hbytes, hsend, hle]
    · have hnpos : ¬ ((n : ℤ) ≤ 0) := by omega
      by_cases hlast : (q.reqs t).pduLastSend (q.reqs t).reqCurLength = true ∧
        n = (q.reqs t).reqCurLength
      · obtain ⟨hl, rfl⟩ := hlast
        obtain ⟨hdone, hsends⟩ := sends_last hspace h hs hl
        refine ⟨1, _, ?_, .inr ⟨rfl, hdone⟩, hsends⟩
        have hne : (q.reqs t).reqCurLength ≠ 0 := by omega
        simp [trySendDataLoop, emit, hbytes, hsend, hl, hne, dataSentUpdate, dataDone, hd,
          nvmeTcpDoneSendReq, modifyReq]
      · have hmore : (q.reqs t).pduSent + n < (q.reqs t).pduLen := by
          have hwrite := h.sound.write (by rw [hs]; decide)
          have hpm := hin.more
          simp only [NvmeTcpRequest.pduLastSend, NvmeTcpRequest.pduDataLeft, hwrite, if_true,
            decide_eq_true_eq] at hlast
          omega
        obtain ⟨hin', hsends⟩ := sends_chunk h hs (by omega) hmore hn0 hrs hspace
        obtain ⟨ret, q', heq, hend, hsends'⟩ := ih _ hin' (by simp [hs]) (by simp; omega)
        refine ⟨ret, q', ?_, hsends.stageEnd hend, hsends.trans hsends'⟩
        rw [← heq]
        have hne : n ≠ 0 := by omega
        have hlast' : ¬ ((q.reqs t).pduLastSend (q.reqs t).reqCurLength = true ∧
            (n : ℤ) = ((q.reqs t).reqCurLength : ℤ)) := by
          intro hx
          exact hlast ⟨hx.1, by exact_mod_cast hx.2⟩
        conv_lhs => rw [trySendDataLoop]
        simp only [emit, if_true, hbytes, hsend, hnpos, if_false, hlast', dataSentUpdate, hd,
          modifyReq]
        simp

theorem StageEnd.nonneg {ret : ℤ} (h : StageEnd c t q ret q') :
    0 ≤ (if ret = -EAGAIN then 0 else ret) := by
  rcases h with ⟨rfl | rfl, -⟩ | ⟨rfl, -⟩ <;> decide

theorem trySendData_legacy (hd : c.dataDigest = false) (h : LegacyIn c t q)
    (hs : (q.reqs t).state = .data) (ret₀ : ℤ) :
    ∃ ret q', stage t .data (nvmeTcpTrySendData c aggr true t)
    (stage t .ddgst (nvmeTcpTrySendDdgst t) Prod.mk)
        ret₀ q = (ret, q') ∧ StageEnd c t q ret q' ∧ Sends c t q q' := by
  obtain ⟨ret, q', heq, hend, hsends⟩ := @trySendDataLoop_legacy c aggr t hd
    ((q.reqs t).pduLen - (q.reqs t).pduSent + 1) q h hs (Nat.lt_succ_self _)
  refine ⟨ret, q', ?_, hend, hsends⟩
  simp only [stage, stateOf, hs, if_true, nvmeTcpTrySendData, heq]
  rcases hend with ⟨hret, -⟩ | ⟨rfl, hdone⟩
  · rw [if_pos (by rcases hret with rfl | rfl <;> decide)]
  · rw [if_neg (by decide), if_neg hdone.state]

theorem legacy_hdrDone {size : ℕ} {rs : List SockReply} (hd : c.dataDigest = false)
    (h : LegacyIn c t q)
    (hst : size = 72 ∧ (q.reqs t).state = .cmdPdu ∨ size = 24 ∧ (q.reqs t).state = .h2cPdu)
    (hrs : Polite rs) (hspace : q.replies = [] → rs = []) {it : IovIter} {q₁ : SendQueue}
    (hq₁ : q₁ = (startData c { hdrStarted c t size q with
      sent := q.sent ++ (hdrWire c size (q.reqs t)).drop (q.reqs t).offset, replies :=
        rs }).modifyReq t
        fun r => { r with state := .data, iter := it })
    (hin : InData { hdrMoved c size 0 (q.reqs t) with state := .data, iter := it })
    (hex : Exact { q.reqs t with iter := it })
    (hwrite : (q.reqs t).rq.write = true)
    (hrest : remainder c (q.reqs t) = (hdrWire c size (q.reqs t)).drop (q.reqs t).offset ++
      ((q.reqs t).rq.data.drop (q.reqs t).dataSent).take ((q.reqs t).pduLen - (q.reqs t).pduSent)) :
    LegacyIn c t q₁ ∧ Sends c t q q₁ ∧ (q₁.reqs t).state = .data := by
  have hframe := frame_hdrStarted c t size q
  have hself₀ := hdrStarted_reqs_self c t size q
  have hgood := h.ready.1
  have hself : q₁.reqs t = { hdrMoved c size 0 (q.reqs t) with state := .data, iter := it } := by
    simp [hq₁, hself₀]
  have hfields : q₁.request = q.request ∧ q₁.caravanIovs = q.caravanIovs ∧
    q₁.caravanLen = q.caravanLen ∧
      q₁.sendNow = q.sendNow ∧ q₁.replies = rs ∧
      q₁.sent = q.sent ++ (hdrWire c size (q.reqs t)).drop (q.reqs t).offset := by
    rw [hq₁, startData_sent hd]
    unfold hdrStarted
    split_ifs <;> exact ⟨rfl, rfl, rfl, rfl, rfl, rfl⟩
  obtain ⟨hreq, hiovs, hlen, hnow, hrep, hsent⟩ := hfields
  have hmoved := @hdrMoved_good c size 0 (by omega) (q.reqs t) hgood
  have hs' : (q₁.reqs t).state = .data := by rw [hself]
  refine ⟨⟨hreq.trans h.request, ?_, ?_, fun _ => ?_, by rw [hrep]; exact hrs⟩,
    ⟨?_, hiovs, hlen, hnow, fun h => hrep.trans (hspace h), _, hsent, ?_⟩, hs'⟩
  · rw [hself]
    exact ⟨⟨hmoved.buf, hmoved.len, hmoved.sent, hmoved.first, fun _ _ => hin.iter⟩, hin⟩
  · rw [hself]
    exact ⟨fun _ => hwrite, h.sound.whole, fun _ _ => ⟨hex.ahead, hex.cur, hex.rest⟩⟩
  · rw [hself]
    exact ⟨hex.ahead, hex.cur, hex.rest⟩
  · intro u hu
    rw [hq₁, startData_sent hd]
    simp [hu, hframe.others u hu]
  · simp only [requestRest, hreq, h.request, hrest, hself]
    rfl

theorem modifyReq_congr {f g : NvmeTcpRequest → NvmeTcpRequest} (h : f (q.reqs t) = g (q.reqs t)) :
    q.modifyReq t f = q.modifyReq t g := by
  simp [SendQueue.modifyReq, h]

theorem startData_modifyReq_congr {f g : NvmeTcpRequest → NvmeTcpRequest}
    (h : f (q.reqs t) = g (q.reqs t)) :
    (startData c q).modifyReq t f = (startData c q).modifyReq t g :=
  modifyReq_congr (by rw [startData_reqs]; exact h)

theorem stage_of_nonpos {st : SendState} {f : SendQueue → ℤ × SendQueue}
    {next : ℤ → SendQueue → ℤ × SendQueue} {ret₀ ret : ℤ} (hs : (q.reqs t).state = st)
    (hf : f q = (ret, q')) (hret : ret = 0 ∨ ret = -EAGAIN) :
    stage t st f next ret₀ q = (ret, q') := by
  have hle : ret ≤ 0 := by rcases hret with rfl | rfl <;> decide
  simp [stage, stateOf, hs, hf, hle]

theorem stage_of_one {st : SendState} {f : SendQueue → ℤ × SendQueue}
    {next : ℤ → SendQueue → ℤ × SendQueue} {ret₀ : ℤ} (hs : (q.reqs t).state = st)
    (hf : f q = (1, q')) : stage t st f next ret₀ q = next 1 q' := by
  simp [stage, stateOf, hs, hf]

theorem stage_skip {st : SendState} {f : SendQueue → ℤ × SendQueue}
    {next : ℤ → SendQueue → ℤ × SendQueue} {ret₀ : ℤ} (hs : (q.reqs t).state ≠ st) :
    stage t st f next ret₀ q = next ret₀ q := by
  simp [stage, stateOf, hs]

theorem trySendH2c_legacy (hd : c.dataDigest = false) (h : LegacyIn c t q)
    (hs : (q.reqs t).state = .h2cPdu) :
    (∃ ret q₁, nvmeTcpTrySendDataPdu c aggr true t q = (ret, q₁) ∧ (ret = 0 ∨ ret = -EAGAIN) ∧
      q.replies ≠ [] ∧ LegacyIn c t q₁ ∧ Sends c t q q₁) ∨
    (∃ q₁, nvmeTcpTrySendDataPdu c aggr true t q = (1, q₁) ∧ LegacyIn c t q₁ ∧ Sends c t q q₁ ∧
      (q₁.reqs t).state = .data) := by
  have hst := h.ready.2
  simp only [hs] at hst
  obtain ⟨-, hps, hpos, hroom⟩ := hst
  have hwrite := h.sound.write (by rw [hs]; decide)
  have hgood := h.ready.1
  rcases @trySendHdr_legacy c aggr t q 24 h (.inr ⟨rfl, hs⟩) false
    (fun q => (startData c q).modifyReq t fun r =>
      { r with state := .data, iter := if r.dataSent = 0 then r.initIter else r.iter })
    with hint | ⟨rs, hrs, hspace, heq⟩
  · exact .inl hint
  · set it : IovIter :=
      if (q.reqs t).dataSent = 0 then (q.reqs t).initIter else (q.reqs t).iter with hit
    have hpack : IterGood { q.reqs t with iter := it } ∧ Exact { q.reqs t with iter := it } := by
      rw [hit]
      by_cases h0 : (q.reqs t).dataSent = 0
      · rw [if_pos h0]
        exact ⟨(initIter_good hgood.len (by omega) (hgood.first h0) h0).1,
          initIter_exact hgood (by omega) h0 (h.sound.whole hwrite)⟩
      · rw [if_neg h0]
        exact ⟨hgood.more (by omega) (by omega), h.sound.mid (by omega) (by omega)⟩
    obtain ⟨⟨h1, h2, h3, h4⟩, hex⟩ := hpack
    refine .inr ⟨_, heq,
      legacy_hdrDone hd h (.inr ⟨rfl, hs⟩) hrs hspace (startData_modifyReq_congr ?_)
      ⟨⟨h1, h2, h3, h4⟩, ?_, ?_⟩ hex hwrite ?_⟩
    · simp only [hdrStarted_reqs_self]
      rfl
    · change (q.reqs t).pduSent < (q.reqs t).pduLen
      omega
    · change (q.reqs t).dataSent + ((q.reqs t).pduLen - (q.reqs t).pduSent) ≤ (q.reqs t).dataLen
      omega
    · simp [remainder, hs, hps]

theorem trySendCmd_legacy (hd : c.dataDigest = false) (h : LegacyIn c t q)
    (hs : (q.reqs t).state = .cmdPdu) :
    (∃ ret q₁, nvmeTcpTrySendCmdPdu c aggr true t q = (ret, q₁) ∧ (ret = 0 ∨ ret = -EAGAIN) ∧
      q.replies ≠ [] ∧ LegacyIn c t q₁ ∧ Sends c t q q₁) ∨
    (∃ q₁, nvmeTcpTrySendCmdPdu c aggr true t q = (1, q₁) ∧
      if (q.reqs t).hasInlineData c then
        (LegacyIn c t q₁ ∧ Sends c t q q₁ ∧ (q₁.reqs t).state = .data) ∧
          (q₁.reqs t).hasInlineData c = true
      else (LegacyDone c t q₁ ∧ Sends c t q q₁) ∧ (q₁.reqs t).hasInlineData c = false) := by
  have hst := h.ready.2
  simp only [hs] at hst
  obtain ⟨-, hps, hds, hpl⟩ := hst
  have hgood := h.ready.1
  rcases @trySendHdr_legacy c aggr t q 72 h (.inl ⟨rfl, hs⟩) (i10HostIsNodelayPath (q.reqs t))
    (fun q' =>
      if (q.reqs t).hasInlineData c then
        (startData c q').modifyReq t fun r => { r with state := .data, iter := r.initIter }
      else nvmeTcpDoneSendReq q') with hint | ⟨rs, hrs, hspace, heq⟩
  · exact .inl hint
  · change nvmeTcpTrySendCmdPdu c aggr true t q = _ at heq
    by_cases hi : (q.reqs t).hasInlineData c = true
    · rw [if_pos hi] at heq
      simp only [if_pos hi]
      have hne := hasInlineData_dataLen_ne hi
      have hwrite : (q.reqs t).rq.write = true := by
        unfold NvmeTcpRequest.hasInlineData at hi
        simp at hi
        exact hi.1.1
      have hdl := hgood.data_length hne
      have hpl := hpl hi
      obtain ⟨h1, h2, h3, h4⟩ := (initIter_good hgood.len hne (hgood.first hds) hds).1
      refine .inr ⟨_, heq,
        legacy_hdrDone hd h (.inl ⟨rfl, hs⟩) hrs hspace (startData_modifyReq_congr ?_)
        ⟨⟨h1, h2, h3, h4⟩, ?_, ?_⟩ (initIter_exact hgood hne hds (h.sound.whole hwrite)) hwrite ?_,
          ?_⟩
      · simp only [hdrStarted_reqs_self]
        rfl
      · change (q.reqs t).pduSent < (q.reqs t).pduLen
        omega
      · change (q.reqs t).dataSent + ((q.reqs t).pduLen - (q.reqs t).pduSent) ≤ (q.reqs t).dataLen
        omega
      · simp [remainder, hs, hi, hds, hps, hpl, ← hdl]
      · simp only [modifyReq_reqs_self, startData_reqs, hdrStarted_reqs_self]
        exact hi
    · rw [if_neg hi] at heq
      simp only [if_neg hi]
      have hframe := frame_hdrStarted c t 72 q
      have hself := hdrStarted_reqs_self c t 72 q
      have hfields : (hdrStarted c t 72 q).caravanIovs = q.caravanIovs ∧
          (hdrStarted c t 72 q).caravanLen = q.caravanLen ∧
            (hdrStarted c t 72 q).sendNow = q.sendNow := by
        unfold hdrStarted
        split_ifs <;> exact ⟨rfl, rfl, rfl⟩
      obtain ⟨hiovs, hlen, hnow⟩ := hfields
      refine .inr ⟨_, heq,
        ⟨⟨rfl, ?_, ?_, ?_⟩, hframe.others, hiovs, hlen, hnow, hspace, _, rfl, ?_⟩, ?_⟩
      · simp only [doneSendReq_reqs, hself]
        exact hdrMoved_good le_rfl hgood
      · simp only [doneSendReq_reqs, hself]
        exact hdrMoved_sound h.sound
      · simp only [doneSendReq_reqs, hself]
        change (q.reqs t).state ≠ .ddgst
        rw [hs]
        decide
      · simp [requestRest, h.request, nvmeTcpDoneSendReq, remainder, hs, hi]
      · simp only [doneSendReq_reqs, hself]
        change (q.reqs t).hasInlineData c = false
        simpa using hi

/-- A call on the legacy path: whatever the socket takes, the stream goes on. -/
theorem trySendReq_legacy (hd : c.dataDigest = false) (h : LegacyIn c t q) :
    ∃ ret q', trySendReq c aggr true t q = (ret, q') ∧ 0 ≤ ret ∧
      (q.replies ≠ [] ∧ LegacyIn c t q' ∨ LegacyDone c t q') ∧ Sends c t q q' := by
  have hfinish : ∀ {ret : ℤ} {q' : SendQueue},
      stage t .cmdPdu (nvmeTcpTrySendCmdPdu c aggr true t)
        (fun ret q' =>
          if stateOf t q = .cmdPdu ∧ (q'.reqs t).hasInlineData c = false then (ret, q')
          else (stage t .h2cPdu (nvmeTcpTrySendDataPdu c aggr true t) <|
            stage t .data (nvmeTcpTrySendData c aggr true t) <|
            stage t .ddgst (nvmeTcpTrySendDdgst t) Prod.mk) ret q') 1 q = (ret, q') →
      StageEnd c t q ret q' → Sends c t q q' →
      ∃ ret q', trySendReq c aggr true t q = (ret, q') ∧ 0 ≤ ret ∧
        (q.replies ≠ [] ∧ LegacyIn c t q' ∨ LegacyDone c t q') ∧ Sends c t q q' := by
    intro ret q' heq hend hsends
    refine ⟨_, q', by simp only [trySendReq, heq], hend.nonneg, ?_, hsends⟩
    rcases hend with ⟨-, hcut, hin⟩ | ⟨-, hdone⟩
    · exact .inl ⟨hcut, hin⟩
    · exact .inr hdone
  cases hs : (q.reqs t).state with
  | ddgst =>
    have hst := h.ready.2
    simp only [hs] at hst
  | data =>
    obtain ⟨ret, q', heq, hend, hsends⟩ := @trySendData_legacy c aggr t q hd h hs 1
    refine hfinish ?_ hend hsends
    rw [stage_skip (by rw [hs]; decide), if_neg (by simp [stateOf, hs]),
      stage_skip (by rw [hs]; decide), heq]
  | h2cPdu =>
    rcases @trySendH2c_legacy c aggr t q hd h hs with
      ⟨ret, q₁, heq, hret, hcut, hin, hsends⟩ | ⟨q₁, heq, hin, hsends, hdata⟩
    · refine hfinish ?_ (.inl ⟨hret, hcut, hin⟩) hsends
      rw [stage_skip (by rw [hs]; decide), if_neg (by simp [stateOf, hs]),
        stage_of_nonpos hs heq hret]
    · obtain ⟨ret, q', heq', hend, hsends'⟩ := @trySendData_legacy c aggr t q₁ hd hin hdata 1
      refine hfinish ?_ (hsends.stageEnd hend) (hsends.trans hsends')
      rw [stage_skip (by rw [hs]; decide), if_neg (by simp [stateOf, hs]), stage_of_one hs heq,
        heq']
  | cmdPdu =>
    rcases @trySendCmd_legacy c aggr t q hd h hs with
      ⟨ret, q₁, heq, hret, hcut, hin, hsends⟩ | ⟨q₁, heq, hcase⟩
    · exact hfinish (stage_of_nonpos hs heq hret) (.inl ⟨hret, hcut, hin⟩) hsends
    · by_cases hi : (q.reqs t).hasInlineData c = true
      · rw [if_pos hi] at hcase
        obtain ⟨⟨hin, hsends, hdata⟩, hinl⟩ := hcase
        obtain ⟨ret, q', heq', hend, hsends'⟩ := @trySendData_legacy c aggr t q₁ hd hin hdata 1
        refine hfinish ?_ (hsends.stageEnd hend) (hsends.trans hsends')
        rw [stage_of_one hs heq, if_neg (by simp [hinl]), stage_skip (by rw [hdata]; decide), heq']
      · rw [if_neg hi] at hcase
        obtain ⟨⟨hdone, hsends⟩, hinl⟩ := hcase
        refine hfinish ?_ (.inr ⟨rfl, hdone⟩) hsends
        rw [stage_of_one hs heq, if_pos ⟨by simp [stateOf, hs], hinl⟩]

end BlkSwitch.Host
