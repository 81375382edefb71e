import BlkSwitch.Sanity.HostCaravan
import BlkSwitch.Spec.HostQueue

/-! What every step of a throughput queue preserves, whatever is sent when: requests are on
`send_list` once and fit to be sent, and `send_now` is only raised over a caravan that holds
something. The socket takes whatever it is given. -/

namespace BlkSwitch.Host

open Bytes SendQueue

/-- A throughput I/O queue with the doorbell on. -/
structure Thru (c : Config) : Prop where
  io : c.qid ≠ 0
  cpu : c.qid ≤ c.numOnlineCpus
  delay : I10_MIN_DOORBELL_TIMEOUT ≤ c.i10DelayedDoorbellUs

/-- The requests of a queue; `act` is what the send path needs of the one underway. -/
structure ListOk (c : Config) (act : NvmeTcpRequest → Prop) (q : SendQueue) (sendList : List ℕ) :
    Prop where
  good : ∀ t, ReqGood c (q.reqs t)
  nodup : sendList.Nodup
  active : ∀ t, q.request = some t → act (q.reqs t) ∧ t ∉ sendList
  waiting : ∀ t ∈ sendList, Ready c (q.reqs t) ∧ (q.reqs t).state ≠ .data

structure QueueOk (c : Config) (q : NvmeTcpQueue) :
    Prop extends ListOk c (Ready c) q.toSendQueue q.sendList where
  prio : q.prioClass = 0
  caravan : CaravanOk c q.toSendQueue
  now : q.sendNow = true → q.caravanIovs ≠ []

/-- The steps of a socket that never fails and of a target that asks for something. -/
def Smooth (_ : HostState) : HostEvent → Prop
  | .sendRest _ _ replies => replies = []
  | .handleR2t _ pdu => pdu.second ≠ 0
  | _ => True

variable {c : Config}

theorem Thru.legacy (hc : Thru c) {q : NvmeTcpQueue} (h : q.prioClass = 0) :
    i10HostLegacyPath c q = false := by
  have := hc.io
  have := hc.delay
  simp [i10HostLegacyPath, i10HostIsLatency, h]
  omega

/-! The flush. -/

theorem Kvec.bytes_length {reqs : ℕ → NvmeTcpRequest} {k : Kvec}
    (hbuf : ∀ t, (reqs t).pdu.length = 72 + nvmeTcpHdgstLen c) (h : k.Fits c) :
    (k.bytes reqs).length = k.len := by
  unfold Kvec.Fits at h
  unfold Kvec.bytes
  cases hb : k.base with
  | pdu t off =>
    have := hbuf t
    simp only [hb] at h
    simp
    omega
  | page v off =>
    simp only [hb, BioVec.len] at h
    simp
    omega

theorem caravanBytes_length {q : SendQueue} (h : CaravanOk c q)
    (hbuf : ∀ t, (q.reqs t).pdu.length = 72 + nvmeTcpHdgstLen c) :
    q.caravanBytes.length = q.caravanLen := by
  rw [h.len, SendQueue.caravanBytes, List.length_flatMap]
  congr 1
  exact List.map_congr_left fun k hk => Kvec.bytes_length hbuf (h.entry k hk).2

def SendQueue.flushed (q : SendQueue) : SendQueue :=
  caravanSent { q with sent := q.sent ++ q.caravanBytes }

def SendQueue.flushIf (q : SendQueue) (flush : Bool) : SendQueue := if flush then q.flushed else q

/-- A socket that takes everything empties the caravan before the request goes on. -/
theorem trySendRest_all {aggr : ℕ} {legacy flush nospace : Bool} {q : SendQueue}
    (hrep : q.replies = []) (hne : flush = true → q.caravanBytes ≠ []) :
    trySendRest c aggr legacy flush nospace q =
      if flush && nospace then (0, { q with sockNospace := true })
      else
        match q.request with
        | none => (0, q.flushIf flush)
        | some t => trySendReq c aggr legacy t (q.flushIf flush) := by
  cases flush with
  | false => cases hreq : q.request <;> simp [trySendRest, SendQueue.flushIf, hreq]
  | true =>
    cases nospace with
    | true => simp [trySendRest]
    | false =>
      simp only [trySendRest, SendQueue.kernelSend, hrep]
      cases hreq : q.request <;>
        simp [hne rfl, hreq, hrep, SendQueue.flushIf, SendQueue.flushed, caravanSent]

theorem CaravanOk.flushed (q : SendQueue) : CaravanOk c q.flushed :=
  ⟨rfl, by simp [SendQueue.flushed, caravanSent], by simp [SendQueue.flushed, caravanSent]⟩

theorem CaravanOk.flushIf {q : SendQueue} (h : CaravanOk c q) (flush : Bool) :
    CaravanOk c (q.flushIf flush) := by
  cases flush
  · exact h
  · exact .flushed q

@[simp] theorem flushIf_reqs (q : SendQueue) (flush : Bool) : (q.flushIf flush).reqs = q.reqs := by
  cases flush <;> rfl

@[simp] theorem flushIf_request (q : SendQueue) (flush : Bool) :
    (q.flushIf flush).request = q.request := by
  cases flush <;> rfl

@[simp] theorem flushIf_replies (q : SendQueue) (flush : Bool) :
    (q.flushIf flush).replies = q.replies := by
  cases flush <;> rfl

theorem QueueOk.caravanBytes_ne {q : NvmeTcpQueue} (h : QueueOk c q) (hnow : q.sendNow = true) :
    q.caravanBytes ≠ [] := by
  have hlen := caravanBytes_length h.caravan fun t => (h.good t).buf
  intro hnil
  rw [hnil] at hlen
  exact h.now hnow (h.caravan.len_eq_zero.1 hlen.symm)

/-- What `nvme_tcp_try_send` does behind its dequeue: nothing for want of space, a flush and no
more, or a flush and then some steps of the request. -/
theorem trySendRest_cases (hc : Thru c) {q : NvmeTcpQueue} (h : QueueOk c q) (hrep : q.replies = [])
    (nospace : Bool) :
    (q.sendNow = true ∧ nospace = true ∧
      nvmeTcpTrySendRest c nospace q = (0, { q with sockNospace := true })) ∨
    (q.request = none ∧
      nvmeTcpTrySendRest c nospace q = (0, { q with toSendQueue := q.flushIf q.sendNow })) ∨
    ∃ t q', q.request = some t ∧
      nvmeTcpTrySendRest c nospace q = (1, { q with toSendQueue := q' }) ∧
        Relation.TransGen (SendStep c I10_MAX_AGGREGATION_SIZE t) (q.flushIf q.sendNow) q' := by
  have hall := @trySendRest_all c I10_MAX_AGGREGATION_SIZE false q.sendNow nospace q.toSendQueue
    hrep
    h.caravanBytes_ne
  unfold nvmeTcpTrySendRest
  rw [hc.legacy h.prio, hall]
  by_cases hstall : (q.sendNow && nospace) = true
  · rw [Bool.and_eq_true] at hstall
    exact .inl ⟨hstall.1, hstall.2, by simp [hstall.1, hstall.2]⟩
  · rw [if_neg hstall]
    cases hreq : q.request with
    | none => exact .inr (.inl ⟨rfl, rfl⟩)
    | some t =>
      obtain ⟨q', heq, hsteps⟩ :=
        @trySendReq_steps c I10_MAX_AGGREGATION_SIZE t (q.flushIf q.sendNow)
        (by simpa using hrep) (by simpa using hreq) (by simpa using (h.active t hreq).1)
      exact .inr (.inr ⟨t, q', rfl, by simp [heq], hsteps⟩)

/-! Submission. -/

theorem ready_setupCmdPdu {r : NvmeTcpRequest} (h : ReqGood c r) (rq : Rq) :
    Ready c (nvmeTcpSetupCmdPdu c rq r) ∧ (nvmeTcpSetupCmdPdu c rq r).state = .cmdPdu := by
  refine ⟨⟨⟨?_, rfl, Nat.zero_le _, fun _ => rfl, fun h0 => absurd h0 (lt_irrefl 0)⟩, rfl, rfl, rfl,
    ?_⟩, rfl⟩
  · have hb := h.buf
    simp only [nvmeTcpSetupCmdPdu]
    rw [writeAt_length, hb]
    rw [NvmeTcpCmdPdu.encode_length]
    omega
  · intro hi
    simp only [NvmeTcpRequest.hasInlineData, nvmeTcpSetupCmdPdu, Bool.and_eq_true,
      decide_eq_true_eq] at hi ⊢
    simp [hi.1.1, hi.2]

theorem ready_setupH2c {r : NvmeTcpRequest} (h : ReqGood c r) {pdu : NvmeTcpR2tPdu}
    (hok : (nvmeTcpSetupH2cDataPdu c r pdu).1 = true) (hne : pdu.second ≠ 0) :
    Ready c { (nvmeTcpSetupH2cDataPdu c r pdu).2 with state := .h2cPdu, offset := 0 } := by
  have hpos : 0 < pdu.second.toNat := by
    rw [Nat.pos_iff_ne_zero]
    intro h0
    exact hne (UInt32.toNat_inj.1 (by simpa using h0))
  unfold nvmeTcpSetupH2cDataPdu at hok ⊢
  dsimp only at hok ⊢
  split_ifs at hok ⊢ with hlen hoff
  refine ⟨⟨?_, h.len, h.sent, h.first, fun h0 hlt => ?_⟩, rfl, rfl, hpos, Nat.not_lt.1 hlen⟩
  · have hb := h.buf
    rw [writeAt_length, hb]
    rw [NvmeTcpXferPdu.encode_length]
    omega
  · obtain ⟨hok', hpos', hlater, hen⟩ := h.more h0 hlt
    exact ⟨hok', hpos', hlater, hen⟩

/-- A refused R2T has changed `pdu_len` and `pdu_sent` and nothing else. -/
theorem good_setupH2c_refused {r : NvmeTcpRequest} (h : ReqGood c r) {pdu : NvmeTcpR2tPdu}
    (hok : (nvmeTcpSetupH2cDataPdu c r pdu).1 = false) :
    ReqGood c (nvmeTcpSetupH2cDataPdu c r pdu).2 := by
  have hgood : ReqGood c { r with pduLen := pdu.second.toNat, pduSent := 0 } := by
    refine ⟨h.buf, h.len, h.sent, h.first, fun h0 hlt => ?_⟩
    obtain ⟨hok', hpos', hlater, hen⟩ := h.more h0 hlt
    exact ⟨hok', hpos', hlater, hen⟩
  unfold nvmeTcpSetupH2cDataPdu at hok ⊢
  dsimp only at hok ⊢
  split_ifs at hok ⊢ <;> exact hgood

theorem queueRequestLocked_fields (c : Config) (t : ℕ) (q : NvmeTcpQueue) :
    (nvmeTcpQueueRequestLocked c t q).2.toSendQueue = q.toSendQueue ∧
      (nvmeTcpQueueRequestLocked c t q).2.sendList = q.sendList ++ [t] ∧
      (nvmeTcpQueueRequestLocked c t q).2.prioClass = (if c.qid ≤ c.numOnlineCpus then 0 else 1) ∧
      (nvmeTcpQueueRequestLocked c t q).2.nrCaravanReq = q.nrCaravanReq := by
  unfold nvmeTcpQueueRequestLocked
  dsimp only
  split_ifs <;> exact ⟨rfl, rfl, rfl, rfl⟩

section ListOk

variable {act : NvmeTcpRequest → Prop} {q q' : SendQueue} {l l' : List ℕ} {t : ℕ}

theorem ListOk.of_eq (h : ListOk c act q l) (hr : q'.reqs = q.reqs) (hreq : q'.request = q.request)
    (hl : l' = l) : ListOk c act q' l' := by
  obtain ⟨h1, h2, h3, h4⟩ := h
  exact ⟨by rw [hr]; exact h1, hl ▸ h2, by rw [hr, hreq, hl]; exact h3, by rw [hr, hl]; exact h4⟩

theorem ListOk.replace (h : ListOk c act q l) (hu : Free q l t) {r : NvmeTcpRequest}
    (hr : ReqGood c r) :
    ListOk c act (q.modifyReq t fun _ => r) l := by
  obtain ⟨hlist, hreq, -⟩ := hu
  have hother : ∀ u, u ≠ t → (q.modifyReq t fun _ => r).reqs u = q.reqs u := fun u hne =>
    modifyReq_reqs_of_ne t q hne fun _ => r
  refine ⟨?_, h.nodup, ?_, ?_⟩
  · intro u
    by_cases hut : u = t
    · rw [hut]
      change ReqGood c ((q.modifyReq t fun _ => r).reqs t)
      rwa [modifyReq_reqs_self]
    · exact hother u hut ▸ h.good u
  · intro u hu
    have hut : u ≠ t := fun he => hreq (he ▸ hu)
    exact hother u hut ▸ h.active u hu
  · intro u hu
    have hut : u ≠ t := fun he => hlist (he ▸ hu)
    exact hother u hut ▸ h.waiting u hu

theorem ListOk.enqueue (h : ListOk c act q l) (hu : Free q l t) {r : NvmeTcpRequest}
    (hr : Ready c r) (hst : r.state ≠ .data) :
    ListOk c act (q.modifyReq t fun _ => r) (l ++ [t]) := by
  have hrep := h.replace hu hr.1
  obtain ⟨hlist, hreq, -⟩ := hu
  have hself : (q.modifyReq t fun _ => r).reqs t = r := modifyReq_reqs_self t q fun _ => r
  refine ⟨hrep.good, ?_, ?_, ?_⟩
  · exact List.nodup_append.2 ⟨h.nodup, by simp, by
      intro a ha b hb hab
      rw [List.mem_singleton.1 hb] at hab
      exact hlist (hab ▸ ha)⟩
  · intro u hu
    have hut : u ≠ t := fun he => hreq (he ▸ hu)
    exact ⟨(hrep.active u hu).1, by simp [(h.active u hu).2, hut]⟩
  · intro u hu
    rcases List.mem_append.1 hu with hu | hu
    · exact hrep.waiting u hu
    · rw [List.mem_singleton.1 hu, hself]
      exact ⟨hr, hst⟩

theorem ListOk.take (hact : ∀ r, Ready c r → act r) (h : ListOk c act q (t :: l)) :
    ListOk c act { q with request := some t } l := by
  have hnodup := List.nodup_cons.1 h.nodup
  refine ⟨h.good, hnodup.2, ?_, fun u hu => h.waiting u (List.mem_cons_of_mem _ hu)⟩
  intro u hu
  obtain rfl : t = u := by simpa using hu
  exact ⟨hact _ (h.waiting t (List.mem_cons_self ..)).1, hnodup.1⟩

theorem ListOk.called (h : ListOk c act q l) (hreq : q.request = some t)
    (hother : ∀ u, u ≠ t → q'.reqs u = q.reqs u) (hgood : ReqGood c (q'.reqs t))
    (hreq' : q'.request = some t ∧ act (q'.reqs t) ∨ q'.request = none) : ListOk c act q' l := by
  have hmem := (h.active t hreq).2
  refine ⟨?_, h.nodup, ?_, ?_⟩
  · intro u
    by_cases hut : u = t
    · rw [hut]; exact hgood
    · exact (hother u hut) ▸ h.good u
  · intro u hu
    rcases hreq' with ⟨hsome, hact⟩ | hnone
    · obtain rfl : t = u := by simpa [hsome] using hu
      exact ⟨hact, hmem⟩
    · exact absurd (hnone.symm.trans hu) (by simp)
  · intro u hu
    have hut : u ≠ t := fun he => hmem (he ▸ hu)
    exact (hother u hut) ▸ h.waiting u hu

theorem ListOk.steps (h : ListOk c (Ready c) q l) (hreq : q.request = some t)
    (hother : ∀ u, u ≠ t → q'.reqs u = q.reqs u) (hwork : Working c t q') :
    ListOk c (Ready c) q' l := by
  refine h.called hreq hother ?_ ?_
  · rcases hwork with ⟨-, hr⟩ | ⟨-, hg⟩
    · exact hr.1
    · exact hg
  · rcases hwork with hw | ⟨hnone, -⟩
    · exact .inl hw
    · exact .inr hnone

theorem ListOk.locked {q : NvmeTcpQueue} (h : ListOk c act q.toSendQueue q.sendList)
    (hu : Unused q t) {r : NvmeTcpRequest} (hr : Ready c r) (hst : r.state ≠ .data) :
    let q' := (nvmeTcpQueueRequestLocked c t { q with toSendQueue := q.modifyReq t fun _ => r }).2
    ListOk c act q'.toSendQueue q'.sendList := by
  obtain ⟨hsq, hl, -, -⟩ :=
    queueRequestLocked_fields c t { q with toSendQueue := q.modifyReq t fun _ => r }
  exact (h.enqueue hu hr hst).of_eq (congrArg SendQueue.reqs hsq)
    (congrArg SendQueue.request hsq) hl

end ListOk

theorem QueueOk.of_eq {q q' : NvmeTcpQueue} (h : QueueOk c q) (hs : q'.toSendQueue = q.toSendQueue)
    (hl : q'.sendList = q.sendList) (hp : q'.prioClass = q.prioClass) : QueueOk c q' :=
  ⟨h.toListOk.of_eq (by rw [hs]) (by rw [hs]) hl, hp.trans h.prio,
    hs ▸ h.caravan, by rw [hs]; exact h.now⟩

theorem QueueOk.withSocket {q : NvmeTcpQueue} (h : QueueOk c q) (nospace : Bool)
    (replies : List SockReply) :
    QueueOk c { q with sockNospace := nospace, replies := replies } :=
  ⟨h.toListOk.of_eq rfl rfl rfl, h.prio, ⟨h.caravan.len, h.caravan.entry, h.caravan.mapped⟩, h.now⟩

theorem QueueOk.replace {q : NvmeTcpQueue} (h : QueueOk c q) {t : ℕ} (hu : Unused q t)
    {r : NvmeTcpRequest} (hr : ReqGood c r) :
    QueueOk c { q with toSendQueue := q.modifyReq t fun _ => r } :=
  ⟨h.toListOk.replace hu hr, h.prio, ⟨h.caravan.len, h.caravan.entry, h.caravan.mapped⟩, h.now⟩

theorem QueueOk.locked (hc : Thru c) {q : NvmeTcpQueue} (h : QueueOk c q) {t : ℕ} (hu : Unused q t)
    {r : NvmeTcpRequest} (hr : Ready c r) (hst : r.state ≠ .data) :
    QueueOk c (nvmeTcpQueueRequestLocked c t
      { q with toSendQueue := q.modifyReq t fun _ => r }).2 := by
  obtain ⟨hsq, -, hp, -⟩ :=
    queueRequestLocked_fields c t { q with toSendQueue := q.modifyReq t fun _ => r }
  refine ⟨h.toListOk.locked hu hr hst, by rw [hp, if_pos hc.cpu], ?_, ?_⟩
  · rw [hsq]
    exact ⟨h.caravan.len, h.caravan.entry, h.caravan.mapped⟩
  · rw [hsq]
    exact h.now

/-! The worker. -/

/-- What the dequeue does: leave a request that is underway, take the next one, settle the
counters of a caravan that has to go, or nothing. -/
theorem trySendDequeue_cases (c : Config) (q : NvmeTcpQueue) :
    (∃ t, q.request = some t ∧ nvmeTcpTrySendDequeue c q = (false, q)) ∨
    (∃ t rest, q.request = none ∧ q.sendList = t :: rest ∧ nvmeTcpTrySendDequeue c q =
      (false,
        { q with
          sendList := rest
          nrCaravanReq := if isDelayed c q t then q.nrCaravanReq + 1 else q.nrCaravanReq
          request := some t })) ∨
    (q.request = none ∧ q.sendList = [] ∧ (q.timerSet = 0 ∨ q.doorbellTimer = false) ∧
      q.caravanLen ≠ 0 ∧ nvmeTcpTrySendDequeue c q =
        (false,
          { q with
            nrReq := q.nrReq - q.nrCaravanReq
            nrCaravanReq := 0
            timerSet := 0
            sendNow := true })) ∨
    (q.request = none ∧ q.sendList = [] ∧
      (q.caravanLen = 0 ∨ q.timerSet ≠ 0 ∧ q.doorbellTimer = true) ∧
        nvmeTcpTrySendDequeue c q = (q.caravanLen == 0, q)) := by
  unfold nvmeTcpTrySendDequeue
  cases hreq : q.request with
  | some t => exact .inl ⟨t, rfl, rfl⟩
  | none =>
    cases hlist : q.sendList with
    | cons t rest => exact .inr (.inl ⟨t, rest, rfl, rfl, by simp⟩)
    | nil =>
      by_cases hcond : (q.timerSet = 0 ∨ q.doorbellTimer = false) ∧ q.caravanLen ≠ 0
      · refine .inr (.inr (.inl ⟨rfl, rfl, hcond.1, hcond.2, ?_⟩))
        simp [hcond]
      · refine .inr (.inr (.inr ⟨rfl, rfl, ?_, ?_⟩))
        · rw [not_and_or, not_or, not_not, Bool.not_eq_false] at hcond
          exact hcond.symm
        · simp [hcond, hreq]

theorem ListOk.dequeue {act : NvmeTcpRequest → Prop} (hact : ∀ r, Ready c r → act r)
    {q : NvmeTcpQueue} (h : ListOk c act q.toSendQueue q.sendList) :
    ListOk c act (nvmeTcpTrySendDequeue c q).2.toSendQueue
      (nvmeTcpTrySendDequeue c q).2.sendList := by
  obtain ⟨t, -, heq⟩ | ⟨t, rest, hreq, hlist, heq⟩ | ⟨-, -, -, -, heq⟩ | ⟨-, -, -, heq⟩ :=
    trySendDequeue_cases c q <;> rw [heq]
  · exact h
  · rw [hlist] at h
    exact h.take hact
  · exact h.of_eq rfl rfl rfl
  · exact h

theorem QueueOk.dequeue {q : NvmeTcpQueue} (h : QueueOk c q) :
    QueueOk c (nvmeTcpTrySendDequeue c q).2 := by
  have hlist := h.toListOk.dequeue fun _ hr => hr
  obtain ⟨t, -, heq⟩ | ⟨t, rest, -, -, heq⟩ | ⟨-, -, -, hlen, heq⟩ | ⟨-, -, -, heq⟩ :=
    trySendDequeue_cases c q <;> rw [heq] at hlist ⊢
  · exact h
  · exact ⟨hlist, h.prio, ⟨h.caravan.len, h.caravan.entry, h.caravan.mapped⟩, h.now⟩
  · refine ⟨hlist, h.prio, ⟨h.caravan.len, h.caravan.entry, h.caravan.mapped⟩, fun _ hnil => ?_⟩
    exact hlen (h.caravan.len_eq_zero.2 hnil)
  · exact h

theorem QueueOk.rest (hc : Thru c) {q : NvmeTcpQueue} (h : QueueOk c q) (hrep : q.replies = [])
    (nospace : Bool) : QueueOk c (nvmeTcpTrySendRest c nospace q).2 := by
  obtain ⟨-, -, heq⟩ | ⟨hreq, heq⟩ | ⟨t, q', hreq, heq, hsteps⟩ :=
      trySendRest_cases hc h hrep nospace <;>
    rw [heq]
  · exact h.withSocket _ _
  · refine ⟨h.toListOk.of_eq (by simp) (by simp) rfl, h.prio, h.caravan.flushIf _, ?_⟩
    cases hnow : q.sendNow with
    | false => exact fun hf => absurd hf (by simp [SendQueue.flushIf, hnow])
    | true => exact fun hf => absurd hf (by simp [SendQueue.flushIf, SendQueue.flushed, caravanSent])
  · have hr := (h.active t hreq).1
    have hframe := frame_of_steps hsteps.to_reflTransGen
    obtain ⟨hwork, hok, hne⟩ :=
      steps_working (by decide) (by simpa using hr) (h.caravan.flushIf q.sendNow) hsteps
    have hother : ∀ u, u ≠ t → q'.reqs u = q.reqs u := fun u hu => by simpa using hframe.others u hu
    exact ⟨h.toListOk.steps hreq hother hwork, h.prio, hok, fun _ => hne⟩

@[simp] theorem kick_q (s : HostState) : s.kick.q = s.q := rfl

@[simp] theorem queueWork_q (s : HostState) (l : Lane) : (s.queueWork l).q = s.q := rfl

@[simp] theorem setPc_q (s : HostState) (l : Lane) (pc : IoWorkPc) : (s.setPc l pc).q = s.q := rfl

theorem submit_q (c : Config) (s : HostState) (t : ℕ) (r : NvmeTcpRequest) (pdu : List Byte) :
    (submit c s t r pdu).q =
      (nvmeTcpQueueRequestLocked c t { s.q with toSendQueue := s.q.modifyReq t fun _ => r }).2 :=
        rfl

theorem queueRequestUnlocked_eq (noDelay : Bool) (q : NvmeTcpQueue) :
    (nvmeTcpQueueRequestUnlocked noDelay q).2 = q ∧
      (nvmeTcpQueueRequestUnlocked noDelay q).1 = false ∨
      (nvmeTcpQueueRequestUnlocked noDelay q).2 = { q with doorbellTimer := false, timerSet := 0 } ∧
        (nvmeTcpQueueRequestUnlocked noDelay q).1 = true := by
  unfold nvmeTcpQueueRequestUnlocked
  split_ifs <;> simp

theorem sendRest_nonneg (hc : Thru c) {q : NvmeTcpQueue} (h : QueueOk c q) (hrep : q.replies = [])
    (nospace : Bool) : 0 ≤ (nvmeTcpTrySendRest c nospace q).1 := by
  obtain ⟨-, -, heq⟩ | ⟨-, heq⟩ | ⟨t, q', -, heq, -⟩ := trySendRest_cases hc h hrep nospace <;>
    simp [heq]

/-- What a step other than the sending itself can do to the queue: take a request that was made
ready, refuse an R2T, touch the timer or the socket's flag, or dequeue. -/
theorem hostStep_queue {s s' : HostState} {e : HostEvent} (hgood : ∀ t, ReqGood c (s.q.reqs t))
    (hok : Smooth s e) (hne : ∀ l nospace replies, e ≠ .sendRest l nospace replies)
    (hstep : hostStep c s e = some s') :
    (∃ t r, Unused s.q t ∧ Ready c r ∧ r.state ≠ .data ∧ s'.q =
      (nvmeTcpQueueRequestLocked c t { s.q with toSendQueue := s.q.modifyReq t fun _ => r }).2) ∨
    (∃ t r, Unused s.q t ∧ ReqGood c r ∧
      s'.q = { s.q with toSendQueue := s.q.modifyReq t fun _ => r }) ∨
    (∃ d n b, s'.q = { s.q with doorbellTimer := d, timerSet := n, sockNospace := b }) ∨
    s'.q = (nvmeTcpTrySendDequeue c s.q).2 := by
  cases e with
  | queueRq t rq =>
    simp only [hostStep, Option.ite_none_right_eq_some, Option.some.injEq] at hstep
    obtain ⟨hu, rfl⟩ := hstep
    obtain ⟨hr, hst⟩ := ready_setupCmdPdu (hgood t) rq
    exact .inl ⟨t, _, hu, hr, by rw [hst]; decide, rfl⟩
  | handleR2t t pdu =>
    simp only [hostStep, Option.ite_none_right_eq_some] at hstep
    obtain ⟨hu, hstep⟩ := hstep
    split_ifs at hstep with hacc
    · obtain rfl := Option.some_inj.1 hstep
      exact .inl ⟨t, _, hu, ready_setupH2c (hgood t) hacc hok, by simp, rfl⟩
    · obtain rfl := Option.some_inj.1 hstep
      exact .inr (.inl ⟨t, _, hu, good_setupH2c_refused (hgood t) (by simpa using hacc), rfl⟩)
  | requestUnlocked i =>
    simp only [hostStep] at hstep
    cases hcall : s.calls[i]? with
    | none => simp [hcall] at hstep
    | some noDelay =>
      simp only [hcall, Option.some.injEq] at hstep
      obtain rfl := hstep
      refine .inr (.inr (.inl ?_))
      rcases queueRequestUnlocked_eq noDelay s.q with ⟨heq, hf⟩ | ⟨heq, hf⟩
      · exact ⟨s.q.doorbellTimer, s.q.timerSet, s.q.sockNospace, by simp only [heq, hf]; rfl⟩
      · exact ⟨false, 0, s.q.sockNospace, by simp only [heq, hf]; rfl⟩
  | doorbellTimeout =>
    simp only [hostStep, Option.ite_none_right_eq_some, Option.some.injEq] at hstep
    obtain ⟨-, rfl⟩ := hstep
    exact .inr (.inr (.inl ⟨false, 0, s.q.sockNospace, rfl⟩))
  | dataReady =>
    obtain rfl := Option.some_inj.1 hstep
    exact .inr (.inr (.inl ⟨s.q.doorbellTimer, s.q.timerSet, s.q.sockNospace, rfl⟩))
  | writeSpace =>
    obtain rfl := Option.some_inj.1 hstep
    exact .inr (.inr (.inl ⟨s.q.doorbellTimer, s.q.timerSet, false, rfl⟩))
  | workStart l =>
    simp only [hostStep, Option.ite_none_right_eq_some, Option.some.injEq] at hstep
    obtain ⟨-, rfl⟩ := hstep
    exact .inr (.inr (.inl ⟨s.q.doorbellTimer, s.q.timerSet, s.q.sockNospace, rfl⟩))
  | sendDequeue l =>
    simp only [hostStep, Option.ite_none_right_eq_some, Option.some.injEq] at hstep
    obtain ⟨-, rfl⟩ := hstep
    exact .inr (.inr (.inr rfl))
  | sendRest l nospace replies => exact absurd rfl (hne l nospace replies)
  | tryRecv l got expired =>
    refine .inr (.inr (.inl ⟨s.q.doorbellTimer, s.q.timerSet, s.q.sockNospace, ?_⟩))
    simp only [hostStep] at hstep
    split at hstep
    · split_ifs at hstep <;> (obtain rfl := Option.some_inj.1 hstep; rfl)
    · cases hstep

theorem queueOk_step (hc : Thru c) {s s' : HostState} {e : HostEvent} (h : QueueOk c s.q)
    (hok : Smooth s e) (hstep : hostStep c s e = some s') : QueueOk c s'.q := by
  by_cases hrest : ∃ l nospace replies, e = .sendRest l nospace replies
  · obtain ⟨l, nospace, replies, rfl⟩ := hrest
    obtain rfl : replies = [] := hok
    have hq : QueueOk c { s.q with replies := [] } := h.withSocket _ _
    simp only [hostStep, Option.ite_none_right_eq_some, Option.some.injEq] at hstep
    obtain ⟨-, rfl⟩ := hstep
    rw [if_neg (sendRest_nonneg hc hq rfl nospace).not_gt]
    exact hq.rest hc rfl nospace
  · have hne : ∀ l nospace replies, e ≠ .sendRest l nospace replies :=
      fun l nospace replies he => hrest ⟨l, nospace, replies, he⟩
    obtain ⟨t, r, hu, hr, hst, heq⟩ | ⟨t, r, hu, hr, heq⟩ | ⟨d, n, b, heq⟩ | heq :=
      hostStep_queue h.good hok hne hstep <;> rw [heq]
    · exact h.locked hc hu hr hst
    · exact h.replace hu hr
    · exact (h.withSocket b s.q.replies).of_eq rfl rfl rfl
    · exact h.dequeue

theorem queueOk_init (c : Config) : QueueOk c (hostSystem c).init.q := by
  have hgood : ReqGood c (blankRequest c) := by
    refine ⟨by simp [blankRequest],
      by simp [blankRequest, blankRq, Rq.dataLen, Rq.blkRqNrPhysSegments], le_rfl, fun _ => rfl,
      fun h0 => absurd h0 (lt_irrefl 0)⟩
  exact ⟨⟨fun _ => hgood,
    List.nodup_nil, by simp [hostSystem, blankQueue], by simp [hostSystem, blankQueue]⟩, rfl,
    ⟨rfl, by simp [hostSystem, blankQueue], le_rfl⟩, by simp [hostSystem, blankQueue]⟩

end BlkSwitch.Host
