import BlkSwitch.Proofs.HostStream

/-! What a host queue does when the socket does not take the whole caravan. A queue carries a
list of PDUs: some are through, one may be underway, the rest is on `send_list`. A send that
fails, or falls short, should leave the queue carrying the same list, or the list without the
one request that was failed. -/

namespace BlkSwitch.Host

open SendQueue Relation

variable {c : Config}

section Calls

variable {aggr t : ℕ} {q q' : SendQueue}

/-- `base` has been handed over, and of `pdu`, which is the request's, whatever is not left.
A request in state SEND_DATA has at least its header behind it. -/
def Gone (c : Config) (t : ℕ) (base pdu : List Byte) (q : SendQueue) : Prop :=
  ∃ x, q.sent ++ q.caravanBytes = base ++ x ∧ pdu = x ++ requestRest c q ∧
    (q.request = some t → (x ≠ [] ↔ (q.reqs t).state = .data))

theorem SendStep.buf (h : SendStep c aggr t q q') (hr : Ready c (q.reqs t))
    (hbuf : ∀ u, (q.reqs u).pdu.length = 72 + nvmeTcpHdgstLen c) (u : ℕ) :
    (q'.reqs u).pdu.length = 72 + nvmeTcpHdgstLen c := by
  by_cases hu : u = t
  · rw [hu]
    rcases h.working hr with ⟨-, hr'⟩ | ⟨-, hg⟩
    · exact hr'.1.buf
    · exact hg.buf
  · rw [h.frame.others u hu, hbuf u]

theorem SendStep.grows (h : SendStep c aggr t q q') (hr : Ready c (q.reqs t))
    (hbuf : ∀ u, (q.reqs u).pdu.length = 72 + nvmeTcpHdgstLen c) (hflow : Flowing t q) :
    ∃ y, q'.caravanBytes = q.caravanBytes ++ y ∧
      (y = [] ∧ q'.request = q.request ∧ (q'.reqs t).state = (q.reqs t).state ∨
        y ≠ [] ∧ (q'.request = some t → (q'.reqs t).state = .data)) := by
  have hreq : q.request = some t := by cases h <;> assumption
  have hpdus : ∀ u, (q'.reqs u).pdu = (q.reqs u).pdu ∨ NotIn q u := by
    refine h.pdus ?_
    by_cases hs : (q.reqs t).state = .data
    · left
      cases h with
      | fullHdr _ _ hst _ => rcases hst with ⟨-, hs'⟩ | ⟨-, hs'⟩ <;> simp [hs'] at hs
      | fullData _ _ _ => rfl
      | cmd _ hs' _ => simp [hs'] at hs
      | h2c _ hs' _ => simp [hs'] at hs
      | chunk _ _ _ _ => rw [putChunk_reqs_self, (advanceReq_fields _ _).2.2.2.2.2.2]
      | last _ _ _ _ =>
        rw [← (advanceReq_fields (q.reqs t) (q.reqs t).reqCurLength).2.2.2.2.2.2,
          ← putChunk_reqs_self c t q]
        unfold SendQueue.finish dataDone
        split_ifs <;> simp
    · exact .inr (hflow.notIn hreq hs)
  rcases h.caravan hr with ⟨hf, hsame⟩ | ⟨k, ⟨hpos, hfits⟩, hsame⟩
  · refine ⟨[], by rw [caravanBytes_same hsame hpdus, List.append_nil], .inl ⟨rfl, ?_⟩⟩
    cases h with
    | fullHdr size _ _ _ =>
      refine ⟨by simp [SendQueue.mark], ?_⟩
      rw [mark_reqs, digestHdr_reqs_self]
    | fullData _ _ _ => exact ⟨rfl, rfl⟩
    | cmd _ _ hf' => simp [hf] at hf'
    | h2c _ _ hf' => simp [hf] at hf'
    | chunk _ _ hf' _ => simp [hf] at hf'
    | last _ _ hf' _ => simp [hf] at hf'
  · have hbuf' := h.buf hr hbuf
    refine ⟨k.bytes q'.reqs, caravanBytes_append hsame hpdus, .inr ⟨?_, ?_⟩⟩
    · exact List.ne_nil_of_length_pos (by rw [Kvec.bytes_length hbuf' hfits]; exact hpos)
    · cases h with
      | fullHdr size _ _ _ =>
        have := congrArg List.length ((sameCaravan_digestHdr c t q size).iovs.symm.trans hsame.iovs)
        simp [SendQueue.append] at this
      | fullData _ _ _ =>
        have := congrArg List.length hsame.iovs
        simp [SendQueue.append, SendQueue.mark] at this
      | cmd _ _ _ =>
        intro hreq'
        rw [putCmd_request] at hreq'
        rw [putCmd_reqs_self]
        split_ifs at hreq' ⊢
        rfl
      | h2c _ _ _ => exact fun _ => by rw [putH2c_reqs_self]
      | chunk _ hs _ _ =>
        exact fun _ => by rw [putChunk_reqs_self, (advanceReq_fields _ _).2.2.2.2.2.1, hs]
      | last _ _ _ _ => exact fun hreq' => absurd hreq' (Option.some_ne_none t).symm

/-- A step of the request moves bytes of its PDU and of no other. -/
theorem Gone.step (hd : c.dataDigest = false) (h : SendStep c aggr t q q') (hr : Ready c (q.reqs t))
    (hbuf : ∀ u, (q.reqs u).pdu.length = 72 + nvmeTcpHdgstLen c) (hflow : Flowing t q)
    {base pdu : List Byte} (hg : Gone c t base pdu q) : Gone c t base pdu q' := by
  obtain ⟨x, hx, hpdu, hst⟩ := hg
  obtain ⟨hsent, hbytes⟩ := (h.flows hd hr hflow).1
  obtain ⟨y, hy, hcase⟩ := h.grows hr hbuf hflow
  have hrest : requestRest c q = y ++ requestRest c q' := by
    rw [hy, List.append_assoc] at hbytes
    exact (List.append_cancel_left hbytes).symm
  refine ⟨x ++ y, ?_, ?_, fun hreq' => ?_⟩
  · rw [hsent, hy, ← List.append_assoc, hx, List.append_assoc]
  · rw [hpdu, hrest, List.append_assoc]
  · rcases hcase with ⟨rfl, hreq, hs⟩ | ⟨hne, hs⟩
    · rw [List.append_nil, hs]
      exact hst (hreq ▸ hreq')
    · simp [hne, hs hreq']

theorem Gone.steps (hd : c.dataDigest = false) (hr : Ready c (q.reqs t))
    (hbuf : ∀ u, (q.reqs u).pdu.length = 72 + nvmeTcpHdgstLen c) (hflow : Flowing t q)
    (hsteps : TransGen (SendStep c aggr t) q q') {base pdu : List Byte} (hg : Gone c t base pdu q) :
    Gone c t base pdu q' := by
  -- the facts a step needs travel with the steps made so far
  have hall : Gone c t base pdu q' ∧ Flowing t q' ∧ Working c t q' ∧
      ∀ u, (q'.reqs u).pdu.length = 72 + nvmeTcpHdgstLen c := by
    induction hsteps with
    | single h =>
      exact ⟨hg.step hd h hr hbuf hflow, (h.flows hd hr hflow).2, h.working hr, h.buf hr hbuf⟩
    | tail _ h ih =>
      obtain ⟨hg', hflow', hwork', hbuf'⟩ := ih
      have hr' := hwork'.ready_of_step h
      exact ⟨hg'.step hd h hr' hbuf' hflow', (h.flows hd hr' hflow').2, h.working hr',
        h.buf hr' hbuf'⟩
  exact hall.1

end Calls

def waitingPdus (c : Config) (q : NvmeTcpQueue) : List (List Byte) :=
  q.sendList.map fun t => remainder c (q.reqs t)

/-- The queue carries `pdus`: those before `queue->request` are with the socket or in the
caravan, its own is partly there, the others wait. -/
def Carries (c : Config) (q : NvmeTcpQueue) (pdus : List (List Byte)) : Prop :=
  match q.request with
  | none => ∃ before, pdus = before ++ waitingPdus c q ∧ q.sent ++ q.caravanBytes = before.flatten
  | some t => ∃ before pdu, pdus = before ++ pdu :: waitingPdus c q ∧
    Gone c t before.flatten pdu q.toSendQueue

/-- `queue->request` is a request of which nothing has been handed over yet. -/
def untouched (q : SendQueue) : Bool := q.request.any fun t => (q.reqs t).state != .data

/-- The answers to a caravan that the queue copes with. -/
def Benign (q : NvmeTcpQueue) (r : ℤ) : Prop :=
  r = q.caravanLen ∨ r = 0 ∨ r = -EPIPE ∨ r = -ECONNRESET ∨ r < 0 ∧ untouched q.toSendQueue = true

instance (q : NvmeTcpQueue) (r : ℤ) : Decidable (Benign q r) := by
  unfold Benign
  infer_instance

/-- Sends that went well so far, on a connection that is still up. -/
def Gentle (s : HostState) : HostEvent → Prop
  | .sendRest _ _ [] => True
  | .sendRest _ false [.ret r] => s.q.sendNow = true ∧ Benign s.q r ∧ r ≠ -EPIPE ∧ r ≠ -ECONNRESET
  | .sendRest _ _ _ => False
  | _ => True

def current (q : NvmeTcpQueue) (pdus : List (List Byte)) : ℕ := pdus.length - q.sendList.length - 1

/-- Nothing is lost between `s` and `s'` by the answer `r` to a caravan: the connection goes
down, or the stream is that of the requests which were not failed; and what was failed is a
request of which the caravan holds nothing. -/
structure Kept (c : Config) (pdus : List (List Byte)) (s s' : HostState) (r : ℤ) : Prop where
  stream : r = -EPIPE ∨ r = -ECONNRESET ∨ s'.q.sent ++ heldBytes c s'.q =
    (if s'.failed = s.failed then pdus else pdus.eraseIdx (current s.q pdus)).flatten
  failed : ∀ x ∈ s'.failed.drop s.failed.length,
    x ≠ none ∧ s'.q.sent ++ s'.q.caravanBytes = (pdus.take (current s.q pdus)).flatten

section Carries

variable {q q' : NvmeTcpQueue} {pdus : List (List Byte)}

theorem waitingPdus_flatten (c : Config) (q : NvmeTcpQueue) :
    (waitingPdus c q).flatten = q.sendList.flatMap fun t => remainder c (q.reqs t) := rfl

theorem Carries.stream (h : Carries c q pdus) : q.sent ++ heldBytes c q = pdus.flatten := by
  unfold Carries at h
  unfold heldBytes
  rw [← waitingPdus_flatten]
  cases hreq : q.request with
  | none =>
    simp only [hreq] at h
    obtain ⟨before, rfl, hb⟩ := h
    simp [requestRest, hreq, ← hb]
  | some t =>
    simp only [hreq] at h
    obtain ⟨before, pdu, rfl, x, hx, hpdu, -⟩ := h
    rw [List.flatten_append, List.flatten_cons, hpdu, ← List.append_assoc, ← List.append_assoc, hx]
    simp only [List.append_assoc]

theorem Carries.of_eq (h : Carries c q pdus) (hr : q'.reqs = q.reqs) (hreq : q'.request = q.request)
    (hsent : q'.sent ++ q'.caravanBytes = q.sent ++ q.caravanBytes)
    (hl : q'.sendList = q.sendList) :
    Carries c q' pdus := by
  have hrest : requestRest c q'.toSendQueue = requestRest c q.toSendQueue := by
    unfold requestRest
    rw [hreq, hr]
  unfold Carries Gone waitingPdus at h ⊢
  rw [hreq, hl, hr, hsent, hrest]
  exact h

theorem Carries.replace (h : Carries c q pdus) {t : ℕ} (hu : Unused q t) (r : NvmeTcpRequest) :
    Carries c { q with toSendQueue := q.modifyReq t fun _ => r } pdus := by
  have hwait : waitingPdus c { q with toSendQueue := q.modifyReq t fun _ => r } = waitingPdus c q :=
    List.map_congr_left fun u hmem => by rw [waiting_replace hu r hmem]
  have hcar := caravanBytes_replace hu r
  have hrest := requestRest_replace (c := c) hu r
  have hrequest : (q.modifyReq t fun _ => r).request = q.request := rfl
  unfold Carries at h ⊢
  rw [hwait, hrequest]
  cases hreq : q.request with
  | none =>
    simp only [hreq] at h ⊢
    obtain ⟨before, hp, hb⟩ := h
    refine ⟨before, hp, ?_⟩
    rw [hcar]
    exact hb
  | some u =>
    simp only [hreq] at h ⊢
    obtain ⟨before, pdu, hp, x, hx, hpdu, hst⟩ := h
    refine ⟨before, pdu, hp, x, ?_, ?_, ?_⟩
    · rw [hcar]
      exact hx
    · rw [hrest]
      exact hpdu
    · rw [request_replace hu r hreq]
      exact hst

theorem Carries.submit {s : HostState} (h : Carries c s.q pdus) {t : ℕ} (hu : Unused s.q t)
    {r : NvmeTcpRequest} {pdu : List Byte} (hpdu : remainder c r = pdu) :
    Carries c (submit c s t r pdu).q (pdus ++ [pdu]) := by
  set q₀ : NvmeTcpQueue := { s.q with toSendQueue := s.q.modifyReq t fun _ => r }
  obtain ⟨hsq, hl, -, -⟩ := queueRequestLocked_fields c t q₀
  have hself : q₀.reqs t = r := modifyReq_reqs_self t s.q.toSendQueue fun _ => r
  have hwait : waitingPdus c (nvmeTcpQueueRequestLocked c t q₀).2 = waitingPdus c q₀ ++ [pdu] := by
    simp [waitingPdus, hsq, hl, hself, hpdu]
  have h₀ : Carries c q₀ pdus := h.replace hu r
  rw [submit_q]
  unfold Carries at h₀ ⊢
  rw [hwait, hsq]
  cases hreq : q₀.request with
  | none =>
    simp only [hreq] at h₀ ⊢
    obtain ⟨before, rfl, hb⟩ := h₀
    exact ⟨before, by simp, hb⟩
  | some u =>
    simp only [hreq] at h₀ ⊢
    obtain ⟨before, p, rfl, hg⟩ := h₀
    exact ⟨before, p, by simp, hg⟩

theorem Carries.dequeue (h : Carries c q pdus) (hw : ∀ t ∈ q.sendList, (q.reqs t).state ≠ .data) :
    Carries c (nvmeTcpTrySendDequeue c q).2 pdus := by
  obtain ⟨t, -, heq⟩ | ⟨t, rest, hreq, hlist, heq⟩ | ⟨-, -, -, -, heq⟩ | ⟨-, -, -, heq⟩ :=
    trySendDequeue_cases c q <;> rw [heq]
  · exact h
  · simp only [Carries, hreq] at h ⊢
    obtain ⟨before, rfl, hb⟩ := h
    refine ⟨before, remainder c (q.reqs t), by simp [waitingPdus, hlist], [], ?_, rfl, fun _ => ?_⟩
    · rw [List.append_nil, ← hb]
      rfl
    · simpa using hw t (by simp [hlist])
  · exact h.of_eq rfl rfl rfl rfl
  · exact h

theorem Carries.rest (hc : Thru c) (hd : c.dataDigest = false) (h : Carries c q pdus)
    (hok : QueueOk c q) (hs : Streams q) (hrep : q.replies = []) (nospace : Bool) :
    Carries c (nvmeTcpTrySendRest c nospace q).2 pdus := by
  obtain ⟨z, hsent, hcar⟩ := flushIf_bytes q.toSendQueue q.sendNow
  have hsum : (q.flushIf q.sendNow).sent ++
      (q.flushIf q.sendNow).caravanBytes = q.sent ++ q.caravanBytes := by
    rw [hsent, hcar, List.append_assoc]
  have hflush : Carries c { q with toSendQueue := q.flushIf q.sendNow } pdus :=
    h.of_eq (by simp) (by simp) hsum rfl
  obtain ⟨-, -, heq⟩ | ⟨hreq, heq⟩ | ⟨t, q', hreq, heq, hsteps⟩ :=
    trySendRest_cases hc hok hrep nospace <;>
    rw [heq]
  · exact h.of_eq rfl rfl rfl rfl
  · exact hflush
  · obtain ⟨hr, hmem⟩ := hok.active t hreq
    have hflow : Flowing t (q.flushIf q.sendNow) := hs.flowing hreq
    have hready : Ready c ((q.flushIf q.sendNow).reqs t) := by simpa using hr
    obtain ⟨-, -, hwork⟩ := steps_flow hd hready hflow hsteps
    have hother := (frame_of_steps hsteps.to_reflTransGen).others
    have hwait : waitingPdus c { q with toSendQueue := q' } = waitingPdus c q := by
      refine List.map_congr_left fun u hu => ?_
      have hut : u ≠ t := fun he => hmem (he ▸ hu)
      simp [hother u hut]
    have hwait' : waitingPdus c { q with toSendQueue := q.flushIf q.sendNow } =
        waitingPdus c q := by
      simp [waitingPdus]
    simp only [Carries, flushIf_request, hreq] at hflush
    obtain ⟨before, pdu, rfl, hg⟩ := hflush
    have hg' : Gone c t before.flatten pdu q' :=
      hg.steps hd hready (fun u => by simpa using (hok.good u).buf) hflow hsteps
    rw [hwait']
    unfold Carries
    rw [hwait]
    rcases hwork with ⟨hreq', -⟩ | ⟨hreq', -⟩
    · simp only [hreq']
      exact ⟨before, pdu, rfl, hg'⟩
    · obtain ⟨x, hx, hpdu, -⟩ := hg'
      simp only [hreq']
      refine ⟨before ++ [pdu], by simp, ?_⟩
      rw [hx, hpdu]
      simp [requestRest, hreq']

end Carries

/-! One answer to the caravan. -/

section Answer

variable {q : NvmeTcpQueue} {r : ℤ}

theorem sendRest_nonpos (hnow : q.sendNow = true) (hrep : q.replies = [.ret r]) (hr : r ≤ 0) :
    nvmeTcpTrySendRest c false q = (r, { q with replies := [] }) := by
  simp [nvmeTcpTrySendRest, trySendRest, hnow, SendQueue.kernelSend, hrep, hr]

/-- The queue after the socket took `n` bytes of the caravan: the whole of it is gone. -/
def SendQueue.cut (q : SendQueue) (n : ℕ) : SendQueue :=
  caravanSent { q with sent := q.sent ++ q.caravanBytes.take n, replies := [] }

theorem kernelSend_ret {q : SendQueue} {b : List Byte} {n : ℕ} (hrep : q.replies = [.ret n])
    (hn : 0 < n) (hle : n ≤ b.length) : q.kernelSend b =
      ((n : ℤ), { q with sent := q.sent ++ b.take n, replies := [] }) := by
  have hpos : ¬ (n : ℤ) ≤ 0 := by omega
  have hmin : min (n : ℤ).toNat b.length = n := by simpa using hle
  unfold SendQueue.kernelSend
  simp only [hrep, if_neg hpos, hmin]

theorem trySendRest_ret {aggr : ℕ} {legacy : Bool} {q : SendQueue} {n : ℕ}
    (hrep : q.replies = [.ret n]) (hn : 0 < n) (hle : n ≤ q.caravanBytes.length) :
    trySendRest c aggr legacy true false q =
      match q.request with
      | none => (0, q.cut n)
      | some t => trySendReq c aggr legacy t (q.cut n) := by
  have hpos : ¬ (n : ℤ) ≤ 0 := by omega
  simp only [trySendRest, if_true, Bool.false_eq_true, if_false, kernelSend_ret hrep hn hle,
    if_neg hpos]
  rfl

theorem sendRest_eq (hc : Thru c) (hp : q.prioClass = 0) (hnow : q.sendNow = true) :
    nvmeTcpTrySendRest c false q =
      ((trySendRest c I10_MAX_AGGREGATION_SIZE false true false q.toSendQueue).1,
        { q with
          toSendQueue :=
            (trySendRest c I10_MAX_AGGREGATION_SIZE false true false q.toSendQueue).2 }) := by
  unfold nvmeTcpTrySendRest
  rw [hc.legacy hp, hnow]

theorem QueueOk.caravanLen_pos (h : QueueOk c q) (hnow : q.sendNow = true) : 0 < q.caravanLen :=
  Nat.pos_of_ne_zero fun h0 => h.now hnow (h.caravan.len_eq_zero.1 h0)

theorem sendRest_whole (hc : Thru c) (h : QueueOk c q) (hnow : q.sendNow = true)
    (hrep : q.replies = [.ret q.caravanLen]) :
    nvmeTcpTrySendRest c false q = nvmeTcpTrySendRest c false { q with replies := [] } := by
  have hlen := caravanBytes_length h.caravan fun t => (h.good t).buf
  set q₀ : SendQueue := { q.toSendQueue with replies := [] }
  have hcut : q.cut q.caravanLen = q₀.flushIf true := by
    have htake : q.caravanBytes.take q.caravanLen =
      q.caravanBytes := by rw [← hlen, List.take_length]
    unfold SendQueue.cut
    rw [htake]
    rfl
  have h₁ := @trySendRest_ret c I10_MAX_AGGREGATION_SIZE false q.toSendQueue _ hrep
    (h.caravanLen_pos hnow) hlen.ge
  have h₀ := @trySendRest_all c I10_MAX_AGGREGATION_SIZE false true false q₀ rfl fun _ =>
    h.caravanBytes_ne hnow
  have heq : trySendRest c I10_MAX_AGGREGATION_SIZE false true false q.toSendQueue =
      trySendRest c I10_MAX_AGGREGATION_SIZE false true false q₀ := by
    rw [h₁, h₀, hcut]
    rfl
  have e₀ := @sendRest_eq c { q with replies := [] } hc h.prio hnow
  rw [e₀, sendRest_eq hc h.prio hnow, heq]

/-- After a send of `n` bytes the whole caravan is gone, and so is what the socket did not take. -/
theorem sendRest_part (hc : Thru c) (hd : c.dataDigest = false) (h : QueueOk c q) (hs : Streams q)
    (hnow : q.sendNow = true) {n : ℕ} (hrep : q.replies = [.ret n]) (hn : 0 < n)
    (hle : n ≤ q.caravanLen) :
    0 ≤ (nvmeTcpTrySendRest c false q).1 ∧
      (nvmeTcpTrySendRest c false q).2.sent ++ heldBytes c (nvmeTcpTrySendRest c false q).2 =
        q.sent ++ q.caravanBytes.take n ++ requestRest c q.toSendQueue ++
          (waitingPdus c q).flatten := by
  have hlen := caravanBytes_length h.caravan fun t => (h.good t).buf
  rw [sendRest_eq hc h.prio hnow, trySendRest_ret hrep hn (hle.trans hlen.ge)]
  set q₁ : SendQueue := q.cut n
  have hsent₁ : q₁.sent = q.sent ++ q.caravanBytes.take n := rfl
  have hrest : requestRest c q₁ = requestRest c q.toSendQueue := rfl
  have hempty : q₁.caravanBytes = [] := rfl
  cases hreq : q.request with
  | none =>
    refine ⟨le_rfl, ?_⟩
    simp only [heldBytes, hempty, hrest, hsent₁, List.nil_append, List.append_assoc]
    rfl
  | some t =>
    obtain ⟨hr, hmem⟩ := h.active t hreq
    have hflow : Flowing t q₁ := by
      refine ⟨hs.sound t, fun _ => ?_⟩
      have hact := hs.active t hreq
      change if (q.reqs t).state = .data then Exact (q.reqs t) else NotIn q₁ t
      split_ifs at hact ⊢
      · exact hact
      · exact fun k hk => absurd hk List.not_mem_nil
    obtain ⟨q', heq, hsteps⟩ := @trySendReq_steps c I10_MAX_AGGREGATION_SIZE t q₁ rfl hreq hr
    have hr₁ : Ready c (q₁.reqs t) := hr
    obtain ⟨⟨hsent, hbytes⟩, -, -⟩ := steps_flow hd hr₁ hflow hsteps
    have hother := (frame_of_steps hsteps.to_reflTransGen).others
    have hwait : (q.sendList.flatMap fun u => remainder c (q'.reqs u)) =
        (waitingPdus c q).flatten := by
      rw [waitingPdus_flatten]
      refine List.flatMap_congr fun u hu => ?_
      have hut : u ≠ t := fun he => hmem (he ▸ hu)
      rw [hother u hut]
      rfl
    rw [hempty, List.nil_append, hrest] at hbytes
    simp only [heq]
    refine ⟨by decide, ?_⟩
    unfold heldBytes
    rw [hwait, hbytes, hsent, hsent₁]
    simp only [List.append_assoc]

end Answer

/-! The request that is given up. -/

section GiveUp

variable {q : NvmeTcpQueue} {pdus : List (List Byte)}

def dropRequest (q : NvmeTcpQueue) : NvmeTcpQueue :=
  { q with toSendQueue := nvmeTcpDoneSendReq q.toSendQueue }

theorem QueueOk.dropRequest (h : QueueOk c q) : QueueOk c (dropRequest q) :=
  ⟨⟨h.good, h.nodup, fun _ hu => absurd hu (by simp [Host.dropRequest, nvmeTcpDoneSendReq]),
    h.waiting⟩, h.prio, ⟨h.caravan.len, h.caravan.entry, h.caravan.mapped⟩, h.now⟩

theorem Streams.dropRequest (h : Streams q) : Streams (dropRequest q) :=
  ⟨h.sound, fun _ hu => absurd hu (by simp [Host.dropRequest, nvmeTcpDoneSendReq]), h.waiting⟩

theorem Carries.split (h : Carries c q pdus) {t : ℕ} (hreq : q.request = some t) :
    ∃ x before pdu, pdus = before ++ pdu :: waitingPdus c q ∧ current q pdus = before.length ∧
      q.sent ++ q.caravanBytes = before.flatten ++ x ∧ (x ≠ [] ↔ (q.reqs t).state = .data) := by
  simp only [Carries, hreq] at h
  obtain ⟨before, pdu, hp, x, hx, -, hst⟩ := h
  refine ⟨x, before, pdu, hp, ?_, hx, hst hreq⟩
  rw [hp]
  simp [current, waitingPdus]
  omega

theorem Carries.dropRequest (h : Carries c q pdus) {t : ℕ} (hreq : q.request = some t)
    (hst : (q.reqs t).state ≠ .data) :
    Carries c (dropRequest q) (pdus.eraseIdx (current q pdus)) ∧
      q.sent ++ q.caravanBytes = (pdus.take (current q pdus)).flatten := by
  obtain ⟨x, before, pdu, hp, hcur, hx, hiff⟩ := h.split hreq
  have hnil : x = [] := by
    by_contra hne
    exact hst (hiff.1 hne)
  rw [hnil, List.append_nil] at hx
  rw [hcur, hp, List.take_left]
  refine ⟨⟨before, ?_, hx⟩, hx⟩
  rw [List.eraseIdx_append_of_length_le le_rfl, Nat.sub_self]
  rfl

end GiveUp

section Step

variable {s s' : HostState} {l : Lane} {r : ℤ} {pdus : List (List Byte)}

theorem untouched_iff (q : SendQueue) :
    untouched q = true ↔ ∃ t, q.request = some t ∧ (q.reqs t).state ≠ .data := by
  simp [untouched, Option.any_eq_true]

theorem hostStep_nonpos (hnow : s.q.sendNow = true) (hr : r ≤ 0)
    (hstep : hostStep c s (.sendRest l false [.ret r]) = some s') :
    r = 0 ∧ s' = ({ s with q := { s.q with replies := [] } } : HostState).setPc l (.recv 0) ∨
      r < 0 ∧ s' = sendFailed { s with q := { s.q with replies := [] } } l r := by
  simp only [hostStep, Option.ite_none_right_eq_some, Option.some.injEq] at hstep
  obtain ⟨-, hstep⟩ := hstep
  have heq := @sendRest_nonpos c { s.q with replies := [.ret r] } r hnow rfl hr
  rw [heq] at hstep
  rcases hr.lt_or_eq with hlt | rfl
  · exact .inr ⟨hlt, by rw [← hstep, if_pos hlt]⟩
  · exact .inl ⟨rfl, by rw [← hstep, if_neg (lt_irrefl 0)]⟩

theorem hostStep_whole (hc : Thru c) (hq : QueueOk c s.q) (hnow : s.q.sendNow = true)
    (hstep : hostStep c s (.sendRest l false [.ret s.q.caravanLen]) = some s') :
    ∃ ret, s' = ({ s with q := (nvmeTcpTrySendRest c false { s.q with replies := [] }).2 } :
      HostState).setPc l (.recv ret) := by
  simp only [hostStep, Option.ite_none_right_eq_some, Option.some.injEq] at hstep
  obtain ⟨-, hstep⟩ := hstep
  have hq' : QueueOk c { s.q with replies := [.ret s.q.caravanLen] } := hq.withSocket _ _
  have hq₀ : QueueOk c { s.q with replies := [] } := hq.withSocket _ _
  rw [sendRest_whole hc hq' hnow rfl] at hstep
  have hnn := sendRest_nonneg hc hq₀ rfl false
  exact ⟨_, by rw [← hstep]; exact if_neg hnn.not_gt⟩

theorem hostStep_short (hc : Thru c) (hd : c.dataDigest = false) (hq : QueueOk c s.q)
    (hs : Streams s.q) (hnow : s.q.sendNow = true) {n : ℕ} (hn : 0 < n) (hle : n ≤ s.q.caravanLen)
    (hstep : hostStep c s (.sendRest l false [.ret n]) = some s') :
    s'.failed = s.failed ∧ s'.q.sent ++ heldBytes c s'.q =
      s.q.sent ++ s.q.caravanBytes.take n ++ requestRest c s.q.toSendQueue ++
        (waitingPdus c s.q).flatten := by
  simp only [hostStep, Option.ite_none_right_eq_some, Option.some.injEq] at hstep
  obtain ⟨-, hstep⟩ := hstep
  have hq' : QueueOk c { s.q with replies := [.ret n] } := hq.withSocket _ _
  have hs' : Streams { s.q with replies := [.ret n] } := ⟨hs.sound, hs.active, hs.waiting⟩
  obtain ⟨hnn, hbytes⟩ := sendRest_part hc hd hq' hs' hnow rfl hn hle
  rw [if_neg hnn.not_gt] at hstep
  rw [← hstep]
  exact ⟨rfl, hbytes⟩

/-- The answers the queue copes with keep it carrying its PDUs, unless the connection goes. -/
theorem answer_carries (hc : Thru c) (hd : c.dataDigest = false) (hq : QueueOk c s.q)
    (hs : Streams s.q) (hcar : Carries c s.q pdus) (hnow : s.q.sendNow = true) (hb : Benign s.q r)
    (hpipe : r ≠ -EPIPE) (hreset : r ≠ -ECONNRESET)
    (hstep : hostStep c s (.sendRest l false [.ret r]) = some s') :
    QueueOk c s'.q ∧ Streams s'.q ∧ s'.submitted = s.submitted ∧
      (s'.failed = s.failed ∧ Carries c s'.q pdus ∨
        ∃ t, s'.failed = s.failed ++ [some t] ∧ Carries c s'.q (pdus.eraseIdx (current s.q pdus)) ∧
          s'.q.sent ++ s'.q.caravanBytes = (pdus.take (current s.q pdus)).flatten) := by
  have hq₀ : QueueOk c { s.q with replies := [] } := hq.withSocket _ _
  have hs₀ : Streams { s.q with replies := [] } := ⟨hs.sound, hs.active, hs.waiting⟩
  have hcar₀ : Carries c { s.q with replies := [] } pdus := hcar.of_eq rfl rfl rfl rfl
  rcases hb with rfl | rfl | rfl | rfl | ⟨hneg, hun⟩
  · obtain ⟨ret, rfl⟩ := hostStep_whole hc hq hnow hstep
    exact ⟨hq₀.rest hc rfl false, (rest_emits hc hd hq₀ hs₀ rfl false).1, rfl,
      .inl ⟨rfl, hcar₀.rest hc hd hq₀ hs₀ rfl false⟩⟩
  · obtain ⟨-, rfl⟩ | ⟨hlt, -⟩ := hostStep_nonpos hnow le_rfl hstep
    · exact ⟨hq₀, hs₀, rfl, .inl ⟨rfl, hcar₀⟩⟩
    · exact absurd hlt (lt_irrefl 0)
  · exact absurd rfl hpipe
  · exact absurd rfl hreset
  · obtain ⟨h0, -⟩ | ⟨-, rfl⟩ := hostStep_nonpos hnow hneg.le hstep
    · exact absurd h0 hneg.ne
    · obtain ⟨t, hreq, hst⟩ := (untouched_iff _).1 hun
      obtain ⟨hcar', hsent⟩ := Carries.dropRequest hcar₀ hreq hst
      simp only [sendFailed, if_pos (And.intro hpipe hreset)]
      refine ⟨hq₀.dropRequest, hs₀.dropRequest, rfl, .inr ⟨t, ?_, hcar', hsent⟩⟩
      change s.failed ++ [s.q.request] = _
      rw [hreq]

/-- An error that is not the peer's closing gives up whatever `queue->request` is. -/
theorem hostStep_failed (hnow : s.q.sendNow = true) (hneg : r < 0) (hpipe : r ≠ -EPIPE)
    (hreset : r ≠ -ECONNRESET) (hstep : hostStep c s (.sendRest l false [.ret r]) = some s') :
    s'.failed = s.failed ++ [s.q.request] ∧
      s'.q.sent ++ s'.q.caravanBytes = s.q.sent ++ s.q.caravanBytes := by
  obtain ⟨h0, -⟩ | ⟨-, rfl⟩ := hostStep_nonpos hnow hneg.le hstep
  · exact absurd h0 hneg.ne
  · simp only [sendFailed, if_pos (And.intro hpipe hreset)]
    exact ⟨rfl, rfl⟩

theorem kept_of_benign (hc : Thru c) (hd : c.dataDigest = false) (hq : QueueOk c s.q)
    (hs : Streams s.q) (hcar : Carries c s.q pdus) (hnow : s.q.sendNow = true) (hb : Benign s.q r)
    (hstep : hostStep c s (.sendRest l false [.ret r]) = some s') : Kept c pdus s s' r := by
  by_cases hdown : r = -EPIPE ∨ r = -ECONNRESET
  · have hneg : r < 0 := by rcases hdown with rfl | rfl <;> decide
    obtain ⟨h0, -⟩ | ⟨-, rfl⟩ := hostStep_nonpos hnow hneg.le hstep
    · exact absurd h0 hneg.ne
    · refine ⟨by rcases hdown with h | h <;> simp [h], ?_⟩
      have hcond : ¬ (r ≠ -EPIPE ∧ r ≠ -ECONNRESET) := by
        rintro ⟨h1, h2⟩
        exact hdown.elim h1 h2
      simp only [sendFailed, if_neg hcond]
      simp [HostState.setPc]
  · obtain ⟨hpipe, hreset⟩ := not_or.1 hdown
    obtain ⟨-, -, -, ⟨hf, hcar'⟩ | ⟨t, hf, hcar', hsent⟩⟩ :=
      answer_carries hc hd hq hs hcar hnow hb hpipe hreset hstep
    · exact ⟨.inr (.inr (by rw [if_pos hf]; exact hcar'.stream)), by simp [hf]⟩
    · refine ⟨.inr (.inr ?_), fun x hx => ⟨?_, hsent⟩⟩
      · rw [if_neg (by simp [hf])]
        exact hcar'.stream
      · rw [hf, List.drop_left] at hx
        simp [List.mem_singleton.1 hx]

theorem benign_of_kept (hc : Thru c) (hd : c.dataDigest = false) (hq : QueueOk c s.q)
    (hs : Streams s.q) (hcar : Carries c s.q pdus) (hnow : s.q.sendNow = true)
    (hle : r ≤ s.q.caravanLen) (hstep : hostStep c s (.sendRest l false [.ret r]) = some s')
    (hk : Kept c pdus s s' r) : Benign s.q r := by
  by_contra hb
  simp only [Benign, not_or, not_and, Bool.not_eq_true] at hb
  obtain ⟨hlen, h0, hpipe, hreset, hneg⟩ := hb
  rcases lt_trichotomy r 0 with hlt | rfl | hpos
  · obtain ⟨hf, hsent⟩ := hostStep_failed hnow hlt hpipe hreset hstep
    obtain ⟨hsome, hgone⟩ := hk.failed s.q.request (by rw [hf, List.drop_left]; simp)
    obtain ⟨t, hreq⟩ := Option.ne_none_iff_exists'.1 hsome
    obtain ⟨x, before, pdu, hp, hcur, hx, hst⟩ := hcar.split hreq
    -- nothing of it is in the caravan, so it is not in its data
    have hnil : x = [] := by
      rw [hsent, hx, hcur, hp, List.take_left] at hgone
      simpa using hgone
    have hun : untouched s.q.toSendQueue = true :=
      (untouched_iff _).2 ⟨t, hreq, fun hdata => hst.2 hdata hnil⟩
    rw [hneg hlt] at hun
    cases hun
  · exact h0 rfl
  · obtain ⟨n, rfl⟩ := Int.eq_ofNat_of_zero_le hpos.le
    have hn : 0 < n := by exact_mod_cast hpos
    have hshort : n < s.q.caravanLen := by
      have hle' : n ≤ s.q.caravanLen := by exact_mod_cast hle
      exact lt_of_le_of_ne hle' fun he => hlen (by rw [he])
    obtain ⟨hf, hbytes⟩ := hostStep_short hc hd hq hs hnow hn hshort.le hstep
    have hstream := hk.stream.resolve_left hpipe |>.resolve_left hreset
    rw [if_pos hf, hbytes, ← hcar.stream] at hstream
    have hcount := congrArg List.length hstream
    have hcl := caravanBytes_length hq.caravan fun t => (hq.good t).buf
    simp only [heldBytes, ← waitingPdus_flatten, List.length_append, List.length_take,
      hcl] at hcount
    omega

/-- Whatever else happens, the queue goes on carrying a list of the submitted PDUs. -/
theorem carries_step (hc : Thru c) (hd : c.dataDigest = false) {e : HostEvent}
    (h : QueueOk c s.q ∧ Streams s.q ∧ ∃ pdus, pdus.Sublist s.submitted ∧ Carries c s.q pdus)
    (hok : Conforming s e ∧ WholeWrites s e ∧ Gentle s e) (hstep : hostStep c s e = some s') :
    QueueOk c s'.q ∧ Streams s'.q ∧ ∃ pdus, pdus.Sublist s'.submitted ∧ Carries c s'.q pdus := by
  obtain ⟨hq, hs, pdus, hsub, hcar⟩ := h
  obtain ⟨hconf, hwhole, hgentle⟩ := hok
  by_cases hrest : ∃ l nospace replies, e = .sendRest l nospace replies
  · obtain ⟨l, nospace, replies, rfl⟩ := hrest
    unfold Gentle at hgentle
    split at hgentle
    next l' nospace' heq =>
      obtain ⟨rfl, rfl, rfl⟩ := HostEvent.sendRest.inj heq
      have hq₀ : QueueOk c { s.q with replies := [] } := hq.withSocket _ _
      have hs₀ : Streams { s.q with replies := [] } := ⟨hs.sound, hs.active, hs.waiting⟩
      have hcar₀ : Carries c { s.q with replies := [] } pdus := hcar.of_eq rfl rfl rfl rfl
      obtain ⟨⟨hq', hs'⟩, -⟩ := caravan_moves hc hd ⟨hq, hs⟩ ⟨hconf, rfl, hwhole⟩ hstep
      simp only [hostStep, Option.ite_none_right_eq_some, Option.some.injEq] at hstep
      obtain ⟨-, rfl⟩ := hstep
      rw [if_neg (sendRest_nonneg hc hq₀ rfl nospace).not_gt] at hq' hs' ⊢
      exact ⟨hq', hs', pdus, hsub, hcar₀.rest hc hd hq₀ hs₀ rfl nospace⟩
    next l' r heq =>
      obtain ⟨rfl, rfl, rfl⟩ := HostEvent.sendRest.inj heq
      obtain ⟨hnow, hb, hpipe, hreset⟩ := hgentle
      obtain ⟨hq', hs', hsub', ⟨-, hcar'⟩ | ⟨-, -, hcar', -⟩⟩ :=
        answer_carries hc hd hq hs hcar hnow hb hpipe hreset hstep
      · exact ⟨hq', hs', pdus, hsub' ▸ hsub, hcar'⟩
      · exact ⟨hq', hs', _, hsub' ▸ (List.eraseIdx_sublist _ _).trans hsub, hcar'⟩
    next => exact hgentle.elim
    next hne => exact absurd rfl (hne l nospace replies)
  · have hne : ∀ l nospace replies, e ≠ .sendRest l nospace replies :=
      fun l nospace replies he => hrest ⟨l, nospace, replies, he⟩
    have htakes : TakesCaravan s e := by
      cases e with
      | sendRest l nospace replies => exact absurd rfl (hne l nospace replies)
      | _ => trivial
    obtain ⟨⟨hq', hs'⟩, -⟩ := caravan_moves hc hd ⟨hq, hs⟩ ⟨hconf, htakes, hwhole⟩ hstep
    refine ⟨hq', hs', ?_⟩
    obtain ⟨t, r, pdu, hu, hr, hpdu, hplen, rfl⟩ | ⟨hsub',
        ⟨t, r, hu, hr, heq⟩ | ⟨d, n, b, heq⟩ | heq⟩ :=
      hostStep_stream hd hq.toListOk hs hconf hwhole hne hstep
    · exact ⟨pdus ++ [pdu], hsub.append (List.Sublist.refl _), hcar.submit hu hpdu⟩
    · exact ⟨pdus, hsub' ▸ hsub, heq ▸ hcar.replace hu r⟩
    · exact ⟨pdus, hsub' ▸ hsub, heq ▸ hcar.of_eq rfl rfl rfl rfl⟩
    · exact ⟨pdus, hsub' ▸ hsub, heq ▸ hcar.dequeue fun t ht => (hq.waiting t ht).2⟩

end Step

theorem carries_init (c : Config) : Carries c (hostSystem c).init.q [] := ⟨[], rfl, rfl⟩

/-- A queue that has come this far carries submitted PDUs, and loses nothing by an answer to its
caravan exactly when that answer is the whole caravan, nothing, the end of the connection, or an
error that strikes a request none of which has been handed over. -/
theorem send_answer_kept_iff (hc : Thru c) (hd : c.dataDigest = false) {es : List HostEvent}
    {s : HostState} (hrun : (hostSystem c).RunIn
      (fun s e => Conforming s e ∧ WholeWrites s e ∧ Gentle s e) es s) :
    (∃ pdus, pdus.Sublist s.submitted ∧ Carries c s.q pdus) ∧
      ∀ pdus l (r : ℤ) s', Carries c s.q pdus → s.q.sendNow = true → r ≤ s.q.caravanLen →
        hostStep c s (.sendRest l false [.ret r]) = some s' →
          (Kept c pdus s s' r ↔ Benign s.q r) := by
  obtain ⟨hq, hs, hcar⟩ := hrun.invariant
    (I := fun s => QueueOk c s.q ∧ Streams s.q ∧ ∃ pdus, pdus.Sublist s.submitted ∧
      Carries c s.q pdus)
    ⟨queueOk_init c, Streams.init c, [], List.nil_sublist _, carries_init c⟩
    (fun s e s' => @carries_step c s s' hc hd e)
  refine ⟨hcar, fun pdus l r s' hcar hnow hle hstep => ⟨?_, ?_⟩⟩
  · exact benign_of_kept hc hd hq hs hcar hnow hle hstep
  · exact fun hb => kept_of_benign hc hd hq hs hcar hnow hb hstep

instance (s : HostState) : (e : HostEvent) → Decidable (Gentle s e)
  | .sendRest _ false [.ret _] => inferInstanceAs (Decidable (_ ∧ _))
  | .sendRest _ false (.ret _ :: _ :: _) | .sendRest _ true (.ret _ :: []) | .sendRest _ true
    (.ret _ :: _ :: _)
  | .sendRest _ false (.all :: _) | .sendRest _ true (.all :: _) => .isFalse id
  | .sendRest _ _ [] => .isTrue trivial
  | .queueRq _ _ | .handleR2t _ _ | .requestUnlocked _ | .doorbellTimeout | .dataReady | .writeSpace
  | .workStart _ | .sendDequeue _ | .tryRecv _ _ _ => .isTrue trivial

/-- A flush has raised `send_now`; a read is picked up behind it. -/
def raisedRun : List HostEvent :=
  [.queueRq 1 sampleFlush, .requestUnlocked 0, .workStart .thru, .sendDequeue .thru,
    .sendRest .thru false [], .tryRecv .thru false false, .queueRq 0 sampleRead, .sendDequeue .thru]

/-- The read is failed and nothing is lost: nothing of it had been handed over. -/
theorem send_answer_kept_untouched :
    ∃ s s' pdus, (hostSystem sampleConfig).RunIn
      (fun s e => Conforming s e ∧ WholeWrites s e ∧ Gentle s e) raisedRun s ∧
      hostStep sampleConfig s (.sendRest .thru false [.ret (-EAGAIN)]) = some s' ∧
      s'.failed = [some 0] ∧ Kept sampleConfig pdus s s' (-EAGAIN) := by
  obtain ⟨s, hrun, hnow, hun, hf⟩ : ∃ s, (hostSystem sampleConfig).RunIn
      (fun s e => Conforming s e ∧ WholeWrites s e ∧ Gentle s e) raisedRun s ∧
      s.q.sendNow = true ∧ untouched s.q.toSendQueue = true ∧
      ((hostStep sampleConfig s (.sendRest .thru false [.ret (-EAGAIN)])).map HostState.failed) =
        some [some 0] :=
    Runs.System.exists_runIn_of_execIn
      (fun s => s.q.sendNow = true ∧ untouched s.q.toSendQueue = true ∧
      ((hostStep sampleConfig s (.sendRest .thru false [.ret (-EAGAIN)])).map HostState.failed) =
      some [some 0])
      (by decide +kernel)
  obtain ⟨s', hstep, hf'⟩ := Option.map_eq_some_iff.1 hf
  obtain ⟨⟨pdus, -, hcar⟩, hiff⟩ := send_answer_kept_iff sampleConfig_thru rfl hrun
  have hle : (-EAGAIN : ℤ) ≤ s.q.caravanLen := le_trans (by decide) (Int.natCast_nonneg _)
  exact ⟨s, s', pdus, hrun, hstep, hf',
    (hiff pdus .thru _ s' hcar hnow hle hstep).2 (.inr (.inr (.inr (.inr ⟨by decide, hun⟩))))⟩

/-- With nothing but the flush in the caravan and `queue->request` NULL, -EAGAIN from the socket
makes the worker fail NULL, and a send of 10 bytes loses the other 62. -/
theorem send_answer_loses_caravan :
    ∃ s, (hostSystem sampleConfig).RunIn
      (fun s e => Conforming s e ∧ WholeWrites s e ∧ TakesCaravan s e)
        [.queueRq 1 sampleFlush, .requestUnlocked 0, .workStart .thru, .sendDequeue .thru,
          .sendRest .thru false [], .tryRecv .thru false false, .sendDequeue .thru] s ∧
      s.q.sendNow = true ∧ Carries sampleConfig s.q s.submitted ∧
      (∃ s', hostStep sampleConfig s (.sendRest .thru false [.ret (-EAGAIN)]) = some s' ∧
      s'.failed = [none] ∧
        ¬ Kept sampleConfig s.submitted s s' (-EAGAIN)) ∧
      ∃ s', hostStep sampleConfig s (.sendRest .thru false [.ret 10]) = some s' ∧
        (s'.q.sent ++ heldBytes sampleConfig s'.q).length = 10 ∧ s.submitted.flatten.length = 72 ∧
        ¬ Kept sampleConfig s.submitted s s' 10 := by
  obtain ⟨s, hrun, hnow, hreq, hlist, hsent, hf0, hf, hshort, hlen⟩ : ∃ s,
    (hostSystem sampleConfig).RunIn
      (fun s e => Conforming s e ∧ WholeWrites s e ∧ TakesCaravan s e)
      [.queueRq 1 sampleFlush, .requestUnlocked 0, .workStart .thru, .sendDequeue .thru,
        .sendRest .thru false [], .tryRecv .thru false false, .sendDequeue .thru] s ∧
      s.q.sendNow = true ∧ s.q.request = none ∧ s.q.sendList = [] ∧
      s.q.sent ++ s.q.caravanBytes = s.submitted.flatten ∧ s.failed = [] ∧
      ((hostStep sampleConfig s (.sendRest .thru false [.ret (-EAGAIN)])).map HostState.failed) =
      some [none] ∧ ((hostStep sampleConfig s (.sendRest .thru false [.ret 10])).map fun s' =>
        (s'.failed, (s'.q.sent ++ heldBytes sampleConfig s'.q).length)) = some ([], 10) ∧
      s.submitted.flatten.length = 72 :=
    Runs.System.exists_runIn_of_execIn
      (fun s => s.q.sendNow = true ∧ s.q.request = none ∧ s.q.sendList = [] ∧
      s.q.sent ++ s.q.caravanBytes = s.submitted.flatten ∧ s.failed = [] ∧
      ((hostStep sampleConfig s (.sendRest .thru false [.ret (-EAGAIN)])).map HostState.failed) =
      some [none] ∧ ((hostStep sampleConfig s (.sendRest .thru false [.ret 10])).map fun s' =>
        (s'.failed, (s'.q.sent ++ heldBytes sampleConfig s'.q).length)) = some ([], 10) ∧
      s.submitted.flatten.length = 72) (by decide +kernel)
  have hcar : Carries sampleConfig s.q s.submitted := by
    simp only [Carries, hreq]
    exact ⟨s.submitted, by simp [waitingPdus, hlist], hsent⟩
  obtain ⟨s₁, hstep₁, hf₁⟩ := Option.map_eq_some_iff.1 hf
  obtain ⟨s₂, hstep₂, heq₂⟩ := Option.map_eq_some_iff.1 hshort
  obtain ⟨hf₂, hlen₂⟩ := Prod.mk.inj heq₂
  refine ⟨s, hrun, hnow, hcar, ⟨s₁, hstep₁, hf₁, fun hk => ?_⟩, s₂, hstep₂, hlen₂, hlen,
    fun hk => ?_⟩
  · exact (hk.failed none (by simp [hf₁, hf0])).1 rfl
  · have hstream := (hk.stream.resolve_left (by decide)).resolve_left (by decide)
    rw [if_pos (hf₂.trans hf0.symm)] at hstream
    rw [hstream, hlen] at hlen₂
    cases hlen₂

end BlkSwitch.Host
