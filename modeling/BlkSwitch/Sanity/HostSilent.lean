import BlkSwitch.Proofs.HostCounter

/-! A request of which only the command goes out: its data does not follow the command, and no R2T
has been handled for it. Whatever the send path does, it is the same request afterwards, with
nothing of its data sent. -/

namespace BlkSwitch.Host

open SendQueue

/-- Nothing of the data of `rq` has been sent, and none is about to be. -/
structure Silent (c : Config) (rq : Rq) (r : NvmeTcpRequest) : Prop where
  same : r.rq = rq
  state : r.state = .cmdPdu
  len : r.dataLen = rq.dataLen
  sent : r.dataSent = 0
  apart : rq.write = true → nvmeTcpInlineDataSize c < rq.dataLen

variable {c : Config} {aggr t : ℕ} {legacy : Bool} {rq : Rq} {q : SendQueue} {r : NvmeTcpRequest}

theorem Silent.not_inline (h : Silent c rq r) : r.hasInlineData c = false := by
  have := h.apart
  simp only [NvmeTcpRequest.hasInlineData, h.same, h.len]
  cases hw : rq.write with
  | false => rfl
  | true => simp [hw] at this ⊢; omega

theorem Silent.buffers (h : Silent c rq r) (pdu : List Byte) (offset : ℕ) :
    Silent c rq { r with pdu := pdu, offset := offset } :=
  ⟨h.same, h.state, h.len, h.sent, h.apart⟩

theorem emit_reqs (aggr : ℕ) (legacy : Bool) (q : SendQueue) (k : Kvec) :
    (q.emit aggr legacy k).2.reqs = q.reqs := by
  unfold SendQueue.emit
  split_ifs
  · exact (kernelSend_reqs q _).1
  · rfl
  · rfl

theorem Silent.hdr (h : Silent c rq (q.reqs t)) {size : ℕ} {sendNow : Bool}
    {done : SendQueue → SendQueue} (hdone : ∀ q, (done q).reqs = q.reqs) :
    Silent c rq ((trySendHdr c aggr legacy t size sendNow done q).2.reqs t) := by
  unfold trySendHdr
  dsimp only
  generalize hq₁ : (if c.hdrDigest = true ∧ (q.reqs t).offset = 0 then
    q.modifyReq t (nvmeTcpHdgst c size) else q) = q₁
  have h₁ : Silent c rq (q₁.reqs t) := by
    rw [← hq₁]
    split_ifs
    · rw [modifyReq_reqs_self]
      exact h.buffers _ _
    · exact h
  generalize (⟨.pdu t (if legacy then (q.reqs t).offset else size * (q.reqs t).offset),
    size + nvmeTcpHdgstLen c - (q.reqs t).offset⟩ : Kvec) = k
  have hemit := emit_reqs aggr legacy q₁ k
  rcases he : q₁.emit aggr legacy k with ⟨_ | ret, q₂⟩
  · rw [he] at hemit
    dsimp only at hemit ⊢
    rw [hemit]
    exact h₁
  · rw [he] at hemit
    dsimp only at hemit ⊢
    have hnow : (if (!legacy && sendNow) = true then { q₂ with sendNow := true } else q₂).reqs =
        q₁.reqs := by
      split_ifs <;> exact hemit
    generalize (if (!legacy && sendNow) = true then { q₂ with sendNow := true } else q₂) =
      q₃ at hnow ⊢
    split_ifs
    · dsimp only
      rw [hnow]
      exact h₁
    · dsimp only
      rw [hdone, hnow]
      exact h₁
    · dsimp only
      rw [modifyReq_reqs_self, hnow]
      exact h₁.buffers _ _

theorem Silent.cmdPdu (h : Silent c rq (q.reqs t)) (aggr : ℕ) (legacy : Bool) :
    Silent c rq ((nvmeTcpTrySendCmdPdu c aggr legacy t q).2.reqs t) := by
  refine h.hdr fun q' => ?_
  rw [if_neg (by simp [h.not_inline])]
  rfl

theorem Silent.req (h : Silent c rq (q.reqs t)) :
    Silent c rq ((trySendReq c aggr legacy t q).2.reqs t) := by
  have hcmd := h.cmdPdu aggr legacy
  have hstate : stateOf t q = .cmdPdu := h.state
  unfold trySendReq
  dsimp only
  rw [stage, if_pos hstate]
  generalize nvmeTcpTrySendCmdPdu c aggr legacy t q = p at hcmd ⊢
  dsimp only
  split_ifs with h1 h2
  · exact hcmd
  · exact hcmd
  · exact absurd ⟨h.state, hcmd.not_inline⟩ h2

theorem Silent.rest (h : Silent c rq (q.reqs t)) (flush nospace : Bool) :
    Silent c rq ((trySendRest c aggr legacy flush nospace q).2.reqs t) := by
  cases hreq : q.request with
  | none =>
    rw [(trySendRest_none c aggr legacy flush nospace hreq).1]
    exact h
  | some u =>
    by_cases hu : t = u
    · subst hu
      obtain ⟨hreqs, hsame⟩ := kernelSend_reqs q q.caravanBytes
      unfold trySendRest
      dsimp only
      generalize q.kernelSend q.caravanBytes = p at hreqs hsame ⊢
      have hsent : (caravanSent p.2).request = some t := hsame.trans hreq
      have hp : Silent c rq (p.2.reqs t) := by
        rw [hreqs]
        exact h
      split_ifs
      · exact h
      · exact hp
      · rw [hsent]
        exact Silent.req hp
      · rw [hreq]
        exact h.req
    · rw [(trySendRest_touches c aggr legacy flush nospace hreq).others t hu]
      exact h

theorem silent_setupCmdPdu (rq : Rq) (r : NvmeTcpRequest)
    (h : rq.write = true → nvmeTcpInlineDataSize c < rq.dataLen) :
    Silent c rq (nvmeTcpSetupCmdPdu c rq r) :=
  ⟨rfl, rfl, rfl, rfl, h⟩

theorem Silent.answers (h : Silent c rq r) {pdu : NvmeTcpR2tPdu}
    (hpdu : pdu.second.toNat = rq.dataLen) :
    (nvmeTcpSetupH2cDataPdu c r pdu).1 = true ∧ (nvmeTcpSetupH2cDataPdu c r pdu).2.rq = rq ∧
      (nvmeTcpSetupH2cDataPdu c r pdu).2.pduLen = rq.dataLen ∧
      (nvmeTcpSetupH2cDataPdu c r pdu).2.dataSent = 0 := by
  unfold nvmeTcpSetupH2cDataPdu
  dsimp only
  rw [if_neg (by rw [h.len, h.sent, hpdu]; omega), if_neg (by rw [h.sent]; omega)]
  exact ⟨rfl, h.same, hpdu, h.sent⟩

theorem submit_reqs_of_ne {s : HostState} {u : ℕ} (hu : t ≠ u) (r : NvmeTcpRequest)
    (pdu : List Byte) :
    (submit c s u r pdu).q.reqs t = s.q.reqs t := by
  rw [submit_q, (queueRequestLocked_fields c u _).1]
  exact modifyReq_reqs_of_ne u s.q.toSendQueue hu fun _ => r

theorem submit_reqs_self {s : HostState} (r : NvmeTcpRequest) (pdu : List Byte) :
    (submit c s t r pdu).q.reqs t = r := by
  rw [submit_q, (queueRequestLocked_fields c t _).1]
  exact modifyReq_reqs_self t s.q.toSendQueue fun _ => r

/-- Every step but the ones that give the tag another use. -/
theorem Silent.step {s s' : HostState} {e : HostEvent} (h : Silent c rq (s.q.reqs t))
    (hstep : hostStep c s e = some s') (hrq : ∀ rq', e ≠ .queueRq t rq')
    (hr2t : ∀ pdu, e ≠ .handleR2t t pdu) : Silent c rq (s'.q.reqs t) := by
  cases e with
  | queueRq u rq' =>
    have hu : t ≠ u := fun he => hrq rq' (he ▸ rfl)
    simp only [hostStep, Option.ite_none_right_eq_some, Option.some.injEq] at hstep
    obtain ⟨-, rfl⟩ := hstep
    rwa [submit_reqs_of_ne hu]
  | handleR2t u pdu =>
    have hu : t ≠ u := fun he => hr2t pdu (he ▸ rfl)
    simp only [hostStep, Option.ite_none_right_eq_some] at hstep
    obtain ⟨-, hstep⟩ := hstep
    split_ifs at hstep
    · obtain rfl := Option.some_inj.1 hstep
      rwa [submit_reqs_of_ne hu]
    · obtain rfl := Option.some_inj.1 hstep
      dsimp only
      rwa [modifyReq_reqs_of_ne u s.q.toSendQueue hu]
  | requestUnlocked i =>
    simp only [hostStep] at hstep
    cases hcall : s.calls[i]? with
    | none => simp [hcall] at hstep
    | some noDelay =>
      simp only [hcall, Option.some.injEq] at hstep
      obtain rfl := hstep
      rcases queueRequestUnlocked_eq noDelay s.q with ⟨heq, hf⟩ | ⟨heq, hf⟩ <;>
        simp only [heq, hf] <;> exact h
  | doorbellTimeout =>
    simp only [hostStep, Option.ite_none_right_eq_some, Option.some.injEq] at hstep
    obtain ⟨-, rfl⟩ := hstep
    exact h
  | dataReady | writeSpace =>
    obtain rfl := Option.some_inj.1 hstep
    exact h
  | workStart l =>
    simp only [hostStep, Option.ite_none_right_eq_some, Option.some.injEq] at hstep
    obtain ⟨-, rfl⟩ := hstep
    exact h
  | sendDequeue l =>
    simp only [hostStep, Option.ite_none_right_eq_some, Option.some.injEq] at hstep
    obtain ⟨-, rfl⟩ := hstep
    obtain ⟨_, -, heq⟩ | ⟨_, _, -, -, heq⟩ | ⟨-, -, -, -, heq⟩ | ⟨-, -, -, heq⟩ :=
      trySendDequeue_cases c s.q <;>
      rw [heq] <;> exact h
  | sendRest l nospace replies =>
    simp only [hostStep, Option.ite_none_right_eq_some, Option.some.injEq] at hstep
    obtain ⟨-, rfl⟩ := hstep
    have hq : Silent c rq (({ s.q with replies := replies } : NvmeTcpQueue).reqs t) := h
    have hrest : Silent c rq
      ((nvmeTcpTrySendRest c nospace { s.q with replies := replies }).2.reqs t) := hq.rest _ _
    split_ifs
    · unfold sendFailed
      dsimp only
      split_ifs <;> exact hrest
    · exact hrest
  | tryRecv l got expired =>
    simp only [hostStep] at hstep
    split at hstep
    · split_ifs at hstep <;> (obtain rfl := Option.some_inj.1 hstep; exact h)
    · cases hstep

end BlkSwitch.Host
