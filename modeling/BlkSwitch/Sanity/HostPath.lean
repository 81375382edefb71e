import BlkSwitch.Sanity.HostSteps

/-! A rule for the send path of the host as a whole, socket errors included: what every single thing
it does to the queue keeps, `nvme_tcp_try_send` keeps from its caravan flush on. -/

namespace BlkSwitch.Host

open SendQueue

/-- A relation that holds between the queue before and after anything done with request `t`. -/
structure PathRel (aggr t : ℕ) (R : SendQueue → SendQueue → Prop) : Prop where
  refl : ∀ q, R q q
  trans : ∀ {q q' q''}, R q q' → R q' q'' → R q q''
  modify : ∀ q f, R q (q.modifyReq t f)
  hash : ∀ q b, R q { q with sndHash := b }
  mark : ∀ q, R q { q with sendNow := true }
  done : ∀ q, R q (nvmeTcpDoneSendReq q)
  socket : ∀ q b, R q (q.kernelSend b).2
  append : ∀ q k, q.i10HostIsCaravanFull aggr = false → R q (q.append k)

namespace PathRel

variable {c : Config} {aggr t : ℕ} {R : SendQueue → SendQueue → Prop} (hR : PathRel aggr t R)

include hR

theorem emit (legacy : Bool) (q : SendQueue) (k : Kvec) : R q (q.emit aggr legacy k).2 := by
  unfold SendQueue.emit
  split_ifs with hleg hfull
  · exact hR.socket q _
  · exact hR.mark q
  · exact hR.append q k (by simpa using hfull)

theorem dataSentUpdate (chunk : List Byte) (n : ℕ) (q : SendQueue) :
    R q (dataSentUpdate c t chunk n q) := by
  have h := hR.modify q (·.advanceReq n)
  unfold Host.dataSentUpdate
  dsimp only
  split_ifs
  · exact hR.trans h (hR.hash _ _)
  · exact h

theorem dataDone (q : SendQueue) : R q (dataDone c t q) := by
  unfold Host.dataDone
  split_ifs
  · exact hR.modify q _
  · exact hR.done q

theorem startData (q : SendQueue) : R q (startData c q) := by
  unfold Host.startData
  split_ifs
  · exact hR.hash q _
  · exact hR.refl q

theorem dataLoop (legacy : Bool) (fuel : ℕ) (q : SendQueue) :
    R q (trySendDataLoop c aggr legacy t fuel q).2 := by
  induction fuel generalizing q with
  | zero => exact hR.refl q
  | succ fuel ih =>
    have hemit := hR.emit legacy q (curKvec (q.reqs t))
    rw [trySendDataLoop]
    dsimp only
    rcases he : q.emit aggr legacy
      (curKvec (q.reqs t)) with ⟨_ | ret, q₁⟩ <;> rw [curKvec] at he <;> rw [he]
    · rw [curKvec, he] at hemit
      exact hemit
    · rw [curKvec, he] at hemit
      dsimp only at hemit ⊢
      have hsent := hR.trans hemit
        (hR.dataSentUpdate (c := c) ((curKvec (q.reqs t)).bytes q₁.reqs) ret.toNat q₁)
      split_ifs
      · exact hemit
      · exact hR.trans hsent (hR.dataDone _)
      · exact hR.trans hsent (ih _)

theorem hdr {legacy : Bool} {size : ℕ} {sendNow : Bool} {done : SendQueue → SendQueue}
    (hdone : ∀ q, R q (done q)) (q : SendQueue) :
    R q (trySendHdr c aggr legacy t size sendNow done q).2 := by
  unfold trySendHdr
  dsimp only
  generalize hq₁ : (if c.hdrDigest = true ∧ (q.reqs t).offset = 0 then
    q.modifyReq t (nvmeTcpHdgst c size) else q) = q₁
  have h₁ : R q q₁ := by
    rw [← hq₁]
    split_ifs
    · exact hR.modify q _
    · exact hR.refl q
  generalize (⟨.pdu t (if legacy then (q.reqs t).offset else size * (q.reqs t).offset),
    size + nvmeTcpHdgstLen c - (q.reqs t).offset⟩ : Kvec) = k
  have hemit := hR.trans h₁ (hR.emit legacy q₁ k)
  rcases he : q₁.emit aggr legacy k with ⟨_ | ret, q₂⟩
  · rw [he] at hemit
    exact hemit
  · rw [he] at hemit
    dsimp only
    have hnow : R q (if (!legacy && sendNow) = true then { q₂ with sendNow := true } else q₂) := by
      split_ifs
      · exact hR.trans hemit (hR.mark _)
      · exact hemit
    generalize (if (!legacy && sendNow) = true then { q₂ with sendNow := true } else q₂) =
      q₃ at hnow ⊢
    split_ifs
    · exact hnow
    · exact hR.trans hnow (hdone _)
    · dsimp only
      exact hR.trans hnow (hR.modify _ _)

theorem cmdPdu (legacy : Bool) (q : SendQueue) :
    R q (nvmeTcpTrySendCmdPdu c aggr legacy t q).2 := by
  refine hR.hdr (fun q => ?_) q
  split_ifs
  · exact hR.trans (hR.startData q) (hR.modify _ _)
  · exact hR.done q

theorem dataPdu (legacy : Bool) (q : SendQueue) : R q (nvmeTcpTrySendDataPdu c aggr legacy t q).2 :=
  hR.hdr (fun q => hR.trans (hR.startData q) (hR.modify _ _)) q

theorem ddgst (q : SendQueue) : R q (nvmeTcpTrySendDdgst t q).2 := by
  unfold nvmeTcpTrySendDdgst
  dsimp only
  generalize (List.take (NVME_TCP_DIGEST_LENGTH - (q.reqs t).offset)
    (List.drop (NVME_TCP_DIGEST_LENGTH * (q.reqs t).offset)
    ((q.reqs t).ddgst ++ (q.reqs t).afterDdgst))) = b
  have hsend := hR.socket q b
  generalize q.kernelSend b = p at hsend ⊢
  split_ifs
  · exact hsend
  · exact hR.trans hsend (hR.done _)
  · dsimp only
    exact hR.trans hsend (hR.modify _ _)

theorem stage {st : SendState} {f : SendQueue → ℤ × SendQueue}
    {next : ℤ → SendQueue → ℤ × SendQueue} (hf : ∀ q, R q (f q).2)
    (hnext : ∀ ret q, R q (next ret q).2) (ret : ℤ) (q : SendQueue) :
    R q (stage t st f next ret q).2 := by
  unfold Host.stage
  split_ifs
  · have h := hf q
    generalize f q = p at h ⊢
    dsimp only
    split_ifs
    · exact h
    · exact hR.trans h (hnext _ _)
  · exact hnext _ _

theorem req (legacy : Bool) (q : SendQueue) : R q (trySendReq c aggr legacy t q).2 := by
  unfold trySendReq
  refine hR.stage (hR.cmdPdu legacy) (fun ret q' => ?_) 1 q
  split_ifs
  · exact hR.refl q'
  · refine hR.stage (hR.dataPdu legacy) ?_ ret q'
    refine hR.stage (fun q => hR.dataLoop legacy _ q) ?_
    exact hR.stage hR.ddgst fun _ _ => hR.refl _

end PathRel

/-- The whole of it, when the flush keeps the relation too. With no request, the path ends behind
the flush. -/
theorem trySendRest_rel {c : Config} {aggr : ℕ} {R : SendQueue → SendQueue → Prop} {q : SendQueue}
    (hR : ∀ t ∈ q.request, PathRel aggr t R) (hrefl : R q q)
    (hfull : R q { q with sockNospace := true }) (hsend : R q (q.kernelSend q.caravanBytes).2)
    (hsent : R q (caravanSent (q.kernelSend q.caravanBytes).2))
    (hreq : (q.kernelSend q.caravanBytes).2.request = q.request) (legacy flush nospace : Bool) :
    R q (trySendRest c aggr legacy flush nospace q).2 := by
  unfold trySendRest
  dsimp only
  generalize q.kernelSend q.caravanBytes = p at hsend hsent hreq ⊢
  have hempty : (caravanSent p.2).request = q.request := hreq
  split_ifs
  · exact hfull
  · exact hsend
  · rw [hempty]
    cases hq : q.request with
    | none => exact hsent
    | some t => exact (hR t hq).trans hsent ((hR t hq).req legacy _)
  · cases hq : q.request with
    | none => exact hrefl
    | some t => exact (hR t hq).req legacy q

section Touches

/-- Of the requests only `t` can have changed, and it is still being sent or nothing is. -/
structure Touches (t : ℕ) (q q' : SendQueue) : Prop where
  others : ∀ u, u ≠ t → q'.reqs u = q.reqs u
  request : q'.request = q.request ∨ q'.request = none

variable {c : Config} {aggr t : ℕ} {legacy : Bool} {q q' : SendQueue}

theorem Touches.refl : Touches t q q := ⟨fun _ _ => rfl, .inl rfl⟩

theorem Touches.trans {q'' : SendQueue} (h : Touches t q q') (h' : Touches t q' q'') :
    Touches t q q'' := by
  refine ⟨fun u hu => (h'.others u hu).trans (h.others u hu), ?_⟩
  rcases h'.request with heq | hnone
  · rw [heq]
    exact h.request
  · exact .inr hnone

theorem touches_same (hreqs : q'.reqs = q.reqs) (hreq : q'.request = q.request) : Touches t q q' :=
  ⟨fun u _ => congrFun hreqs u, .inl hreq⟩

theorem touches_modifyReq (f : NvmeTcpRequest → NvmeTcpRequest) : Touches t q (q.modifyReq t f) :=
  ⟨fun u hu => by simp [hu], .inl rfl⟩

theorem kernelSend_reqs (q : SendQueue) (b : List Byte) :
    (q.kernelSend b).2.reqs = q.reqs ∧ (q.kernelSend b).2.request = q.request := by
  unfold SendQueue.kernelSend
  split
  · exact ⟨rfl, rfl⟩
  · exact ⟨rfl, rfl⟩
  · dsimp only
    split_ifs <;> exact ⟨rfl, rfl⟩

theorem touches_path (aggr t : ℕ) : PathRel aggr t (Touches t) where
  refl _ := .refl
  trans h h' := h.trans h'
  modify _ f := touches_modifyReq f
  hash _ _ := touches_same rfl rfl
  mark _ := touches_same rfl rfl
  done _ := ⟨fun _ _ => rfl, .inr rfl⟩
  socket q b := touches_same (kernelSend_reqs q b).1 (kernelSend_reqs q b).2
  append _ _ _ := touches_same rfl rfl

theorem trySendRest_touches (c : Config) (aggr : ℕ) (legacy flush nospace : Bool)
    (hreq : q.request = some t) :
    Touches t q (trySendRest c aggr legacy flush nospace q).2 := by
  obtain ⟨hreqs, hsame⟩ := kernelSend_reqs q q.caravanBytes
  refine trySendRest_rel (fun u hu => ?_) .refl (touches_same rfl rfl) (touches_same hreqs hsame)
    (touches_same hreqs hsame) hsame legacy flush nospace
  obtain rfl : t = u := Option.some.inj (hreq.symm.trans hu)
  exact touches_path aggr t

theorem trySendRest_none (c : Config) (aggr : ℕ) (legacy flush nospace : Bool)
    (hreq : q.request = none) :
    (trySendRest c aggr legacy flush nospace q).2.reqs = q.reqs ∧
      (trySendRest c aggr legacy flush nospace q).2.request = none := by
  obtain ⟨hreqs, hsame⟩ := kernelSend_reqs q q.caravanBytes
  refine trySendRest_rel (R := fun q q' => q'.reqs = q.reqs ∧ q'.request = none) (fun u hu => ?_)
    ⟨rfl, hreq⟩
    ⟨rfl, hreq⟩ ⟨hreqs, hsame.trans hreq⟩ ⟨hreqs, hsame.trans hreq⟩ hsame legacy flush nospace
  rw [hreq] at hu
  cases hu

end Touches

end BlkSwitch.Host
