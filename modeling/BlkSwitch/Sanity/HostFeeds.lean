import BlkSwitch.Spec.Wire
import BlkSwitch.Proofs.HostRecv

/-! The receive path of the host, byte by byte. The bytes of a stream that is in order are taken
without an error, and each of them has the host look at one request at most, of a tag that is
open. So a request may be issued under a free tag while the stream is on its way. -/

namespace BlkSwitch.Host

open Bytes RecvQueue

def hdrTag (pdu : List Byte) : UInt16 :=
  if (NvmeTcpHdr.decode pdu).type = nvmeTcpRsp then (NvmeCompletion.decodeAt pdu 8).commandId
  else (NvmeTcpXferPdu.decode pdu).commandId

/-- The tag whose request a byte has the host look at: the last one of a header, and those behind
it. -/
def speaksOf (x : Byte) (q : RecvQueue) : Option UInt16 :=
  if q.pduRemaining = 0 then some (NvmeTcpXferPdu.decode q.pdu).commandId
  else if q.pduRemaining = 1 then some (hdrTag (writeAt q.pdu q.pduOffset [x]))
  else none

/-- A byte is taken without an error. If it is about a tag, that has ended fewer times than `n`
says. -/
structure Takes (c : Config) (n : UInt16 → ℕ) (x : Byte) (q q' : RecvQueue) : Prop where
  piece : recvPiece c [x] q = (0, q', [])
  isOpen : ∀ t ∈ speaksOf x q, q.ended t < n t

inductive Feeds (c : Config) (n : UInt16 → ℕ) : List Byte → RecvQueue → RecvQueue → Prop
  | done (q : RecvQueue) : Feeds c n [] q q
  | byte {x : Byte} {b : List Byte} {q q₁ q' : RecvQueue} : Takes c n x q q₁ → Feeds c n b q₁ q' →
    Feeds c n (x :: b) q q'

section Stream

variable {c : Config} {n n' : UInt16 → ℕ} {x : Byte} {a b : List Byte} {q q' q'' : RecvQueue}

theorem feeds_append (h : Feeds c n a q q') (h' : Feeds c n b q' q'') :
    Feeds c n (a ++ b) q q'' := by
  induction h with
  | done q => exact h'
  | byte hx _ ih => exact .byte hx (ih h')

theorem feeds_split (h : Feeds c n (a ++ b) q q'') : ∃ q', Feeds c n a q q' ∧
    Feeds c n b q' q'' := by
  induction a generalizing q with
  | nil => exact ⟨q, .done q, h⟩
  | cons x a ih =>
    cases h with
    | byte hx hrest =>
      obtain ⟨q', ha, hb⟩ := ih hrest
      exact ⟨q', .byte hx ha, hb⟩

theorem Feeds.mono (h : Feeds c n b q q') (hn : ∀ t, n t ≤ n' t) : Feeds c n' b q q' := by
  induction h with
  | done q => exact .done q
  | byte hx _ ih => exact .byte ⟨hx.piece, fun t ht => (hx.isOpen t ht).trans_le (hn t)⟩ ih

theorem Takes.kept (h : Takes c n x q q') (hq : RecvOk c q) : RecvOk c q' := by
  have hkept := (recvPiece_kept hq [x]).2
  rwa [h.piece] at hkept

theorem Feeds.kept (h : Feeds c n b q q') (hq : RecvOk c q) : RecvOk c q' := by
  induction h with
  | done q => exact hq
  | byte hx _ ih => exact ih (hx.kept hq)

/-- The loop of `nvme_tcp_recv_skb` takes the bytes at once as they are taken one by one. -/
theorem Feeds.ends (h : Feeds c n b q q') (hq : RecvOk c q) : RecvSkbEnds c b q (0, q') := by
  induction h with
  | done q => exact .done q
  | @byte x b q q₁ q' hx _ ih =>
    have hone : RecvSkbEnds c [x] q (0, q₁) := by
      refine .turn (List.cons_ne_nil _ _) (by rw [hx.piece]) ?_
      rw [hx.piece]
      exact .done q₁
    exact hone.append hq rfl (ih (hx.kept hq))

theorem Feeds.recvSkb (h : Feeds c n b q q') (hq : RecvOk c q) :
    nvmeTcpRecvSkb c b q = (((b.length : ℤ) : Ret), q') := (h.ends hq).recvSkb

end Stream

section Later

variable {c : Config} {q q' q'' : RecvQueue}

structure Later (q q' : RecvQueue) : Prop where
  log : q.log <+: q'.log
  enabled : q'.rdEnabled = q.rdEnabled

theorem Later.of_eq (hl : q'.log = q.log) (he : q'.rdEnabled = q.rdEnabled) : Later q q' :=
  ⟨hl ▸ List.prefix_refl _, he⟩

theorem Later.trans (h : Later q q') (h' : Later q' q'') : Later q q'' :=
  ⟨h.log.trans h'.log, h'.enabled.trans h.enabled⟩

theorem later_endRequest (q : RecvQueue) (t st : UInt16) (res : UInt64) :
    Later q (q.endRequest t st res) :=
  ⟨List.prefix_append _ _, rfl⟩

theorem later_endIfSuccess (pdu : NvmeTcpDataPdu) (q : RecvQueue) :
    Later q (endIfSuccess pdu q) := by
  unfold endIfSuccess
  split_ifs
  · exact later_endRequest q _ _ _
  · exact .of_eq rfl rfl

theorem later_handleC2hData (pdu : NvmeTcpDataPdu) (q : RecvQueue) :
    Later q (nvmeTcpHandleC2hData pdu q).2 := by
  unfold nvmeTcpHandleC2hData
  split
  · exact .of_eq rfl rfl
  · split_ifs <;> exact .of_eq rfl rfl

theorem later_handleComp (c : Config) (cqe : NvmeCompletion) (q : RecvQueue) :
    Later q (nvmeTcpHandleComp c cqe q).2 := by
  unfold nvmeTcpHandleComp nvmeTcpProcessNvmeCqe
  split_ifs
  · exact ⟨List.prefix_append _ _, rfl⟩
  · split
    · exact .of_eq rfl rfl
    · exact later_endRequest q _ _ _

theorem later_handleR2t (c : Config) (pdu : NvmeTcpR2tPdu) (q : RecvQueue) :
    Later q (nvmeTcpHandleR2t c pdu q).2 := by
  unfold nvmeTcpHandleR2t
  split
  · exact .of_eq rfl rfl
  · split
    · exact .of_eq rfl rfl
    · exact ⟨List.prefix_append _ _, rfl⟩

theorem later_recvHeader (c : Config) (q : RecvQueue) : Later q (recvHeader c q).2 := by
  have hhash : Later q (clearHash c q) := by
    unfold clearHash
    split_ifs <;> exact .of_eq rfl rfl
  have hinit : Later q ((clearHash c q).nvmeTcpInitRecvCtx c) := hhash.trans (.of_eq rfl rfl)
  rw [recvHeader_eq, handleHeader]
  split_ifs
  · exact .of_eq rfl rfl
  · exact hhash.trans (later_handleC2hData _ _)
  · exact hinit.trans (later_handleComp _ _ _)
  · exact hinit.trans (later_handleR2t _ _ _)
  · exact hhash

theorem later_dataEnd (c : Config) (q : RecvQueue) : Later q (dataEnd c q) := by
  unfold dataEnd
  split_ifs
  · exact .of_eq rfl rfl
  · exact (later_endIfSuccess _ q).trans (.of_eq rfl rfl)

theorem later_recvData (c : Config) (b : List Byte) (q : RecvQueue) :
    Later q (nvmeTcpRecvData c b q).2.1 := by
  cases hr : q.rqs (NvmeTcpXferPdu.decode q.pdu).commandId with
  | none =>
    unfold nvmeTcpRecvData
    dsimp only
    rw [hr]
    exact .of_eq rfl rfl
  | some r =>
    have hstore : ∀ n r', Later q (storeData c n b r' q) := fun _ _ => .of_eq rfl rfl
    rw [recvData_eq c hr rfl]
    split_ifs
    · exact hstore _ _
    · exact Later.of_eq rfl rfl
    · exact hstore _ _
    · exact (hstore _ _).trans (later_dataEnd c _)

theorem later_recvDdgst (c : Config) (b : List Byte) (q : RecvQueue) :
    Later q (nvmeTcpRecvDdgst c b q).2.1 := by
  rcases Nat.lt_or_ge b.length q.ddgstRemaining with hlt | hge
  · rw [recvDdgst_short c hlt]
    exact .of_eq rfl rfl
  · have hbytes : Later q (ddgstBytes (b.take q.ddgstRemaining) q) := .of_eq rfl rfl
    rw [recvDdgst_whole c hge, ddgstEnd]
    split_ifs
    · exact hbytes
    · exact hbytes
    · exact (hbytes.trans (later_endIfSuccess _ _)).trans (.of_eq rfl rfl)

theorem later_recvPdu (c : Config) (b : List Byte) (q : RecvQueue) :
    Later q (nvmeTcpRecvPdu c b q).2.1 := by
  rcases Nat.lt_or_ge b.length q.pduRemaining with hlt | hge
  · rw [recvPdu_short c hlt]
    exact .of_eq rfl rfl
  · have hbytes : Later q (headerBytes (b.take q.pduRemaining) q) := .of_eq rfl rfl
    rw [recvPdu_whole c hge]
    exact hbytes.trans (later_recvHeader c _)

theorem later_recvPiece (c : Config) (b : List Byte) (q : RecvQueue) :
    Later q (recvPiece c b q).2.1 := by
  rw [recvPiece_eq]
  cases q.nvmeTcpRecvState with
  | pdu => exact later_recvPdu c b q
  | data => exact later_recvData c b q
  | ddgst => exact later_recvDdgst c b q

theorem Takes.later {n : UInt16 → ℕ} {x : Byte} (h : Takes c n x q q') : Later q q' := by
  have hl := later_recvPiece c [x] q
  rwa [h.piece] at hl

theorem Feeds.later {n : UInt16 → ℕ} {b : List Byte} (h : Feeds c n b q q') : Later q q' := by
  induction h with
  | done q => exact .of_eq rfl rfl
  | byte hx _ ih => exact hx.later.trans ih

theorem Later.ended_le (h : Later q q') (t : UInt16) : q.ended t ≤ q'.ended t := by
  obtain ⟨l, hl⟩ := h.log
  unfold ended
  rw [← hl, List.countP_append]
  exact Nat.le_add_right _ _

end Later

/-! A byte that does not speak of a tag does not see the request that has it. -/

section Issue

variable {c : Config} {t : UInt16} {r : NvmeTcpRequest} {q : RecvQueue}

theorem endRequest_issue {t' : UInt16} (ht : t' ≠ t) (st : UInt16) (res : UInt64) :
    (q.issue t r).endRequest t' st res = (q.endRequest t' st res).issue t r := by
  simp [RecvQueue.endRequest, issue, setRq, ht]

theorem endIfSuccess_issue {pdu : NvmeTcpDataPdu} (ht : pdu.commandId ≠ t) :
    endIfSuccess pdu (q.issue t r) = (endIfSuccess pdu q).issue t r := by
  unfold endIfSuccess
  split_ifs
  · exact endRequest_issue ht _ _
  · rfl

theorem issue_rqs {t' : UInt16} (ht : t' ≠ t) :
    (q.issue t r).rqs t' = q.rqs t' := by simp [issue, setRq, ht]

theorem setRq_issue {t' : UInt16} (ht : t' ≠ t) (r' : NvmeTcpRequest) :
    (q.issue t r).setRq t' r' = (q.setRq t' r').issue t r := by
  simp [issue, setRq, Function.update_comm ht]

theorem handleC2hData_issue {pdu : NvmeTcpDataPdu} (ht : pdu.commandId ≠ t) :
    nvmeTcpHandleC2hData pdu (q.issue t r) =
      ((nvmeTcpHandleC2hData pdu q).1, (nvmeTcpHandleC2hData pdu q).2.issue t r) := by
  unfold nvmeTcpHandleC2hData
  rw [issue_rqs ht]
  cases q.rqs pdu.commandId with
  | none => rfl
  | some r' => dsimp only; split_ifs <;> rfl

theorem handleComp_issue {cqe : NvmeCompletion} (ht : cqe.commandId ≠ t) :
    nvmeTcpHandleComp c cqe (q.issue t r) =
      ((nvmeTcpHandleComp c cqe q).1, (nvmeTcpHandleComp c cqe q).2.issue t r) := by
  unfold nvmeTcpHandleComp nvmeTcpProcessNvmeCqe
  rw [issue_rqs ht]
  split_ifs
  · rfl
  · cases q.rqs cqe.commandId with
    | none => rfl
    | some r' => exact Prod.ext rfl (endRequest_issue ht _ _)

theorem handleR2t_issue {pdu : NvmeTcpR2tPdu} (ht : pdu.commandId ≠ t) :
    nvmeTcpHandleR2t c pdu (q.issue t r) =
      ((nvmeTcpHandleR2t c pdu q).1, (nvmeTcpHandleR2t c pdu q).2.issue t r) := by
  unfold nvmeTcpHandleR2t
  rw [issue_rqs ht]
  cases q.rqs pdu.commandId with
  | none => rfl
  | some r' =>
    dsimp only
    rcases nvmeTcpSetupH2cDataPdu c r' pdu with ⟨_ | _, r''⟩
    · exact Prod.ext rfl (setRq_issue ht _)
    · exact Prod.ext rfl (by dsimp only; rw [setRq_issue ht]; rfl)

theorem recvHeader_issue (ht : hdrTag q.pdu ≠ t) :
    recvHeader c (q.issue t r) = ((recvHeader c q).1, (recvHeader c q).2.issue t r) := by
  have hhash : clearHash c (q.issue t r) = (clearHash c q).issue t r := by
    unfold clearHash
    split_ifs <;> rfl
  have hpdu : ((clearHash c q).issue t r).pdu = q.pdu := clearHash_pdu c q
  have hinit : ((clearHash c q).issue t r).nvmeTcpInitRecvCtx c =
    ((clearHash c q).nvmeTcpInitRecvCtx c).issue t r := rfl
  unfold hdrTag at ht
  rw [recvHeader_eq, recvHeader_eq, hhash, handleHeader, handleHeader, hpdu, clearHash_pdu, hinit]
  by_cases hcheck : headerCheck c q.pdu ≠ 0
  · rw [if_pos (show headerCheck c (q.issue t r).pdu ≠ 0 from hcheck), if_pos hcheck]
    rfl
  · rw [if_neg (show ¬ headerCheck c (q.issue t r).pdu ≠ 0 from hcheck), if_neg hcheck]
    split_ifs at ht ⊢ with h1 h2 h3 h4
    · rw [h2] at h1
      exact absurd h1 (by decide)
    · exact handleC2hData_issue ht
    · exact handleComp_issue ht
    · exact handleR2t_issue ht
    · rfl

theorem recvPdu_issue {x : Byte} (hrem : q.pduRemaining ≠ 0)
    (ht : q.pduRemaining = 1 → hdrTag (writeAt q.pdu q.pduOffset [x]) ≠ t) :
    nvmeTcpRecvPdu c [x] (q.issue t r) =
      ((nvmeTcpRecvPdu c [x] q).1, (nvmeTcpRecvPdu c [x] q).2.1.issue t r,
        (nvmeTcpRecvPdu c [x] q).2.2) := by
  by_cases hone : q.pduRemaining = 1
  · have hge : q.pduRemaining ≤ [x].length := hone.le
    have htake : [x].take q.pduRemaining = [x] := List.take_of_length_le hone.ge
    have htag : hdrTag (headerBytes [x] q).pdu ≠ t := ht hone
    rw [recvPdu_whole c hge, recvPdu_whole (q := q.issue t r) c hge]
    change (_, _, [x].drop q.pduRemaining) = _
    change (((recvHeader c (headerBytes ([x].take q.pduRemaining) (q.issue t r))).1 : Ret),
      (recvHeader c (headerBytes ([x].take q.pduRemaining) (q.issue t r))).2,
      [x].drop q.pduRemaining) = _
    rw [htake, show headerBytes [x] (q.issue t r) = (headerBytes [x] q).issue t r from rfl,
      recvHeader_issue htag]
  · have hlt : [x].length < q.pduRemaining := by
      rw [List.length_singleton]
      omega
    rw [recvPdu_short c hlt, recvPdu_short (q := q.issue t r) c hlt]
    rfl

theorem dataEnd_issue (ht : (NvmeTcpXferPdu.decode q.pdu).commandId ≠ t) :
    dataEnd c (q.issue t r) = (dataEnd c q).issue t r := by
  unfold dataEnd
  split_ifs
  · rfl
  · change (endIfSuccess (NvmeTcpXferPdu.decode q.pdu) (q.issue t r)).nvmeTcpInitRecvCtx c = _
    rw [endIfSuccess_issue ht]
    rfl

theorem storeData_issue (ht : (NvmeTcpXferPdu.decode q.pdu).commandId ≠ t) (n : ℕ) (b : List Byte)
    (r' : NvmeTcpRequest) : storeData c n b r' (q.issue t r) =
      (storeData c n b r' q).issue t r := by
  simp [storeData, issue, setRq, Function.update_comm ht, ht]

theorem recvData_issue (ht : (NvmeTcpXferPdu.decode q.pdu).commandId ≠ t) (b : List Byte) :
    nvmeTcpRecvData c b (q.issue t r) =
      ((nvmeTcpRecvData c b q).1, (nvmeTcpRecvData c b q).2.1.issue t r,
        (nvmeTcpRecvData c b q).2.2) := by
  have hrq : (q.issue t r).rqs (NvmeTcpXferPdu.decode (q.issue t r).pdu).commandId =
      q.rqs (NvmeTcpXferPdu.decode q.pdu).commandId := issue_rqs ht
  cases hr : q.rqs (NvmeTcpXferPdu.decode q.pdu).commandId with
  | none =>
    unfold nvmeTcpRecvData
    dsimp only
    rw [hrq, hr]
  | some r' =>
    rw [recvData_eq c hr rfl,
      recvData_eq c (hrq.trans hr) (show min b.length q.dataRemaining = _ from rfl),
      storeData_issue ht, dataEnd_issue (q := storeData c _ b _ q) ht]
    change (if _ = ⊥ then _ else if _ ≠ 0 then _ else if q.dataRemaining - _ ≠ 0 then _ else _) = _
    split_ifs <;> rfl

theorem recvDdgst_issue (ht : (NvmeTcpXferPdu.decode q.pdu).commandId ≠ t) (b : List Byte) :
    nvmeTcpRecvDdgst c b (q.issue t r) =
      ((nvmeTcpRecvDdgst c b q).1, (nvmeTcpRecvDdgst c b q).2.1.issue t r,
        (nvmeTcpRecvDdgst c b q).2.2) := by
  rcases Nat.lt_or_ge b.length q.ddgstRemaining with hlt | hge
  · rw [recvDdgst_short c hlt, recvDdgst_short (q := q.issue t r) c hlt]
    rfl
  · have hend : ddgstEnd c ((ddgstBytes (b.take q.ddgstRemaining) q).issue t r) =
        ((ddgstEnd c (ddgstBytes (b.take q.ddgstRemaining) q)).1,
          (ddgstEnd c (ddgstBytes (b.take q.ddgstRemaining) q)).2.issue t r) := by
      generalize hq₁ : ddgstBytes (b.take q.ddgstRemaining) q = q₁
      have ht₁ : (NvmeTcpXferPdu.decode q₁.pdu).commandId ≠ t := by
        rw [← hq₁]
        exact ht
      unfold ddgstEnd
      by_cases hd : q₁.recvDdgst ≠ q₁.expDdgst
      · rw [if_pos hd, if_pos (show (q₁.issue t r).recvDdgst ≠ (q₁.issue t r).expDdgst from hd)]
      · rw [if_neg hd, if_neg (show ¬ (q₁.issue t r).recvDdgst ≠ (q₁.issue t r).expDdgst from hd)]
        rw [show (q₁.issue t r).pdu = q₁.pdu from rfl, issue_rqs ht₁, endIfSuccess_issue ht₁]
        split_ifs <;> rfl
    rw [recvDdgst_whole c hge, recvDdgst_whole (q := q.issue t r) c hge]
    change ((ddgstEnd c ((ddgstBytes (b.take q.ddgstRemaining) q).issue t r)).1,
      (ddgstEnd c ((ddgstBytes (b.take q.ddgstRemaining) q).issue t r)).2, _) = _
    rw [hend]
    rfl

theorem recvPiece_issue {x : Byte} (ht : t ∉ speaksOf x q) :
    recvPiece c [x] (q.issue t r) =
      ((recvPiece c [x] q).1, (recvPiece c [x] q).2.1.issue t r, (recvPiece c [x] q).2.2) := by
  have hstate : (q.issue t r).nvmeTcpRecvState = q.nvmeTcpRecvState := rfl
  unfold speaksOf at ht
  rw [recvPiece_eq, recvPiece_eq, hstate]
  by_cases h0 : q.pduRemaining = 0
  · rw [if_pos h0, Option.mem_some_iff] at ht
    cases hs : q.nvmeTcpRecvState with
    | pdu => simp [nvmeTcpRecvState, h0] at hs; split_ifs at hs
    | data => exact recvData_issue ht [x]
    | ddgst => exact recvDdgst_issue ht [x]
  · have hs : q.nvmeTcpRecvState = .pdu := if_pos h0
    rw [if_neg h0] at ht
    rw [hs]
    refine recvPdu_issue h0 fun hone => ?_
    rwa [if_pos hone, Option.mem_some_iff] at ht

/-- A byte that speaks of open tags only does not see a request that is issued under a free one. -/
theorem Takes.issue {n : UInt16 → ℕ} {x : Byte} {q' : RecvQueue} (h : Takes c n x q q')
    (hfree : n t ≤ q.ended t) (r : NvmeTcpRequest) : Takes c n x (q.issue t r) (q'.issue t r) := by
  have ht : t ∉ speaksOf x q := fun hmem => absurd (h.isOpen t hmem) (Nat.not_lt.2 hfree)
  refine ⟨?_, h.isOpen⟩
  rw [recvPiece_issue ht, h.piece]

theorem Feeds.issue {n : UInt16 → ℕ} {b : List Byte} {q' : RecvQueue} (h : Feeds c n b q q')
    (hfree : n t ≤ q.ended t) (r : NvmeTcpRequest) : Feeds c n b (q.issue t r) (q'.issue t r) := by
  induction h with
  | done q => exact .done _
  | byte hx _ ih => exact .byte (hx.issue hfree r) (ih (hfree.trans (hx.later.ended_le t)))

end Issue

/-! A header and the data behind it, as a whole. -/

section Whole

variable {c : Config} {n : UInt16 → ℕ} {b : List Byte} {q q' : RecvQueue}

theorem takes_header_part {x : Byte} (h : 1 < q.pduRemaining) :
    Takes c n x q (headerBytes [x] q) := by
  refine ⟨?_, ?_⟩
  · rw [recvPiece_eq, show q.nvmeTcpRecvState = .pdu from if_pos (by omega)]
    exact recvPdu_short c h
  · intro t ht
    rw [speaksOf, if_neg (by omega), if_neg (by omega)] at ht
    cases ht

theorem feeds_header_part (hq : RecvOk c q) (h : b.length < q.pduRemaining) :
    Feeds c n b q (headerBytes b q) := by
  induction b generalizing q with
  | nil =>
    have hsame : headerBytes [] q = q := by simp [headerBytes]
    rw [hsame]
    exact .done q
  | cons x b ih =>
    rw [List.length_cons] at h
    have hoff : q.pduOffset ≤ q.pdu.length := by
      have := hq.pdu
      have := hq.header
      omega
    have hrest := ih (hq.headerBytes (b := [x]) (by rw [List.length_singleton]; omega))
      (show b.length < q.pduRemaining - 1 by omega)
    rw [headerBytes_append hoff] at hrest
    exact .byte (takes_header_part (by omega)) hrest

theorem feeds_header (hq : RecvOk c q) (hlen : b.length = q.pduRemaining) (hb : b ≠ [])
    (hres : recvHeader c (headerBytes b q) = (0, q'))
    (hopen : q.ended (hdrTag (writeAt q.pdu q.pduOffset b)) <
      n (hdrTag (writeAt q.pdu q.pduOffset b))) :
    Feeds c n b q q' := by
  obtain ⟨a, x, rfl⟩ : ∃ a x, b = a ++ [x] :=
    ⟨b.dropLast, b.getLast hb, (List.dropLast_append_getLast hb).symm⟩
  rw [List.length_append, List.length_singleton] at hlen
  have hoff : q.pduOffset ≤ q.pdu.length := by
    have := hq.pdu
    have := hq.header
    omega
  have hrem : (headerBytes a q).pduRemaining = 1 := by
    change q.pduRemaining - a.length = 1
    omega
  have hpdu : writeAt (headerBytes a q).pdu (headerBytes a q).pduOffset
      [x] = writeAt q.pdu q.pduOffset (a ++ [x]) :=
    writeAt_append hoff a [x]
  refine feeds_append (feeds_header_part hq (by omega)) (.byte ⟨?_, ?_⟩ (.done q'))
  · have htake : [x].take (headerBytes a q).pduRemaining = [x] := List.take_of_length_le hrem.ge
    rw [recvPiece_eq, show (headerBytes a q).nvmeTcpRecvState = .pdu from if_pos (by omega),
      pieceOf, recvPdu_whole c hrem.le, htake, headerBytes_append hoff, hres, hrem]
    rfl
  · intro t ht
    rw [speaksOf, if_neg (by omega), if_pos hrem, hpdu, Option.mem_some_iff] at ht
    exact ht ▸ hopen

end Whole

section Room

variable {r : NvmeTcpRequest} {len : ℕ}

/-- What can still be copied into the pages of a request. -/
def room (r : NvmeTcpRequest) : ℕ := r.iter.count + (r.currBio.tail.map Bio.size).sum

theorem nextBio_room (hs : r.rq.specialVec = none) (hpos : 0 < room r) :
    (nextBio r).1 = 0 ∧ room (nextBio r).2 = room r := by
  unfold nextBio
  by_cases h0 : r.iter.count = 0
  · rw [if_pos h0]
    dsimp only
    cases hbio : r.currBio.tail with
    | nil => simp [room, h0, hbio] at hpos
    | cons b bs =>
      have hcurr : r.currBio ≠ [] := by
        intro hnil
        simp [hnil] at hbio
      rw [if_neg hcurr, if_neg (List.cons_ne_nil b bs)]
      refine ⟨rfl, ?_⟩
      simp [room, NvmeTcpRequest.initIter, hs, h0, hbio]
  · rw [if_neg h0]
    exact ⟨rfl, rfl⟩

theorem afterTurn_room (hs : r.rq.specialVec = none) (hpos : 0 < room r) (len : ℕ) :
    room (afterTurn len r) = room r - turnLen len r ∧ turnLen len r ≤ room r := by
  have hnext := (nextBio_room hs hpos).2
  have hle : turnLen len r ≤ (nextBio r).2.iter.count := Nat.min_le_right _ _
  have hcount : (afterTurn len r).iter.count = (nextBio r).2.iter.count - turnLen len r :=
    IovIter.advance_count _ _
  have hroom : room (afterTurn len r) =
      (nextBio r).2.iter.count - turnLen len r + ((nextBio r).2.currBio.tail.map Bio.size).sum := by
    rw [room, hcount]
    rfl
  rw [← hnext, hroom, room]
  omega

theorem copyOut_room (len : ℕ) (r : NvmeTcpRequest) (hs : r.rq.specialVec = none)
    (hle : len ≤ room r) :
    (copyOut len r).1 = 0 ∧ room (copyOut len r).2.1 = room r - len ∧
      (copyOut len r).2.1.rq = r.rq := by
  induction len, r using copyOut_induction with
  | zero r => rw [copyOut_zero]; exact ⟨rfl, rfl, rfl⟩
  | full len r hlen hbio => exact absurd (nextBio_room hs (by omega)).1 hbio
  | turn len r hlen hbio ih =>
    obtain ⟨hroom, hturn⟩ := afterTurn_room hs (by omega) len
    have hrq : (afterTurn len r).rq = r.rq := nextBio_rq r
    have hlen' : turnLen len r ≤ len := Nat.min_le_left _ _
    obtain ⟨h1, h2, h3⟩ := ih (by rw [hrq]; exact hs) (by omega)
    rw [copyOut_turn hlen hbio]
    exact ⟨h1, by dsimp only; omega, h3.trans hrq⟩

end Room

section Data

variable {c : Config} {n : UInt16 → ℕ} {q : RecvQueue} {r : NvmeTcpRequest}

/-- The bytes of a data PDU, up to its last one. -/
theorem feeds_data {b : List Byte} (hstate : q.nvmeTcpRecvState = .data)
    (hr : q.rqs (NvmeTcpXferPdu.decode q.pdu).commandId = some r) (hs : r.rq.specialVec = none)
    (hb : b ≠ []) (hlen : b.length = q.dataRemaining) (hroom : b.length ≤ room r)
    (hopen : q.ended (NvmeTcpXferPdu.decode q.pdu).commandId <
      n (NvmeTcpXferPdu.decode q.pdu).commandId) :
    Feeds c n b q (dataEnd c (storeData c b.length b (copyOut b.length r).2.1 q)) := by
  have hpdu : q.pduRemaining = 0 := by
    unfold nvmeTcpRecvState at hstate
    split_ifs at hstate with h1 h2
    exact not_not.1 h1
  have hspeaks : ∀ x, ∀ t ∈ speaksOf x q, q.ended t < n t := by
    intro x t ht
    rw [speaksOf, if_pos hpdu, Option.mem_some_iff] at ht
    exact ht ▸ hopen
  induction b generalizing q r with
  | nil => exact absurd rfl hb
  | cons x b ih =>
    have hone := copyOut_room 1 r hs (by rw [List.length_cons] at hroom; omega)
    have hcopied := (copyOut_copied 1 r).2 hone.1
    by_cases hnil : b = []
    · -- the last byte
      subst hnil
      refine .byte ⟨?_, hspeaks x⟩ (.done _)
      rw [recvPiece_eq, hstate, pieceOf,
        recvData_eq c hr (show 1 = min [x].length q.dataRemaining by rw [← hlen]; rfl), hcopied,
        hone.1, if_neg WithBot.zero_ne_bot, if_neg (not_not.2 rfl), if_neg (by rw [← hlen]; simp)]
      rfl
    · have hpos : 0 < b.length := List.length_pos_iff.2 hnil
      rw [List.length_cons] at hlen hroom
      have htake : Takes c n x q (storeData c 1 [x] (copyOut 1 r).2.1 q) := by
        refine ⟨?_, hspeaks x⟩
        rw [recvPiece_eq, hstate, pieceOf]
        exact recvData_short (a := [x]) hr (by rw [List.length_singleton]; omega) hone.1
      have hrest := ih (q := storeData c 1 [x] (copyOut 1 r).2.1 q) (r := (copyOut 1 r).2.1) hstate
        (Function.update_self _ _ _) (by rw [hone.2.2]; exact hs) hnil
        (show b.length = q.dataRemaining - 1 by omega) (by rw [hone.2.1]; omega) hopen hpdu hspeaks
      have hstore : ∀ r', storeData c b.length b r' (storeData c 1 [x] (copyOut 1 r).2.1 q) =
          storeData c (1 + b.length) (x :: b) r' q :=
            fun r' => storeData_add c [x] b b.length _ r' q
      have hadd := copyOut_add 1 b.length r hone.1
      rw [hstore] at hrest
      rw [List.length_cons, Nat.add_comm b.length 1, hadd]
      exact .byte htake hrest

end Data

end BlkSwitch.Host
