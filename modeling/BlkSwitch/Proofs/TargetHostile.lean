import BlkSwitch.Proofs.TargetSlots
import BlkSwitch.Spec.TargetConnect

/-! What the target makes of an H2C data PDU it has not asked for. On a live queue the only field of
the header that is looked at before the data is let in is the offset, and when that one is wrong the
command the tag points to is completed. -/

namespace BlkSwitch.Target

open NvmetTcpQueue

section Rules

variable (c : Config) (q q' : NvmetTcpQueue) (pdu : List Byte)

def h2cSlot : CmdId := .slot (NvmeTcpXferPdu.decode pdu).ttag.toNat

/-- The data was asked for: a write has an R2T out, and the data is part of its transfer. -/
def AskedFor : Prop :=
  (NvmeTcpXferPdu.decode pdu).ttag.toNat < c.nrCmds ∧ h2cSlot pdu ∈ q.waiting ∧
    (q.cmds (h2cSlot pdu)).req.cmd.nvmeIsWrite = true ∧
    (NvmeTcpXferPdu.decode pdu).first.toNat + (NvmeTcpXferPdu.decode pdu).second.toNat ≤
      (q.cmds (h2cSlot pdu)).req.transferLen

/-- The queue is down, and no command has changed or been completed. -/
structure TurnedDown : Prop where
  err : q'.rcvState = .err ∧ q'.fatal = true
  cmds : q'.cmds = q.cmds
  lists : q'.respList = q.respList ∧ q'.executing = q.executing ∧ q'.waiting = q.waiting

/-- What a data PDU may do to a queue; `none` is no way out. -/
structure H2cSafe (s : NvmetTcpConn) (out : Option NvmetTcpConn) : Prop where
  accepted : ∀ s' ∈ out, s'.q.rcvState = .data → AskedFor s.config s.q pdu
  otherwise : ¬ AskedFor s.config s.q pdu → ∃ s' ∈ out, TurnedDown s.q s'.q

/-- The header lacks a digest flag that was negotiated. -/
def FlagRefused (offset : ℕ) : Prop :=
  c.hdrDigest = true ∧ nvmetTcpVerifyHdgst c.crc pdu offset = false ∨
    c.dataDigest = true ∧ nvmetTcpCheckDdgst (nvmetTcpHdgstLen c) pdu = false

end Rules

variable {c : Config} {q : NvmetTcpQueue} {env : Env} {b pdu : List Byte}

theorem headerRead_eq_some (h : headerRead q b = some pdu) :
    q.rcvState = .pdu ∧ (readHeader b q).left = 0 ∧ (readHeader b q).offset ≠ 8 ∧
      (readHeader b q).pdu = pdu := by
  unfold headerRead at h
  split_ifs at h with hcond
  cases h
  refine ⟨hcond.1, ?_, hcond.2.2, rfl⟩
  have := hcond.2.1
  simp only [readHeader]
  omega

def letIn (q : NvmetTcpQueue) : NvmetTcpQueue :=
  { q with
    cmd := some (h2cSlot q.pdu)
    rcvState := .data
    waiting := q.waiting.erase (h2cSlot q.pdu) }.modifyCmd
    (h2cSlot q.pdu) (startH2c (NvmeTcpXferPdu.decode q.pdu).second.toNat)

/-- Only the offset is compared. -/
theorem handleH2c_cases (c : Config) (q : NvmetTcpQueue) :
    (NvmeTcpXferPdu.decode q.pdu).first.toNat ≠ (q.cmds (h2cSlot q.pdu)).rbytesDone ∧
      nvmetTcpHandleH2cDataPdu c q = (true, nvmetReqComplete c (h2cSlot q.pdu)
        (errorCqe (q.cmds (h2cSlot q.pdu)) (NVME_SC_INVALID_FIELD ||| NVME_SC_DNR)) q) ∨
    (NvmeTcpXferPdu.decode q.pdu).first.toNat = (q.cmds (h2cSlot q.pdu)).rbytesDone ∧
      nvmetTcpHandleH2cDataPdu c q = (false, letIn q) := by
  by_cases hoff : (NvmeTcpXferPdu.decode q.pdu).first.toNat = (q.cmds (h2cSlot q.pdu)).rbytesDone
  · exact .inr ⟨hoff, if_neg (not_not.2 hoff)⟩
  · exact .inl ⟨hoff, if_pos hoff⟩

theorem turnedDown_fatal (b : List Byte) (q : NvmetTcpQueue) :
    TurnedDown q (nvmetTcpFatalError (readHeader b q)) :=
  ⟨⟨rfl, rfl⟩, rfl, rfl, rfl, rfl⟩

theorem tryRecvHeader_whole {σ : Type} (c : Config) (keep : NvmetTcpQueue → σ)
    (done : NvmetTcpQueue → Bool × σ) (h : headerRead q b = some pdu) :
    tryRecvHeader c keep done b q = done (readHeader b q) ∧
      ¬ FlagRefused c pdu (q.offset + b.length) ∨
      tryRecvHeader c keep done b q = (true, keep (nvmetTcpFatalError (readHeader b q))) ∧
        FlagRefused c pdu (q.offset + b.length) := by
  obtain ⟨-, hleft, h8, rfl⟩ := headerRead_eq_some h
  have hoff : (readHeader b q).offset = q.offset + b.length := rfl
  unfold tryRecvHeader
  dsimp only
  rw [if_neg (not_not.2 hleft), if_neg h8, hoff]
  by_cases hhdr : c.hdrDigest = true ∧
    nvmetTcpVerifyHdgst c.crc (readHeader b q).pdu (q.offset + b.length) = false
  · rw [if_pos hhdr]
    exact .inr ⟨rfl, .inl hhdr⟩
  · rw [if_neg hhdr]
    by_cases hdata : c.dataDigest = true ∧
      nvmetTcpCheckDdgst (nvmetTcpHdgstLen c) (readHeader b q).pdu = false
    · rw [if_pos hdata]
      exact .inr ⟨rfl, .inr hdata⟩
    · rw [if_neg hdata]
      exact .inl ⟨rfl, fun h => h.elim hhdr hdata⟩

theorem tryRecv_h2c (env : Env) (h : headerRead q b = some pdu)
    (htype : (NvmeTcpHdr.decode pdu).type = nvmeTcpH2cData)
    (hpass : ¬ FlagRefused c pdu (q.offset + b.length)) :
    nvmetTcpTryRecv c env b q =
      if (nvmetTcpHandleH2cDataPdu c (readHeader b q)).1 = true then
        nvmetTcpFatalError (nvmetTcpHandleH2cDataPdu c (readHeader b q)).2
      else (nvmetTcpHandleH2cDataPdu c (readHeader b q)).2 := by
  obtain ⟨hs, -, -, rfl⟩ := headerRead_eq_some h
  obtain ⟨hrun, -⟩ := (tryRecvHeader_whole c id (doneRecvLive c env) h).resolve_right fun hno =>
    hpass hno.2
  have hdone : doneRecvLive c env (readHeader b q) = nvmetTcpHandleH2cDataPdu c (readHeader b q) :=
    if_pos htype
  have hpdu : nvmetTcpTryRecvPdu c env b q = nvmetTcpHandleH2cDataPdu c (readHeader b q) :=
    hrun.trans hdone
  unfold nvmetTcpTryRecv
  rw [hs]
  dsimp only
  rw [hpdu]

section Conn

variable {s : NvmetTcpConn} {crypto : ℤ}

theorem tryRecv_live (env : Env) (b : List Byte) (hlive : s.state ≠ .connecting) :
    s.nvmetTcpTryRecv crypto env b =
      if (nvmetTcpTryRecv s.config env b s.q).oops then none
      else some { s with q := nvmetTcpTryRecv s.config env b s.q } := by
  have hdone : ∀ q, ({ s with q := q } : NvmetTcpConn).nvmetTcpDoneRecvPdu crypto env =
      ((doneRecvLive s.config env q).1, { s with q := (doneRecvLive s.config env q).2 }) :=
        fun q => if_neg hlive
  have hpdu : tryRecvHeader s.config (fun q => { s with q := q })
      (fun q => { s with q := q }.nvmetTcpDoneRecvPdu crypto env) b s.q =
        ((nvmetTcpTryRecvPdu s.config env b s.q).1,
          { s with q := (nvmetTcpTryRecvPdu s.config env b s.q).2 }) := by
    simp only [nvmetTcpTryRecvPdu, tryRecvHeader, hdone]
    split_ifs <;> rfl
  unfold NvmetTcpConn.nvmetTcpTryRecv
  dsimp only
  rw [hpdu]
  by_cases hs : s.q.rcvState = .pdu
  · have hrun : nvmetTcpTryRecv s.config env b s.q =
      if (nvmetTcpTryRecvPdu s.config env b s.q).1 then
        nvmetTcpFatalError (nvmetTcpTryRecvPdu s.config env b s.q).2
          else (nvmetTcpTryRecvPdu s.config env b s.q).2 := by
      unfold nvmetTcpTryRecv
      rw [hs]
    rw [if_pos hs, hrun]
    split_ifs <;> rfl
  · rw [if_neg hs]

/-- The read that brings the end of a data PDU's header: before the icreq or without its flags it is
turned down. -/
theorem tryRecv_refuses (env : Env) (h : headerRead s.q b = some pdu)
    (htype : (NvmeTcpHdr.decode pdu).type = nvmeTcpH2cData)
    (hr : s.state = .connecting ∨ FlagRefused s.config pdu (s.q.offset + b.length)) :
    s.nvmetTcpTryRecv crypto env b = some
      { s with q := nvmetTcpFatalError (readHeader b s.q) } := by
  obtain ⟨hs, -, -, rfl⟩ := headerRead_eq_some h
  unfold NvmetTcpConn.nvmetTcpTryRecv
  dsimp only
  rw [if_pos hs]
  rcases tryRecvHeader_whole s.config (fun q => { s with q := q })
    (fun q => { s with q := q }.nvmetTcpDoneRecvPdu crypto env) h with ⟨hrun, hpass⟩ | ⟨hrun, -⟩
  · have hconn := hr.resolve_right hpass
    have hicreq : (NvmeTcpHdr.decode (readHeader b s.q).pdu).type ≠ nvmeTcpIcreq := by
      rw [htype]
      decide
    have hdone : ({ s with q := readHeader b s.q } : NvmetTcpConn).nvmetTcpDoneRecvPdu crypto env =
        (true, { s with q := nvmetTcpFatalError (readHeader b s.q) }) := by
      unfold NvmetTcpConn.nvmetTcpDoneRecvPdu
      rw [if_pos hconn, if_pos hicreq]
    rw [hrun, hdone]
    rfl
  · rw [hrun]
    rfl

theorem tryRecv_handles (env : Env) (h : headerRead s.q b = some pdu)
    (htype : (NvmeTcpHdr.decode pdu).type = nvmeTcpH2cData) (hlive : s.state ≠ .connecting)
    (hpass : ¬ FlagRefused s.config pdu (s.q.offset + b.length)) {s' : NvmetTcpConn}
    (hs' : s' ∈ s.nvmetTcpTryRecv crypto env b) :
    s'.q = if (nvmetTcpHandleH2cDataPdu s.config (readHeader b s.q)).1 = true then
        nvmetTcpFatalError (nvmetTcpHandleH2cDataPdu s.config (readHeader b s.q)).2
      else (nvmetTcpHandleH2cDataPdu s.config (readHeader b s.q)).2 := by
  rw [tryRecv_live env b hlive] at hs'
  rw [← tryRecv_h2c env h htype hpass]
  split_ifs at hs' with hoops
  · cases hs'
  · cases hs'
    rfl

end Conn

/-- In every state, whatever lies in the slots and behind them, and for every data PDU: what is
asked of the queue holds exactly if there was no icreq yet, if the PDU was asked for, or if it falls
over a digest flag. -/
theorem h2c_pdu_safe_iff (s : NvmetTcpConn) (crypto : ℤ) (env : Env) (b pdu : List Byte)
    (hread : headerRead s.q b = some pdu) (htype : (NvmeTcpHdr.decode pdu).type = nvmeTcpH2cData) :
    H2cSafe pdu s (s.nvmetTcpTryRecv crypto env b) ↔
      s.state = .connecting ∨ AskedFor s.config s.q pdu ∨
        FlagRefused s.config pdu (s.q.offset + b.length) := by
  by_cases hr : s.state = .connecting ∨ FlagRefused s.config pdu (s.q.offset + b.length)
  · have hrun : s.nvmetTcpTryRecv crypto env b = _ := tryRecv_refuses env hread htype hr
    have hdown := turnedDown_fatal b s.q
    rw [hrun]
    refine ⟨fun _ => hr.imp id .inr, fun _ => ⟨?_, fun _ => ⟨_, rfl, hdown⟩⟩⟩
    rintro s' ⟨⟩ hdata
    cases hdata
  · have hlive : s.state ≠ .connecting := fun h => hr (.inl h)
    have hpass : ¬ FlagRefused s.config pdu (s.q.offset + b.length) := fun h => hr (.inr h)
    constructor
    · intro h
      by_contra hno
      have hask : ¬ AskedFor s.config s.q pdu := fun hask => hno (.inr (.inl hask))
      obtain ⟨s', hs', hdown⟩ := h.otherwise hask
      have heq := tryRecv_handles env hread htype hlive hpass hs'
      rcases handleH2c_cases s.config (readHeader b s.q) with ⟨-, hres⟩ | ⟨-, hres⟩
      · -- the command that the tag points to is answered
        rw [heq, hres] at hdown
        have hresp := congrArg List.length hdown.lists.1
        simp [nvmetTcpFatalError, nvmetReqComplete, nvmetTcpQueueResponse, modifyCmd,
          readHeader] at hresp
      · rw [hres] at heq
        exact hask (h.accepted s' hs' (by rw [heq]; rfl))
    · rintro (hconn | hask | hflag)
      · exact absurd hconn hlive
      · exact ⟨fun _ _ _ => hask, fun hno => absurd hask hno⟩
      · exact absurd hflag hpass

section Sample

def sampleH2c : List Byte :=
  let pdu : NvmeTcpDataPdu := ⟨⟨nvmeTcpH2cData, 0, 24, 24, 28⟩, 0, 0, 0, 4⟩
  pdu.encode

/-- A write of four bytes is told to send them. -/
def sampleR2tRun : List TargetEvent :=
  sampleRecv (sampleCapsule 1 0x5a) ⟨.accept 4, .all⟩ ++
    [.sendStart 2, .sendTurn false [], .sendTurn false [],
    .recv (sampleH2c.take 8) ⟨.accept 0, .all⟩]

instance (c : Config) (q : NvmetTcpQueue) (pdu : List Byte) : Decidable (AskedFor c q pdu) :=
  inferInstanceAs (Decidable (_ ∧ _ ∧ _ ∧ _))

def sampleRest (q : NvmetTcpQueue) : Option NvmetTcpConn :=
  NvmetTcpConn.nvmetTcpTryRecv ⟨.live, plainTarget, q⟩ 0 ⟨.accept 0, .all⟩ (sampleH2c.drop 8)

theorem h2c_pdu_safe_iff_sample : ∃ s, (targetSystem plainTarget).Run sampleR2tRun s ∧
    ∃ pdu, headerRead s.q (sampleH2c.drop 8) = some pdu ∧ AskedFor plainTarget s.q pdu ∧
      ((sampleRest s.q).any fun s' => s'.q.rcvState = .data) = true ∧
      H2cSafe pdu ⟨.live, plainTarget, s.q⟩ (sampleRest s.q) := by
  obtain ⟨s, hrun, htest, hdata⟩ : ∃ s, (targetSystem plainTarget).Run sampleR2tRun s ∧
      (headerRead s.q (sampleH2c.drop 8)).any (fun pdu =>
        decide ((NvmeTcpHdr.decode pdu).type = nvmeTcpH2cData ∧ AskedFor plainTarget s.q pdu)) =
          true ∧
      ((sampleRest s.q).any fun s' => s'.q.rcvState = .data) = true :=
    Runs.System.exists_runIn_of_execIn
      (fun s : TargetState => (headerRead s.q (sampleH2c.drop 8)).any (fun pdu =>
      decide ((NvmeTcpHdr.decode pdu).type = nvmeTcpH2cData ∧ AskedFor plainTarget s.q pdu)) =
        true ∧
      ((sampleRest s.q).any fun s' => s'.q.rcvState = .data) = true) (by decide +kernel)
  obtain ⟨pdu, hread, hok⟩ := (Option.any_eq_true _ _).1 htest
  obtain ⟨htype, hask⟩ := of_decide_eq_true hok
  exact ⟨s, hrun, pdu, hread, hask, hdata,
    (h2c_pdu_safe_iff ⟨.live, plainTarget, s.q⟩ 0 _ _ _ hread htype).2 (.inr (.inl hask))⟩

/-- A write of four bytes has come in and its R2T has not gone out yet; the first bytes of a data
PDU for it are there. -/
def sampleEarlyRun : List TargetEvent :=
  sampleRecv (sampleCapsule 1 0x5a) ⟨.accept 4, .all⟩ ++
    [.recv (sampleH2c.take 8) ⟨.accept 0, .all⟩]

/-- Data that was not asked for is let in. -/
theorem unasked_data_let_in : ∃ s, (targetSystem plainTarget).Run sampleEarlyRun s ∧
    s.q.respList = [.slot 0] ∧ s.q.sent = [] ∧ ∃ pdu, headerRead s.q (sampleH2c.drop 8) = some pdu ∧
      ((sampleRest s.q).any fun s' => s'.q.rcvState = .data ∧ s'.q.cmd = some (.slot 0)) = true ∧
      ¬ H2cSafe pdu ⟨.live, plainTarget, s.q⟩ (sampleRest s.q) := by
  obtain ⟨s, hrun, hresp, hsent, htest, hdata⟩ : ∃ s,
    (targetSystem plainTarget).Run sampleEarlyRun s ∧
      s.q.respList = [.slot 0] ∧ s.q.sent = [] ∧
      (headerRead s.q (sampleH2c.drop 8)).any (fun pdu => decide (¬ AskedFor plainTarget s.q pdu)) =
      true ∧ ((sampleRest s.q).any fun s' => s'.q.rcvState = .data ∧ s'.q.cmd = some (.slot 0)) =
        true :=
    Runs.System.exists_runIn_of_execIn
      (fun s : TargetState => s.q.respList = [.slot 0] ∧ s.q.sent = [] ∧
      (headerRead s.q (sampleH2c.drop 8)).any (fun pdu => decide (¬ AskedFor plainTarget s.q pdu)) =
      true ∧ ((sampleRest s.q).any fun s' => s'.q.rcvState = .data ∧ s'.q.cmd = some (.slot 0)) =
      true) (by decide +kernel)
  obtain ⟨pdu, hread, hno⟩ := (Option.any_eq_true _ _).1 htest
  obtain ⟨s', hs', hlet⟩ := (Option.any_eq_true _ _).1 hdata
  exact ⟨s, hrun, hresp, hsent, pdu, hread, hdata,
    fun h => of_decide_eq_true hno (h.accepted s' hs' (of_decide_eq_true hlet).1)⟩

end Sample

end BlkSwitch.Target
