import BlkSwitch.Sanity.TargetKept

/-! What a read of the target's receive path leaves alone: the caravan, the command being sent, the
lists of pages of all commands that were not free, and whether they have data to send. -/

namespace BlkSwitch.Target

open NvmetTcpQueue

variable {c : Config} {q q' : NvmetTcpQueue} {i : CmdId}

/-- The header just read is of a write that is rejected and whose data the target skips itself. -/
def Skips (c : Config) (env : Env) (pdu : List Byte) : Prop :=
  (NvmeTcpHdr.decode pdu).type ≠ nvmeTcpH2cData ∧ env.init.rejection.isSome ∧
    (NvmeCommand.decodeAt pdu 8).nvmeIsWrite ∧
    (NvmeCommand.decodeAt pdu 8).sgl.length.toNat ≤ c.inlineDataSize

instance (c : Config) (env : Env) (pdu : List Byte) : Decidable (Skips c env pdu) := by
  unfold Skips
  infer_instance

/-- What a read that leaves the connection up does not change. `w` says that it starts to skip
data. -/
structure RecvFrame (w : Prop) (q q' : NvmetTcpQueue) : Prop where
  free : q'.freeList ⊆ q.freeList
  freed : q'.sglFreed = q.sglFreed
  send : q'.caravanIovs = q.caravanIovs ∧ q'.sndCmd = q.sndCmd
  state : ∀ j, (q'.cmds j).state = (q.cmds j).state
  kept : ∀ j, j ∉ q.freeList → sgId (q'.cmds j) = sgId (q.cmds j) ∧
    (q'.cmds j).needDataOut = (q.cmds j).needDataOut
  up : q.rcvState ≠ .err → q'.rcvState ≠ .err
  resp : ∀ j ∈ q'.respList ++ q'.respSendList, j ∈ q.respList ++ q.respSendList ∨
    (q'.cmds j).needDataOut = false
  flag : ¬ w → ∀ j, (q'.cmds j).initFailed = true → (q.cmds j).initFailed = true

section Started

/-- Only a command in the hands of the receive path has changed, and it has no data to send. -/
structure Handled (i : CmdId) (q q' : NvmetTcpQueue) : Prop where
  cmds : ∀ j, j ≠ i → q'.cmds j = q.cmds j
  state : (q'.cmds i).state = (q.cmds i).state
  free : q'.freeList = q.freeList
  freed : q'.sglFreed = q.sglFreed
  send : q'.caravanIovs = q.caravanIovs ∧ q'.sndCmd = q.sndCmd
  up : q'.rcvState ≠ .err
  resp : ∀ j ∈ q'.respList ++ q'.respSendList,
    j ∈ q.respList ++ q.respSendList ∨ j = i ∧ (q'.cmds i).needDataOut = false

theorem cmdOnly_mapData {alloc : Alloc} (halloc : alloc ≠ .noIov) :
    CmdOnly i q (nvmetTcpMapData c alloc i q).2 := by
  rcases mapData_cases c q i halloc with ⟨-, h⟩ | ⟨st, -, h⟩ | ⟨st, -, -, h⟩ | ⟨-, -, h⟩ <;> rw [h]
  · exact .refl
  · exact .refl
  · exact cmdOnly_modifyCmd (by simp [mapLen])
  · exact cmdOnly_mapped

theorem mapData_status {alloc : Alloc} (h : (nvmetTcpMapData c alloc i q).1 ≠ 0) :
    (nvmetTcpMapData c alloc i q).1 <<< 1 ≠ 0 := by
  unfold nvmetTcpMapData at h ⊢
  simp only at h ⊢
  split_ifs at h ⊢
  all_goals first | exact absurd rfl h | (dsimp only; decide)

theorem needDataOut_of_status {cmd : NvmetTcpCmd} (h : cmd.req.cqe.status ≠ 0) :
    cmd.needDataOut = false := by
  simp [NvmetTcpCmd.needDataOut, h]

theorem needDataOut_of_write {cmd : NvmetTcpCmd} (h : cmd.req.cmd.nvmeIsWrite = true) :
    cmd.needDataOut = false := by
  simp [NvmetTcpCmd.needDataOut, h]

theorem reqComplete_cmds_of_ne {j : CmdId} {cqe : NvmeCompletion} (hj : j ≠ i) :
    (nvmetReqComplete c i cqe q).cmds j = q.cmds j :=
  modifyCmd_cmds_of_ne q i (fun cmd => { cmd with req := { cmd.req with cqe := cqe } }) hj

theorem startAccepted_handled {alloc : Alloc} (halloc : alloc ≠ .noIov)
    (hup : (startAccepted c alloc i q).fatal = false) :
    Handled i q (startAccepted c alloc i q) := by
  have hco : CmdOnly i q (nvmetTcpMapData c alloc i q).2 := cmdOnly_mapData halloc
  obtain ⟨hfree, -, -, hr, hsl, hn, -, hk⟩ := hco.lists
  unfold startAccepted at hup ⊢
  simp only at hup ⊢
  split_ifs at hup ⊢ with h1 h2 h3 h4
  · simp [nvmetPrepareReceivePdu, nvmetTcpFatalError] at hup
  · refine ⟨fun j hj => ?_, ?_, hfree, hco.freed,
      ⟨hk, hn⟩, by simp [nvmetPrepareReceivePdu], fun j hj => ?_⟩
    · exact (reqComplete_cmds_of_ne (c := c) hj).trans (hco.cmds j hj)
    · simp [nvmetPrepareReceivePdu, nvmetReqComplete, nvmetTcpQueueResponse, hco.keep.2]
    · have hout : ((nvmetPrepareReceivePdu (nvmetReqComplete c i
          (errorCqe ((nvmetTcpMapData c alloc i q).2.cmds i) (nvmetTcpMapData c alloc i q).1)
          (nvmetTcpMapData c alloc i q).2)).cmds i).needDataOut = false := by
        refine needDataOut_of_status ?_
        simpa [nvmetPrepareReceivePdu, nvmetReqComplete, nvmetTcpQueueResponse,
          errorCqe] using mapData_status h1
      simp only [nvmetPrepareReceivePdu, nvmetReqComplete, nvmetTcpQueueResponse, modifyCmd, hr,
        hsl, List.cons_append, List.mem_cons] at hj
      exact hj.symm.imp id fun hji => ⟨hji, hout⟩
  · refine ⟨fun j hj => ?_, ?_, hfree, hco.freed,
      ⟨hk, hn⟩, by simp [modifyCmd], fun j hj => .inl ?_⟩
    · exact (modifyCmd_cmds_of_ne _ _ _ hj).trans (hco.cmds j hj)
    · simp [nvmetTcpMapPduIovec, hco.keep.2]
    · rwa [← hr, ← hsl]
  · refine ⟨hco.cmds, hco.keep.2, hfree, hco.freed,
      ⟨hk, hn⟩, by simp [nvmetPrepareReceivePdu], fun j hj => ?_⟩
    have hout : ((nvmetTcpMapData c alloc i q).2.cmds i).needDataOut = false := by
      refine needDataOut_of_write ?_
      simp only [NvmetTcpCmd.needDataIn, NvmetTcpCmd.hasDataIn, Bool.and_eq_true] at h3
      exact h3.1.1
    simp only [nvmetPrepareReceivePdu, nvmetTcpQueueResponse, hr, hsl, List.cons_append,
      List.mem_cons] at hj
    exact hj.symm.imp id fun hji => ⟨hji, hout⟩
  · refine ⟨hco.cmds, hco.keep.2, hfree, hco.freed,
      ⟨hk, hn⟩, by simp [nvmetPrepareReceivePdu], fun j hj => .inl ?_⟩
    rwa [← hr, ← hsl]

theorem startAccepted_flag {alloc : Alloc} (halloc : alloc ≠ .noIov) :
    ((startAccepted c alloc i q).cmds i).initFailed = (q.cmds i).initFailed := by
  have hco : CmdOnly i q (nvmetTcpMapData c alloc i q).2 := cmdOnly_mapData halloc
  unfold startAccepted
  simp only
  split_ifs <;>
    simp [nvmetPrepareReceivePdu, nvmetReqComplete, nvmetTcpQueueResponse, nvmetReqExecute,
      nvmetTcpFatalError, nvmetTcpMapPduIovec, hco.keep.1]

theorem handleReqFailure_handled {alloc : Alloc} (halloc : alloc ≠ .noIov)
    (hup : (nvmetTcpHandleReqFailure c alloc i q).fatal = false) :
    Handled i q (nvmetTcpHandleReqFailure c alloc i q) := by
  set q₂ := q.modifyCmd i (setDataLen (sglLen (q.cmds i))) with hq₂
  have hco₂ : CmdOnly i q q₂ := cmdOnly_modifyCmd ⟨rfl, rfl⟩
  have hrun : nvmetTcpHandleReqFailure c alloc i q =
      if (q₂.cmds i).req.cmd.nvmeIsWrite = false ∨ c.inlineDataSize < (q₂.cmds i).req.dataLen then
        nvmetPrepareReceivePdu q₂
      else if (nvmetTcpMapData c alloc i q₂).1 ≠ 0 then
        nvmetTcpFatalError (nvmetTcpMapData c alloc i q₂).2
      else { (nvmetTcpMapData c alloc i q₂).2 with rcvState := .data }.modifyCmd i fun cmd =>
        { nvmetTcpMapPduIovec cmd with initFailed := true } := rfl
  rw [hrun] at hup ⊢
  split_ifs at hup ⊢ with h1 h2
  · exact ⟨hco₂.cmds, hco₂.keep.2, rfl, rfl,
      ⟨rfl, rfl⟩, by simp [nvmetPrepareReceivePdu], fun j hj => .inl hj⟩
  · simp [nvmetTcpFatalError] at hup
  · have hco : CmdOnly i q₂ (nvmetTcpMapData c alloc i q₂).2 := cmdOnly_mapData halloc
    obtain ⟨hfree, -, -, hr, hsl, hn, -, hk⟩ := hco.lists
    refine ⟨fun j hj => ?_, ?_, hfree, hco.freed,
      ⟨hk, hn⟩, by simp [modifyCmd], fun j hj => .inl ?_⟩
    · rw [modifyCmd_cmds_of_ne _ _ _ hj]
      exact (hco.cmds j hj).trans (hco₂.cmds j hj)
    · rw [modifyCmd_cmds_self]
      exact hco.keep.2.trans hco₂.keep.2
    · have hlists : (nvmetTcpMapData c alloc i q₂).2.respList ++
        (nvmetTcpMapData c alloc i q₂).2.respSendList =
          q.respList ++ q.respSendList := by
        rw [hr, hsl]
        rfl
      rwa [← hlists]

theorem handleReqFailure_cqe {alloc : Alloc} (halloc : alloc ≠ .noIov) :
    ((nvmetTcpHandleReqFailure c alloc i q).cmds i).req.cqe = (q.cmds i).req.cqe := by
  unfold nvmetTcpHandleReqFailure
  simp only
  split_ifs <;>
    simp [nvmetPrepareReceivePdu, nvmetTcpFatalError, nvmetTcpMapPduIovec, mapData_cqe halloc]

/-- The failed command is remembered as one only when its data is skipped. -/
theorem handleReqFailure_flag {alloc : Alloc}
    (hw : ¬ ((q.cmds i).req.cmd.nvmeIsWrite ∧
      (q.cmds i).req.cmd.sgl.length.toNat ≤ c.inlineDataSize)) :
    ((nvmetTcpHandleReqFailure c alloc i q).cmds i).initFailed = (q.cmds i).initFailed := by
  unfold nvmetTcpHandleReqFailure
  rw [if_pos]
  · simp [nvmetPrepareReceivePdu]
  · rw [modifyCmd_cmds_self]
    simp only [not_and, not_le] at hw
    by_cases h : (q.cmds i).req.cmd.nvmeIsWrite = true
    · exact .inr (hw h)
    · exact .inl (by simpa using h)

end Started

section Frame

variable {w : Prop} {env : Env} {b : List Byte}

theorem RecvFrame.refl : RecvFrame w q q :=
  ⟨fun _ h => h, rfl, ⟨rfl, rfl⟩, fun _ => rfl, fun _ _ => ⟨rfl, rfl⟩, id, fun _ h => .inl h,
    fun _ _ h => h⟩

theorem recvFrame_of_cmds (hf : q'.freeList = q.freeList) (hfr : q'.sglFreed = q.sglFreed)
    (hsend : q'.caravanIovs = q.caravanIovs ∧ q'.sndCmd = q.sndCmd)
    (hlists : q'.respList = q.respList ∧ q'.respSendList = q.respSendList)
    (hup : q'.rcvState ≠ .err ∨ q'.rcvState = q.rcvState)
    (hcmds : ∀ j, (q'.cmds j).state = (q.cmds j).state ∧ sgId (q'.cmds j) = sgId (q.cmds j) ∧
      (q'.cmds j).needDataOut = (q.cmds j).needDataOut ∧
      (q'.cmds j).initFailed = (q.cmds j).initFailed) :
    RecvFrame w q q' := by
  refine ⟨by rw [hf]; exact fun _ h => h, hfr, hsend, fun j => (hcmds j).1,
    fun j _ => ⟨(hcmds j).2.1, (hcmds j).2.2.1⟩, ?_, ?_,
    fun _ j hj => by rwa [(hcmds j).2.2.2] at hj⟩
  · intro he
    rcases hup with hup | hup
    · exact hup
    · rwa [hup]
  · intro j hj
    rw [hlists.1, hlists.2] at hj
    exact .inl hj

theorem recvFrame_of_handled {rest : List CmdId} (hf : q.freeList = i :: rest)
    (h : Handled i (started c i rest q) q') (hlists : ¬ w → (q'.cmds i).initFailed = false) :
    RecvFrame w q q' := by
  have hcmd : ∀ j, j ≠ i → q'.cmds j = q.cmds j := fun j hj =>
    (h.cmds j hj).trans (modifyCmd_cmds_of_ne _ _ _ hj)
  refine ⟨?_, h.freed, h.send, ?_, ?_, fun _ => h.up, ?_, ?_⟩
  · have hfree : q'.freeList = rest := h.free
    rw [hfree, hf]
    exact List.subset_cons_self i rest
  · intro j
    by_cases hj : j = i
    · rw [hj, h.state]
      simp [started, freshCmd]
    · rw [hcmd j hj]
  · intro j hj
    have hji : j ≠ i := by
      rintro rfl
      exact hj (by simp [hf])
    rw [hcmd j hji]
    exact ⟨rfl, rfl⟩
  · intro j hj
    rcases h.resp j hj with hj | ⟨rfl, hout⟩
    · exact .inl hj
    · exact .inr hout
  · intro hw j hj
    by_cases hji : j = i
    · rw [hji, hlists hw] at hj
      cases hj
    · rwa [hcmd j hji] at hj

theorem recvFrame_doneRecvPdu (hfair : FairHeader q env q.pdu)
    (hok : (doneRecvLive c env q).1 = false) (hup : (doneRecvLive c env q).2.fatal = false) :
    RecvFrame (Skips c env q.pdu) q (doneRecvLive c env q).2 := by
  by_cases ht : (NvmeTcpHdr.decode q.pdu).type = nvmeTcpH2cData
  · simp only [doneRecvLive, ht, ↓reduceIte, nvmetTcpHandleH2cDataPdu] at hok ⊢
    split_ifs at hok ⊢
    refine recvFrame_of_cmds rfl rfl ⟨rfl, rfl⟩ ⟨rfl, rfl⟩ (.inl (by simp [modifyCmd])) ?_
    intro j
    by_cases hj : j = .slot (NvmeTcpXferPdu.decode q.pdu).ttag.toNat
    · rw [hj, modifyCmd_cmds_self]
      exact ⟨rfl, rfl, rfl, rfl⟩
    · rw [modifyCmd_cmds_of_ne _ _ _ hj]
      exact ⟨rfl, rfl, rfl, rfl⟩
  · unfold FairHeader at hfair
    rw [if_neg ht] at hfair
    obtain ⟨halloc, hstatus⟩ := hfair
    cases hf : q.freeList with
    | nil =>
      rw [doneRecvPdu_out ht hf] at hok
      cases hok
    | cons i rest =>
      cases hinit : env.init with
      | accept d =>
        rw [doneRecvPdu_accept ht hf hinit] at hup ⊢
        have hd : CmdOnly i (started c i rest q)
            ((started c i rest q).modifyCmd i (setDataLen d)) :=
          cmdOnly_modifyCmd ⟨rfl, rfl⟩
        have h := startAccepted_handled (i := i) halloc hup
        refine recvFrame_of_handled hf
          ⟨fun j hj => (h.cmds j hj).trans (hd.cmds j hj), h.state.trans hd.keep.2, h.free,
          h.freed, h.send, h.up, h.resp⟩ fun _ => ?_
        rw [startAccepted_flag halloc, hd.keep.1]
        simp [started, freshCmd]
      | reject cqe =>
        rw [doneRecvPdu_reject ht hf hinit] at hup ⊢
        have hcqe : ((nvmetReqComplete c i cqe (started c i rest q)).cmds i).req.cqe = cqe := by
          simp [nvmetReqComplete, nvmetTcpQueueResponse]
        have hst : cqe.status ≠ 0 := hstatus cqe (by simp [hinit, ReqInit.rejection])
        have h := handleReqFailure_handled
          (q := nvmetReqComplete c i cqe (started c i rest q)) halloc hup
        have hout : ((nvmetTcpHandleReqFailure c env.alloc i
            (nvmetReqComplete c i cqe (started c i rest q))).cmds i).needDataOut = false := by
          refine needDataOut_of_status ?_
          rwa [handleReqFailure_cqe halloc, hcqe]
        refine recvFrame_of_handled hf
          ⟨fun j hj => (h.cmds j hj).trans (reqComplete_cmds_of_ne hj), ?_, h.free, h.freed, h.send,
          h.up, ?_⟩ fun hw => ?_
        · rw [h.state]
          simp [nvmetReqComplete, nvmetTcpQueueResponse]
        · intro j hj
          rcases h.resp j hj with hj | hj
          · simp only [nvmetReqComplete, nvmetTcpQueueResponse, modifyCmd, List.cons_append,
              List.mem_cons] at hj
            exact hj.symm.imp id fun hji => ⟨hji, hout⟩
          · exact .inr hj
        · rw [handleReqFailure_flag]
          · simp [nvmetReqComplete, nvmetTcpQueueResponse, started, freshCmd]
          · rintro ⟨h1, h2⟩
            refine hw ⟨ht, by simp [hinit, ReqInit.rejection], ?_, ?_⟩
            · simpa [nvmetReqComplete, nvmetTcpQueueResponse, started, freshCmd] using h1
            · simpa [nvmetReqComplete, nvmetTcpQueueResponse, started, freshCmd] using h2

def SameOut (cmd cmd' : NvmetTcpCmd) : Prop :=
  cmd'.state = cmd.state ∧ sgId cmd' = sgId cmd ∧ cmd'.needDataOut = cmd.needDataOut ∧
    cmd'.initFailed = cmd.initFailed

theorem modifyCmd_sameOut {f : NvmetTcpCmd → NvmetTcpCmd} (hf : SameOut (q.cmds i) (f (q.cmds i)))
    (j : CmdId) :
    SameOut (q.cmds j) ((q.modifyCmd i f).cmds j) := by
  by_cases hj : j = i
  · rw [hj, modifyCmd_cmds_self]
    exact hf
  · rw [modifyCmd_cmds_of_ne _ _ _ hj]
    exact ⟨rfl, rfl, rfl, rfl⟩

theorem recvFrame_tryRecvData : RecvFrame w q (nvmetTcpTryRecvData c i b q) := by
  have hinto : SameOut (q.cmds i) (recvInto b (q.cmds i)) := ⟨rfl, sgId_setSgData _ _, rfl, rfl⟩
  have hall := modifyCmd_sameOut hinto
  unfold nvmetTcpTryRecvData
  simp only
  split_ifs
  · replace hall : ∀ j, SameOut (q.cmds j)
        (((q.modifyCmd i (recvInto b)).modifyCmd i nvmetTcpUnmapPduIovec).cmds j) := by
      intro j
      obtain ⟨h1, h2, h3, h4⟩ := hall j
      obtain ⟨h1', h2', h3', h4'⟩ := modifyCmd_sameOut (q := q.modifyCmd i (recvInto b)) (i := i)
        (f := nvmetTcpUnmapPduIovec) ⟨rfl, rfl, rfl, rfl⟩ j
      exact ⟨h1'.trans h1, h2'.trans h2, h3'.trans h3, h4'.trans h4⟩
    unfold recvDataDone
    simp only
    split_ifs
    · refine recvFrame_of_cmds rfl rfl ⟨rfl, rfl⟩ ⟨rfl, rfl⟩ (.inl (by simp [modifyCmd])) fun j =>
        ?_
      by_cases hj : j = i
      · rw [hj, modifyCmd_cmds_self]
        exact hall i
      · rw [modifyCmd_cmds_of_ne _ _ _ hj]
        exact hall j
    · exact recvFrame_of_cmds rfl rfl ⟨rfl, rfl⟩ ⟨rfl, rfl⟩
        (.inl (by simp [nvmetPrepareReceivePdu])) hall
    · exact recvFrame_of_cmds rfl rfl ⟨rfl, rfl⟩ ⟨rfl, rfl⟩
        (.inl (by simp [nvmetPrepareReceivePdu])) hall
    · exact recvFrame_of_cmds rfl rfl ⟨rfl, rfl⟩ ⟨rfl, rfl⟩
        (.inl (by simp [nvmetPrepareReceivePdu])) hall
  · exact recvFrame_of_cmds rfl rfl ⟨rfl, rfl⟩ ⟨rfl, rfl⟩ (.inr rfl) hall

theorem recvFrame_tryRecvDdgst (hok : (nvmetTcpTryRecvDdgst c i b q).1 = false) :
    RecvFrame w q (nvmetTcpTryRecvDdgst c i b q).2 := by
  have hall := modifyCmd_sameOut
    (q := { q with offset := q.offset + b.length, left := q.left - b.length }) (i := i)
    (f := fun cmd => { cmd with recvDdgst := Bytes.writeAt cmd.recvDdgst q.offset b })
      ⟨rfl, rfl, rfl, rfl⟩
  unfold nvmetTcpTryRecvDdgst at hok ⊢
  simp only at hok ⊢
  split_ifs at hok ⊢
  · exact recvFrame_of_cmds rfl rfl ⟨rfl, rfl⟩ ⟨rfl, rfl⟩ (.inr rfl) hall
  · exact recvFrame_of_cmds rfl rfl ⟨rfl, rfl⟩ ⟨rfl, rfl⟩
      (.inl (by simp [nvmetPrepareReceivePdu])) hall
  · exact recvFrame_of_cmds rfl rfl ⟨rfl, rfl⟩ ⟨rfl, rfl⟩
      (.inl (by simp [nvmetPrepareReceivePdu])) hall

theorem RecvFrame.header {pdu : List Byte} (h : RecvFrame (Skips c env pdu) (readHeader b q) q')
    (hp : pdu ∈ headerRead q b) : RecvFrame (∃ pdu ∈ headerRead q b, Skips c env pdu) q q' :=
  ⟨h.free, h.freed, h.send, h.state, h.kept, h.up, h.resp,
    fun hw => h.flag fun hs => hw ⟨pdu, hp, hs⟩⟩

/-- What a read that leaves the connection up keeps. -/
theorem recvFrame_tryRecv (hfair : FairRead q env b)
    (hup : (nvmetTcpTryRecv c env b q).fatal = false) :
    RecvFrame (∃ pdu ∈ headerRead q b, Skips c env pdu) q (nvmetTcpTryRecv c env b q) := by
  unfold nvmetTcpTryRecv at hup ⊢
  simp only at hup ⊢
  split at hup
  case h_1 hs =>
    obtain ⟨hok, hrun⟩ := stays_up hup
    rw [hrun] at hup ⊢
    unfold nvmetTcpTryRecvPdu tryRecvHeader at hok hup ⊢
    simp only at hok hup ⊢
    split_ifs at hok hup ⊢ with h0 h8
    · exact recvFrame_of_cmds rfl rfl ⟨rfl, rfl⟩ ⟨rfl, rfl⟩ (.inr rfl) fun _ => ⟨rfl, rfl, rfl, rfl⟩
    · exact recvFrame_of_cmds rfl rfl ⟨rfl, rfl⟩ ⟨rfl, rfl⟩ (.inr rfl) fun _ => ⟨rfl, rfl, rfl, rfl⟩
    · have hp := headerRead_of_done hs h0 h8
      exact (recvFrame_doneRecvPdu (q := readHeader b q) (hfair _ hp) hok hup).header hp
  case h_2 => exact recvFrame_tryRecvData
  case h_3 =>
    obtain ⟨hok, hrun⟩ := stays_up hup
    rw [hrun]
    exact recvFrame_tryRecvDdgst hok
  case h_4 => exact .refl

end Frame

end BlkSwitch.Target
