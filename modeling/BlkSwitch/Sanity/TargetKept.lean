import BlkSwitch.Sanity.TargetRecv

/-! Every step of the target's worker keeps custody of its commands in order, as long as the
connection is up and the steps are fair: a command's iovec is to be had once its pages are, a
rejected command is rejected with an error, and data is only sent for a command that asked for
it. -/

namespace BlkSwitch.Target

open NvmetTcpQueue Relation Custody

def headerRead (q : NvmetTcpQueue) (b : List Byte) : Option (List Byte) :=
  if q.rcvState = .pdu ∧ q.left ≤ b.length ∧ q.offset + b.length ≠ 8 then
    some (Bytes.writeAt q.pdu q.offset b)
  else none

def ReqInit.rejection : ReqInit → Option NvmeCompletion
  | .accept _ => none
  | .reject cqe => some cqe

/-- What is asked of the host, the memory and the backend at a header. -/
def FairHeader (q : NvmetTcpQueue) (env : Env) (pdu : List Byte) : Prop :=
  if (NvmeTcpHdr.decode pdu).type = nvmeTcpH2cData then
    CmdId.slot (NvmeTcpXferPdu.decode pdu).ttag.toNat ∈ q.waiting
  else env.alloc ≠ .noIov ∧ ∀ cqe ∈ env.init.rejection, cqe.status ≠ 0

instance (q : NvmetTcpQueue) (env : Env) (pdu : List Byte) : Decidable (FairHeader q env pdu) := by
  unfold FairHeader
  infer_instance

def FairRead (q : NvmetTcpQueue) (env : Env) (b : List Byte) : Prop :=
  ∀ pdu ∈ headerRead q b, FairHeader q env pdu

instance (q : NvmetTcpQueue) (env : Env) (b : List Byte) : Decidable (FairRead q env b) := by
  unfold FairRead
  infer_instance

variable {c : Config} {L₀ : Ledger CmdId (pool c)} {q q' : NvmetTcpQueue} {i : CmdId}

section Recv

theorem Kept.not_held_of_free (h : Kept c L₀ q) (hi : i ∈ q.freeList) : i ∉ held q := by
  obtain ⟨L, -, hL⟩ := h.ledger
  intro hh
  exact (List.nodup_append.1 hL.nodup).2.2 i hi i (by simpa using hh) rfl

theorem Kept.same (h : Kept c L₀ q) (hm : Moves c [] q [] q') (hc : q'.cmds = q.cmds)
    (hl : q'.waiting = q.waiting ∧ q'.executing = q.executing ∧ q'.respList = q.respList ∧
      q'.respSendList = q.respSendList ∧ q'.sndCmd = q.sndCmd)
    (hr : q'.rcvState = q.rcvState ∧ q'.cmd = q.cmd) : Kept c L₀ q' := by
  obtain ⟨hw, he, hrl, hsl, hn⟩ := hl
  obtain ⟨hs, hcm⟩ := hr
  refine h.moves hm ⟨⟨?_, ?_, ?_⟩, ?_, ?_, ?_⟩
  · rw [hw, he, hc]
    exact h.recv.flag
  · rw [hrl, hsl, hc]
    exact h.recv.resp
  · rw [hn, hc]
    exact h.recv.snd
  · rw [hs, hcm]
    exact h.recv.idle
  · rw [hs, hcm]
    exact h.recv.busy
  · rw [hs, hcm, hc]
    exact h.recv.digest

theorem Kept.header (h : Kept c L₀ q) (b : List Byte) : Kept c L₀ (readHeader b q) :=
  h.same (moves_places rfl (.refl _) (fun _ _ => rfl) rfl rfl) rfl ⟨rfl, rfl, rfl, rfl, rfl⟩
    ⟨rfl, rfl⟩

theorem Kept.h2c (h : Kept c L₀ q) (hpdu : q.rcvState = .pdu) (hi : i ∈ q.waiting)
    {f : NvmetTcpCmd → NvmetTcpCmd} (hf : CmdOnly i q (q.modifyCmd i f))
    (hcqe : (f (q.cmds i)).req.cqe = (q.cmds i).req.cqe)
    (hsg : sgId (f (q.cmds i)) = sgId (q.cmds i)) :
    Kept c L₀ ({ q with cmd := some i, rcvState := .data, waiting := q.waiting.erase i }.modifyCmd i
      f) := by
  have hflag : (f (q.cmds i)).initFailed = false := by
    have hkeep := hf.keep.1
    rw [modifyCmd_cmds_self] at hkeep
    rw [hkeep]
    exact h.recv.flag i (by simp [hi])
  have hrecv : receiving
    ({ q with cmd := some i, rcvState := .data, waiting := q.waiting.erase i }.modifyCmd i f) =
      [i] := by
    simp [receiving, modifyCmd, hflag]
  have hfl := hf.flags (by rw [modifyCmd_cmds_self, hcqe]) h.recv.toFlagsOk
  refine h.moves ((hf.moves (by rw [modifyCmd_cmds_self, hsg]) rfl).trans ?_)
    ⟨⟨?_, hfl.resp, hfl.snd⟩,
    by simp [modifyCmd], fun _ => ⟨i, rfl⟩, by simp [modifyCmd]⟩
  · refine moves_places rfl ?_ (fun _ _ => rfl) rfl rfl
    have hperm : q.waiting.Perm (i :: q.waiting.erase i) := List.perm_cons_erase hi
    rw [List.perm_iff_count]
    intro a
    have hcount := hperm.count_eq a
    have hnone : receiving (q.modifyCmd i f) = [] := receiving_of_pdu hpdu
    simp only [held, hrecv, hnone, List.nil_append, List.count_append]
    simp only [modifyCmd]
    rw [hcount]
    simp only [List.count_cons, List.count_nil]
    omega
  · intro j hj
    refine hfl.flag j ?_
    rcases List.mem_append.1 hj with hj | hj
    · exact List.mem_append_left _ (List.mem_of_mem_erase hj)
    · exact List.mem_append_right _ hj

theorem Kept.doneRecvPdu (h : Kept c L₀ q) {env : Env} (hpdu : q.rcvState = .pdu)
    (hfair : FairHeader q env q.pdu) (hok : (doneRecvLive c env q).1 = false)
    (hup : (doneRecvLive c env q).2.fatal = false) :
    Kept c L₀ (doneRecvLive c env q).2 := by
  by_cases ht : (NvmeTcpHdr.decode q.pdu).type = nvmeTcpH2cData
  · unfold FairHeader at hfair
    rw [if_pos ht] at hfair
    simp only [doneRecvLive, ht, ↓reduceIte, nvmetTcpHandleH2cDataPdu] at hok ⊢
    split_ifs at hok ⊢ with hoff
    exact h.h2c (f := startH2c (NvmeTcpXferPdu.decode q.pdu).second.toNat) hpdu hfair
      (cmdOnly_modifyCmd ⟨rfl, rfl⟩) rfl rfl
  · unfold FairHeader at hfair
    rw [if_neg ht] at hfair
    obtain ⟨halloc, hstatus⟩ := hfair
    cases hf : q.freeList with
    | nil =>
      rw [doneRecvPdu_out ht hf] at hok
      cases hok
    | cons i rest =>
      have hfresh : i ∉ held q := h.not_held_of_free (by simp [hf])
      have hheld : held (started c i rest q) = held q := by
        have hrecv : receiving (started c i rest q) = receiving q := by
          rw [receiving_of_pdu hpdu, receiving_of_pdu]
          exact hpdu
        simp only [held, hrecv]
        rfl
      have hin : InHand i (started c i rest q) :=
        ⟨h.recv.toFlagsOk.started, hpdu, rfl, by simp [started, freshCmd]⟩
      have hsg : ((started c i rest q).cmds i).req.sg = none := by simp [started, freshCmd]
      have hstart : Moves c [] q [i] (started c i rest q) := moves_started hpdu hf
      cases hinit : env.init with
      | accept d =>
        rw [doneRecvPdu_accept ht hf hinit] at hup ⊢
        have hd : CmdOnly i (started c i rest q)
            ((started c i rest q).modifyCmd i (setDataLen d)) :=
          cmdOnly_modifyCmd ⟨rfl, rfl⟩
        have hsnd : ((started c i rest q).modifyCmd i (setDataLen d)).sndCmd ≠ some i := by
          intro hs
          refine hfresh ?_
          have hs' : q.sndCmd = some i := hs
          simp [held, hs']
        obtain ⟨hm, hr⟩ := (hin.cmdOnly hd).accepted halloc (by simp [setDataLen, hsg]) hsnd hup
        exact h.moves ((hstart.trans (hd.moves (by simp [sgId, setDataLen]) rfl)).trans hm) hr
      | reject cqe =>
        rw [doneRecvPdu_reject ht hf hinit] at hup ⊢
        obtain ⟨hm, hr⟩ := hin.rejected halloc hsg (by rwa [hheld])
          (hstatus cqe (by simp [hinit, ReqInit.rejection])) hup
        exact h.moves (hstart.trans hm) hr

theorem Kept.received (h : Kept c L₀ q) (hi : q.cmd = some i)
    (hbusy : q.rcvState = .data ∨ q.rcvState = .ddgst) (hflag : (q.cmds i).initFailed = false) :
    Kept c L₀ (nvmetPrepareReceivePdu (nvmetReqExecute i q)) ∧
      Kept c L₀ (nvmetPrepareReceivePdu { q with waiting := q.waiting ++ [i] }) := by
  have hrecv : receiving q = [i] := by
    rcases hbusy with hb | hb <;> simp [receiving, hb, hi, hflag]
  refine ⟨h.moves (moves_places rfl ?_ (fun _ _ => rfl) rfl rfl) ⟨?_, fun _ => rfl, ?_, ?_⟩,
    h.moves (moves_places rfl ?_ (fun _ _ => rfl) rfl rfl) ⟨?_, fun _ => rfl, ?_, ?_⟩⟩
  · rw [List.perm_iff_count]
    intro a
    simp only [held, hrecv]
    simp only [nvmetPrepareReceivePdu, nvmetReqExecute, receiving, List.nil_append,
      List.count_append, List.count_cons, List.count_nil]
    omega
  · refine h.recv.toFlagsOk.grow (i := i) (fun _ _ => rfl) hflag ?_ (fun j hj => .inr hj) rfl
    intro j hj
    simp only [nvmetPrepareReceivePdu, nvmetReqExecute, List.mem_append, List.mem_singleton] at hj ⊢
    tauto
  · simp [nvmetPrepareReceivePdu]
  · simp [nvmetPrepareReceivePdu]
  · rw [List.perm_iff_count]
    intro a
    simp only [held, hrecv]
    simp only [nvmetPrepareReceivePdu, receiving, List.nil_append, List.count_append,
      List.count_cons, List.count_nil]
    omega
  · refine h.recv.toFlagsOk.grow (i := i) (fun _ _ => rfl) hflag ?_ (fun j hj => .inr hj) rfl
    intro j hj
    simp only [nvmetPrepareReceivePdu, List.mem_append, List.mem_singleton] at hj ⊢
    tauto
  · simp [nvmetPrepareReceivePdu]
  · simp [nvmetPrepareReceivePdu]

theorem Kept.cmdOnly (h : Kept c L₀ q) (hco : CmdOnly i q q')
    (hcqe : (q'.cmds i).req.cqe = (q.cmds i).req.cqe) (hsg : sgId (q'.cmds i) = sgId (q.cmds i))
    (ha : q'.sglAllocs = q.sglAllocs) : Kept c L₀ q' := by
  refine h.moves (hco.moves hsg ha) ⟨hco.flags hcqe h.recv.toFlagsOk, ?_, ?_, ?_⟩
  · rw [hco.rcv.1, hco.rcv.2.1]
    exact h.recv.idle
  · rw [hco.rcv.1, hco.rcv.2.1]
    exact h.recv.busy
  · rw [hco.rcv.1, hco.rcv.2.1]
    intro hd j hj
    rw [hco.initFailed]
    exact h.recv.digest hd j hj

theorem sgId_setSgData (cmd : NvmetTcpCmd) (b : List Byte) : sgId (cmd.setSgData b) = sgId cmd := by
  unfold sgId NvmetTcpCmd.setSgData
  cases cmd.req.sg <;> rfl

theorem Kept.recvDataDone (h : Kept c L₀ q) (hd : q.rcvState = .data) (hi : q.cmd = some i) :
    Kept c L₀ (recvDataDone c i q) := by
  unfold Target.recvDataDone
  simp only
  split_ifs with h1 h2 h3
  · -- the digest of the data is still to come
    have hrecv : receiving
      ({ q with offset := 0, left := NVME_TCP_DIGEST_LENGTH, rcvState := .ddgst }.modifyCmd i
        fun cmd => { cmd with expDdgst := c.crc (cmd.sgData.take cmd.req.transferLen) }) =
          receiving q := by
      simp [receiving, modifyCmd, hd, hi, List.filter_cons]
    have hco : CmdOnly i q (q.modifyCmd i fun cmd =>
        { cmd with expDdgst := c.crc (cmd.sgData.take cmd.req.transferLen) }) := cmdOnly_modifyCmd
          ⟨rfl, rfl⟩
    have hk' := h.cmdOnly hco (by simp) (by simp [sgId]) rfl
    refine hk'.moves (moves_places rfl ?_ (fun _ _ => rfl) rfl rfl)
      ⟨⟨hk'.recv.flag, hk'.recv.resp, hk'.recv.snd⟩,
      by simp [modifyCmd], fun _ => ⟨i, hi⟩, ?_⟩
    · have hrecv' : receiving (q.modifyCmd i fun cmd =>
          { cmd with expDdgst := c.crc (cmd.sgData.take cmd.req.transferLen) }) = receiving q :=
        receiving_congr rfl rfl hco.initFailed
      simp only [held, hrecv, hrecv']
      exact .refl _
    · intro _ j hj
      obtain rfl : i = j := Option.some.inj (hi.symm.trans hj)
      simpa using h1.1
  · exact (h.received hi (.inl hd) h1.1).1
  · -- nobody waits for this data
    have hrecv : receiving q = [] := by simp [receiving, hd, hi, h3]
    refine h.moves (moves_places rfl ?_ (fun _ _ => rfl) rfl rfl)
      ⟨⟨h.recv.flag, h.recv.resp, h.recv.snd⟩, fun _ => rfl, by simp [nvmetPrepareReceivePdu],
        by simp [nvmetPrepareReceivePdu]⟩
    simp only [held, hrecv]
    exact .refl _
  · exact (h.received hi (.inl hd) (by simpa using h3)).2

theorem Kept.tryRecvData (h : Kept c L₀ q) (hd : q.rcvState = .data) (hi : q.cmd = some i)
    (b : List Byte) :
    Kept c L₀ (nvmetTcpTryRecvData c i b q) := by
  have hk : Kept c L₀ (q.modifyCmd i (recvInto b)) := by
    refine h.cmdOnly (cmdOnly_modifyCmd ⟨rfl, rfl⟩) ?_ ?_ rfl
    · rw [modifyCmd_cmds_self]
      rfl
    · rw [modifyCmd_cmds_self]
      exact sgId_setSgData _ _
  unfold nvmetTcpTryRecvData
  simp only
  split_ifs
  · refine Kept.recvDataDone (hk.cmdOnly (cmdOnly_modifyCmd ⟨rfl, rfl⟩) ?_ ?_ rfl) hd hi
    · rw [modifyCmd_cmds_self]
      rfl
    · rw [modifyCmd_cmds_self]
      rfl
  · exact hk

theorem Kept.tryRecvDdgst (h : Kept c L₀ q) (hd : q.rcvState = .ddgst) (hi : q.cmd = some i)
    (b : List Byte) (hok : (nvmetTcpTryRecvDdgst c i b q).1 = false) :
    Kept c L₀ (nvmetTcpTryRecvDdgst c i b q).2 := by
  have hinto : CmdOnly i { q with offset := q.offset + b.length, left := q.left - b.length }
      ({ q with offset := q.offset + b.length, left := q.left - b.length }.modifyCmd i fun cmd =>
        { cmd with recvDdgst := Bytes.writeAt cmd.recvDdgst q.offset b }) := cmdOnly_modifyCmd
          ⟨rfl, rfl⟩
  have hk : Kept c L₀ ({ q with offset := q.offset + b.length, left := q.left - b.length }.modifyCmd
      i fun cmd =>
      { cmd with recvDdgst := Bytes.writeAt cmd.recvDdgst q.offset b }) := by
    have h₀ : Kept c L₀ { q with offset := q.offset + b.length, left := q.left - b.length } :=
      h.same (moves_places rfl (.refl _) (fun _ _ => rfl) rfl rfl) rfl ⟨rfl, rfl, rfl, rfl, rfl⟩
        ⟨rfl, rfl⟩
    exact h₀.cmdOnly hinto (by simp) (by simp [sgId]) rfl
  have hflag := hk.recv.digest hd i hi
  obtain ⟨hex, hwait⟩ := hk.received hi (.inr hd) hflag
  unfold nvmetTcpTryRecvDdgst at hok ⊢
  simp only at hok ⊢
  split_ifs at hok ⊢
  · exact hk
  · exact hex
  · exact hwait

theorem stays_up {p : Bool × NvmetTcpQueue}
    (hp : (if p.1 then nvmetTcpFatalError p.2 else p.2).fatal = false) :
    p.1 = false ∧ (if p.1 then nvmetTcpFatalError p.2 else p.2) = p.2 := by
  obtain ⟨r, p⟩ := p
  cases r with
  | true => simp [nvmetTcpFatalError] at hp
  | false => exact ⟨rfl, rfl⟩

theorem headerRead_of_done {b : List Byte} (hs : q.rcvState = .pdu)
    (h0 : ¬ (readHeader b q).left ≠ 0) (h8 : ¬ (readHeader b q).offset = 8) :
    (readHeader b q).pdu ∈ headerRead q b := by
  simp only [readHeader, not_not] at h0 h8
  simp only [headerRead, hs, true_and]
  rw [if_pos ⟨by omega, h8⟩]
  rfl

/-- A read keeps custody in order, unless it takes the connection down. -/
theorem Kept.tryRecv (h : Kept c L₀ q) {env : Env} {b : List Byte} (hfair : FairRead q env b)
    (hup : (nvmetTcpTryRecv c env b q).fatal = false) : Kept c L₀ (nvmetTcpTryRecv c env b q) := by
  unfold nvmetTcpTryRecv at hup ⊢
  simp only at hup ⊢
  split at hup
  case h_1 hs =>
    obtain ⟨hok, hrun⟩ := stays_up hup
    rw [hrun] at hup ⊢
    have hk := h.header b
    unfold nvmetTcpTryRecvPdu tryRecvHeader at hok hup ⊢
    simp only at hok hup ⊢
    split_ifs at hok hup ⊢ with h0 h8
    · exact hk
    · exact hk.same (moves_places rfl (.refl _) (fun _ _ => rfl) rfl rfl) rfl
        ⟨rfl, rfl, rfl, rfl, rfl⟩ ⟨rfl, rfl⟩
    · exact hk.doneRecvPdu hs (hfair _ (headerRead_of_done hs h0 h8)) hok hup
  case h_2 i hs hi => exact h.tryRecvData hs hi b
  case h_3 i hs hi =>
    obtain ⟨hok, hrun⟩ := stays_up hup
    rw [hrun]
    exact h.tryRecvDdgst hs hi b hok
  case h_4 => exact h

end Recv

section Send

theorem SendStep.state_of_response (h : SendStep c i q q') (hst : (q.cmds i).state = .response) :
    q'.sndCmd = none ∨ (q'.cmds i).state = .response := by
  cases h with
  | full | refused | emptyHdr | emptyPage => exact .inr hst
  | part => exact .inr (by simpa [skip] using hst)
  | dataPdu h' | page h' | dataDone h' | ddgst h' | ddgstLast h' | r2t h' => simp [hst] at h'
  | response | responseLast =>
    left
    first | rfl | exact (putCmd_places _ _).2.1

theorem SendStep.waiting (h : SendStep c i q q') :
    q'.waiting = q.waiting ∨ (q.cmds i).state = .r2t ∧ q'.waiting = q.waiting ++ [i] := by
  cases h with
  | full | refused | emptyHdr | emptyPage | part | ddgst | response => exact .inl rfl
  | dataPdu _ he => exact .inl (he.waiting c)
  | page _ _ _ _ he => exact .inl (he.waiting c)
  | dataDone =>
    left
    unfold Target.dataDone
    cases c.dataDigest <;> cases c.sqhdDisabled <;>
      simp only [Bool.false_eq_true, ↓reduceIte, (sglFree_places _ _).1, (putCmd_places _ _).1] <;>
        rfl
  | ddgstLast => exact .inl (putCmd_places _ _).1
  | r2t hst he =>
    right
    refine ⟨hst, ?_⟩
    simp [r2tDone, modifyCmd, he.waiting c]
  | responseLast =>
    left
    rw [responseDone, (putCmd_places _ _).1]
    exact (sglFree_places _ _).1

theorem Frame.flag (h : Frame i q q') (j : CmdId) :
    (q'.cmds j).initFailed = (q.cmds j).initFailed := by
  by_cases hj : j = i
  · rw [hj, h.recv.2.2.2.1]
  · rw [h.cmds j hj]

theorem Frame.reqOf (h : Frame i q q') (j : CmdId) : (q'.cmds j).req = (q.cmds j).req := by
  by_cases hj : j = i
  · rw [hj, h.req]
  · rw [h.cmds j hj]

theorem Sends.sndCmd (h : Sends c i q q') : q'.sndCmd = none ∨ q'.sndCmd = some i := by
  obtain ⟨hsnd, h⟩ := h
  cases h with
  | full | refused | emptyHdr | emptyPage | part | ddgst => exact .inr hsnd
  | dataPdu _ he => exact .inr ((he.sndCmd c).trans hsnd)
  | page _ _ _ _ he => exact .inr ((he.sndCmd c).trans hsnd)
  | dataDone =>
    unfold Target.dataDone
    cases c.dataDigest <;> cases c.sqhdDisabled <;>
      simp [(sglFree_places _ _).2.1, (putCmd_places _ _).2.1, modifyCmd, hsnd]
  | ddgstLast | responseLast => exact .inl (putCmd_places _ _).2.1
  | r2t | response => exact .inl rfl

theorem Kept.sends (h : Kept c L₀ q) (hs : Sends c i q q') : Kept c L₀ q' := by
  have hf := hs.2.frame
  obtain ⟨-, -, hstate, hcmd, -⟩ := hf.rcv
  have hexec := hf.lists.2.2.2
  refine h.moves (hs.2.moves hs.1) ⟨⟨?_, ?_, ?_⟩, ?_, ?_, ?_⟩
  · intro j hj
    rw [hf.flag]
    rw [hexec] at hj
    rcases hs.2.waiting with hw | ⟨hst, hw⟩
    · rw [hw] at hj
      exact h.recv.flag j hj
    · -- an R2T is never sent for a failed request
      rw [hw] at hj
      by_cases hji : j = i
      · rw [hji]
        by_contra hfl
        have hresp := h.recv.snd i hs.1 (by simpa using hfl)
        simp [hst] at hresp
      · refine h.recv.flag j ?_
        simp only [List.mem_append, List.mem_singleton, hji, or_false] at hj ⊢
        exact hj
  · intro j hj hfl
    rw [hf.lists.1, hf.lists.2.1] at hj
    rw [hf.flag] at hfl
    rw [hf.reqOf]
    exact h.recv.resp j hj hfl
  · intro j hj hfl
    have hji : j = i := by
      rcases hs.sndCmd with hn | hn
      · rw [hn] at hj
        cases hj
      · rw [hn] at hj
        exact (Option.some.inj hj).symm
    subst hji
    rw [hf.flag] at hfl
    rcases hs.2.state_of_response (h.recv.snd j hs.1 hfl) with hn | hst
    · rw [hn] at hj
      cases hj
    · exact hst
  · rw [hstate, hcmd]
    exact h.recv.idle
  · rw [hstate, hcmd]
    exact h.recv.busy
  · rw [hstate, hcmd]
    intro hd j hj
    rw [hf.flag]
    exact h.recv.digest hd j hj

theorem Fetches.mem {sl rl : List CmdId} {len : ℤ} (hf : Fetches q i sl rl len) (j : CmdId)
    (hj : j = i ∨ j ∈ rl ++ sl) : j ∈ q.respList ++ q.respSendList := by
  have horder : j ∈ q.respSendList ++ q.respList.reverse := by
    rw [hf.order]
    simp only [List.mem_cons, List.mem_append, List.mem_reverse] at hj ⊢
    tauto
  simp only [List.mem_append, List.mem_reverse] at horder ⊢
  tauto

theorem Kept.fetched {sl rl : List CmdId} {len : ℤ} (h : Kept c L₀ q) (hf : Fetches q i sl rl len) :
    Kept c L₀ (fetched c i sl rl len q) := by
  have hmem := hf.mem
  have hreq := fetched_cmds_req (c := c) (q := q) (i := i) sl rl len
  refine h.moves hf.moves ⟨⟨?_, ?_, ?_⟩, h.recv.idle, h.recv.busy, ?_⟩
  · intro j hj
    rw [(hreq j).2]
    exact h.recv.flag j hj
  · intro j hj hfl
    rw [(hreq j).2] at hfl
    rw [(hreq j).1]
    exact h.recv.resp j (hmem j (.inr hj)) hfl
  · intro j hj hfl
    obtain rfl : i = j := Option.some.inj hj
    rw [(hreq i).2] at hfl
    have hst := h.recv.resp i (hmem i (.inl rfl)) hfl
    rw [Target.fetched, modifyCmd_cmds_self]
    simp [setupFirstPdu, NvmetTcpCmd.needDataOut, NvmetTcpCmd.needDataIn, hst,
      nvmetSetupResponsePdu]
  · intro hd j hj
    rw [(hreq j).2]
    exact h.recv.digest hd j hj

theorem Kept.flushed (h : Kept c L₀ q) :
    Kept c L₀ (caravanSent (q.kernelSend q.caravanBytes).2) := by
  obtain ⟨b, rs, hq⟩ := q.kernelSend_heard q.caravanBytes
  refine h.same moves_flush ?_ ?_ ?_
  all_goals rw [hq, caravanSent, freeCaravanCmds_eq]
  · rfl
  · exact ⟨rfl, rfl, rfl, rfl, rfl⟩
  · exact ⟨rfl, rfl⟩

theorem Kept.turn (h : Kept c L₀ q) (last nospace : Bool) :
    Kept c L₀ (trySendTurn c last nospace q).2 := by
  refine trySendTurn_invariant (I := Kept c L₀) ?_ ?_ ?_ ?_ last nospace h
  · intro q i sl rl len h hf
    exact h.fetched hf
  · intro i q q' h hs
    exact h.sends hs
  · intro q h
    exact h.flushed
  · intro q h
    exact h.same (moves_places rfl (.refl _) (fun _ _ => rfl) rfl rfl) rfl ⟨rfl, rfl, rfl, rfl, rfl⟩
      ⟨rfl, rfl⟩

end Send

def completed (cqe : NvmeCompletion) (data : List Byte) (cmd : NvmetTcpCmd) : NvmetTcpCmd :=
  { cmd.setSgData data with req := { (cmd.setSgData data).req with cqe := cqe } }

theorem backendCompletes_some {cqe : NvmeCompletion} {data : List Byte}
    (h : backendCompletes c i cqe data q = some q') : i ∈ q.executing ∧
      q' = nvmetTcpQueueResponse c i
      { q.modifyCmd i (completed cqe data) with executing := q.executing.erase i } := by
  unfold backendCompletes at h
  split_ifs at h with hg
  refine ⟨hg.1, ?_⟩
  cases h
  simp only [nvmetReqComplete, modifyCmd, Function.update_self, Function.update_idem]
  rfl

theorem Kept.completes (h : Kept c L₀ q) {cqe : NvmeCompletion} {data : List Byte}
    (hc : backendCompletes c i cqe data q = some q') : Kept c L₀ q' := by
  obtain ⟨hi, rfl⟩ := backendCompletes_some hc
  have hset : CmdOnly i q (q.modifyCmd i (completed cqe data)) := cmdOnly_modifyCmd ⟨rfl, rfl⟩
  have hsg : sgId ((q.modifyCmd i (completed cqe data)).cmds i) = sgId (q.cmds i) := by
    rw [modifyCmd_cmds_self]
    exact sgId_setSgData _ _
  have hflag : ((q.modifyCmd i (completed cqe data)).cmds i).initFailed = false := by
    rw [hset.initFailed]
    exact h.recv.flag i (by simp [hi])
  refine h.moves ((hset.moves hsg rfl).trans (moves_places rfl ?_ (fun _ _ => rfl) rfl rfl))
    ⟨?_, h.recv.idle, h.recv.busy, ?_⟩
  · have hperm : q.executing.Perm (i :: q.executing.erase i) := List.perm_cons_erase hi
    have hrecv : receiving (nvmetTcpQueueResponse c i
        { q.modifyCmd i (completed cqe data) with executing := q.executing.erase i }) =
        receiving (q.modifyCmd i (completed cqe data)) := rfl
    rw [List.perm_iff_count]
    intro a
    have hcount := hperm.count_eq a
    simp only [held, hrecv, List.nil_append, List.count_append]
    simp only [nvmetTcpQueueResponse, modifyCmd]
    rw [hcount]
    simp only [List.count_cons]
    omega
  · refine h.recv.toFlagsOk.grow (i := i)
      (fun j hj => modifyCmd_cmds_of_ne q i (completed cqe data) hj) hflag ?_ ?_ rfl
    · intro j hj
      right
      rcases List.mem_append.1 hj with hj | hj
      · exact List.mem_append_left _ hj
      · exact List.mem_append_right _ (List.mem_of_mem_erase hj)
    · intro j hj
      simpa [nvmetTcpQueueResponse, modifyCmd, or_assoc] using hj
  · intro hd j hj
    change ((q.modifyCmd i (completed cqe data)).cmds j).initFailed = false
    rw [hset.initFailed]
    exact h.recv.digest hd j hj

/-- What the steps ask of their environment. -/
def FairStep (s : TargetState) : TargetEvent → Prop
  | .recv b env => FairRead s.q env b
  | .complete _ _ _ | .sendStart _ | .sendTurn _ _ => True

instance (s : TargetState) (e : TargetEvent) : Decidable (FairStep s e) := by
  cases e <;> unfold FairStep <;> infer_instance

/-- What reads, completions and turns keep while the connection is up, every step keeps. -/
theorem targetStep_invariant {I : NvmetTcpQueue → Prop} {s s' : TargetState} {e : TargetEvent}
    (h : I s.q) (hrecv : ∀ b env, e = .recv b env → (nvmetTcpTryRecv c env b s.q).fatal = false →
      I (nvmetTcpTryRecv c env b s.q))
    (hcomplete : ∀ i cqe data q', e = .complete i cqe data →
      backendCompletes c i cqe data s.q = some q' → I q')
    (hreplies : ∀ rs, I { s.q with replies := rs })
    (hturn : ∀ q last nospace, I q → I (trySendTurn c last nospace q).2)
    (hs : targetStep c s e = some s') (hup : s'.q.fatal = false) : I s'.q := by
  cases e with
  | recv b env =>
    simp only [targetStep] at hs
    split at hs
    · split_ifs at hs
      cases hs
      exact hrecv b env rfl hup
    · cases hs
  | complete i cqe data =>
    simp only [targetStep] at hs
    obtain ⟨q', hq', rfl⟩ := Option.map_eq_some_iff.1 hs
    exact hcomplete i cqe data q' rfl hq'
  | sendStart budget =>
    simp only [targetStep, sendStart] at hs
    split at hs
    · split_ifs at hs
      cases hs
      exact h
    · cases hs
  | sendTurn nospace replies =>
    simp only [targetStep, sendTurn] at hs
    split at hs
    case h_2 => cases hs
    case h_1 n hpc =>
      have hq := hturn _ (n == 0) nospace (hreplies replies)
      split at hs
      case h_1 q' hres =>
        rw [hres] at hq
        cases hs
        exact hq
      case h_2 ret stalled q' hres =>
        rw [hres] at hq
        cases hs
        simp only at hup ⊢
        split_ifs at hup ⊢
        · unfold ioWorkFails nvmetTcpFatalError at hup
          split_ifs at hup
        · exact hq

theorem Kept.step {s s' : TargetState} {e : TargetEvent} (h : Kept c L₀ s.q) (hfair : FairStep s e)
    (hs : targetStep c s e = some s') (hup : s'.q.fatal = false) : Kept c L₀ s'.q := by
  refine targetStep_invariant (I := Kept c L₀) h ?_ ?_ ?_ ?_ hs hup
  · rintro b env rfl hup
    exact h.tryRecv hfair hup
  · rintro i cqe data q' rfl hq'
    exact h.completes hq'
  · intro rs
    exact h.same (moves_places rfl (.refl _) (fun _ _ => rfl) rfl rfl) rfl ⟨rfl, rfl, rfl, rfl, rfl⟩
      ⟨rfl, rfl⟩
  · intro q last nospace hq
    exact hq.turn last nospace

def initLedger (c : Config) : Ledger CmdId (pool c) where
  free := slots c
  held := [.connect]
  retired := []
  owns := fun _ => none
  next := 0
  released := []
  nodup := pool_nodup c
  items := by
    simp only [List.append_nil, pool]
    exact List.perm_append_singleton _ _
  ids := by simp

theorem kept_init (c : Config) : Kept c (initLedger c) (initQueue c) := by
  refine ⟨⟨initLedger c, .refl, ⟨rfl, .refl _, ?_, by simp [initLedger], rfl, rfl⟩⟩,
    ⟨⟨?_, ?_, ?_⟩, fun _ => rfl, ?_, ?_⟩⟩
  · intro i _
    simp [initLedger, owned, initQueue, zeroCmd, sgId]
  all_goals simp [initQueue, zeroCmd]

end BlkSwitch.Target
