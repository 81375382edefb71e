import BlkSwitch.Sanity.TargetCustody

/-! The receive path of the target as moves of custody: a header takes a command from `free_list`,
mapping its data gives it a list of pages, and it ends up being received, with the backend, or
queued for a response or an R2T. -/

namespace BlkSwitch.Target

open NvmetTcpQueue Relation Custody

section CmdOnly

/-- Only command `i` has changed, in what neither its places nor its lists depend on. -/
structure CmdOnly (i : CmdId) (q q' : NvmetTcpQueue) : Prop where
  cmds : ∀ j, j ≠ i → q'.cmds j = q.cmds j
  keep : (q'.cmds i).initFailed = (q.cmds i).initFailed ∧ (q'.cmds i).state = (q.cmds i).state
  lists : q'.freeList = q.freeList ∧ q'.waiting = q.waiting ∧ q'.executing = q.executing ∧
    q'.respList = q.respList ∧ q'.respSendList = q.respSendList ∧ q'.sndCmd = q.sndCmd ∧
    q'.caravanCmds = q.caravanCmds ∧ q'.caravanIovs = q.caravanIovs
  rcv : q'.rcvState = q.rcvState ∧ q'.cmd = q.cmd ∧ q'.fatal = q.fatal
  freed : q'.sglFreed = q.sglFreed

variable {c : Config} {t : List CmdId} {q q' : NvmetTcpQueue} {i : CmdId}

theorem CmdOnly.refl : CmdOnly i q q :=
  ⟨fun _ _ => rfl, by simp, by simp, by simp, rfl⟩

theorem CmdOnly.initFailed (h : CmdOnly i q q') (j : CmdId) :
    (q'.cmds j).initFailed = (q.cmds j).initFailed := by
  by_cases hj : j = i
  · rw [hj, h.keep.1]
  · rw [h.cmds j hj]

theorem CmdOnly.state (h : CmdOnly i q q') (j : CmdId) : (q'.cmds j).state = (q.cmds j).state := by
  by_cases hj : j = i
  · rw [hj, h.keep.2]
  · rw [h.cmds j hj]

theorem CmdOnly.held (h : CmdOnly i q q') : Target.held q' = Target.held q := by
  obtain ⟨-, hw, he, hr, hs, hn, hc, -⟩ := h.lists
  have hrecv : receiving q' = receiving q := receiving_congr h.rcv.1 h.rcv.2.1 h.initFailed
  simp only [Target.held, hrecv, hw, he, hr, hs, hn, hc]

theorem CmdOnly.owned_of_ne (h : CmdOnly i q q') {j : CmdId} (hj : j ≠ i) :
    Target.owned c q' j = Target.owned c q j := by
  simp only [Target.owned, h.lists.2.2.2.2.2.1, h.cmds j hj]

theorem CmdOnly.moves (h : CmdOnly i q q') (hsg : sgId (q'.cmds i) = sgId (q.cmds i))
    (ha : q'.sglAllocs = q.sglAllocs) : Moves c t q t q' := by
  refine moves_places h.lists.1 (by rw [h.held]) ?_ ha h.freed
  intro j _
  by_cases hj : j = i
  · subst hj
    simp only [Target.owned, h.lists.2.2.2.2.2.1, h.keep.2, hsg]
  · exact h.owned_of_ne hj

theorem cmdOnly_modifyCmd {f : NvmetTcpCmd → NvmetTcpCmd}
    (hf : (f (q.cmds i)).initFailed = (q.cmds i).initFailed ∧
      (f (q.cmds i)).state = (q.cmds i).state) :
    CmdOnly i q (q.modifyCmd i f) := by
  refine ⟨fun j hj => modifyCmd_cmds_of_ne q i f hj,
    ?_, by simp [modifyCmd], by simp [modifyCmd], rfl⟩
  rwa [modifyCmd_cmds_self]

end CmdOnly

section MapData

variable (c : Config) {t : List CmdId} (q : NvmetTcpQueue) (i : CmdId)

def mapped : NvmetTcpQueue := sglAlloc i (q.modifyCmd i mapLen)

/-- Unless the iovec fails: nothing to map; refused; no pages; or mapped. -/
theorem mapData_cases {alloc : Alloc} (halloc : alloc ≠ .noIov) :
    (q.cmds i).req.dataLen = 0 ∧ nvmetTcpMapData c alloc i q = (0, q) ∨
    (∃ st, st ≠ 0 ∧ nvmetTcpMapData c alloc i q = (st, q)) ∨
    (∃ st, st ≠ 0 ∧ alloc = .noSg ∧ nvmetTcpMapData c alloc i q = (st, q.modifyCmd i mapLen)) ∨
    ((q.cmds i).req.dataLen ≠ 0 ∧
      (isInline (q.cmds i) = true → (q.cmds i).req.cmd.nvmeIsWrite = true ∧
      sglLen (q.cmds i) ≤ c.inlineDataSize) ∧ nvmetTcpMapData c alloc i q = (0, mapped q i)) := by
  unfold nvmetTcpMapData
  by_cases h1 : (q.cmds i).req.dataLen = 0
  · exact .inl ⟨h1, if_pos h1⟩
  by_cases h2 : isInline (q.cmds i) = true ∧ (q.cmds i).req.cmd.nvmeIsWrite = false
  · exact .inr (.inl ⟨NVME_SC_INVALID_FIELD ||| NVME_SC_DNR, by decide, by simp only [h1, h2]; rfl⟩)
  by_cases h3 : isInline (q.cmds i) = true ∧ c.inlineDataSize < sglLen (q.cmds i)
  · refine .inr (.inl ⟨NVME_SC_SGL_INVALID_OFFSET ||| NVME_SC_DNR, by decide, ?_⟩)
    rw [if_neg h1, if_neg h2, if_pos h3]
  by_cases h4 : alloc = .noSg
  · refine .inr (.inr (.inl ⟨NVME_SC_INTERNAL, by decide, h4, ?_⟩))
    rw [if_neg h1, if_neg h2, if_neg h3, if_pos h4]
  · refine .inr (.inr (.inr ⟨h1, ?_, ?_⟩))
    · intro hinl
      refine ⟨?_, ?_⟩
      · by_contra hw
        exact h2 ⟨hinl, by simpa using hw⟩
      · by_contra hl
        exact h3 ⟨hinl, by simpa using hl⟩
    · rw [if_neg h1, if_neg h2, if_neg h3, if_neg h4, if_neg fun h => halloc h.2]
      rfl

variable {c q i}

theorem cmdOnly_mapped : CmdOnly i q (mapped q i) := by
  refine ⟨fun j hj => by simp [mapped, sglAlloc, modifyCmd, hj],
    ?_, by simp [mapped, sglAlloc, modifyCmd], by simp [mapped, sglAlloc, modifyCmd], rfl⟩
  simp [mapped, sglAlloc, withSg, mapLen, modifyCmd]

/-- Mapping data keeps a command where it is; a list of pages it is given is its own. -/
theorem mapData_moves {alloc : Alloc} (halloc : alloc ≠ .noIov) (hi : i ∈ t ++ held q)
    (hn : owned c q i = none) (hst : (q.cmds i).state ≠ .ddgst ∨ q.sndCmd ≠ some i) :
    Moves c t q t (nvmetTcpMapData c alloc i q).2 ∧
      CmdOnly i q (nvmetTcpMapData c alloc i q).2 := by
  rcases mapData_cases c q i halloc with ⟨-, h⟩ | ⟨st, -, h⟩ | ⟨st, -, -, h⟩ | ⟨-, -, h⟩
  · rw [h]
    exact ⟨.refl, .refl⟩
  · rw [h]
    exact ⟨.refl, .refl⟩
  · rw [h]
    have hco : CmdOnly i q (q.modifyCmd i mapLen) :=
      cmdOnly_modifyCmd (by simp [mapLen])
    refine ⟨hco.moves ?_ rfl, hco⟩
    simp [sgId, mapLen]
  · rw [h]
    have hco : CmdOnly i q (mapped q i) := cmdOnly_mapped
    refine ⟨moves_acquire hi hn rfl (by rw [hco.held]) ?_ (fun j _ hj => hco.owned_of_ne hj) rfl
      rfl, hco⟩
    have hsg : sgId ((mapped q i).cmds i) = some q.sglAllocs := by
      simp [mapped, sglAlloc, sgId, withSg, modifyCmd]
    rw [← hsg]
    rcases hst with hst | hst
    · exact owned_of_state (by rw [hco.keep.2]; exact hst)
    · exact owned_of_not_sending (by rw [hco.lists.2.2.2.2.2.1]; exact hst)

theorem mapData_cqe {alloc : Alloc} (halloc : alloc ≠ .noIov) :
    ((nvmetTcpMapData c alloc i q).2.cmds i).req.cqe = (q.cmds i).req.cqe := by
  rcases mapData_cases c q i halloc with ⟨-, h⟩ | ⟨st, -, h⟩ | ⟨st, -, -, h⟩ | ⟨-, -, h⟩ <;> rw [h]
  · simp [mapLen]
  · simp [mapped, sglAlloc, withSg, mapLen, modifyCmd]

end MapData

section Start

variable {c : Config} {q q' : NvmetTcpQueue} {i : CmdId} {rest : List CmdId}

def freshCmd (c : Config) (nvmeCmd : NvmeCommand) (cmd : NvmetTcpCmd) : NvmetTcpCmd :=
  { cmd with
    rbytesDone := 0
    wbytesDone := 0
    pduLen := 0
    pduRecv := 0
    recvMsg := { cmd.recvMsg with hasIov := false }
    initFailed := false
    req := c.reqInit { cmd.req with cmd := nvmeCmd } }

def setDataLen (d : ℕ) (cmd : NvmetTcpCmd) : NvmetTcpCmd :=
  { cmd with req := { cmd.req with dataLen := d } }

def started (c : Config) (i : CmdId) (rest : List CmdId) (q : NvmetTcpQueue) : NvmetTcpQueue :=
  { q with
    freeList := rest
    cmd := some i
    received := q.received ++ [NvmeCommand.decodeAt q.pdu 8] }.modifyCmd i
      (freshCmd c (NvmeCommand.decodeAt q.pdu 8))

theorem doneRecvPdu_accept {env : Env} {d : ℕ}
    (ht : (NvmeTcpHdr.decode q.pdu).type ≠ nvmeTcpH2cData) (hf : q.freeList = i :: rest)
    (hinit : env.init = .accept d) :
    doneRecvLive c env q =
      (false, startAccepted c env.alloc i ((started c i rest q).modifyCmd i (setDataLen d))) := by
  simp only [doneRecvLive, ht, ↓reduceIte, nvmetTcpGetCmd, hf, nvmetReqInit, hinit, started]
  simp only [modifyCmd, Function.update_self, Function.update_idem]
  rfl

theorem doneRecvPdu_reject {env : Env} {cqe : NvmeCompletion}
    (ht : (NvmeTcpHdr.decode q.pdu).type ≠ nvmeTcpH2cData) (hf : q.freeList = i :: rest)
    (hinit : env.init = .reject cqe) :
    doneRecvLive c env q =
      (false, nvmetTcpHandleReqFailure c env.alloc i
        (nvmetReqComplete c i cqe (started c i rest q))) := by
  simp only [doneRecvLive, ht, ↓reduceIte, nvmetTcpGetCmd, hf, nvmetReqInit, hinit, started]
  simp only [modifyCmd, Function.update_self, Function.update_idem, Bool.false_eq_true, ↓reduceIte]
  rfl

theorem doneRecvPdu_out (ht : (NvmeTcpHdr.decode q.pdu).type ≠ nvmeTcpH2cData)
    (hf : q.freeList = []) (env : Env) : (doneRecvLive c env q).1 = true := by
  simp [doneRecvLive, ht, nvmetTcpGetCmd, hf]

theorem receiving_of_pdu (h : q.rcvState = .pdu) : receiving q = [] := by simp [receiving, h]

theorem moves_started (hs : q.rcvState = .pdu) (hf : q.freeList = i :: rest) :
    Moves c [] q [i] (started c i rest q) := by
  refine moves_of_nodup fun hnd => ?_
  have hne : ∀ j ∈ [] ++ held q, j ≠ i := by
    rintro j hj rfl
    rw [hf] at hnd
    exact (List.nodup_append.1 hnd).2.2 j (by simp) j hj rfl
  refine moves_take hf rfl ?_ ?_ ?_ rfl rfl
  · have hrecv : receiving (started c i rest q) = receiving q := by
      rw [receiving_of_pdu hs, receiving_of_pdu]
      exact hs
    simp only [held, hrecv, List.nil_append, List.singleton_append]
    rfl
  · have hsg : sgId ((started c i rest q).cmds i) = none := by simp [started, freshCmd, sgId]
    simp [owned, hsg]
  · intro j hj
    have hcmd : (started c i rest q).cmds j = q.cmds j := modifyCmd_cmds_of_ne _ _ _ (hne j hj)
    simp only [owned, hcmd]
    rfl

end Start

section Flags

/-- A command whose request failed before its data was in can only be on its way to be answered. -/
structure FlagsOk (q : NvmetTcpQueue) : Prop where
  flag : ∀ i ∈ q.waiting ++ q.executing, (q.cmds i).initFailed = false
  resp : ∀ i ∈ q.respList ++ q.respSendList, (q.cmds i).initFailed = true →
    (q.cmds i).req.cqe.status ≠ 0
  snd : ∀ i, q.sndCmd = some i → (q.cmds i).initFailed = true → (q.cmds i).state = .response

variable {c : Config} {q q' : NvmetTcpQueue} {i : CmdId}

theorem CmdOnly.flags (h : CmdOnly i q q') (hi : (q'.cmds i).req.cqe = (q.cmds i).req.cqe)
    (hq : FlagsOk q) :
    FlagsOk q' := by
  obtain ⟨-, hw, he, hr, hs, hn, -⟩ := h.lists
  have hcqe : ∀ j, (q'.cmds j).req.cqe = (q.cmds j).req.cqe := by
    intro j
    by_cases hj : j = i
    · rw [hj, hi]
    · rw [h.cmds j hj]
  refine ⟨?_, ?_, ?_⟩
  · intro j hj
    rw [hw, he] at hj
    rw [h.initFailed]
    exact hq.flag j hj
  · intro j hj hf
    rw [hr, hs] at hj
    rw [h.initFailed] at hf
    rw [hcqe]
    exact hq.resp j hj hf
  · intro j hj hf
    rw [hn] at hj
    rw [h.initFailed] at hf
    rw [h.state]
    exact hq.snd j hj hf

theorem FlagsOk.grow (hq : FlagsOk q) (hc : ∀ j, j ≠ i → q'.cmds j = q.cmds j)
    (hi : (q'.cmds i).initFailed = false)
    (hw : ∀ j ∈ q'.waiting ++ q'.executing, j = i ∨ j ∈ q.waiting ++ q.executing)
    (hr : ∀ j ∈ q'.respList ++ q'.respSendList, j = i ∨ j ∈ q.respList ++ q.respSendList)
    (hs : q'.sndCmd = q.sndCmd) : FlagsOk q' := by
  refine ⟨?_, ?_, ?_⟩
  · intro j hj
    by_cases hji : j = i
    · rw [hji, hi]
    · rw [hc j hji]
      exact hq.flag j ((hw j hj).resolve_left hji)
  · intro j hj hf
    by_cases hji : j = i
    · rw [hji, hi] at hf
      cases hf
    · rw [hc j hji] at hf ⊢
      exact hq.resp j ((hr j hj).resolve_left hji) hf
  · intro j hj hf
    by_cases hji : j = i
    · rw [hji, hi] at hf
      cases hf
    · rw [hc j hji] at hf ⊢
      exact hq.snd j (hs ▸ hj) hf

theorem FlagsOk.started {rest : List CmdId} (hq : FlagsOk q) :
    FlagsOk (Target.started c i rest q) := by
  refine hq.grow (i := i) (fun j hj => modifyCmd_cmds_of_ne _ _ _ hj) ?_ (fun j hj => .inr hj)
    (fun j hj => .inr hj) rfl
  simp [Target.started, freshCmd]

end Flags

/-- What holds of the receive side between two reads. -/
structure RecvOk (q : NvmetTcpQueue) : Prop extends FlagsOk q where
  idle : q.rcvState = .pdu → q.cmd = none
  busy : q.rcvState = .data ∨ q.rcvState = .ddgst → ∃ i, q.cmd = some i
  digest : q.rcvState = .ddgst → ∀ i, q.cmd = some i → (q.cmds i).initFailed = false

/-- Custody is in order and so is the receive side. -/
structure Kept (c : Config) (L₀ : Ledger CmdId (pool c)) (q : NvmetTcpQueue) : Prop where
  ledger : ∃ L, ReflTransGen Ledger.Step L₀ L ∧ Reads c [] q L
  recv : RecvOk q

theorem Kept.moves {c : Config} {L₀ : Ledger CmdId (pool c)} {q q' : NvmetTcpQueue}
    (h : Kept c L₀ q) (hm : Moves c [] q [] q') (hr : RecvOk q') : Kept c L₀ q' := by
  obtain ⟨L, hs, hL⟩ := h.ledger
  obtain ⟨L', hs', hL'⟩ := hm L hL
  exact ⟨⟨L', hs.trans hs', hL'⟩, hr⟩

section Place

variable {c : Config} {q : NvmetTcpQueue} {i : CmdId}

/-- The receive path has command `i` in its hands. -/
structure InHand (i : CmdId) (q : NvmetTcpQueue) : Prop extends FlagsOk q where
  pdu : q.rcvState = .pdu
  cmd : q.cmd = some i
  flag' : (q.cmds i).initFailed = false

theorem InHand.cmdOnly {q' : NvmetTcpQueue} (h : InHand i q) (hc : CmdOnly i q q') :
    InHand i q' := by
  have hi : (q'.cmds i).initFailed = false := by rw [hc.keep.1, h.flag']
  obtain ⟨-, hw, he, hr, hs, hn, -⟩ := hc.lists
  refine ⟨h.toFlagsOk.grow (i := i) hc.cmds hi ?_ ?_ hn, hc.rcv.1.trans h.pdu,
    hc.rcv.2.1.trans h.cmd, hi⟩
  · intro j hj
    rw [hw, he] at hj
    exact .inr hj
  · intro j hj
    rw [hr, hs] at hj
    exact .inr hj

theorem InHand.respond (h : InHand i q) :
    Moves c [i] q [] (nvmetPrepareReceivePdu (nvmetTcpQueueResponse c i q)) ∧
      RecvOk (nvmetPrepareReceivePdu (nvmetTcpQueueResponse c i q)) := by
  refine ⟨moves_places rfl ?_ (fun _ _ => rfl) rfl rfl, ?_, fun _ => rfl, ?_, ?_⟩
  · rw [List.perm_iff_count]
    intro a
    simp only [held, receiving, h.pdu, nvmetPrepareReceivePdu, nvmetTcpQueueResponse,
      List.nil_append, List.count_append, List.count_cons, List.count_nil]
    omega
  · refine h.toFlagsOk.grow (i := i) (fun _ _ => rfl) h.flag' (fun j hj => .inr hj) ?_ rfl
    intro j hj
    simpa [nvmetPrepareReceivePdu, nvmetTcpQueueResponse, or_assoc] using hj
  · simp [nvmetPrepareReceivePdu]
  · simp [nvmetPrepareReceivePdu]

theorem InHand.execute (h : InHand i q) :
    Moves c [i] q [] (nvmetPrepareReceivePdu (nvmetReqExecute i q)) ∧
      RecvOk (nvmetPrepareReceivePdu (nvmetReqExecute i q)) := by
  refine ⟨moves_places rfl ?_ (fun _ _ => rfl) rfl rfl, ?_, fun _ => rfl, ?_, ?_⟩
  · rw [List.perm_iff_count]
    intro a
    simp only [held, receiving, h.pdu, nvmetPrepareReceivePdu, nvmetReqExecute, List.nil_append,
      List.count_append, List.count_cons, List.count_nil]
    omega
  · refine h.toFlagsOk.grow (i := i) (fun _ _ => rfl) h.flag' ?_ (fun j hj => .inr hj) rfl
    intro j hj
    simp only [nvmetPrepareReceivePdu, nvmetReqExecute, List.mem_append, List.mem_singleton] at hj ⊢
    tauto
  · simp [nvmetPrepareReceivePdu]
  · simp [nvmetPrepareReceivePdu]

theorem InHand.receive (h : InHand i q) {f : NvmetTcpCmd → NvmetTcpCmd}
    (hf : CmdOnly i q (q.modifyCmd i f)) (hsg : sgId (f (q.cmds i)) = sgId (q.cmds i)) :
    Moves c [i] q [] ({ q with rcvState := .data }.modifyCmd i f) ∧
      RecvOk ({ q with rcvState := .data }.modifyCmd i f) := by
  have hflag : (f (q.cmds i)).initFailed = false := by
    have := hf.keep.1
    rw [modifyCmd_cmds_self] at this
    rw [this, h.flag']
  have hrecv : receiving ({ q with rcvState := .data }.modifyCmd i f) = [i] := by
    simp [receiving, modifyCmd, h.cmd, hflag]
  refine ⟨(hf.moves (by rw [modifyCmd_cmds_self, hsg]) rfl).trans ?_,
    ?_, by simp [modifyCmd], ?_, by simp [modifyCmd]⟩
  · refine moves_places rfl ?_ (fun _ _ => rfl) rfl rfl
    rw [List.perm_iff_count]
    intro a
    have hnone : receiving (q.modifyCmd i f) = [] := receiving_of_pdu h.pdu
    simp only [held, hrecv, hnone, List.nil_append, List.count_append]
    simp only [modifyCmd]
    omega
  · have hfl := (h.cmdOnly hf).toFlagsOk
    exact ⟨hfl.flag, hfl.resp, hfl.snd⟩
  · intro _
    exact ⟨i, h.cmd⟩

theorem InHand.accepted (h : InHand i q) {alloc : Alloc} (halloc : alloc ≠ .noIov)
    (hsg : (q.cmds i).req.sg = none) (hsnd : q.sndCmd ≠ some i)
    (hup : (startAccepted c alloc i q).fatal = false) :
    Moves c [i] q [] (startAccepted c alloc i q) ∧ RecvOk (startAccepted c alloc i q) := by
  have hown : owned c q i = none := by simp [owned, sgId, hsg]
  obtain ⟨hm, hco⟩ := mapData_moves (c := c) (t := [i]) halloc (by simp) hown (.inr hsnd)
  have hin := h.cmdOnly hco
  have hcqe : ∀ cqe, Moves c [i] (nvmetTcpMapData c alloc i q).2 []
      (nvmetPrepareReceivePdu (nvmetReqComplete c i cqe (nvmetTcpMapData c alloc i q).2)) ∧
      RecvOk (nvmetPrepareReceivePdu
        (nvmetReqComplete c i cqe (nvmetTcpMapData c alloc i q).2)) := by
    intro cqe
    have hset : CmdOnly i (nvmetTcpMapData c alloc i q).2
        ((nvmetTcpMapData c alloc i q).2.modifyCmd i fun cmd =>
        { cmd with req := { cmd.req with cqe := cqe } }) := cmdOnly_modifyCmd ⟨rfl, rfl⟩
    obtain ⟨hm', hr'⟩ := (hin.cmdOnly hset).respond (c := c)
    exact ⟨(hset.moves (by simp [sgId]) rfl).trans hm', hr'⟩
  unfold startAccepted at hup ⊢
  simp only at hup ⊢
  split_ifs at hup ⊢ with h1 h2 h3 h4
  · simp [nvmetPrepareReceivePdu, nvmetTcpFatalError] at hup
  · exact ⟨hm.trans (hcqe _).1, (hcqe _).2⟩
  · have hmap : CmdOnly i (nvmetTcpMapData c alloc i q).2
        ((nvmetTcpMapData c alloc i q).2.modifyCmd i nvmetTcpMapPduIovec) :=
          cmdOnly_modifyCmd ⟨rfl, rfl⟩
    obtain ⟨hm', hr'⟩ := hin.receive (c := c) hmap rfl
    exact ⟨hm.trans hm', hr'⟩
  · obtain ⟨hm', hr'⟩ := hin.respond (c := c)
    exact ⟨hm.trans hm', hr'⟩
  · obtain ⟨hm', hr'⟩ := hin.execute (c := c)
    exact ⟨hm.trans hm', hr'⟩

theorem InHand.complete (h : InHand i q) (cqe : NvmeCompletion) :
    Moves c [i] q [] (nvmetReqComplete c i cqe q) ∧ FlagsOk (nvmetReqComplete c i cqe q) := by
  have hset : CmdOnly i q
      (q.modifyCmd i fun cmd => { cmd with req := { cmd.req with cqe := cqe } }) :=
    cmdOnly_modifyCmd ⟨rfl, rfl⟩
  refine ⟨(hset.moves (by simp [sgId]) rfl).trans (moves_places rfl ?_ (fun _ _ => rfl) rfl rfl),
    ?_⟩
  · rw [List.perm_iff_count]
    intro a
    simp only [held, receiving, nvmetReqComplete, nvmetTcpQueueResponse, modifyCmd, h.pdu,
      List.nil_append, List.count_append, List.count_cons, List.count_nil]
    omega
  · refine (h.cmdOnly hset).toFlagsOk.grow (i := i) (fun _ _ => rfl) (h.cmdOnly hset).flag'
      (fun j hj => .inr hj) ?_ rfl
    intro j hj
    simpa [nvmetReqComplete, nvmetTcpQueueResponse, modifyCmd, or_assoc] using hj

/-- Data that follows a failed request is read without anybody waiting for it. -/
theorem receive_failed (hfl : FlagsOk q) (hpdu : q.rcvState = .pdu) (hcmd : q.cmd = some i)
    (hnot : i ∉ q.waiting ++ q.executing ∧ q.sndCmd ≠ some i)
    (hst : (q.cmds i).req.cqe.status ≠ 0) :
    Moves c [] q [] ({ q with rcvState := .data }.modifyCmd i fun cmd =>
        { nvmetTcpMapPduIovec cmd with initFailed := true }) ∧
      RecvOk ({ q with rcvState := .data }.modifyCmd i fun cmd =>
        { nvmetTcpMapPduIovec cmd with initFailed := true }) := by
  set q' := { q with rcvState := .data }.modifyCmd i fun cmd =>
    { nvmetTcpMapPduIovec cmd with initFailed := true } with hq'
  have hcmdi : q'.cmds i = { nvmetTcpMapPduIovec (q.cmds i) with initFailed := true } :=
    modifyCmd_cmds_self _ _ _
  have hother : ∀ j, j ≠ i → q'.cmds j = q.cmds j := fun j hj => modifyCmd_cmds_of_ne _ _ _ hj
  have hrecv : receiving q' = [] := by simp [receiving, hq', modifyCmd, hcmd]
  refine ⟨moves_places rfl ?_ ?_ rfl rfl,
    ⟨?_, ?_, ?_⟩, by simp [hq', modifyCmd], fun _ => ⟨i, hcmd⟩,
    by simp [hq', modifyCmd]⟩
  · simp only [held, hrecv, receiving_of_pdu hpdu]
    exact .refl _
  · intro j _
    by_cases hj : j = i
    · subst hj
      simp only [owned, hcmdi]
      rfl
    · simp only [owned, hother j hj]
      rfl
  · intro j hj
    have hji : j ≠ i := fun h => hnot.1 (h ▸ hj)
    rw [hother j hji]
    exact hfl.flag j hj
  · intro j hj hf
    by_cases hji : j = i
    · rw [hji, hcmdi]
      exact hst
    · rw [hother j hji] at hf ⊢
      exact hfl.resp j hj hf
  · intro j hj hf
    have hji : j ≠ i := fun h => hnot.2 (h ▸ hj)
    rw [hother j hji] at hf ⊢
    exact hfl.snd j hj hf

/-- A rejected command is answered, and what inline data it has is read into pages of its own. -/
theorem InHand.rejected (h : InHand i q) {alloc : Alloc} (halloc : alloc ≠ .noIov)
    (hsg : (q.cmds i).req.sg = none) (hfresh : i ∉ held q) {cqe : NvmeCompletion}
    (hst : cqe.status ≠ 0)
    (hup : (nvmetTcpHandleReqFailure c alloc i (nvmetReqComplete c i cqe q)).fatal = false) :
    Moves c [i] q [] (nvmetTcpHandleReqFailure c alloc i (nvmetReqComplete c i cqe q)) ∧
      RecvOk (nvmetTcpHandleReqFailure c alloc i (nvmetReqComplete c i cqe q)) := by
  obtain ⟨hm, hfl⟩ := h.complete (c := c) cqe
  set q₁ := nvmetReqComplete c i cqe q with hq₁
  have hdl : CmdOnly i q₁ (q₁.modifyCmd i (setDataLen (sglLen (q₁.cmds i)))) :=
    cmdOnly_modifyCmd ⟨rfl, rfl⟩
  set q₂ := q₁.modifyCmd i (setDataLen (sglLen (q₁.cmds i))) with hq₂
  have hm₂ : Moves c [i] q [] q₂ := hm.trans (hdl.moves (by simp [hq₂, sgId, setDataLen]) rfl)
  have hfl₂ : FlagsOk q₂ := hdl.flags (by simp [hq₂, setDataLen]) hfl
  have hpdu : q₂.rcvState = .pdu := h.pdu
  have hrun : nvmetTcpHandleReqFailure c alloc i q₁ =
      if (q₂.cmds i).req.cmd.nvmeIsWrite = false ∨ c.inlineDataSize < (q₂.cmds i).req.dataLen then
        nvmetPrepareReceivePdu q₂
      else if (nvmetTcpMapData c alloc i q₂).1 ≠ 0 then
        nvmetTcpFatalError (nvmetTcpMapData c alloc i q₂).2
      else { (nvmetTcpMapData c alloc i q₂).2 with rcvState := .data }.modifyCmd i fun cmd =>
        { nvmetTcpMapPduIovec cmd with initFailed := true } := by
    rfl
  rw [hrun] at hup ⊢
  split_ifs at hup ⊢ with h1 h2
  · refine ⟨hm₂.trans (moves_places rfl ?_ (fun _ _ => rfl) rfl rfl),
      ⟨hfl₂.flag, hfl₂.resp, hfl₂.snd⟩, fun _ => rfl,
      by simp [nvmetPrepareReceivePdu], by simp [nvmetPrepareReceivePdu]⟩
    simp only [held, receiving, nvmetPrepareReceivePdu, hpdu]
    exact .refl _
  · simp [nvmetTcpFatalError] at hup
  · have hnot : i ∉ q.waiting ++ q.executing ∧ q.sndCmd ≠ some i := by
      refine ⟨fun hi => hfresh ?_, fun hi => hfresh ?_⟩
      · rcases List.mem_append.1 hi with hi | hi <;> simp [held, hi]
      · simp [held, hi]
    have hi₂ : i ∈ [] ++
      held q₂ := by simp [held, hq₂, hq₁, nvmetReqComplete, nvmetTcpQueueResponse, modifyCmd]
    have hown : owned c q₂ i = none := by
      simp [owned, sgId, hq₂, hq₁, nvmetReqComplete, nvmetTcpQueueResponse, setDataLen, hsg]
    obtain ⟨hm₃, hco⟩ := mapData_moves (c := c) (t := []) halloc hi₂ hown (.inr hnot.2)
    obtain ⟨-, hw, he, hr, hs, hn, -⟩ := hco.lists
    have hcqe₂ : (q₂.cmds i).req.cqe = cqe := by
      simp [hq₂, hq₁, nvmetReqComplete, nvmetTcpQueueResponse, setDataLen]
    have hcqe₃ := mapData_cqe (c := c) (q := q₂) (i := i) halloc
    have hstatus : ((nvmetTcpMapData c alloc i q₂).2.cmds i).req.cqe.status ≠ 0 := by
      rwa [hcqe₃, hcqe₂]
    obtain ⟨hm₄, hr₄⟩ := receive_failed (c := c) (hco.flags hcqe₃ hfl₂) (hco.rcv.1.trans hpdu)
      (hco.rcv.2.1.trans h.cmd) (by rw [hw, he, hn]; exact hnot) hstatus
    exact ⟨(hm₂.trans hm₃).trans hm₄, hr₄⟩

end Place

end BlkSwitch.Target
