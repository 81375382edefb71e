import BlkSwitch.Lib.Packing
import BlkSwitch.Sanity.TargetTurn

/-! The caravan of a target queue as a buffer with limits. The send path fills it behind the test
for room and empties it as a whole; nothing else on the queue touches it. -/

namespace BlkSwitch.Target

open NvmetTcpQueue Relation

def Kvec.isPage (k : Kvec) : Bool :=
  match k.buf with
  | .page _ => true
  | .dataPdu | .r2tPdu | .rspPdu => false

/-- What `nvmet_tcp_alloc_queue` allocates for a caravan; an entry with a response closes a
command. -/
def caravanLimits : Packing.Limits Kvec where
  size := Kvec.len
  isPage := Kvec.isPage
  bytes := I10_CARAVAN_CAPACITY
  entries := I10_TARGET_SEND_BUDGET * 3
  pages := I10_TARGET_SEND_BUDGET
  items := I10_TARGET_SEND_BUDGET

def NvmetTcpQueue.packed (q : NvmetTcpQueue) : Packing.Buffer Kvec :=
  ⟨q.caravanIovs, q.caravanLen, q.nrCaravanMapped, q.caravanCmds.length⟩

/-- From one queue to the other the caravan was filled, each time with room, and emptied. -/
def Packs (q q' : NvmetTcpQueue) : Prop :=
  ReflTransGen (Packing.Step caravanLimits) q.packed q'.packed

variable {c : Config} {i : CmdId} {q q' : NvmetTcpQueue}

theorem Packs.trans {q'' : NvmetTcpQueue} (h : Packs q q') (h' : Packs q' q'') : Packs q q'' :=
  ReflTransGen.trans h h'

theorem packs_same (h : q'.packed = q.packed) : Packs q q' := by
  unfold Packs
  rw [h]

section Send

theorem room_of_not_full (h : q.i10TargetIsCaravanFull = false) :
    Packing.Room caravanLimits q.packed := by
  simp only [i10TargetIsCaravanFull, ge_iff_le, Bool.or_eq_false_iff, decide_eq_false_iff_not,
    not_le] at h
  exact ⟨h.1.1.1, h.1.1.2, h.2, h.1.2⟩

theorem packed_append (q : NvmetTcpQueue) (k : Kvec) :
    (q.append k).packed = q.packed.put caravanLimits k false := by
  obtain ⟨cmd, buf, off, len⟩ := k
  cases buf <;> simp [NvmetTcpQueue.append, packed, Packing.Buffer.put, caravanLimits, Kvec.isPage]

theorem packs_append (k : Kvec) (h : q.i10TargetIsCaravanFull = false) : Packs q (q.append k) := by
  unfold Packs
  rw [packed_append]
  exact .single (.put k false (room_of_not_full h))

theorem kernelSend_packed (q : NvmetTcpQueue) (b : List Byte) :
    (q.kernelSend b).2.packed = q.packed := by
  obtain ⟨b', rs, h⟩ := q.kernelSend_heard b
  rw [h]
  rfl

@[simp] theorem putCmd_packed (q : NvmetTcpQueue) (i : CmdId) :
    (q.nvmetTcpPutCmd i).packed = q.packed := by
  unfold nvmetTcpPutCmd
  split_ifs <;> rfl

@[simp] theorem sglFree_packed (q : NvmetTcpQueue) (i : CmdId) :
    (q.sglFree i).packed = q.packed := by
  unfold sglFree
  split <;> rfl

@[simp] theorem modifyCmd_packed (q : NvmetTcpQueue) (i : CmdId) (f : NvmetTcpCmd → NvmetTcpCmd) :
    (q.modifyCmd i f).packed = q.packed := rfl

@[simp] theorem sndCmd_packed (q : NvmetTcpQueue) (s : Option CmdId) :
    { q with sndCmd := s }.packed = q.packed := rfl

theorem emit_packs (c : Config) (q : NvmetTcpQueue) (k : Kvec) (b : List Byte) :
    Packs q (q.emit c k b).2 := by
  unfold NvmetTcpQueue.emit
  split_ifs with hagg hfull
  · exact packs_same rfl
  · exact packs_append k (by simpa using hfull)
  · exact packs_same (kernelSend_packed q b)

theorem trySendHdr_packs {buf : Buffer} {done : NvmetTcpQueue → NvmetTcpQueue}
    (hdone : ∀ q, (done q).packed = q.packed) (q : NvmetTcpQueue) :
    Packs q (trySendHdr c i buf done q).2 := by
  have hemit := emit_packs c q (hdrKvec c i buf (q.cmds i)) (hdrOffer c buf (q.cmds i))
  unfold hdrKvec hdrOffer at hemit
  unfold trySendHdr
  dsimp only
  generalize q.emit c _ _ = p at hemit ⊢
  obtain ⟨_ | ret, q₁⟩ := p
  · exact hemit
  · dsimp only at hemit ⊢
    split_ifs
    · exact hemit
    · exact hemit.trans (packs_same rfl)
    · exact hemit.trans (packs_same (hdone _))

theorem dataDone_packed (c : Config) (i : CmdId) (q : NvmetTcpQueue) :
    (dataDone c i q).packed = q.packed := by
  unfold dataDone
  dsimp only
  split_ifs <;> simp

theorem trySendDataLoop_packs (fuel : ℕ) (q : NvmetTcpQueue) :
    Packs q (trySendDataLoop c i fuel q).2 := by
  induction fuel generalizing q with
  | zero => exact .refl
  | succ fuel ih =>
    have hend : (q.cmds i).curSg = none ∨ (q.cmds i).req.sg = none →
        Packs q (trySendDataLoop c i (fuel + 1) q).2 := by
      intro h
      rw [trySendDataLoop_end c i fuel h]
      exact packs_same (dataDone_packed c i q)
    cases hj : (q.cmds i).curSg with
    | none => exact hend (.inl hj)
    | some j =>
      cases hsg : (q.cmds i).req.sg with
      | none => exact hend (.inr hsg)
      | some sg =>
        have hemit : Packs q (pageEmit c i sg j q).2 := emit_packs c q _ _
        rcases he : pageEmit c i sg j q with ⟨_ | ret, q₁⟩ <;> rw [he] at hemit
        · rw [trySendDataLoop_full c i fuel hj hsg he]
          exact hemit
        · rw [trySendDataLoop_page c i fuel hj hsg he]
          split_ifs
          · exact hemit
          · exact (hemit.trans (packs_same rfl)).trans
              (ih (q₁.modifyCmd i (dataAdvance sg j ret.toNat)))

theorem trySendResponse_packs (q : NvmetTcpQueue) : Packs q (nvmetTrySendResponse c i q).2 := by
  unfold nvmetTrySendResponse
  dsimp only
  split_ifs with hagg hfull
  · exact packs_same rfl
  · -- the entry and its command are put down together
    have hroom := room_of_not_full (by simpa using hfull)
    refine .single ?_
    convert Packing.Step.put (L := caravanLimits)
      ⟨i, .rspPdu, hdrOff (q.cmds i), hdrLeft c (q.cmds i)⟩ true hroom using 1
    simp [packed, NvmetTcpQueue.append, Packing.Buffer.put, caravanLimits, Kvec.isPage, modifyCmd]
  · refine trySendHdr_packs (fun q => ?_) q
    rw [responseDone, putCmd_packed]
    exact sglFree_packed q i

theorem trySendDdgst_packs (q : NvmetTcpQueue) : Packs q (nvmetTrySendDdgst c i q).2 := by
  unfold nvmetTrySendDdgst
  dsimp only
  generalize hb : List.take _ _ = b
  have hsend := kernelSend_packed q b
  generalize q.kernelSend b = p at hsend ⊢
  split_ifs
  · exact packs_same hsend
  · refine packs_same ?_
    rw [putCmd_packed]
    exact hsend
  · exact packs_same hsend

theorem stage_packs {st : SendState} {f : NvmetTcpQueue → ℤ × NvmetTcpQueue}
    {next : ℤ → NvmetTcpQueue → ℤ × NvmetTcpQueue} (hf : ∀ q, Packs q (f q).2)
    (hnext : ∀ ret q, Packs q (next ret q).2) (ret : ℤ) (q : NvmetTcpQueue) :
    Packs q (stage i st f next ret q).2 := by
  unfold stage
  split_ifs
  · have h := hf q
    generalize f q = p at h ⊢
    dsimp only
    split_ifs
    · exact h
    · exact h.trans (hnext _ _)
  · exact hnext _ _

theorem trySendCmd_packs (c : Config) (i : CmdId) (q : NvmetTcpQueue) :
    Packs q (trySendCmd c i q).2 := by
  unfold trySendCmd
  have hpdu : ∀ q, Packs q (nvmetTrySendDataPdu c i q).2 := trySendHdr_packs fun _ => rfl
  have hdata : ∀ q, Packs q (nvmetTrySendData c i q).2 := fun q => trySendDataLoop_packs _ q
  have hr2t : ∀ q, Packs q (nvmetTrySendR2t c i q).2 := trySendHdr_packs fun _ => rfl
  have hresp : ∀ ret q, Packs q (stage i .response (nvmetTrySendResponse c i) Prod.mk ret q).2 :=
    stage_packs trySendResponse_packs fun _ _ => .refl
  exact stage_packs hpdu
    (stage_packs hdata (stage_packs trySendDdgst_packs (stage_packs hr2t hresp))) 0 q

theorem trySendOne_packs (c : Config) (q : NvmetTcpQueue) : Packs q (nvmetTcpTrySendOne c q).2 := by
  unfold nvmetTcpTrySendOne
  cases hsnd : q.sndCmd with
  | some i => exact trySendCmd_packs c i q
  | none =>
    rcases nvmetTcpFetchCmd_cases c hsnd with hf | ⟨i, sl, rl, len, -, hf⟩
    · simp only [hf]
      exact packs_same rfl
    · simp only [hf]
      exact (packs_same rfl).trans (trySendCmd_packs c i (fetched c i sl rl len q))

theorem caravanSent_packed (q : NvmetTcpQueue) : (caravanSent q).packed = .empty := rfl

theorem trySendTurn_packs (c : Config) (last nospace : Bool) (q : NvmetTcpQueue) :
    Packs q (trySendTurn c last nospace q).2 := by
  have hone := trySendOne_packs c q
  have hsent : ∀ q₁, Packs q₁ (caravanSent q₁) :=
    fun q₁ => .single (caravanSent_packed q₁ ▸ .clear _)
  simp only [trySendTurn]
  split_ifs
  · exact hone.trans (packs_same rfl)
  · exact (hone.trans (packs_same (kernelSend_packed _ _))).trans (hsent _)
  · exact (hone.trans (packs_same (kernelSend_packed _ _))).trans (hsent _)
  · exact hone
  · exact hone

end Send

section Recv

@[simp] theorem prepareReceivePdu_packed (q : NvmetTcpQueue) :
    (nvmetPrepareReceivePdu q).packed = q.packed := rfl

@[simp] theorem fatalError_packed (q : NvmetTcpQueue) : (nvmetTcpFatalError q).packed = q.packed :=
  rfl

@[simp] theorem reqExecute_packed (q : NvmetTcpQueue) (i : CmdId) :
    (nvmetReqExecute i q).packed = q.packed := rfl

@[simp] theorem reqComplete_packed (c : Config) (q : NvmetTcpQueue) (i : CmdId)
    (cqe : NvmeCompletion) :
    (nvmetReqComplete c i cqe q).packed = q.packed := rfl

@[simp] theorem queueResponse_packed (c : Config) (q : NvmetTcpQueue) (i : CmdId) :
    (nvmetTcpQueueResponse c i q).packed = q.packed := rfl

@[simp] theorem mapData_packed (c : Config) (alloc : Alloc) (i : CmdId) (q : NvmetTcpQueue) :
    (nvmetTcpMapData c alloc i q).2.packed = q.packed := by
  unfold nvmetTcpMapData
  dsimp only
  split_ifs <;> simp [sglAlloc] <;> rfl

theorem startAccepted_packed (c : Config) (alloc : Alloc) (i : CmdId) (q : NvmetTcpQueue) :
    (startAccepted c alloc i q).packed = q.packed := by
  have hmap := mapData_packed c alloc i q
  unfold startAccepted
  dsimp only
  split_ifs <;> exact hmap

theorem handleReqFailure_packed (c : Config) (alloc : Alloc) (i : CmdId) (q : NvmetTcpQueue) :
    (nvmetTcpHandleReqFailure c alloc i q).packed = q.packed := by
  unfold nvmetTcpHandleReqFailure
  dsimp only
  split_ifs
  · rfl
  · simp
  · exact mapData_packed c alloc i _

theorem doneRecvPdu_packed (c : Config) (env : Env) (q : NvmetTcpQueue) :
    (doneRecvLive c env q).2.packed = q.packed := by
  unfold doneRecvLive
  split_ifs
  · unfold nvmetTcpHandleH2cDataPdu
    dsimp only
    split_ifs <;> rfl
  · unfold nvmetTcpGetCmd
    cases q.freeList with
    | nil => rfl
    | cons i rest =>
      unfold nvmetReqInit
      cases env.init with
      | accept d =>
        simp only [↓reduceIte, startAccepted_packed]
        rfl
      | reject cqe =>
        simp only [Bool.false_eq_true, ↓reduceIte, handleReqFailure_packed]
        rfl

theorem tryRecv_packed (c : Config) (env : Env) (b : List Byte) (q : NvmetTcpQueue) :
    (nvmetTcpTryRecv c env b q).packed = q.packed := by
  have hdown : ∀ p : Bool × NvmetTcpQueue, p.2.packed = q.packed →
      (if p.1 then nvmetTcpFatalError p.2 else p.2).packed = q.packed := by
    intro p hp
    split_ifs <;> exact hp
  unfold nvmetTcpTryRecv
  dsimp only
  split
  · refine hdown _ ?_
    unfold nvmetTcpTryRecvPdu tryRecvHeader
    dsimp only
    split_ifs
    any_goals rfl
    exact doneRecvPdu_packed c env _
  · unfold nvmetTcpTryRecvData recvDataDone
    dsimp only
    split_ifs <;> rfl
  · refine hdown _ ?_
    unfold nvmetTcpTryRecvDdgst
    dsimp only
    split_ifs
    · rfl
    · simp only [prepareReceivePdu_packed, fatalError_packed, sglFree_packed]
      rfl
    · rfl
    · rfl
  · rfl

end Recv

/-- What any step of a target queue does to its caravan. -/
theorem targetStep_packs {s s' : TargetState} {e : TargetEvent} (hs : targetStep c s e = some s') :
    Packs s.q s'.q := by
  cases e with
  | recv b env =>
    simp only [targetStep] at hs
    split at hs
    · split_ifs at hs
      cases hs
      exact packs_same (tryRecv_packed c env b s.q)
    · cases hs
  | complete i cqe data =>
    simp only [targetStep, backendCompletes, Option.map_eq_some_iff] at hs
    obtain ⟨q', hq', rfl⟩ := hs
    split_ifs at hq'
    cases hq'
    exact packs_same rfl
  | sendStart budget =>
    simp only [targetStep, sendStart] at hs
    split at hs
    · split_ifs at hs
      cases hs
      exact .refl
    · cases hs
  | sendTurn nospace replies =>
    simp only [targetStep, sendTurn] at hs
    split at hs
    case h_2 => cases hs
    case h_1 n hpc =>
      have hq := trySendTurn_packs c (n == 0) nospace { s.q with replies := replies }
      split at hs
      case h_1 q heq =>
        cases hs
        rwa [heq] at hq
      case h_2 ret stalled q heq =>
        cases hs
        rw [heq] at hq
        dsimp only
        split_ifs
        · refine hq.trans (packs_same ?_)
          unfold ioWorkFails
          split_ifs <;> rfl
        · exact hq

end BlkSwitch.Target
