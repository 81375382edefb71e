import BlkSwitch.Sanity.TargetSend

/-! A turn of `nvmet_tcp_try_send`: fetch a command if there is none, take its steps, and send the
caravan when it is time. -/

namespace BlkSwitch.Target

open NvmetTcpQueue Relation

/-- The queue after `nvmet_tcp_fetch_cmd` took `i`, with `sl` and `rl` left behind it. -/
def fetched (c : Config) (i : CmdId) (sl rl : List CmdId) (len : ℤ) (q : NvmetTcpQueue) :
    NvmetTcpQueue :=
  { q with respList := rl, respSendList := sl, sendListLen := len, sndCmd := some i }.modifyCmd i
    (setupFirstPdu c i)

structure Fetches (q : NvmetTcpQueue) (i : CmdId) (sl rl : List CmdId) (len : ℤ) : Prop where
  idle : q.sndCmd = none
  order : q.respSendList ++ q.respList.reverse = i :: (sl ++ rl.reverse)
  len : q.sendListLen = q.respSendList.length → len = sl.length

theorem nvmetTcpFetchCmd_cases (c : Config) {q : NvmetTcpQueue} (hidle : q.sndCmd = none) :
    nvmetTcpFetchCmd c q = (none, q) ∨
      ∃ i sl rl len, Fetches q i sl rl len ∧
        nvmetTcpFetchCmd c q = (some i, fetched c i sl rl len q) := by
  cases hs : q.respSendList with
  | cons i sl =>
    refine .inr ⟨i, sl, q.respList, q.sendListLen - 1, ⟨hidle, by simp [hs], ?_⟩, ?_⟩
    · intro h
      rw [h, hs]
      simp
    · simp [nvmetTcpFetchCmd, hs, fetched]
  | nil =>
    cases hr : q.respList.reverse with
    | nil =>
      have hnil : q.respList = [] := List.reverse_eq_nil_iff.1 hr
      left
      cases q
      simp_all [nvmetTcpFetchCmd, nvmetTcpProcessRespList]
    | cons i sl =>
      refine .inr ⟨i, sl, [], q.sendListLen + q.respList.length - 1, ⟨hidle, by simp [hs, hr], ?_⟩,
        ?_⟩
      · intro h
        have hlen := congrArg List.length hr
        simp only [List.length_reverse, List.length_cons] at hlen
        simp [h, hs, hlen]
      · simp [nvmetTcpFetchCmd, hs, nvmetTcpProcessRespList, hr, fetched]

/-- What every fetch and every step keeps, `nvmet_tcp_try_send_one` keeps. -/
theorem nvmetTcpTrySendOne_invariant {c : Config} {I : NvmetTcpQueue → Prop}
    (hfetch : ∀ q i sl rl len, I q → Fetches q i sl rl len → I (fetched c i sl rl len q))
    (hstep : ∀ i q q', I q → Sends c i q q' → I q') {q : NvmetTcpQueue} (h : I q) :
    I (nvmetTcpTrySendOne c q).2 := by
  have hsteps : ∀ i q q', I q → ReflTransGen (Sends c i) q q' → I q' := by
    intro i q q' h hrun
    induction hrun with
    | refl => exact h
    | tail _ hs ih => exact hstep i _ _ ih hs
  unfold nvmetTcpTrySendOne
  cases hsnd : q.sndCmd with
  | some i => exact hsteps i q _ h (trySendCmd_steps c i hsnd)
  | none =>
    rcases nvmetTcpFetchCmd_cases c hsnd with hf | ⟨i, sl, rl, len, hfs, hf⟩
    · simp only [hf]
      exact h
    · simp only [hf]
      exact hsteps i _ _ (hfetch q i sl rl len h hfs) (trySendCmd_steps c i rfl)

theorem trySendTurn_invariant {c : Config} {I : NvmetTcpQueue → Prop}
    (hfetch : ∀ q i sl rl len, I q → Fetches q i sl rl len → I (fetched c i sl rl len q))
    (hstep : ∀ i q q', I q → Sends c i q q' → I q')
    (hflush : ∀ q, I q → I (caravanSent (q.kernelSend q.caravanBytes).2))
    (hstall : ∀ q, I q → I { q with sockNospace := true })
    (last nospace : Bool) {q : NvmetTcpQueue} (h : I q) : I (trySendTurn c last nospace q).2 := by
  have hone := nvmetTcpTrySendOne_invariant hfetch hstep h
  simp only [trySendTurn]
  split_ifs
  · exact hstall _ hone
  · exact hflush _ hone
  · exact hflush _ hone
  · exact hone
  · exact hone

/-- A loop that ends without a full socket leaves nothing in the caravan. -/
theorem trySendTurn_done {c : Config} (hagg : c.nvmetTcpAggr = true) {last nospace : Bool}
    {q q' : NvmetTcpQueue} {ret : ℤ} (h : trySendTurn c last nospace q = (.done ret false, q')) :
    q'.caravanLen = 0 := by
  simp only [trySendTurn, hagg, true_and] at h
  split_ifs at h with h1 h2 h3 h3
  · cases h
  · cases h
    rfl
  · cases h
  · cases h
    by_contra hlen
    exact h1 ⟨hlen, .inr h3⟩
  · cases h

theorem freeCaravanCmds_eq (q : NvmetTcpQueue) :
    freeCaravanCmds q =
      { q with
        freeList := q.freeList ++ q.caravanCmds.filter (· ≠ .connect)
        sglFreed := q.sglFreed ++ q.caravanCmds.filterMap fun i =>
          (q.cmds i).req.sg.map SgList.id } := by
  have hfold : ∀ (l : List CmdId) (q : NvmetTcpQueue),
      l.foldl (fun q i => nvmetTcpPutCmd (q.sglFree i) i) q =
        { q with
          freeList := q.freeList ++ l.filter (· ≠ .connect)
          sglFreed := q.sglFreed ++ l.filterMap fun i => (q.cmds i).req.sg.map SgList.id } := by
    intro l
    induction l with
    | nil => intro q; simp
    | cons i l ih =>
      intro q
      rw [List.foldl_cons, ih]
      by_cases hi : i = .connect <;> cases hsg : (q.cmds i).req.sg <;>
        simp [nvmetTcpPutCmd, sglFree, hi, hsg]
      all_goals subst hi; simp [hsg]
  exact hfold q.caravanCmds q

/-- Sending does not take the connection down; the worker does. -/
theorem trySendTurn_fatal (c : Config) (last nospace : Bool) (q : NvmetTcpQueue) :
    (trySendTurn c last nospace q).2.fatal = q.fatal := by
  refine trySendTurn_invariant (I := fun q' => q'.fatal = q.fatal) (fun _ _ _ _ _ h _ => h)
    (fun _ _ _ h hs => ?_)
    (fun q' h => ?_) (fun _ h => h) last nospace rfl
  · exact hs.2.frame.rcv.2.2.2.2.2.trans h
  · obtain ⟨b, rs, hq⟩ := q'.kernelSend_heard q'.caravanBytes
    rw [hq, caravanSent, freeCaravanCmds_eq]
    exact h

/-! Against a socket that does not fail no turn does. -/

section Polite

variable {c : Config} {i : CmdId} {q : NvmetTcpQueue}

/-- What is returned is no error, and the socket stays as it is. -/
def SentWell (p : ℤ × NvmetTcpQueue) : Prop := (0 ≤ p.1 ∨ p.1 = -EAGAIN) ∧ Polite p.2.replies

theorem sentWell_one (h : Polite q.replies) : SentWell (1, q) := ⟨.inl Int.one_nonneg, h⟩

theorem kernelSend_sentWell (h : Polite q.replies) (b : List Byte) : SentWell (q.kernelSend b) := by
  unfold kernelSend
  cases hr : q.replies with
  | nil =>
    rw [hr] at h
    exact ⟨.inl (Int.natCast_nonneg _), h⟩
  | cons x rs =>
    rw [hr] at h
    have hx := h x List.mem_cons_self
    have hrs : Polite rs := fun y hy => h y (List.mem_cons_of_mem _ hy)
    cases x with
    | all => exact ⟨.inl (Int.natCast_nonneg _), hrs⟩
    | ret r =>
      dsimp only
      split_ifs
      · exact ⟨by simpa [isPolite] using hx, hrs⟩
      · exact ⟨.inl (Int.natCast_nonneg _), hrs⟩

theorem emit_sentWell (h : Polite q.replies) (k : Kvec) (b : List Byte) :
    Polite (q.emit c k b).2.replies ∧ ∀ ret ∈ (q.emit c k b).1, 0 ≤ ret ∨ ret = -EAGAIN := by
  unfold emit
  split_ifs
  · exact ⟨h, nofun⟩
  · exact ⟨h, by rintro ret ⟨⟩; exact .inl (Int.natCast_nonneg _)⟩
  · have hsend := kernelSend_sentWell h b
    exact ⟨hsend.2, by rintro ret ⟨⟩; exact hsend.1⟩

theorem trySendHdr_sentWell (h : Polite q.replies) (buf : Buffer)
    {done : NvmetTcpQueue → NvmetTcpQueue} (hdone : ∀ q, (done q).replies = q.replies) :
    SentWell (trySendHdr c i buf done q) := by
  obtain ⟨hrep, hret⟩ := @emit_sentWell c q h ⟨i, buf, hdrOff (q.cmds i), hdrLeft c (q.cmds i)⟩
    (((buf.of (q.cmds i)).drop (q.cmds i).offset).take (hdrLeft c (q.cmds i)))
  unfold trySendHdr
  dsimp only
  generalize q.emit c _ _ = p at hrep hret
  rcases p with ⟨_ | ret, q'⟩
  · exact sentWell_one hrep
  · dsimp only
    split_ifs
    · exact ⟨hret ret rfl, hrep⟩
    · exact ⟨.inr rfl, hrep⟩
    · refine sentWell_one ?_
      rw [hdone]
      exact hrep

theorem putCmd_replies (q : NvmetTcpQueue) (i : CmdId) :
    (q.nvmetTcpPutCmd i).replies = q.replies := by
  unfold nvmetTcpPutCmd
  split_ifs <;> rfl

theorem sglFree_replies (q : NvmetTcpQueue) (i : CmdId) : (q.sglFree i).replies = q.replies := by
  unfold sglFree
  split <;> rfl

theorem dataDone_replies (q : NvmetTcpQueue) : (dataDone c i q).replies = q.replies := by
  unfold dataDone
  dsimp only
  split_ifs <;> simp [sglFree_replies, putCmd_replies, modifyCmd]

theorem trySendDataLoop_sentWell (fuel : ℕ) (q : NvmetTcpQueue) (h : Polite q.replies) :
    SentWell (trySendDataLoop c i fuel q) := by
  induction fuel generalizing q with
  | zero => exact sentWell_one h
  | succ fuel ih =>
    unfold trySendDataLoop
    dsimp only
    split
    · next j sg hcur hsg =>
      obtain ⟨hrep, hret⟩ := @emit_sentWell c q h
        ⟨i, .page sg.id, PAGE_SIZE * j + (q.cmds i).offset, sg.entryLen j - (q.cmds i).offset⟩
        ((sg.data.drop (PAGE_SIZE * j + (q.cmds i).offset)).take
          (sg.entryLen j - (q.cmds i).offset))
      generalize q.emit c _ _ = p at hrep hret
      rcases p with ⟨_ | ret, q'⟩
      · exact sentWell_one hrep
      · dsimp only
        split_ifs
        · exact ⟨hret ret rfl, hrep⟩
        · exact ih _ hrep
    · exact sentWell_one (by rw [dataDone_replies]; exact h)

theorem trySendResponse_sentWell (h : Polite q.replies) :
    SentWell (nvmetTrySendResponse c i q) := by
  unfold nvmetTrySendResponse
  dsimp only
  split_ifs
  · exact sentWell_one h
  · exact sentWell_one h
  · exact trySendHdr_sentWell h _ fun q => (putCmd_replies _ i).trans (sglFree_replies q i)

theorem trySendDdgst_sentWell (h : Polite q.replies) : SentWell (nvmetTrySendDdgst c i q) := by
  have hsend := kernelSend_sentWell h
    (((q.cmds i).expDdgst.drop (4 * (q.cmds i).offset)).take
      (NVME_TCP_DIGEST_LENGTH - (q.cmds i).offset))
  unfold nvmetTrySendDdgst
  dsimp only
  split_ifs
  · exact hsend
  · exact sentWell_one (by rw [putCmd_replies]; exact hsend.2)
  · exact ⟨.inl Int.one_nonneg, hsend.2⟩

theorem stage_sentWell (st : SendState) {f : NvmetTcpQueue → ℤ × NvmetTcpQueue}
    {next : ℤ → NvmetTcpQueue → ℤ × NvmetTcpQueue} (hf : ∀ q, Polite q.replies → SentWell (f q))
    (hnext : ∀ ret q, 0 ≤ ret → Polite q.replies → SentWell (next ret q)) (ret : ℤ)
    (q : NvmetTcpQueue) (hret : 0 ≤ ret) (h : Polite q.replies) :
    SentWell (stage i st f next ret q) := by
  have hq := hf q h
  unfold stage
  dsimp only
  split_ifs with hst hle
  · exact hq
  · exact hnext _ _ (by omega) hq.2
  · exact hnext _ _ hret h

theorem trySendCmd_nonneg (h : Polite q.replies) : 0 ≤ (trySendCmd c i q).1 := by
  have hresponse : ∀ ret q, 0 ≤ ret → Polite q.replies →
      SentWell (stage i .response (nvmetTrySendResponse c i) Prod.mk ret q) :=
    stage_sentWell .response (fun q h => trySendResponse_sentWell h) fun ret q hret h =>
      ⟨.inl hret, h⟩
  have hr2t := stage_sentWell (i := i) (f := nvmetTrySendR2t c i) .r2t
    (fun q h => trySendHdr_sentWell h _ fun _ => rfl) hresponse
  have hddgst := stage_sentWell (i := i) (f := nvmetTrySendDdgst c i) .ddgst
    (fun q h => trySendDdgst_sentWell h) hr2t
  have hdata := stage_sentWell (i := i) (f := nvmetTrySendData c i) .data
    (fun q h => trySendDataLoop_sentWell _ q h) hddgst
  have hwell := stage_sentWell (i := i) (f := nvmetTrySendDataPdu c i) .dataPdu
    (fun q h => trySendHdr_sentWell h _ fun _ => rfl) hdata 0 q le_rfl h
  unfold trySendCmd
  dsimp only
  split_ifs with hneg hagain
  · exact le_rfl
  · exact absurd hwell.1 (not_or.2 ⟨by omega, hagain⟩)
  · exact Int.one_nonneg

theorem trySendOne_nonneg (h : Polite q.replies) : 0 ≤ (nvmetTcpTrySendOne c q).1 := by
  unfold nvmetTcpTrySendOne
  cases hsnd : q.sndCmd with
  | some i => exact trySendCmd_nonneg h
  | none =>
    rcases nvmetTcpFetchCmd_cases c hsnd with hf | ⟨i, sl, rl, len, -, hf⟩
    · simp only [hf]
      exact le_rfl
    · simp only [hf]
      exact trySendCmd_nonneg h

theorem trySendTurn_nonneg (h : Polite q.replies) (last nospace : Bool) {ret : ℤ} {stalled : Bool}
    (hend : (trySendTurn c last nospace q).1 = .done ret stalled) : 0 ≤ ret := by
  have hone := trySendOne_nonneg (c := c) h
  unfold trySendTurn at hend
  dsimp only at hend
  split_ifs at hend <;> cases hend <;> first | exact hone | exact le_rfl

theorem sendTurn_polite {nospace : Bool} {replies : List SockReply} {s s' : TargetState}
    (h : Polite replies) (hs : sendTurn c nospace replies s = some s') :
    ∃ last, s'.q = (trySendTurn c last nospace { s.q with replies := replies }).2 := by
  unfold sendTurn at hs
  split at hs
  case h_2 => cases hs
  case h_1 n hpc =>
    refine ⟨n == 0, ?_⟩
    split at hs
    case h_1 q' hres =>
      rw [hres]
      cases hs
      rfl
    case h_2 ret stalled q' hres =>
      have hret := trySendTurn_nonneg (c := c) (q := { s.q with replies := replies }) h
        (n == 0) nospace (by rw [hres])
      rw [hres]
      cases hs
      exact if_neg (not_lt.2 hret)

end Polite

end BlkSwitch.Target
