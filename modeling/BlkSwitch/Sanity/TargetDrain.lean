import BlkSwitch.Sanity.TargetPacking
import BlkSwitch.Sanity.TargetPipe
import BlkSwitch.Spec.Wire

/-! The send path of the target over many turns: whose the entries of the caravan are, and that a
worker whose socket has room sends everything it has. -/

namespace BlkSwitch.Target

open NvmetTcpQueue Relation

/-! Who an entry of the caravan belongs to, when every read is followed by a response. -/

section Owners

variable {c : Config} {q q' : NvmetTcpQueue} {i : CmdId}

/-- An entry is an R2T, or of a command that the worker or the caravan still has. -/
def Owned (c : Config) (q : NvmetTcpQueue) : Prop :=
  c.sqhdDisabled = false → ∀ k ∈ q.caravanIovs, k.buf = .r2tPdu ∨ q.sndCmd = some k.cmd ∨
    k.cmd ∈ q.caravanCmds

theorem Owned.unsent (h : Owned c q) (hq : c.sqhdDisabled = false) (hu : Unheld q i) :
    Unsent q i := by
  obtain ⟨hr, hs, hsnd, hcar, hr2t⟩ := hu
  refine ⟨hr, hs, hsnd, fun k hk hki => ?_⟩
  rcases h hq k hk with hb | hb | hb
  · exact hr2t k hk hb hki
  · exact hsnd (hki ▸ hb)
  · exact hcar (hki ▸ hb)

theorem Owned.keep (h : Owned c q) (hsnd : q'.sndCmd = q.sndCmd)
    (hcmds : q'.caravanCmds = q.caravanCmds)
    (hiovs : ∀ k ∈ q'.caravanIovs, k ∈ q.caravanIovs ∨ q.sndCmd = some k.cmd) : Owned c q' := by
  intro hq k hk
  rw [hsnd, hcmds]
  rcases hiovs k hk with hk | hk
  · exact h hq k hk
  · exact .inr (.inl hk)

theorem Emitted.mem_iovs {k k' : Kvec} {b : List Byte} {n : ℕ} (he : Emitted c k b q n q')
    (hk : k' ∈ q'.caravanIovs) :
    k' ∈ q.caravanIovs ∨ k' = k := by
  cases he with
  | caravan => exact (List.mem_append.1 hk).imp id List.mem_singleton.1
  | socket => exact .inl hk

theorem Emitted.caravanCmds {k : Kvec} {b : List Byte} {n : ℕ} (he : Emitted c k b q n q') :
    q'.caravanCmds = q.caravanCmds := by
  cases he <;> rfl

theorem Owned.sends (hd : c.dataDigest = false) (hok : SendOk c q) (h : Owned c q)
    (hs : Sends c i q q') : Owned c q' := by
  obtain ⟨hsnd, hstep⟩ := hs
  have hemit : ∀ {k : Kvec} {b n q₁}, k.cmd = i → Emitted c k b q n q₁ →
      ∀ k' ∈ q₁.caravanIovs, k' ∈ q.caravanIovs ∨ q.sndCmd = some k'.cmd := by
    intro k b n q₁ hki he k' hk'
    rcases he.mem_iovs hk' with hold | rfl
    · exact .inl hold
    · exact .inr (hki ▸ hsnd)
  cases hstep with
  | full => exact h.keep rfl rfl fun k hk => .inl hk
  | refused => exact h.keep rfl rfl fun k hk => .inl hk
  | emptyHdr | emptyPage =>
    refine h.keep rfl rfl fun k hk => ?_
    rcases List.mem_append.1 hk with hk | hk
    · exact .inl hk
    · rw [List.mem_singleton.1 hk]
      exact .inr hsnd
  | part => exact h.keep rfl rfl fun k hk => .inl hk
  | dataPdu _ he =>
    have hold := hemit rfl he
    exact h.keep (he.sndCmd c) he.caravanCmds hold
  | page _ _ _ _ he =>
    have hold := hemit rfl he
    exact h.keep (he.sndCmd c) he.caravanCmds hold
  | dataDone hst hend =>
    intro hq
    have hrun : Target.dataDone c i q = q.modifyCmd i
      (nvmetSetupResponsePdu c) := by simp [Target.dataDone, hd, hq]
    rw [hrun]
    exact h hq
  | ddgst hst | ddgstLast hst =>
    have := (hok.snd i hsnd).2
    simp [hst] at this
  | r2t hst he =>
    -- nothing else of the command is in the caravan
    intro hq k hk
    rcases he.mem_iovs hk with hold | rfl
    · rcases h hq k hold with hb | hb | hb
      · exact .inl hb
      · have hki : k.cmd = i := Option.some.inj (hb.symm.trans hsnd)
        have := hok.state_of_mem hsnd hold hki
        simp [hst] at this
      · rw [← he.caravanCmds] at hb
        exact .inr (.inr hb)
    · exact .inl rfl
  | response hst ha hf =>
    intro hq k hk
    have hcmds : i ∈ q.caravanCmds ++ [i] := by simp
    rcases List.mem_append.1 hk with hold | hnew
    · rcases h hq k hold with hb | hb | hb
      · exact .inl hb
      · exact .inr (.inr ((Option.some.inj (hb.symm.trans hsnd)) ▸ hcmds))
      · exact .inr (.inr (List.mem_append_left _ hb))
    · rw [List.mem_singleton.1 hnew]
      exact .inr (.inr hcmds)
  | responseLast hst ha b n rs hb hn =>
    intro _ k hk
    have hiovs := (responseDone_send i ((q.heard b rs).modifyCmd i (skip n))).2.1
    rw [hiovs, show ((q.heard b rs).modifyCmd i (skip n)).caravanIovs = q.caravanIovs from rfl,
      hok.direct ha] at hk
    cases hk

/-- What a turn of the send loop keeps of the owners. -/
theorem Owned.turn (hd : c.dataDigest = false) (hok : SendOk c q) (h : Owned c q)
    (hrep : TakesAll c q.replies) (last nospace : Bool) :
    Owned c (trySendTurn c last nospace q).2 := by
  have hinv := @trySendTurn_invariant c
    (fun q => SendOk c q ∧ TakesAll c q.replies ∧ Owned c q) ?_ ?_ ?_ ?_ last nospace
    q ⟨hok, hrep, h⟩
  · exact hinv.2.2
  · rintro q₁ j sl rl len ⟨h₁, hr, ho⟩ hf
    refine ⟨(fetched_ok h₁ hf).1, hr, fun hq k hk => ?_⟩
    rcases ho hq k hk with hb | hb | hb
    · exact .inl hb
    · rw [hf.idle] at hb
      cases hb
    · exact .inr (.inr hb)
  · rintro j q₁ q₂ ⟨h₁, hr, ho⟩ hs
    obtain ⟨ks, out, ha⟩ := h₁.sends hd hs
    refine ⟨h₁.advance hs.1 hs.2.frame ha, fun hagg => ?_, ho.sends hd h₁ hs⟩
    rw [ha.replies hagg]
    exact hr hagg
  · rintro q₁ ⟨h₁, hr, -⟩
    obtain ⟨hok', hr', -⟩ := flushed_ok h₁ hr
    exact ⟨hok', hr', fun _ k hk => by cases hk⟩
  · rintro q₁ ⟨h₁, hr, ho⟩
    exact ⟨⟨h₁.len, h₁.pos, h₁.direct, h₁.listLen, h₁.nodup, h₁.waits, h₁.snd, h₁.apart⟩, hr, ho⟩

theorem Owned.sendTurn (hd : c.dataDigest = false) {s s' : TargetState} (hok : RespOk c s)
    (h : Owned c s.q) {nospace : Bool} {replies : List SockReply} (hrep : TakesAll c replies)
    (hs : Target.sendTurn c nospace replies s = some s') : Owned c s'.q := by
  unfold Target.sendTurn at hs
  split at hs
  case h_2 => cases hs
  case h_1 n hpc =>
    have hsend : SendOk c { s.q with replies := replies } :=
      ⟨hok.send.len, hok.send.pos, hok.send.direct, hok.send.listLen, hok.send.nodup,
        hok.send.waits, hok.send.snd, hok.send.apart⟩
    have hturn := Owned.turn (q := { s.q with replies := replies }) hd hsend h hrep (n == 0) nospace
    split at hs
    case h_1 q' hres =>
      rw [hres] at hturn
      cases hs
      exact hturn
    case h_2 ret stalled q' hres =>
      rw [hres] at hturn
      cases hs
      unfold ioWorkFails nvmetTcpFatalError
      split_ifs <;> exact hturn

end Owners

/-! A measure of what is left to be done: each step of a command brings it down, unless the caravan
is full or the socket unwilling, and the flush that follows a full caravan does as well. -/

section Work

variable {c : Config} {q q' : NvmetTcpQueue} {i : CmdId}

def owed (c : Config) (q : NvmetTcpQueue) : List Byte :=
  sndOwes c q ++ (backlog q).flatMap fun i => owedPdus c i (q.cmds i)

/-- How far the worker's command is: behind its data there is one step more. -/
def phase (q : NvmetTcpQueue) : ℕ :=
  match q.sndCmd with
  | none => 0
  | some i => if (q.cmds i).state = .data then 2 else 1

def unsent (q : NvmetTcpQueue) : ℕ := if q.caravanIovs = [] then 0 else 1

def work (c : Config) (q : NvmetTcpQueue) : ℕ :=
  4 * (owed c q).length + 2 * (backlog q).length + phase q + unsent q

theorem inHand_eq_owed (c : Config) (q : NvmetTcpQueue) : inHand c q = q.caravanBytes ++ owed c q :=
  rfl

theorem phase_none (h : q.sndCmd = none) : phase q = 0 := by rw [phase, h]

theorem phase_some (h : q.sndCmd = some i) :
    phase q = if (q.cmds i).state = .data then 2 else 1 := by rw [phase, h]

theorem phase_pos (h : q.sndCmd = some i) : 1 ≤ phase q := by
  rw [phase_some h]
  split_ifs <;> decide

theorem phase_le (q : NvmetTcpQueue) : phase q ≤ 2 := by
  unfold phase
  split
  · decide
  · split_ifs <;> decide

theorem unsent_le (q : NvmetTcpQueue) : unsent q ≤ 1 := by
  unfold unsent
  split_ifs <;> decide

theorem inHand_of_work (h : work c q = 0) : inHand c q = [] := by
  unfold work at h
  have howed : owed c q = [] := List.length_eq_zero_iff.1 (by omega)
  have hcar : q.caravanIovs = [] := by
    by_contra hne
    have : unsent q = 1 := if_neg hne
    omega
  rw [inHand_eq_owed, howed, caravanBytes, hcar]
  rfl

theorem work_of_sndOwes (h : SendOk c q) (hsnd : q.sndCmd = some i) (hf : Frame i q q') {d : ℕ}
    (hlt : 4 * (sndOwes c q').length + phase q' + unsent q' + d ≤ 4 * (sndOwes c q).length +
      phase q + unsent q) :
    work c q' + d ≤ work c q := by
  have hback := flatMap_backlog_congr (c := c) hf.backlog fun j hj =>
    hf.cmds j (h.ne_of_mem hsnd hj)
  unfold work owed
  rw [hback, hf.backlog, List.length_append, List.length_append]
  omega

theorem sndOwes_header (h : SendOk c q) (hsnd : q.sndCmd = some i) {buf : Buffer}
    (hbuf : headerBuf (q.cmds i).state = some buf) :
    (sndOwes c q).length = 24 + nvmetTcpHdgstLen c - (q.cmds i).offset +
      (behindHdr c (q.cmds i)).length ∧ (q.cmds i).offset < 24 + nvmetTcpHdgstLen c := by
  obtain ⟨hlen, hoff⟩ := (h.snd i hsnd).header hbuf
  rw [sndOwes_some hsnd, owes_header buf hbuf, List.length_append, List.length_drop, hlen]
  exact ⟨rfl, hoff⟩

theorem work_dataPdu (h : SendOk c q) (hsnd : q.sndCmd = some i) (hst : (q.cmds i).state = .dataPdu)
    {n : ℕ} {k : Kvec} {b : List Byte} {q₁ : NvmetTcpQueue} (he : Emitted c k b q n q₁) :
    work c (dataPduDone i (q₁.modifyCmd i (skip n))) < work c q := by
  have hf : Frame i q (dataPduDone i (q₁.modifyCmd i (skip n))) :=
    he.frame.trans ((frame_skip n).trans (frame_modifyCmd rfl (by simp)))
  have hsnd' : (dataPduDone i (q₁.modifyCmd i (skip n))).sndCmd = some i := (he.sndCmd c).trans hsnd
  have hcmd : (dataPduDone i (q₁.modifyCmd i (skip n))).cmds i =
      { q.cmds i with state := .data, offset := 0 } := by
    simp [dataPduDone, skip, he.cmds]
  have hs := (h.snd i hsnd).2
  simp only [hst] at hs
  have hbehind : (sndOwes c (dataPduDone i (q₁.modifyCmd i (skip n)))).length =
      (behindHdr c (q.cmds i)).length := by
    rw [sndOwes_some hsnd', hcmd, owes_data rfl]
    simp [behindHdr, hst, dataLeft, hs.2.2.1, NvmetTcpCmd.sgData, dataTail, rspWire]
  obtain ⟨hlen, hoff⟩ := sndOwes_header h hsnd (by rw [hst]; rfl)
  refine Nat.lt_of_succ_le (work_of_sndOwes (d := 1) h hsnd hf ?_)
  have hp := phase_le (dataPduDone i (q₁.modifyCmd i (skip n)))
  have hp' := phase_pos hsnd
  have hu := unsent_le (dataPduDone i (q₁.modifyCmd i (skip n)))
  omega

theorem work_page (h : SendOk c q) (hsnd : q.sndCmd = some i) (hst : (q.cmds i).state = .data)
    {j n : ℕ} {sg : SgList} (hj : (q.cmds i).curSg = some j) (hsg : (q.cmds i).req.sg = some sg)
    (hn : 0 < n) {q₁ : NvmetTcpQueue}
    (he : Emitted c (pageKvec i sg j (q.cmds i)) (pageOffer sg j (q.cmds i)) q n q₁) :
    work c (q₁.modifyCmd i (dataAdvance sg j n)) < work c q := by
  have hf : Frame i q (q₁.modifyCmd i (dataAdvance sg j n)) := by
    refine he.frame.trans (frame_modifyCmd ?_ ?_)
    all_goals simp only [dataAdvance]; split_ifs <;> simp
  have hsnd' : (q₁.modifyCmd i (dataAdvance sg j n)).sndCmd = some i := (he.sndCmd c).trans hsnd
  have hcmd : (q₁.modifyCmd i (dataAdvance sg j n)).cmds i = dataAdvance sg j n (q.cmds i) := by
    rw [modifyCmd_cmds_self, he.cmds c]
  have hst' : (dataAdvance sg j n (q.cmds i)).state = .data := by rw [dataAdvance_state, hst]
  have hs := (h.snd i hsnd).2
  simp only [hst] at hs
  obtain ⟨hpage, hlt⟩ := hs j hj
  have hdata : (q.cmds i).sgData = sg.data := by simp [NvmetTcpCmd.sgData, hsg]
  rw [hdata] at hlt
  have hentry := entryLen_pos hpage hlt
  have hoffer : (pageOffer sg j (q.cmds i)).length = sg.entryLen j - (q.cmds i).offset := by
    simp only [pageOffer, List.length_take, List.length_drop, SgList.entryLen]
    omega
  have hle : (q.cmds i).offset + n ≤ sg.entryLen j := by
    cases he with
    | caravan => simp only [pageKvec]; omega
    | socket _ _ _ _ hle => omega
  have htail : dataTail c (dataAdvance sg j n (q.cmds i)) = dataTail c (q.cmds i) := by
    simp only [dataTail, rspWire, dataAdvance]
    split_ifs <;> rfl
  have hleft := congrArg List.length (dataAdvance_left hsg hj hle)
  rw [List.length_append, List.length_take, hoffer] at hleft
  have hlen : (sndOwes c (q₁.modifyCmd i (dataAdvance sg j n))).length + n =
      (sndOwes c q).length := by
    rw [sndOwes_some hsnd', sndOwes_some hsnd, hcmd, owes_data hst, owes_data hst', htail,
      List.length_append, List.length_append]
    omega
  refine Nat.lt_of_succ_le (work_of_sndOwes (d := 1) h hsnd hf ?_)
  have hp := phase_le (q₁.modifyCmd i (dataAdvance sg j n))
  have hp' : phase q = 2 := by rw [phase_some hsnd, if_pos hst]
  have hu := unsent_le (q₁.modifyCmd i (dataAdvance sg j n))
  omega

theorem work_dataDone (hd : c.dataDigest = false) (h : SendOk c q) (hsnd : q.sndCmd = some i)
    (hst : (q.cmds i).state = .data) (hend : (q.cmds i).curSg = none ∨ (q.cmds i).req.sg = none) :
    work c (dataDone c i q) < work c q := by
  have ha := advances_dataDone hd h hsnd hst hend
  have hrest := ha.rest
  simp only [List.flatMap_nil, List.nil_append] at hrest
  have hiovs := ha.iovs
  rw [List.append_nil] at hiovs
  have hp : phase q = 2 := by rw [phase_some hsnd, if_pos hst]
  have hp' : phase (dataDone c i q) ≤ 1 := by
    rcases ha.keep with hnone | ⟨hsome, -, -⟩
    · rw [phase_none hnone]
      exact Nat.zero_le _
    · have hq : c.sqhdDisabled = false := by
        by_contra hq
        have hrun : dataDone c i q = (nvmetTcpPutCmd { q with sndCmd := none } i).sglFree i := by
          simp [dataDone, hd, Bool.eq_true_of_not_eq_false hq]
        rw [hrun, (letGo_send i q).2.2.2.2.2] at hsome
        cases hsome
      have hrun : dataDone c i q = q.modifyCmd i
        (nvmetSetupResponsePdu c) := by simp [dataDone, hd, hq]
      rw [phase_some hsome, hrun, modifyCmd_cmds_self]
      exact le_of_eq (if_neg (by simp [nvmetSetupResponsePdu]))
  refine Nat.lt_of_succ_le (work_of_sndOwes (d := 1) h hsnd frame_dataDone ?_)
  rw [hrest, unsent, unsent, hiovs]
  omega

theorem work_last (h : SendOk c q) (hsnd : q.sndCmd = some i) (hf : Frame i q q') {buf : Buffer}
    (hbuf : headerBuf (q.cmds i).state = some buf) (hnone : q'.sndCmd = none) :
    work c q' < work c q := by
  obtain ⟨hlen, hoff⟩ := sndOwes_header h hsnd hbuf
  have hp := phase_pos hsnd
  have hu := unsent_le q'
  refine Nat.lt_of_succ_le (work_of_sndOwes (d := 1) h hsnd hf ?_)
  rw [sndOwes_none hnone, phase_none hnone, List.length_nil]
  omega

theorem work_sends (hd : c.dataDigest = false) (h : SendOk c q) (hs : Sends c i q q') :
    work c q' ≤ work c q := by
  obtain ⟨hsnd, hstep⟩ := hs
  have hf := hstep.frame
  obtain ⟨h0, hok⟩ := h.snd i hsnd
  cases hstep with
  | full | refused => exact le_rfl
  | emptyHdr _ ha _ hz =>
    simp only [hdrLeft, h0 ha] at hz
    omega
  | emptyPage j sg _ hst hj hsg hz =>
    simp only [hst] at hok
    obtain ⟨hpage, hlt⟩ := hok j hj
    have hentry : (q.cmds i).offset < sg.entryLen j :=
      entryLen_pos hpage (by simpa [NvmetTcpCmd.sgData, hsg] using hlt)
    omega
  | @part ha b n rs buf hbuf hb hn =>
    subst hb
    have hrest := congrArg List.length (advances_part h hsnd ha rs hbuf hn).rest
    rw [List.length_append, List.length_append] at hrest
    have hp : phase ((q.heard ((hdrOffer c buf (q.cmds i)).take n) rs).modifyCmd i (skip n)) =
        phase q := by
      have hsnd' : ((q.heard ((hdrOffer c buf (q.cmds i)).take n) rs).modifyCmd i (skip n)).sndCmd =
        some i := hsnd
      rw [phase_some hsnd', phase_some hsnd, modifyCmd_cmds_self]
      rfl
    have hu : unsent ((q.heard ((hdrOffer c buf (q.cmds i)).take n) rs).modifyCmd i (skip n)) =
      unsent q := rfl
    refine work_of_sndOwes (d := 0) h hsnd hf ?_
    omega
  | dataPdu hst he => exact (work_dataPdu h hsnd hst he).le
  | page hst hj hsg hn he hb =>
    subst hb
    exact (work_page h hsnd hst hj hsg hn he).le
  | dataDone hst hend => exact (work_dataDone hd h hsnd hst hend).le
  | ddgst hst | ddgstLast hst => simp [hst] at hok
  | r2t hst => exact (work_last h hsnd hf (by rw [hst]; rfl) rfl).le
  | response hst => exact (work_last h hsnd hf (by rw [hst]; rfl) rfl).le
  | responseLast hst =>
    exact (work_last h hsnd hf (by rw [hst]; rfl) (responseDone_send i _).2.2.2.2.2).le

end Work

/-! With a socket that takes everything, a call has its first stage succeed or the caravan full. -/

section Stages

variable {c : Config} {q : NvmetTcpQueue} {i : CmdId}

/-- The function of a state, and the stages behind it. -/
def stageFn (c : Config) (i : CmdId) : SendState → NvmetTcpQueue → ℤ × NvmetTcpQueue
  | .dataPdu => nvmetTrySendDataPdu c i
  | .data => nvmetTrySendData c i
  | .ddgst => nvmetTrySendDdgst c i
  | .r2t => nvmetTrySendR2t c i
  | .response => nvmetTrySendResponse c i

def stagesAfter (c : Config) (i : CmdId) : SendState → ℤ → NvmetTcpQueue → ℤ × NvmetTcpQueue
  | .response => Prod.mk
  | .r2t => stage i .response (nvmetTrySendResponse c i) Prod.mk
  | .ddgst => stage i .r2t (nvmetTrySendR2t c i)
    (stage i .response (nvmetTrySendResponse c i) Prod.mk)
  | .data =>
    stage i .ddgst (nvmetTrySendDdgst c i)
      (stage i .r2t (nvmetTrySendR2t c i) (stage i .response (nvmetTrySendResponse c i) Prod.mk))
  | .dataPdu =>
    stage i .data (nvmetTrySendData c i)
      (stage i .ddgst (nvmetTrySendDdgst c i)
        (stage i .r2t (nvmetTrySendR2t c i) (stage i .response (nvmetTrySendResponse c i) Prod.mk)))

theorem stageFn_ok (c : Config) (i : CmdId) (st : SendState) : StageOk c i st (stageFn c i st) := by
  cases st with
  | dataPdu => exact nvmetTrySendDataPdu_ok c i
  | data => exact nvmetTrySendData_ok c i
  | ddgst => exact nvmetTrySendDdgst_ok c i
  | r2t => exact nvmetTrySendR2t_ok c i
  | response => exact nvmetTrySendResponse_ok c i

theorem trySendCmd_snd {st : SendState} (hst : (q.cmds i).state = st)
    (hpos : 0 < (stageFn c i st q).1) :
    (trySendCmd c i q).2 = (stagesAfter c i st (stageFn c i st q).1 (stageFn c i st q).2).2 := by
  have hle : ¬ (stageFn c i st q).1 ≤ 0 := by omega
  cases st <;> simp only [stageFn] at hle <;>
    simp [trySendCmd, stage, hst, stageFn, stagesAfter, hle]

theorem stagesAfter_steps (c : Config) (i : CmdId) (st : SendState) (ret : ℤ) {q : NvmetTcpQueue}
    (hq : Behind [st] i q) : ReflTransGen (Sends c i) q (stagesAfter c i st ret q).2 := by
  have hrsp : ∀ {past} (ret : ℤ) {q : NvmetTcpQueue}, SendState.response ∉ past → Behind past i q →
      ReflTransGen (Sends c i) q
        (stage i .response (nvmetTrySendResponse c i) Prod.mk ret q).2 := by
    intro past ret q hpast hq
    exact stage_steps c i (nvmetTrySendResponse_ok c i) hpast (fun _ _ _ => .refl) _ hq
  have hr2t : ∀ {past} (ret : ℤ) {q : NvmetTcpQueue}, SendState.r2t ∉ past →
    SendState.response ∉ past →
      Behind past i q → ReflTransGen (Sends c i) q
        (stage i .r2t (nvmetTrySendR2t c i) (stage i .response (nvmetTrySendResponse c i) Prod.mk)
          ret q).2 := by
    intro past ret q h1 h2 hq
    exact stage_steps c i (nvmetTrySendR2t_ok c i) h1
      (fun _ _ hb => hrsp _ (by simpa using h2) hb) _ hq
  have hddgst : ∀ {past} (ret : ℤ) {q : NvmetTcpQueue}, SendState.ddgst ∉ past →
    SendState.r2t ∉ past →
      SendState.response ∉ past → Behind past i q → ReflTransGen (Sends c i) q
        (stage i .ddgst (nvmetTrySendDdgst c i)
          (stage i .r2t (nvmetTrySendR2t c i)
            (stage i .response (nvmetTrySendResponse c i) Prod.mk)) ret q).2 := by
    intro past ret q h1 h2 h3 hq
    exact stage_steps c i (nvmetTrySendDdgst_ok c i) h1
      (fun _ _ hb => hr2t _ (by simpa using h2) (by simpa using h3) hb) _ hq
  cases st with
  | response => exact .refl
  | r2t => exact hrsp ret (by simp) hq
  | ddgst => exact hr2t ret (by simp) (by simp) hq
  | data => exact hddgst ret (by simp) (by simp) (by simp) hq
  | dataPdu =>
    exact stage_steps c i (nvmetTrySendData_ok c i) (by simp)
      (fun _ _ hb => hddgst _ (by simp) (by simp) (by simp) hb) _ hq

theorem kernelSend_all (hrep : q.replies = []) (b : List Byte) : q.kernelSend b =
    ((b.length : ℤ), q.heard b []) := by
  simp [kernelSend, heard, hrep]

theorem emit_all (hrep : q.replies = []) (k : Kvec) {b : List Byte}
    (hb : aggregates c = false → 0 < b.length) :
    (aggregates c = true ∧ q.i10TargetIsCaravanFull = true ∧ q.emit c k b = (none, q.mark)) ∨
      ∃ n q₁, Emitted c k b q n q₁ ∧ q.emit c k b = (some (n : ℤ), q₁) ∧
        n = if aggregates c then k.len else b.length := by
  cases ha : aggregates c with
  | true =>
    cases hf : q.i10TargetIsCaravanFull with
    | true => exact .inl ⟨rfl, rfl, by simp [emit, ha, hf]⟩
    | false => exact .inr ⟨k.len, q.append k, .caravan ha hf, by simp [emit, ha, hf], rfl⟩
  | false =>
    refine .inr ⟨b.length, q.heard b [], ?_, ?_, rfl⟩
    · have hall := Emitted.socket (k := k) (q := q) ha b.length (hb ha) [] le_rfl
      rwa [List.take_length] at hall
    · simp [emit, ha, kernelSend_all hrep]

theorem trySendHdr_all (h : SendOk c q) (hsnd : q.sndCmd = some i) (hrep : q.replies = [])
    {buf : Buffer} (hbuf : headerBuf (q.cmds i).state = some buf)
    (done : NvmetTcpQueue → NvmetTcpQueue) :
    (aggregates c = true ∧ q.i10TargetIsCaravanFull = true ∧
      trySendHdr c i buf done q = (1, q.mark)) ∨
      ∃ n q₁, Emitted c (hdrKvec c i buf (q.cmds i)) (hdrOffer c buf (q.cmds i)) q n q₁ ∧
        trySendHdr c i buf done q = (1, done (q₁.modifyCmd i (skip n))) := by
  obtain ⟨hlen, hoff⟩ := (h.snd i hsnd).header hbuf
  have hleft : hdrLeft c (q.cmds i) = 24 + nvmetTcpHdgstLen c - (q.cmds i).offset := rfl
  have hoffer : (hdrOffer c buf (q.cmds i)).length = hdrLeft c (q.cmds i) := by
    rw [hdrOffer_eq hlen, List.length_drop, hlen, hleft]
  rcases emit_all hrep (hdrKvec c i buf (q.cmds i)) (b := hdrOffer c buf (q.cmds i))
    (fun _ => by omega) with
    ⟨ha, hf, he⟩ | ⟨n, q₁, hem, he, hn⟩
  · refine .inl ⟨ha, hf, ?_⟩
    unfold hdrKvec hdrOffer at he
    simp only [trySendHdr, he]
  · right
    have hnleft : n = hdrLeft c (q.cmds i) := by
      rw [hn, hoffer]
      exact ite_self _
    refine ⟨n, q₁, hem, ?_⟩
    unfold hdrKvec hdrOffer at he
    simp only [trySendHdr, he, Int.toNat_natCast]
    rw [if_neg (by omega), if_neg (by omega)]

theorem Emitted.replies {k : Kvec} {b : List Byte} {n : ℕ} {q₁ : NvmetTcpQueue}
    (he : Emitted c k b q n q₁) (hrep : q.replies = []) (hem : q.emit c k b = (some (n : ℤ), q₁)) :
    q₁.replies = [] := by
  cases he with
  | caravan => exact hrep
  | socket ha =>
    simp only [emit, ha, Bool.false_eq_true, ↓reduceIte, kernelSend_all hrep] at hem
    have hq := congrArg (fun p => p.2.replies) hem
    exact hq.symm

theorem trySendDataLoop_all (hd : c.dataDigest = false) (h : SendOk c q) (hsnd : q.sndCmd = some i)
    (hst : (q.cmds i).state = .data) (hrep : q.replies = []) (fuel : ℕ) :
    (trySendDataLoop c i fuel q).1 = 1 ∧ work c (trySendDataLoop c i fuel q).2 ≤ work c q ∧
      (0 < fuel → (aggregates c = true ∧ q.i10TargetIsCaravanFull = true ∧
      (trySendDataLoop c i fuel q).2 = q.mark) ∨
        work c (trySendDataLoop c i fuel q).2 < work c q) := by
  induction fuel generalizing q with
  | zero => exact ⟨rfl, le_rfl, fun h0 => absurd h0 (Nat.lt_irrefl 0)⟩
  | succ fuel ih =>
    have hend : (q.cmds i).curSg = none ∨ (q.cmds i).req.sg = none →
        (trySendDataLoop c i (fuel + 1) q).1 = 1 ∧
          work c (trySendDataLoop c i (fuel + 1) q).2 ≤ work c q ∧
          (0 < fuel + 1 → (aggregates c = true ∧ q.i10TargetIsCaravanFull = true ∧
            (trySendDataLoop c i (fuel + 1) q).2 = q.mark) ∨
              work c (trySendDataLoop c i (fuel + 1) q).2 < work c q) := by
      intro hend
      have hlt := work_dataDone hd h hsnd hst hend
      rw [trySendDataLoop_end c i fuel hend]
      exact ⟨rfl, hlt.le, fun _ => .inr hlt⟩
    cases hj : (q.cmds i).curSg with
    | none => exact hend (.inl hj)
    | some j =>
      cases hsg : (q.cmds i).req.sg with
      | none => exact hend (.inr hsg)
      | some sg =>
        have hs := (h.snd i hsnd).2
        simp only [hst] at hs
        obtain ⟨hpage, hlt⟩ := hs j hj
        have hentry : (q.cmds i).offset < sg.entryLen j :=
          entryLen_pos hpage (by simpa [NvmetTcpCmd.sgData, hsg] using hlt)
        have hoffer : (pageOffer sg j (q.cmds i)).length = sg.entryLen j - (q.cmds i).offset := by
          simp only [pageOffer, List.length_take, List.length_drop, SgList.entryLen] at hentry ⊢
          omega
        rcases emit_all hrep (pageKvec i sg j (q.cmds i)) (b := pageOffer sg j (q.cmds i))
          (fun _ => by omega) with
          ⟨ha, hf, he⟩ | ⟨n, q₁, hem, he, hn⟩
        · rw [trySendDataLoop_full c i fuel hj hsg he]
          exact ⟨rfl, le_rfl, fun _ => .inl ⟨ha, hf, rfl⟩⟩
        · have hpos : 0 < n := by
            rw [hn, hoffer]
            simp only [pageKvec, ite_self]
            omega
          rw [trySendDataLoop_page c i fuel hj hsg he, Int.toNat_natCast, if_neg (by omega)]
          -- a piece is out: the rest of the loop starts from there
          have hstep : Sends c i q (q₁.modifyCmd i (dataAdvance sg j n)) :=
            ⟨hsnd, .page hst hj hsg hpos hem rfl⟩
          obtain ⟨ks, out, hadv⟩ := h.sends hd hstep
          have hlt' := work_page h hsnd hst hj hsg hpos hem
          obtain ⟨hret, hle, -⟩ :=
            @ih (q₁.modifyCmd i (dataAdvance sg j n)) (h.advance hsnd hstep.2.frame hadv)
            ((hem.sndCmd c).trans hsnd)
              (by rw [modifyCmd_cmds_self, dataAdvance_state, hem.cmds c, hst])
            (hem.replies hrep he)
          exact ⟨hret, (hle.trans hlt'.le), fun _ => .inr (lt_of_le_of_lt hle hlt')⟩

/-- What the first stage of a call achieves: it brings the work down, or finds the caravan full. -/
theorem stageFn_work (hd : c.dataDigest = false) (h : SendOk c q) (hsnd : q.sndCmd = some i)
    (hrep : q.replies = []) {st : SendState} (hst : (q.cmds i).state = st) :
    0 < (stageFn c i st q).1 ∧
      ((aggregates c = true ∧ q.i10TargetIsCaravanFull = true ∧ (stageFn c i st q).2 = q.mark) ∨
        work c (stageFn c i st q).2 < work c q) := by
  cases st with
  | dataPdu =>
    rcases trySendHdr_all h hsnd hrep (by rw [hst]; rfl) (dataPduDone i) with
      ⟨ha, hf, hr⟩ | ⟨n, q₁, he, hr⟩
    · simp only [stageFn, nvmetTrySendDataPdu, hr]
      exact ⟨by decide, .inl ⟨ha, hf, trivial⟩⟩
    · simp only [stageFn, nvmetTrySendDataPdu, hr]
      exact ⟨by decide, .inr (work_dataPdu h hsnd hst he)⟩
  | data =>
    obtain ⟨hret, -, hmove⟩ := trySendDataLoop_all hd h hsnd hst hrep ((q.cmds i).sgData.length + 2)
    simp only [stageFn, nvmetTrySendData, hret]
    exact ⟨by decide, hmove (by omega)⟩
  | ddgst =>
    have := (h.snd i hsnd).2
    simp [hst] at this
  | r2t =>
    rcases trySendHdr_all h hsnd hrep (by rw [hst]; rfl) (r2tDone i) with
      ⟨ha, hf, hr⟩ | ⟨n, q₁, he, hr⟩
    · simp only [stageFn, nvmetTrySendR2t, hr]
      exact ⟨by decide, .inl ⟨ha, hf, trivial⟩⟩
    · simp only [stageFn, nvmetTrySendR2t, hr]
      refine ⟨by decide, .inr (work_last h hsnd ?_ (by rw [hst]; rfl) rfl)⟩
      exact (he.frame.trans (frame_skip _)).trans
        ⟨fun _ _ => rfl, rfl, by simp [r2tDone], by simp [r2tDone], by simp [r2tDone],
          by simp [r2tDone]⟩
  | response =>
    cases ha : aggregates c with
    | true =>
      cases hf : q.i10TargetIsCaravanFull with
      | true =>
        simp only [stageFn, nvmetTrySendResponse, ha, hf, ↓reduceIte]
        exact ⟨by decide, .inl ⟨trivial, trivial, trivial⟩⟩
      | false =>
        have hstep : SendStep c i q _ := .response hst ha hf
        have hlast := work_last h hsnd hstep.frame (by rw [hst]; rfl) rfl
        simp only [stageFn, nvmetTrySendResponse, ha, hf, Bool.false_eq_true, ↓reduceIte]
        exact ⟨by decide, .inr hlast⟩
    | false =>
      have hrun : nvmetTrySendResponse c i q = trySendHdr c i .rspPdu (responseDone i) q := by
        simp [nvmetTrySendResponse, ha]
      rcases trySendHdr_all h hsnd hrep (by rw [hst]; rfl) (responseDone i) with
        ⟨ha', -⟩ | ⟨n, q₁, he, hr⟩
      · rw [ha] at ha'
        cases ha'
      · simp only [stageFn, hrun, hr]
        refine ⟨by decide, .inr (work_last h hsnd ?_ (by rw [hst]; rfl)
          (responseDone_send i _).2.2.2.2.2)⟩
        exact (he.frame.trans (frame_skip n)).trans (frame_sglFree.trans frame_letGo)

theorem SendStep.sendNow {q' : NvmetTcpQueue} (hs : SendStep c i q q') (h : q.sendNow = true) :
    q'.sendNow = true := by
  have hput : ∀ q : NvmetTcpQueue, (q.nvmetTcpPutCmd i).sendNow = q.sendNow := by
    intro q
    unfold nvmetTcpPutCmd
    split_ifs <;> rfl
  have hfree : ∀ q : NvmetTcpQueue, (q.sglFree i).sendNow = q.sendNow := by
    intro q
    unfold sglFree
    split <;> rfl
  have hemit : ∀ {k : Kvec} {b : List Byte} {n : ℕ} {q₁ : NvmetTcpQueue}, Emitted c k b q n q₁ →
      q₁.sendNow = true := by
    intro k b n q₁ he
    cases he <;> exact h
  cases hs with
  | full => rfl
  | refused | emptyHdr | emptyPage | part | response | ddgst => exact h
  | dataPdu _ he | page _ _ _ _ he | r2t _ he =>
    have hnow := hemit he
    exact hnow
  | dataDone =>
    unfold Target.dataDone
    dsimp only
    split_ifs
    · exact (hfree _).trans h
    · exact (hfree _).trans ((hput _).trans h)
    · exact h
    · exact h
  | ddgstLast => exact (hput _).trans h
  | responseLast => exact (hput _).trans ((hfree _).trans h)

theorem SendOk.sends_all (hd : c.dataDigest = false) (h : SendOk c q) {q' : NvmetTcpQueue}
    (hrun : ReflTransGen (Sends c i) q q') :
    SendOk c q' ∧ work c q' ≤ work c q ∧ q.caravanIovs <+: q'.caravanIovs ∧
      (q.sendNow = true → q'.sendNow = true) := by
  induction hrun with
  | refl => exact ⟨h, le_rfl, List.prefix_rfl, id⟩
  | tail _ hs ih =>
    obtain ⟨hok, hw, hpre, hnow⟩ := ih
    obtain ⟨ks, out, hadv⟩ := hok.sends hd hs
    exact ⟨hok.advance hs.1 hs.2.frame hadv, (work_sends hd hok hs).trans hw,
      hpre.trans ⟨ks, hadv.iovs.symm⟩, fun h => hs.2.sendNow (hnow h)⟩

/-- What a whole call leaves of the work. -/
theorem trySendCmd_work (hd : c.dataDigest = false) (h : SendOk c q) (hsnd : q.sndCmd = some i)
    (hrep : q.replies = []) :
    work c (trySendCmd c i q).2 < work c q ∨
      aggregates c = true ∧ q.i10TargetIsCaravanFull = true ∧
        (trySendCmd c i q).2.sendNow = true := by
  obtain ⟨st, hst⟩ : ∃ st, (q.cmds i).state = st := ⟨_, rfl⟩
  obtain ⟨hpos, hmove⟩ := stageFn_work hd h hsnd hrep hst
  obtain ⟨hsteps, hkeep⟩ := stageFn_ok c i st q hsnd hst
  have hbehind : Behind [st] i (stageFn c i st q).2 := by
    rcases hkeep with hkeep | hkeep
    · exact .inr (by simp [hkeep])
    · exact .inl hkeep
  have hafter := stagesAfter_steps c i st (stageFn c i st q).1 hbehind
  rw [trySendCmd_snd hst hpos]
  obtain ⟨hok₁, -⟩ := h.sends_all hd hsteps
  obtain ⟨-, hle, -, hnow⟩ := hok₁.sends_all hd hafter
  rcases hmove with ⟨ha, hf, hmark⟩ | hlt
  · exact .inr ⟨ha, hf, hnow (by rw [hmark]; rfl)⟩
  · exact .inl (lt_of_le_of_lt hle hlt)

end Stages

/-! A worker whose socket has room gets something done in every turn. -/

section Drains

variable {c : Config} {q : NvmetTcpQueue} {i : CmdId}

def Clean (q : NvmetTcpQueue) : Prop := q.caravanIovs = [] → q.packed = .empty

theorem Clean.packs {q' : NvmetTcpQueue} (h : Clean q) (hp : Packs q q') : Clean q' := by
  have hrun : ∀ {b b' : Packing.Buffer Kvec}, ReflTransGen (Packing.Step caravanLimits) b b' →
      (b.entries = [] → b = .empty) → b'.entries = [] → b' = .empty := by
    intro b b' hsteps hb
    induction hsteps with
    | refl => exact hb
    | tail _ hs _ =>
      cases hs with
      | put k closes => exact fun hnil => by simp [Packing.Buffer.put] at hnil
      | clear => exact fun _ => rfl
  exact hrun hp h

theorem Clean.full (h : Clean q) (hf : q.i10TargetIsCaravanFull = true) : q.caravanIovs ≠ [] := by
  intro hnil
  have hp := h hnil
  simp only [packed, Packing.Buffer.empty, Packing.Buffer.mk.injEq] at hp
  obtain ⟨h1, h2, h3, h4⟩ := hp
  simp [i10TargetIsCaravanFull, h1, h2, h3, h4, I10_CARAVAN_CAPACITY, I10_TARGET_SEND_BUDGET] at hf

theorem SendOk.caravanLen_pos (h : SendOk c q) (hne : q.caravanIovs ≠ []) : q.caravanLen ≠ 0 :=
  fun h0 => hne (h.iovs_eq_nil h0)

theorem work_flush (q : NvmetTcpQueue) :
    work c (caravanSent (q.kernelSend q.caravanBytes).2) + unsent q = work c q := by
  obtain ⟨b, rs, hsend⟩ := q.kernelSend_heard q.caravanBytes
  rw [hsend, caravanSent, freeCaravanCmds_eq]
  change 4 * (owed c q).length + 2 * (backlog q).length + phase q + 0 + unsent q = work c q
  rfl

theorem unsent_of_ne (hne : q.caravanIovs ≠ []) : unsent q = 1 := if_neg hne

theorem trySendTurn_work (h : SendOk c (nvmetTcpTrySendOne c q).2) (last : Bool) {w : ℕ}
    (hle : work c (nvmetTcpTrySendOne c q).2 ≤ w)
    (hmove : work c (nvmetTcpTrySendOne c q).2 < w ∨
      (nvmetTcpTrySendOne c q).2.caravanIovs ≠ [] ∧
        ((nvmetTcpTrySendOne c q).2.sendNow = true ∨ (nvmetTcpTrySendOne c q).1 ≤ 0)) :
    work c (trySendTurn c last false q).2 < w := by
  have hflush := work_flush (c := c) (nvmetTcpTrySendOne c q).2
  have hturn : (trySendTurn c last false q).2 =
      if c.nvmetTcpAggr ∧ (nvmetTcpTrySendOne c q).2.caravanLen ≠ 0 ∧
        ((nvmetTcpTrySendOne c q).2.sendNow ∨ (nvmetTcpTrySendOne c q).1 ≤ 0 ∨ last) then
        caravanSent ((nvmetTcpTrySendOne c q).2.kernelSend
          (nvmetTcpTrySendOne c q).2.caravanBytes).2
      else (nvmetTcpTrySendOne c q).2 := by
    simp only [trySendTurn, Bool.false_eq_true, ↓reduceIte]
    split_ifs <;> rfl
  rw [hturn]
  split_ifs with hcond
  · rcases hmove with hlt | ⟨hne, -⟩
    · omega
    · have := unsent_of_ne hne
      omega
  · rcases hmove with hlt | ⟨hne, hnow⟩
    · exact hlt
    · -- the caravan has bytes in it and something asks for it to go
      refine absurd ⟨?_, h.caravanLen_pos hne, ?_⟩ hcond
      · cases ha : aggregates c with
        | false => exact absurd (h.direct ha) hne
        | true =>
          unfold aggregates at ha
          exact (Bool.and_eq_true_iff.1 ha).1
      · rcases hnow with hnow | hnow
        · exact .inl hnow
        · exact .inr (.inl hnow)

theorem fetch_none (hf : nvmetTcpFetchCmd c q = (none, q)) : backlog q = [] := by
  unfold nvmetTcpFetchCmd nvmetTcpProcessRespList at hf
  cases hs : q.respSendList with
  | cons i sl => simp [hs] at hf
  | nil =>
    cases hr : q.respList.reverse with
    | nil => simp [backlog, hs, hr]
    | cons i sl => simp [hs, hr] at hf

theorem work_fetched (h : SendOk c q) {sl rl : List CmdId} {len : ℤ} (hf : Fetches q i sl rl len) :
    work c (fetched c i sl rl len q) < work c q := by
  have hback : backlog q = i :: (sl ++ rl.reverse) := hf.order
  have hi : i ∈ backlog q := by simp [hback]
  obtain ⟨-, -, hentry⟩ := h.waits i hi
  obtain ⟨-, x, hsent, hheld⟩ := (fetched_ok h hf).2
  have hx : x = [] := List.append_right_eq_self.1 hsent.symm
  have hcar : (fetched c i sl rl len q).caravanBytes = q.caravanBytes :=
    caravanBytes_congr rfl fun k hk => modifyCmd_cmds_of_ne _ _ _ (hentry k hk)
  have howed : owed c q = owed c (fetched c i sl rl len q) := by
    change inHand c q = x ++ inHand c (fetched c i sl rl len q) at hheld
    rw [hx, List.nil_append, inHand_eq_owed, inHand_eq_owed, hcar] at hheld
    exact List.append_cancel_left hheld
  have hphase : phase (fetched c i sl rl len q) = 1 := by
    rw [phase_some (i := i) rfl, if_neg]
    rw [show (fetched c i sl rl len q).cmds i =
      setupFirstPdu c i (q.cmds i) from modifyCmd_cmds_self _ _ _]
    unfold setupFirstPdu
    split_ifs <;> simp [nvmetSetupC2hDataPdu, nvmetSetupR2tPdu, nvmetSetupResponsePdu]
  have hlen : (backlog q).length = (backlog (fetched c i sl rl len q)).length + 1 := by
    rw [hback]
    rfl
  have hunsent : unsent (fetched c i sl rl len q) = unsent q := rfl
  unfold work
  rw [howed, hlen, hphase, hunsent]
  omega

theorem turn_work (hd : c.dataDigest = false) (h : SendOk c q) (hclean : Clean q)
    (hrep : q.replies = []) (hpos : 0 < work c q) (last : Bool) :
    work c (trySendTurn c last false q).2 < work c q := by
  cases hsnd : q.sndCmd with
  | some i =>
    have hone : nvmetTcpTrySendOne c q = trySendCmd c i q := by simp only [nvmetTcpTrySendOne, hsnd]
    obtain ⟨hok, hle, hpre, -⟩ := h.sends_all hd (trySendCmd_steps c i hsnd)
    rw [← hone] at hok hle hpre
    refine trySendTurn_work hok last hle ?_
    rw [hone]
    refine (trySendCmd_work hd h hsnd hrep).imp id fun hmark => ?_
    obtain ⟨-, hfull, hnow⟩ := hmark
    refine ⟨fun hnil => ?_, .inl hnow⟩
    rw [hone, hnil] at hpre
    exact hclean.full hfull (List.prefix_nil.1 hpre)
  | none =>
    rcases nvmetTcpFetchCmd_cases c hsnd with hf | ⟨i, sl, rl, len, hfs, hf⟩
    · have hone : nvmetTcpTrySendOne c q = (0, q) := by simp only [nvmetTcpTrySendOne, hsnd, hf]
      refine trySendTurn_work (by rw [hone]; exact h) last (by rw [hone]) (.inr ?_)
      rw [hone]
      refine ⟨fun (hnil : q.caravanIovs = []) => ?_, .inr le_rfl⟩
      simp [work, owed, sndOwes_none hsnd, phase_none hsnd, fetch_none hf, unsent, hnil] at hpos
    · have hone : nvmetTcpTrySendOne c q = trySendCmd c i (fetched c i sl rl len q) := by
        simp only [nvmetTcpTrySendOne, hsnd, hf]
      have hlt := work_fetched h hfs
      obtain ⟨hok, hle, -⟩ := (fetched_ok h hfs).1.sends_all hd (trySendCmd_steps c i rfl)
      rw [← hone] at hok hle
      exact trySendTurn_work hok last (hle.trans hlt.le) (.inl (lt_of_le_of_lt hle hlt))

/-- The worker is never in a loop without turns, and its caravan is counted right. -/
structure Going (s : TargetState) : Prop where
  clean : Clean s.q
  turns : s.pc ≠ .sending 0

theorem Going.sendStart {s s' : TargetState} (h : Going s) {budget : ℕ}
    (hs : Target.sendStart budget s = some s') :
    Going s' := by
  unfold Target.sendStart at hs
  split at hs
  · split_ifs at hs with hb
    cases hs
    refine ⟨h.clean, fun hp => ?_⟩
    cases hp
    omega
  · cases hs

theorem Going.sendTurn {s s' : TargetState} (h : Going s) {nospace : Bool}
    {replies : List SockReply} (hs : Target.sendTurn c nospace replies s = some s') : Going s' := by
  have hpacks : Packs s.q s'.q := targetStep_packs (c := c) (e := .sendTurn nospace replies) hs
  refine ⟨h.clean.packs hpacks, ?_⟩
  unfold Target.sendTurn at hs
  split at hs
  case h_2 => cases hs
  case h_1 n hpc =>
    split at hs
    case h_1 q' hres =>
      cases hs
      rintro ⟨⟩
      -- the last turn ends the loop
      simp only [trySendTurn, BEq.rfl, or_true, ↓reduceIte] at hres
      split_ifs at hres
      all_goals cases hres
    case h_2 ret stalled q' hres =>
      cases hs
      simp

/-- A turn against a socket with room. -/
theorem sendTurn_work (hd : c.dataDigest = false) {s : TargetState} (h : SendOk c s.q)
    (hgo : Going s) {n : ℕ} (hpc : s.pc = .sending (n + 1)) (hpos : 0 < work c s.q) :
    ∃ s', Target.sendTurn c false [] s = some s' ∧ work c s'.q < work c s.q := by
  have hq : SendOk c { s.q with replies := [] } :=
    ⟨h.len, h.pos, h.direct, h.listLen, h.nodup, h.waits, h.snd, h.apart⟩
  have hlt := turn_work (q := { s.q with replies := [] }) hd hq hgo.clean rfl hpos (n == 0)
  change _ < work c s.q at hlt
  unfold Target.sendTurn
  simp only [hpc]
  rcases hres : trySendTurn c (n == 0) false { s.q with replies := [] } with ⟨_ | _, q'⟩
  · rw [hres] at hlt
    refine ⟨_, rfl, ?_⟩
    dsimp only
    unfold ioWorkFails nvmetTcpFatalError
    split_ifs <;> exact hlt
  · rw [hres] at hlt
    exact ⟨_, rfl, hlt⟩

end Drains

end BlkSwitch.Target
