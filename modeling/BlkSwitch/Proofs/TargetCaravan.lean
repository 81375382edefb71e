import BlkSwitch.Proofs.TargetSlots

/-! What the caravan of a target queue points at. As long as every command that is gathered still
has its response to come, its headers and pages stay in custody until the caravan has been sent.
With `sqhd_disabled` a read is done with its last page, and its command and pages are given back
while the caravan still points at them. -/

namespace BlkSwitch.Target

open NvmetTcpQueue Custody

def Buffer.list : Buffer → Option ℕ
  | .page g => some g
  | .dataPdu | .r2tPdu | .rspPdu => none

/-- What a caravan entry points at has not been given back: not its command, not the command's
list of pages, and the page it points at, if it does, is in that list. -/
def Live (q : NvmetTcpQueue) (k : Kvec) : Prop :=
  k.cmd ∉ q.freeList ∧
    (∀ g ∈ sgId (q.cmds k.cmd), g ∉ q.sglFreed) ∧ ∀ g ∈ k.buf.list, sgId (q.cmds k.cmd) = some g

instance (q : NvmetTcpQueue) (k : Kvec) : Decidable (Live q k) := by
  unfold Live
  infer_instance

/-- With no responses to come, no read has data to send. -/
def Answered (c : Config) (s : TargetState) : TargetEvent → Prop
  | .complete i cqe data => c.sqhdDisabled = true →
    (completed cqe data (s.q.cmds i)).needDataOut = false
  | .recv _ _ | .sendStart _ | .sendTurn _ _ => True

instance (c : Config) (s : TargetState) : (e : TargetEvent) → Decidable (Answered c s e)
  | .complete _ _ _ => inferInstanceAs (Decidable (_ → _))
  | .recv _ _ | .sendStart _ | .sendTurn _ _ => .isTrue trivial

/-- The connection is up, the step is fair and every command will be answered. -/
def CaravanStep (c : Config) (s : TargetState) (e : TargetEvent) : Prop :=
  s.q.fatal = false ∧ FairStep s e ∧ Answered c s e

instance (c : Config) (s : TargetState) (e : TargetEvent) : Decidable (CaravanStep c s e) := by
  unfold CaravanStep
  infer_instance

section Gather

variable {c : Config} {L₀ : Ledger CmdId (pool c)} {q q' : NvmetTcpQueue} {i : CmdId} {k : Kvec}

/-- Entries are live, and the commands behind them have a response to come. -/
structure Gathers (c : Config) (q : NvmetTcpQueue) : Prop where
  live : ∀ k ∈ q.caravanIovs, Live q k
  snd : ∀ i, q.sndCmd = some i → (q.cmds i).state ≠ .ddgst ∧
    (c.sqhdDisabled = true → (q.cmds i).state = .r2t ∨ (q.cmds i).state = .response)
  resp : c.sqhdDisabled = true → ∀ i ∈ q.respList ++ q.respSendList, (q.cmds i).needDataOut = false

theorem Live.mono (h : Live q k) (hf : k.cmd ∉ q.freeList → k.cmd ∉ q'.freeList)
    (hsg : sgId (q'.cmds k.cmd) = sgId (q.cmds k.cmd)) (hfr : q'.sglFreed = q.sglFreed) :
    Live q' k := by
  obtain ⟨hfree, hlist, hpage⟩ := h
  refine ⟨hf hfree, ?_, ?_⟩
  · rw [hsg, hfr]
    exact hlist
  · rw [hsg]
    exact hpage

/-- An entry of a held command is live, if its page is one of the command's. -/
theorem Kept.live (h : Kept c L₀ q) (hi : q.sndCmd = some k.cmd)
    (hst : (q.cmds k.cmd).state ≠ .ddgst) (hb : ∀ g ∈ k.buf.list, sgId (q.cmds k.cmd) = some g) :
    Live q k := by
  obtain ⟨L, -, hL⟩ := h.ledger
  have hin : k.cmd ∈ [] ++ held q := by simp [held, hi]
  have hheld : k.cmd ∈ L.held := hL.places.symm.subset hin
  have howns : L.owns k.cmd = sgId (q.cmds k.cmd) := (hL.owns _ hin).trans (owned_of_state hst)
  refine ⟨?_, ?_, hb⟩
  · rw [← hL.free]
    exact L.not_free_of_held hheld
  · intro g hg
    rw [← hL.released]
    exact L.not_released_of_owned hheld (howns.trans hg)

/-- A step that adds at most an entry of the command itself, and gives nothing back. -/
structure Adds (c : Config) (i : CmdId) (q q' : NvmetTcpQueue) : Prop where
  free : q'.freeList = q.freeList
  freed : q'.sglFreed = q.sglFreed
  iovs : q'.caravanIovs = q.caravanIovs ∨ ∃ k : Kvec, k.cmd = i ∧
    (∀ g ∈ k.buf.list, sgId (q.cmds i) = some g) ∧ q'.caravanIovs = q.caravanIovs ++ [k]
  state : q'.sndCmd = some i → (q'.cmds i).state ≠ .ddgst ∧
    (c.sqhdDisabled = true → (q'.cmds i).state = .r2t ∨ (q'.cmds i).state = .response)

theorem Emitted.iovs {b : List Byte} {n : ℕ} (h : Emitted c k b q n q') (ha : aggregates c = true) :
    q' = q.append k := by
  cases h with
  | caravan => rfl
  | socket hn => simp [ha] at hn

theorem SendStep.adds (h : SendStep c i q q') (ha : aggregates c = true) (hd : c.dataDigest = false)
    (hst : (q.cmds i).state ≠ .ddgst ∧
      (c.sqhdDisabled = true → (q.cmds i).state = .r2t ∨ (q.cmds i).state = .response)) : Adds c i q
      q' := by
  cases h with
  | full => exact ⟨rfl, rfl, .inl rfl, fun _ => hst⟩
  | refused hw => simp [ha, hst.1] at hw
  | emptyHdr buf _ hb =>
    refine ⟨rfl, rfl, .inr ⟨_, rfl, fun g hg => ?_, rfl⟩, fun _ => hst⟩
    cases buf with
    | page g => exact absurd rfl (hb g)
    | dataPdu | r2tPdu | rspPdu => cases hg
  | emptyPage j sg _ _ _ hsg =>
    refine ⟨rfl, rfl, .inr ⟨_, rfl, fun g hg => ?_, rfl⟩, fun _ => hst⟩
    cases hg
    simp [sgId, hsg]
  | part hn => simp [ha] at hn
  | dataPdu hs he =>
    obtain rfl := he.iovs ha
    refine ⟨rfl, rfl, .inr ⟨_, rfl, fun g hg => ?_, rfl⟩,
      fun _ => ⟨by simp [dataPduDone], fun hq => ?_⟩⟩
    · cases hg
    · simp [hs] at hst
      simp [hq] at hst
  | page hs hj hsg _ he =>
    obtain rfl := he.iovs ha
    refine ⟨rfl, rfl, .inr ⟨_, rfl, fun g hg => ?_, rfl⟩, fun _ => ?_⟩
    · cases hg
      simp [sgId, hsg]
    · rw [modifyCmd_cmds_self, dataAdvance_state]
      exact hst
  | dataDone hs =>
    -- data is only sent when a response follows
    have hq : c.sqhdDisabled = false := by
      by_contra hq
      have := hst.2 (by simpa using hq)
      simp [hs] at this
    have hrun : Target.dataDone c i q = q.modifyCmd i
      (nvmetSetupResponsePdu c) := by simp [Target.dataDone, hd, hq]
    rw [hrun]
    exact ⟨rfl, rfl, .inl rfl, fun _ => by simp [nvmetSetupResponsePdu]⟩
  | ddgst hs => exact absurd hs hst.1
  | ddgstLast hs => exact absurd hs hst.1
  | r2t hs he =>
    obtain rfl := he.iovs ha
    refine ⟨rfl, rfl, .inr ⟨_, rfl, fun g hg => ?_, rfl⟩, fun hn => ?_⟩
    · cases hg
    · simp [r2tDone] at hn
  | response =>
    refine ⟨rfl, rfl, .inr ⟨_, rfl, fun g hg => ?_, rfl⟩, fun hn => ?_⟩
    · cases hg
    · simp [modifyCmd] at hn
  | responseLast _ hn => simp [ha] at hn

theorem Gathers.sends (h : Gathers c q) (hk : Kept c L₀ q) (ha : aggregates c = true)
    (hd : c.dataDigest = false) (hs : Sends c i q q') : Gathers c q' := by
  have hf := hs.2.frame
  have hst := h.snd i hs.1
  have hadd := hs.2.adds ha hd hst
  have hlive : ∀ k, Live q k → Live q' k := fun k hl =>
    hl.mono (by rw [hadd.free]; exact id) (hf.sgId k.cmd) hadd.freed
  refine ⟨fun k hkin => hlive k ?_, fun j hj => ?_, fun hq j hj => ?_⟩
  · rcases hadd.iovs with hi | ⟨k', hk', hpage, hi⟩
    · rw [hi] at hkin
      exact h.live k hkin
    · rw [hi] at hkin
      rcases List.mem_append.1 hkin with hkin | hkin
      · exact h.live k hkin
      · obtain rfl : k = k' := by simpa using hkin
        refine hk.live (by rw [hk']; exact hs.1) (by rw [hk']; exact hst.1) ?_
        rw [hk']
        exact hpage
  · have hji : j = i := by
      rcases hs.sndCmd with hn | hn
      · rw [hn] at hj
        cases hj
      · rw [hn] at hj
        exact (Option.some.inj hj).symm
    subst hji
    exact hadd.state hj
  · rw [hf.lists.1, hf.lists.2.1] at hj
    have hout := h.resp hq j hj
    rw [NvmetTcpCmd.needDataOut, hf.reqOf]
    exact hout

theorem Gathers.fetched {sl rl : List CmdId} {len : ℤ} (h : Gathers c q)
    (hf : Fetches q i sl rl len) :
    Gathers c (fetched c i sl rl len q) := by
  have hreq := fetched_cmds_req (c := c) (q := q) (i := i) sl rl len
  have hmem := hf.mem
  refine ⟨fun k hk => ?_, fun j hj => ?_, fun hq j hj => ?_⟩
  · refine (h.live k hk).mono id ?_ rfl
    simp only [sgId, (hreq k.cmd).1]
  · obtain rfl : i = j := Option.some.inj hj
    have hcmd : (Target.fetched c i sl rl len q).cmds i = setupFirstPdu c i (q.cmds i) :=
      modifyCmd_cmds_self _ _ _
    rw [hcmd]
    refine ⟨setupFirstPdu_state _, fun hq => ?_⟩
    have hout := h.resp hq i (hmem i (.inl rfl))
    unfold setupFirstPdu
    rw [if_neg (by simp [hout])]
    split_ifs
    · exact .inl rfl
    · exact .inr rfl
  · have hout := h.resp hq j (hmem j (.inr hj))
    rw [NvmetTcpCmd.needDataOut, (hreq j).1]
    exact hout

theorem Gathers.flushed (h : Gathers c q) :
    Gathers c (caravanSent (q.kernelSend q.caravanBytes).2) := by
  obtain ⟨b, rs, hq⟩ := q.kernelSend_heard q.caravanBytes
  rw [hq, caravanSent, freeCaravanCmds_eq]
  exact ⟨by simp, h.snd, h.resp⟩

theorem Gathers.turn (hk : Kept c L₀ q) (h : Gathers c q) (ha : aggregates c = true)
    (hd : c.dataDigest = false) (last nospace : Bool) :
    Kept c L₀ (trySendTurn c last nospace q).2 ∧ Gathers c (trySendTurn c last nospace q).2 := by
  refine trySendTurn_invariant (I := fun q => Kept c L₀ q ∧ Gathers c q) ?_ ?_ ?_ ?_ last nospace
    ⟨hk, h⟩
  · rintro q i sl rl len ⟨hk, h⟩ hf
    exact ⟨hk.fetched hf, h.fetched hf⟩
  · rintro i q q' ⟨hk, h⟩ hs
    exact ⟨hk.sends hs, h.sends hk ha hd hs⟩
  · rintro q ⟨hk, h⟩
    exact ⟨hk.flushed, h.flushed⟩
  · rintro q ⟨hk, h⟩
    refine ⟨?_, h.live, h.snd, h.resp⟩
    exact hk.same (moves_places rfl (.refl _) (fun _ _ => rfl) rfl rfl) rfl
      ⟨rfl, rfl, rfl, rfl, rfl⟩ ⟨rfl, rfl⟩

/-- A read gives back nothing that the caravan points at. -/
theorem Gathers.recv {w : Prop} (h : Gathers c q) (hf : RecvFrame w q q')
    (hresp : ∀ j ∈ q.respList ++ q.respSendList, j ∉ q.freeList) : Gathers c q' := by
  refine ⟨fun k hk => ?_, fun j hj => ?_, fun hq j hj => ?_⟩
  · rw [hf.send.1] at hk
    have hl := h.live k hk
    exact hl.mono (fun hn hin => hn (hf.free hin)) (hf.kept _ hl.1).1 hf.freed
  · rw [hf.send.2] at hj
    rw [hf.state]
    exact h.snd j hj
  · rcases hf.resp j hj with hj | hout
    · rw [(hf.kept j (hresp j hj)).2]
      exact h.resp hq j hj
    · exact hout

theorem Kept.resp_not_free (h : Kept c L₀ q) {j : CmdId} (hj : j ∈ q.respList ++ q.respSendList) :
    j ∉ q.freeList := by
  intro hfree
  refine h.not_held_of_free hfree ?_
  rcases List.mem_append.1 hj with hj | hj <;> simp [held, hj]

theorem Gathers.step {s s' : TargetState} {e : TargetEvent} (hk : Kept c L₀ s.q) (h : Gathers c s.q)
    (ha : aggregates c = true) (hd : c.dataDigest = false) (hfair : FairStep s e)
    (hans : Answered c s e) (hs : targetStep c s e = some s') (hup : s'.q.fatal = false) :
    Kept c L₀ s'.q ∧ Gathers c s'.q := by
  refine targetStep_invariant (I := fun q => Kept c L₀ q ∧ Gathers c q) ⟨hk, h⟩ ?_ ?_ ?_ ?_ hs hup
  · rintro b env rfl hup
    refine ⟨hk.tryRecv hfair hup,
      h.recv (recvFrame_tryRecv hfair hup) fun j hj => hk.resp_not_free hj⟩
  · rintro i cqe data q' rfl hq'
    refine ⟨hk.completes hq', ?_⟩
    obtain ⟨-, rfl⟩ := backendCompletes_some hq'
    have hset : CmdOnly i s.q (s.q.modifyCmd i (completed cqe data)) := cmdOnly_modifyCmd ⟨rfl, rfl⟩
    refine ⟨fun k hkin => ?_, fun j hj => ?_, fun hq j hj => ?_⟩
    · refine (h.live k hkin).mono id ?_ rfl
      change sgId ((s.q.modifyCmd i (completed cqe data)).cmds k.cmd) = _
      by_cases hki : k.cmd = i
      · rw [hki, modifyCmd_cmds_self]
        exact sgId_setSgData _ _
      · rw [modifyCmd_cmds_of_ne _ _ _ hki]
    · have hst := h.snd j hj
      rwa [← hset.state j] at hst
    · change ((s.q.modifyCmd i (completed cqe data)).cmds j).needDataOut = false
      by_cases hji : j = i
      · rw [hji, modifyCmd_cmds_self]
        exact hans hq
      · rw [modifyCmd_cmds_of_ne _ _ _ hji]
        refine h.resp hq j ?_
        simp only [nvmetTcpQueueResponse, modifyCmd, List.cons_append, List.mem_cons] at hj
        exact hj.resolve_left hji
  · intro rs
    refine ⟨?_, h.live, h.snd, h.resp⟩
    exact hk.same (moves_places rfl (.refl _) (fun _ _ => rfl) rfl rfl) rfl
      ⟨rfl, rfl, rfl, rfl, rfl⟩ ⟨rfl, rfl⟩
  · rintro q last nospace ⟨hk, h⟩
    exact h.turn hk ha hd last nospace

end Gather

/-- On an aggregated queue without data digest, in every run whose steps find the connection up,
are fair and leave every command its response, no caravan entry points at a command or a list of
pages that has been given back. -/
theorem caravan_points_at_live {c : Config} (ha : aggregates c = true) (hd : c.dataDigest = false)
    {es : List TargetEvent} {s : TargetState} (h : (targetSystem c).RunIn (CaravanStep c) es s)
    (hup : s.q.fatal = false) : ∀ k ∈ s.q.caravanIovs, Live s.q k := by
  have hinv : s.q.fatal = false → Kept c (initLedger c) s.q ∧ Gathers c s.q := by
    refine h.invariant (I := fun s => s.q.fatal = false → Kept c (initLedger c) s.q ∧ Gathers c s.q)
      ?_ ?_
    · refine fun _ => ⟨kept_init c, ?_⟩
      exact ⟨by simp [targetSystem, initQueue], by simp [targetSystem, initQueue],
        by simp [targetSystem, initQueue]⟩
    · rintro s e s' ih ⟨hbefore, hfair, hans⟩ hs hafter
      obtain ⟨hk, hg⟩ := ih hbefore
      exact hg.step hk ha hd hfair hans hs hafter
  exact (hinv hup).2.live

section Sample

theorem caravan_points_at_live_sample :
    ∃ s, (targetSystem plainTarget).RunIn (CaravanStep plainTarget) sampleSlotRun s ∧
      s.q.fatal = false ∧ (s.q.caravanIovs.map Kvec.buf) = [.dataPdu, .page 1, .rspPdu] ∧
      ∀ k ∈ s.q.caravanIovs, Live s.q k := by
  obtain ⟨s, hrun, hup, hcar⟩ : ∃ s,
    (targetSystem plainTarget).RunIn (CaravanStep plainTarget) sampleSlotRun s ∧
      s.q.fatal = false ∧ (s.q.caravanIovs.map Kvec.buf) = [.dataPdu, .page 1, .rspPdu] :=
    Runs.System.exists_runIn_of_execIn (fun s : TargetState => s.q.fatal = false ∧
      (s.q.caravanIovs.map Kvec.buf) = [.dataPdu, .page 1, .rspPdu]) (by decide +kernel)
  exact ⟨s, hrun, hup, hcar, caravan_points_at_live (by decide) (by decide) hrun hup⟩

def implicitTarget : Config := { plainTarget with sqhdDisabled := true }

/-- A read, answered by its data alone, while the socket has no space. -/
def sampleImplicitRun : List TargetEvent :=
  sampleRecv (sampleCapsule 2 0x5a) ⟨.accept 4, .all⟩ ++
    [.complete (.slot 0) ⟨0, 0, 0, 0, 0⟩ [5, 6, 7, 8], .sendStart 1, .sendTurn true []]

/-- The data of a read is still to be sent, and its command is free and its pages are freed. -/
theorem caravan_points_at_freed :
    ∃ s : TargetState, (targetSystem implicitTarget).Run sampleImplicitRun s ∧ s.q.fatal = false ∧
      CmdId.slot 0 ∈ s.q.freeList ∧ s.q.sglFreed = [0] ∧ ∃ k ∈ s.q.caravanIovs, ¬ Live s.q k :=
  Runs.System.exists_runIn_of_execIn
    (fun s : TargetState => s.q.fatal = false ∧ CmdId.slot 0 ∈ s.q.freeList ∧ s.q.sglFreed = [0] ∧
    ∃ k ∈ s.q.caravanIovs, ¬ Live s.q k) (by decide +kernel)

end Sample

end BlkSwitch.Target
