import BlkSwitch.Proofs.HostDoorbell
import BlkSwitch.Proofs.TargetFifo
import BlkSwitch.Sanity.TargetDrain
import BlkSwitch.Sanity.WirePdus

/-! The two ends of a connection together. Whatever the order in which requests are issued, commands
answered, bytes sent and bytes read, the host ends each request that the target has finished once,
with its status and its data. -/

namespace BlkSwitch

open Bytes Host Target RecvQueue

/-- A request that has been sent and for which no data has come in. -/
structure Awaiting (rq : Rq) (r : NvmeTcpRequest) : Prop where
  same : r.rq = rq
  len : r.dataLen = rq.dataLen
  sent : r.dataSent = 0
  walk : rq.write = false → rq.specialVec = none → rq.bio ≠ [] → room r = rq.blkRqBytes

section Awaiting

variable {rq : Rq} {r r' : NvmeTcpRequest}

theorem awaiting_setup (c : Host.Config) (rq : Rq) (old : NvmeTcpRequest) :
    Awaiting rq (nvmeTcpSetupCmdPdu c rq old) := by
  refine ⟨rfl, rfl, rfl, fun hw hs hbio => ?_⟩
  obtain ⟨b, bs, hb⟩ := List.exists_cons_of_ne_nil hbio
  simp [room, nvmeTcpSetupCmdPdu, hw, hb, NvmeTcpRequest.initIter, hs, Rq.blkRqBytes]

theorem Awaiting.sameReads (h : Awaiting rq r) (hs : SameReads r r') : Awaiting rq r' := by
  obtain ⟨hrq, hlen, hsent, hbio, hiter⟩ := hs
  refine ⟨hrq.trans h.same, hlen.trans h.len, hsent.trans h.sent, fun h1 h2 h3 => ?_⟩
  rw [← h.walk h1 h2 h3, room, room, hiter, hbio]

theorem rq_dataLen_lt (rq : Rq) : rq.dataLen < 2 ^ 32 := by
  have hsmall := rq.small
  unfold Rq.dataLen Rq.blkRqPayloadBytes Rq.blkRqBytes
  split_ifs
  · cases hv : rq.specialVec with
    | none => dsimp only; omega
    | some v =>
      have := hsmall.2 v hv
      dsimp only
      omega
  · decide

theorem Awaiting.room_eq (h : Awaiting rq r) (hw : rq.write = false) (hs : rq.specialVec = none)
    (hpos : 0 < rq.dataLen) :
    room r = rq.dataLen ∧ r.rq.blkRqPayloadBytes ≠ 0 := by
  have hpayload : rq.blkRqPayloadBytes = rq.blkRqBytes := by simp [Rq.blkRqPayloadBytes, hs]
  have hlen : rq.dataLen = rq.blkRqBytes := by
    unfold Rq.dataLen at hpos ⊢
    split_ifs at hpos ⊢
    · exact hpayload
    · omega
  have hbio : rq.bio ≠ [] := by
    intro hnil
    simp [hlen, Rq.blkRqBytes, hnil] at hpos
  refine ⟨(h.walk hw hs hbio).trans hlen.symm, ?_⟩
  rw [h.same, hpayload, ← hlen]
  omega

end Awaiting

section Answer

variable {hc : Host.Config} {tc : Target.Config} {n : UInt16 → ℕ} {q : RecvQueue}
    {cmd : NvmetTcpCmd} {rq : Rq}
  {r : NvmeTcpRequest}

theorem needDataOut_pos (h : cmd.needDataOut = true) : 0 < cmd.req.transferLen := by
  simp only [NvmetTcpCmd.needDataOut, Bool.and_eq_true, decide_eq_true_eq] at h
  exact h.1.2

/-- An answer fits the request it is for. -/
structure Fits (rq : Rq) (cmd : NvmetTcpCmd) : Prop where
  prepared : Prepared cmd
  tag : cmd.req.cqe.commandId = cmd.req.cmd.commandId
  read : cmd.needDataOut → rq.write = false ∧ rq.specialVec = none ∧
    cmd.req.transferLen ≤ rq.dataLen
  write : cmd.needDataIn → cmd.req.transferLen - cmd.rbytesDone ≤ rq.dataLen

/-- The host is told what the answer stands for; if that is nothing yet, the request goes on as it
was. -/
structure Told (hc : Host.Config) (tc : Target.Config) (rq : Rq) (cmd : NvmetTcpCmd)
    (q q' : RecvQueue) : Prop where
  boundary : AtHeader hc q'
  ends : q'.ends = q.ends ++ answer tc cmd
  others : ∀ t, t ≠ cmd.req.cmd.commandId → q'.rqs t = q.rqs t ∧ q'.stored t = q.stored t
  goesOn : answer tc cmd = [] → ∃ r, q'.rqs cmd.req.cmd.commandId = some r ∧ Awaiting rq r ∧
    q'.stored cmd.req.cmd.commandId = []

/-- A command with data for the host: the data, and a response unless the data stands for it. -/
theorem told_data (h : Agree hc tc) (hq : RecvOk hc q) (ha : AtHeader hc q) (hfit : Fits rq cmd)
    (hr : q.rqs cmd.req.cmd.commandId = some r) (hready : Awaiting rq r)
    (hstored : q.stored cmd.req.cmd.commandId = [])
    (htag : hc.qid = 0 → cmd.req.cmd.commandId < NVME_AQ_BLK_MQ_DEPTH)
    (hopen : q.ended cmd.req.cmd.commandId < n cmd.req.cmd.commandId)
    (hout : cmd.needDataOut = true) (i : CmdId) :
    ∃ q', Feeds hc n (owedPdus tc i cmd) q q' ∧ Told hc tc rq cmd q q' := by
  obtain ⟨hdata, -⟩ := hfit.prepared hout
  obtain ⟨hw, hs, hle⟩ := hfit.read hout
  have hpos := needDataOut_pos hout
  obtain ⟨hroom, hpayload⟩ := hready.room_eq hw hs (by omega)
  have hlt := rq_dataLen_lt rq
  have hcid := hfit.tag
  obtain ⟨q₁, r₁, hfeed, ha₁, hrqs, hstore, hlog⟩ := feeds_c2h (n := n) h hq ha
    (by rw [hcid]; exact hr) (by rw [hready.same]; exact hs) hpayload hdata (by omega) (by omega)
      (by omega)
    (by rw [hcid]; exact hopen)
  rw [hcid] at hrqs hstore hlog
  rw [hstored, List.nil_append] at hstore hlog
  have howed : owedPdus tc i cmd =
      (c2hDataPdu tc cmd).encode ++ hdgstOf tc (c2hDataPdu tc cmd).encode ++ cmd.sgData ++
        dataTail tc cmd := if_pos hout
  rw [howed]
  cases hsq : tc.sqhdDisabled with
  | true =>
    have hanswer : answer tc cmd =
      [.endRequest cmd.req.cqe.commandId 0 0 cmd.sgData] := by simp [answer, hout, hsq]
    have hev : dataEvents tc cmd cmd.sgData =
        [.endRequest cmd.req.cqe.commandId 0 0 cmd.sgData] := by
      simp [dataEvents, hsq]
    rw [show dataTail tc cmd = [] from if_pos hsq, List.append_nil]
    refine ⟨q₁, hfeed, ha₁, ?_, fun t ht => ?_, fun hnil => ?_⟩
    · rw [ends, hlog, List.filter_append, hev, hanswer]
      rfl
    · rw [hrqs, hstore, Function.update_of_ne ht, Function.update_of_ne ht]
      exact ⟨rfl, rfl⟩
    · rw [hanswer] at hnil
      cases hnil
  | false =>
    have hanswer : answer tc cmd =
        [.endRequest cmd.req.cqe.commandId cmd.req.cqe.status cmd.req.cqe.result cmd.sgData] := by
      simp [answer, hout, hsq]
    rw [dataEvents, hsq, if_neg Bool.false_ne_true, List.append_nil] at hlog
    have hended : ∀ t, q₁.ended t = q.ended t := fun t => by rw [ended, ended, hlog]
    obtain ⟨q₂, hfeed₂, ha₂, hrqs₂, hstore₂, hlog₂⟩ :=
      feeds_rsp (n := n) (r := r₁) h (hfeed.kept hq) ha₁
      (by rw [hrqs, hcid, Function.update_self]) (by rw [hcid]; exact htag)
        (by rw [hended, hcid]; exact hopen)
    rw [show dataTail tc cmd = rspWire tc cmd by simp [dataTail, hsq]]
    refine ⟨q₂, feeds_append hfeed hfeed₂, ha₂, ?_, fun t ht => ?_, fun hnil => ?_⟩
    · rw [hcid, hstore, Function.update_self, ← hcid] at hlog₂
      rw [ends, hlog₂, hlog, List.filter_append, hanswer]
      rfl
    · rw [hrqs₂, hstore₂, hrqs, hstore, Function.update_of_ne ht, Function.update_of_ne ht]
      exact ⟨rfl, rfl⟩
    · rw [hanswer] at hnil
      cases hnil

theorem told_rest (h : Agree hc tc) (hq : RecvOk hc q) (ha : AtHeader hc q) (hfit : Fits rq cmd)
    (hr : q.rqs cmd.req.cmd.commandId = some r) (hready : Awaiting rq r)
    (hstored : q.stored cmd.req.cmd.commandId = [])
    (htag : hc.qid = 0 → cmd.req.cmd.commandId < NVME_AQ_BLK_MQ_DEPTH)
    (hopen : q.ended cmd.req.cmd.commandId < n cmd.req.cmd.commandId)
    (hout : ¬ cmd.needDataOut = true) (i : CmdId) :
    ∃ q', Feeds hc n (owedPdus tc i cmd) q q' ∧ Told hc tc rq cmd q q' := by
  have hcid := hfit.tag
  unfold owedPdus
  rw [if_neg hout]
  by_cases hin : cmd.needDataIn = true
  · have hanswer : answer tc cmd = [] := by simp [answer, hout, hin]
    obtain ⟨q', r', hfeed, ha', hrqs, hsame, hstore, hlog⟩ := feeds_r2t (n := n) (i := i) h hq ha hr
      hready.sent (by rw [hready.len]; exact hfit.write hin)
        (by rw [hready.len]; exact rq_dataLen_lt rq) hopen
    rw [if_pos hin]
    refine ⟨q', hfeed, ha', ?_, fun t ht => ?_, fun _ => ?_⟩
    · rw [ends, hlog, List.filter_append, hanswer]
      rfl
    · rw [hrqs, hstore, Function.update_of_ne ht]
      exact ⟨rfl, rfl⟩
    · exact ⟨r', by rw [hrqs, Function.update_self],
        hready.sameReads hsame, by rw [hstore, hstored]⟩
  · have hanswer : answer tc cmd =
        [.endRequest cmd.req.cqe.commandId cmd.req.cqe.status cmd.req.cqe.result []] := by
      simp [answer, hout, hin]
    obtain ⟨q', hfeed, ha', hrqs, hstore, hlog⟩ := feeds_rsp (n := n) (r := r) h hq ha
      (by rw [hcid]; exact hr) (by rw [hcid]; exact htag) (by rw [hcid]; exact hopen)
    rw [if_neg hin]
    refine ⟨q', hfeed, ha', ?_, fun t ht => ?_, fun hnil => ?_⟩
    · rw [hcid, hstored, ← hcid] at hlog
      rw [ends, hlog, List.filter_append, hanswer]
      rfl
    · rw [hrqs, hstore]
      exact ⟨rfl, rfl⟩
    · rw [hanswer] at hnil
      cases hnil

end Answer

/-- What the steps keep to: an answer is to an open request, from a command that the send path does
not have, and a socket that gets a caravan takes it whole. -/
def WireStep (tc : Target.Config) (s : WireState) : WireEvent → Prop
  | .respond i cmd => Unheld s.target.q i ∧ Prepared cmd ∧ s.Answers cmd
  | .sendTurn _ replies => TakesAll tc replies
  | .issue _ _ | .sendStart _ | .read _ => True

/-- No page is freed while the caravan points at it. -/
def KeepsPages (tc : Target.Config) : Prop := tc.sqhdDisabled = true → aggregates tc = false

/-- The bytes on their way and those in the hands of the target end at a header, with all the
finished requests ended, and all the open ones waiting. -/
structure Delivers (hc : Host.Config) (tc : Target.Config) (s : WireState) (last : RecvQueue) :
    Prop where
  feeds : Feeds hc (fun t => s.issued.count t) (s.unread ++ inHand tc s.target.q) s.host last
  boundary : AtHeader hc last
  ends : last.ends = s.finished
  waits : ∀ t, s.Open t → ∃ rq r, s.rqs t = some rq ∧ last.rqs t = some r ∧ Awaiting rq r ∧
    last.stored t = []

structure WireOk (hc : Host.Config) (tc : Target.Config) (s : WireState) : Prop where
  send : RespOk tc s.target
  owned : Owned tc s.target.q
  recv : RecvOk hc s.host
  behind : s.read ≤ s.target.q.sent.length
  enabled : s.host.rdEnabled = true
  once : ∀ t, s.finished.countP (RecvEvent.endsTag t) ≤ s.issued.count t
  single : ∀ t, s.issued.count t ≤ s.finished.countP (RecvEvent.endsTag t) + 1
  tags : hc.qid = 0 → ∀ t ∈ s.issued, t < NVME_AQ_BLK_MQ_DEPTH
  delivers : ∃ last, Delivers hc tc s last

section Steps

variable {hc : Host.Config} {tc : Target.Config} {s s' : WireState}

theorem ended_eq (q : RecvQueue) (t : UInt16) :
    q.ended t = q.ends.countP (RecvEvent.endsTag t) := by
  unfold ended ends
  rw [List.countP_filter]
  congr 1
  funext e
  cases e <;> simp [RecvEvent.endsTag, RecvEvent.isEnd]

theorem wireOk_init (hc : Host.Config) (tc : Target.Config) :
    WireOk hc tc (wireSystem hc tc).init where
  send := respOk_init tc
  owned := fun _ k hk => by cases hk
  recv := recvOk_blank hc
  behind := Nat.zero_le _
  enabled := rfl
  once := fun _ => Nat.zero_le _
  single := fun _ => Nat.zero_le _
  tags := fun _ t ht => by cases ht
  delivers := by
    refine ⟨blankRecvQueue hc, ?_, atHeader_blank hc, rfl, fun t ht => ?_⟩
    · exact .done _
    · exact absurd ht (Nat.lt_irrefl 0)

theorem Delivers.issue {last : RecvQueue} (h : Delivers hc tc s last) {rq : Rq}
    (old : NvmeTcpRequest) (hfree : s.host.ended rq.tag = s.issued.count rq.tag) :
    Delivers hc tc
      { s with
        host := s.host.issue rq.tag (nvmeTcpSetupCmdPdu hc rq old)
        rqs := Function.update s.rqs rq.tag (some rq)
        issued := s.issued ++ [rq.tag] }
      (last.issue rq.tag (nvmeTcpSetupCmdPdu hc rq old)) := by
  refine ⟨?_, ⟨h.boundary.remaining, h.boundary.offset, h.boundary.ddgst⟩, h.ends, fun t ht => ?_⟩
  · refine (h.feeds.issue hfree.ge _).mono fun t => ?_
    rw [List.count_append]
    exact Nat.le_add_right _ _
  · by_cases htag : t = rq.tag
    · subst htag
      exact ⟨rq, _, Function.update_self _ _ _, Function.update_self _ _ _,
        awaiting_setup hc rq old, Function.update_self _ _ _⟩
    · have hopen : s.Open t := by
        change s.finished.countP _ < (s.issued ++ [rq.tag]).count t at ht
        rwa [List.count_append, List.count_singleton, if_neg (by simpa using Ne.symm htag),
          Nat.add_zero] at ht
      obtain ⟨rq', r', h1, h2, h3, h4⟩ := h.waits t hopen
      refine ⟨rq', r', ?_, ?_, h3, ?_⟩
      · exact (Function.update_of_ne htag _ _).trans h1
      · rw [issue_rqs htag]
        exact h2
      · change Function.update last.stored rq.tag [] t = []
        rw [Function.update_of_ne htag]
        exact h4

theorem answer_endsTag {cmd : NvmetTcpCmd} (htag : cmd.req.cqe.commandId = cmd.req.cmd.commandId)
    (t : UInt16) :
    (answer tc cmd).countP (RecvEvent.endsTag t) =
      if answer tc cmd ≠ [] ∧ cmd.req.cmd.commandId = t then 1 else 0 := by
  unfold answer
  rw [htag]
  by_cases ht : cmd.req.cmd.commandId = t <;> split_ifs <;> simp_all [RecvEvent.endsTag]

theorem Delivers.respond {last : RecvQueue} (hag : Agree hc tc) (h : Delivers hc tc s last)
    (hrecv : RecvOk hc s.host) {i : CmdId} {cmd : NvmetTcpCmd} (hp : Prepared cmd)
    (ha : s.Answers cmd) (htags : hc.qid = 0 → cmd.req.cmd.commandId < NVME_AQ_BLK_MQ_DEPTH)
    (hsingle : ∀ t, s.issued.count t ≤ s.finished.countP (RecvEvent.endsTag t) + 1)
    {q' : NvmetTcpQueue} (hsent : q'.sent = s.target.q.sent)
    (hhand : inHand tc q' = inHand tc s.target.q ++ owedPdus tc i cmd) :
    ∃ last', Delivers hc tc
      { s with target := { s.target with q := q' }, finished := s.finished ++ answer tc cmd }
        last' := by
  obtain ⟨rq, r, hrq, hr, hready, hstored⟩ := h.waits _ ha.isOpen
  have hopen : last.ended cmd.req.cmd.commandId < s.issued.count cmd.req.cmd.commandId := by
    rw [ended_eq, h.ends]
    exact ha.isOpen
  have hfit : Fits rq cmd := ⟨hp, ha.tag, ha.read rq hrq, ha.write rq hrq⟩
  obtain ⟨last', hfeed, htold⟩ :
    ∃ last', Feeds hc (fun t => s.issued.count t) (owedPdus tc i cmd) last last' ∧
      Told hc tc rq cmd last last' := by
    by_cases hout : cmd.needDataOut = true
    · exact told_data hag (h.feeds.kept hrecv) h.boundary hfit hr hready hstored htags hopen hout i
    · exact told_rest hag (h.feeds.kept hrecv) h.boundary hfit hr hready hstored htags hopen hout i
  refine ⟨last', ?_, htold.boundary, by rw [htold.ends, h.ends], fun t ht => ?_⟩
  · have hbytes : q'.sent.drop s.read ++ inHand tc q' =
        s.unread ++ inHand tc s.target.q ++ owedPdus tc i cmd := by
      rw [hsent, hhand, List.append_assoc]
      rfl
    change Feeds hc _ (q'.sent.drop s.read ++ inHand tc q') s.host last'
    rw [hbytes]
    exact feeds_append h.feeds hfeed
  · change (s.finished ++ answer tc cmd).countP _ < s.issued.count t at ht
    rw [List.countP_append, answer_endsTag ha.tag] at ht
    by_cases htag : t = cmd.req.cmd.commandId
    · subst htag
      -- the command goes on only if nothing has ended it
      have hnil : answer tc cmd = [] := by
        by_contra hne
        rw [if_pos ⟨hne, rfl⟩] at ht
        have := hsingle cmd.req.cmd.commandId
        omega
      obtain ⟨r', h1, h2, h3⟩ := htold.goesOn hnil
      exact ⟨rq, r', hrq, h1, h2, h3⟩
    · obtain ⟨rq', r', h1, h2, h3, h4⟩ := h.waits t (by unfold WireState.Open; omega)
      obtain ⟨h5, h6⟩ := htold.others t htag
      exact ⟨rq', r', h1, h5.trans h2, h3, h6.trans h4⟩

theorem WireOk.issue (h : WireOk hc tc s) {rq : Rq} {old : NvmeTcpRequest}
    (hs : wireStep hc tc s (.issue rq old) = some s') : WireOk hc tc s' := by
  simp only [wireStep] at hs
  split_ifs at hs with hg
  cases hs
  obtain ⟨hfree, htag⟩ := hg
  obtain ⟨last, hdel⟩ := h.delivers
  refine ⟨h.send, h.owned, ⟨h.recv.pdu, h.recv.header, h.recv.ddgst, h.recv.digest⟩, h.behind,
    h.enabled, fun t => ?_, fun t => ?_, fun hq t ht => ?_, _, hdel.issue old hfree⟩
  · rw [List.count_append]
    exact (h.once t).trans (Nat.le_add_right _ _)
  · have hended := hdel.feeds.later.ended_le t
    have hsingle := h.single t
    rw [ended_eq last, hdel.ends] at hended
    rw [List.count_append, List.count_singleton]
    split_ifs with heq
    · -- the tag is free, so all that was issued under it is finished
      have htt : rq.tag = t := by simpa using heq
      rw [← htt] at hended ⊢
      dsimp only
      omega
    · omega
  · rcases List.mem_append.1 ht with ht | ht
    · exact h.tags hq t ht
    · rw [List.mem_singleton.1 ht]
      exact htag hq

theorem WireOk.respond (hag : Agree hc tc) (hpages : KeepsPages tc) (h : WireOk hc tc s) {i : CmdId}
    {cmd : NvmetTcpCmd} (hok : WireStep tc s (.respond i cmd))
    (hs : wireStep hc tc s (.respond i cmd) = some s') : WireOk hc tc s' := by
  cases hs
  obtain ⟨hu, hp, ha⟩ := hok
  have hunsent : Unsent s.target.q i := by
    cases hq : tc.sqhdDisabled with
    | false => exact h.owned.unsent hq hu
    | true =>
      -- there is no caravan
      refine ⟨hu.1, hu.2.1, hu.2.2.1, fun k hk => ?_⟩
      rw [h.send.send.direct (hpages hq)] at hk
      cases hk
  obtain ⟨hsend, hhand⟩ := queued_ok h.send.send hunsent hp
  have hissued : cmd.req.cmd.commandId ∈ s.issued := by
    have hopen := ha.isOpen
    unfold WireState.Open at hopen
    exact List.count_pos_iff.1 (by omega)
  obtain ⟨last, hdel⟩ := h.delivers
  have hcount := @answer_endsTag tc cmd ha.tag
  refine ⟨⟨hsend, h.send.idle⟩, h.owned, h.recv, h.behind, h.enabled, fun t => ?_, fun t => ?_,
    h.tags, ?_⟩
  · rw [List.countP_append, hcount]
    split_ifs with heq
    · have hopen := ha.isOpen
      unfold WireState.Open at hopen
      rw [heq.2] at hopen
      exact hopen
    · exact h.once t
  · rw [List.countP_append]
    exact (h.single t).trans (by omega)
  · exact hdel.respond (i := i) hag h.recv hp ha (fun hq => h.tags hq _ hissued) h.single rfl hhand

theorem WireOk.sent (h : WireOk hc tc s) {t : TargetState} (hsend : RespOk tc t)
    (howned : Owned tc t.q) (hem : (respView tc).Emits s.target.q t.q) :
    WireOk hc tc { s with target := t } := by
  obtain ⟨-, x, hsent, hheld⟩ := hem
  change t.q.sent = s.target.q.sent ++ x at hsent
  change inHand tc s.target.q = x ++ inHand tc t.q at hheld
  obtain ⟨last, hdel⟩ := h.delivers
  refine ⟨hsend, howned, h.recv, ?_, h.enabled, h.once, h.single, h.tags, last, ?_, hdel.boundary,
    hdel.ends, hdel.waits⟩
  · dsimp only
    rw [hsent, List.length_append]
    exact h.behind.trans (Nat.le_add_right _ _)
  · have hbytes : t.q.sent.drop s.read ++ inHand tc t.q = s.unread ++ inHand tc s.target.q := by
      rw [hsent, hheld, List.drop_append_of_le_length h.behind, List.append_assoc]
      rfl
    change Feeds hc _ (t.q.sent.drop s.read ++ inHand tc t.q) s.host last
    rw [hbytes]
    exact hdel.feeds

/-- A read gets all it asks for. -/
theorem WireOk.reads (h : WireOk hc tc s) {n : ℕ} (hle : n ≤ s.unread.length) :
    ∃ q, nvmeTcpRecvSkb hc (s.unread.take n) s.host = (((n : ℤ) : Ret), q) ∧
      wireStep hc tc s (.read n) = some { s with host := q, read := s.read + n } ∧
      WireOk hc tc { s with host := q, read := s.read + n } := by
  obtain ⟨last, hdel⟩ := h.delivers
  have hbytes : s.unread.take n ++
      (s.unread.drop n ++ inHand tc s.target.q) = s.unread ++ inHand tc s.target.q := by
    rw [← List.append_assoc, List.take_append_drop]
  have hfeeds := hdel.feeds
  rw [← hbytes] at hfeeds
  obtain ⟨q, hnow, hlater⟩ := feeds_split hfeeds
  have hq := hnow.recvSkb h.recv
  rw [List.length_take_of_le hle] at hq
  refine ⟨q, hq, ?_, h.send, h.owned, hnow.kept h.recv, ?_, hnow.later.enabled.trans h.enabled,
    h.once, h.single, h.tags, last, ?_, hdel.boundary, hdel.ends, hdel.waits⟩
  · have hgo : ¬ (s.unread.length < n ∨ ((n : ℤ) : Ret) = ⊥) :=
      not_or.2 ⟨Nat.not_lt.2 hle, WithBot.coe_ne_bot⟩
    simp only [wireStep, hq, if_neg hgo, if_true]
  · have hbehind := h.behind
    rw [WireState.unread, List.length_drop] at hle
    dsimp only
    omega
  · change Feeds hc _ (s.target.q.sent.drop (s.read + n) ++ inHand tc s.target.q) q last
    rw [← List.drop_drop]
    exact hlater

theorem WireOk.read_ (h : WireOk hc tc s) {n : ℕ} (hs : wireStep hc tc s (.read n) = some s') :
    WireOk hc tc s' := by
  have hle : n ≤ s.unread.length := by
    by_contra hlt
    simp [wireStep, Nat.not_le.1 hlt] at hs
  obtain ⟨q, -, hstep, hok⟩ := h.reads hle
  rw [hstep] at hs
  cases hs
  exact hok

theorem WireOk.step (hag : Agree hc tc) (hpages : KeepsPages tc) (h : WireOk hc tc s)
    {e : WireEvent} (hok : WireStep tc s e) (hs : wireStep hc tc s e = some s') :
    WireOk hc tc s' := by
  cases e with
  | issue rq old => exact h.issue hs
  | respond i cmd => exact h.respond hag hpages hok hs
  | sendStart budget =>
    obtain ⟨t, ht, rfl⟩ := Option.map_eq_some_iff.1 hs
    obtain ⟨hsend, hq⟩ := h.send.sendStart ht
    exact h.sent hsend (hq ▸ h.owned) (.of_eq (by rw [hq]) (by rw [hq]) (by rw [hq]))
  | sendTurn nospace replies =>
    obtain ⟨t, ht, rfl⟩ := Option.map_eq_some_iff.1 hs
    obtain ⟨hsend, hem⟩ := h.send.sendTurn hag.target hok ht
    exact h.sent hsend (Owned.sendTurn hag.target h.send h.owned hok ht) hem
  | read n => exact h.read_ hs

theorem going_step (h : Going s.target) {e : WireEvent} (hs : wireStep hc tc s e = some s') :
    Going s'.target := by
  cases e with
  | issue rq old =>
    simp only [wireStep] at hs
    split_ifs at hs
    cases hs
    exact h
  | respond i cmd =>
    cases hs
    exact ⟨h.clean, h.turns⟩
  | sendStart budget =>
    obtain ⟨t, ht, rfl⟩ := Option.map_eq_some_iff.1 hs
    exact h.sendStart ht
  | sendTurn nospace replies =>
    obtain ⟨t, ht, rfl⟩ := Option.map_eq_some_iff.1 hs
    exact h.sendTurn ht
  | read n =>
    simp only [wireStep] at hs
    split_ifs at hs <;> cases hs <;> exact h

end Steps

/-! Runs of the two ends. -/

section Runs

variable {hc : Host.Config} {tc : Target.Config} {s : WireState} {es : List WireEvent}

theorem wireOk_run (hag : Agree hc tc) (hpages : KeepsPages tc)
    (hrun : (wireSystem hc tc).RunIn (WireStep tc) es s) :
    WireOk hc tc s :=
  hrun.invariant (I := WireOk hc tc) (wireOk_init hc tc) fun _ _ _ h hok hs =>
    h.step hag hpages hok hs

theorem going_run (hrun : (wireSystem hc tc).RunIn (WireStep tc) es s) : Going s.target :=
  hrun.invariant (I := fun s => Going s.target)
    ⟨fun _ => rfl, by simp [wireSystem]⟩ fun _ _ _ h _ hs => going_step h hs

structure SameHost (s s' : WireState) : Prop where
  host : s'.host = s.host
  read : s'.read = s.read
  finished : s'.finished = s.finished

theorem SameHost.trans {s s' s'' : WireState} (h : SameHost s s') (h' : SameHost s' s'') :
    SameHost s s'' :=
  ⟨h'.host.trans h.host, h'.read.trans h.read, h'.finished.trans h.finished⟩

theorem enters_loop (hrun : (wireSystem hc tc).RunIn (WireStep tc) es s) :
    ∃ fs s' n, (wireSystem hc tc).RunIn (WireStep tc) (es ++ fs) s' ∧ SameHost s s' ∧
      s'.target.q = s.target.q ∧ s'.target.pc = .sending (n + 1) := by
  cases hpc : s.target.pc with
  | idle stalled =>
    have hs : wireStep hc tc s (.sendStart 1) = some
        { s with target := { s.target with pc := .sending 1 } } := by
      simp [wireStep, Target.sendStart, hpc]
    exact ⟨[.sendStart 1], _, 0, hrun.snoc trivial hs, ⟨rfl, rfl, rfl⟩, rfl, rfl⟩
  | sending turns =>
    cases turns with
    | zero => exact absurd hpc (going_run hrun).turns
    | succ n => exact ⟨[], s, n, by simpa using hrun, ⟨rfl, rfl, rfl⟩, rfl, hpc⟩

/-- The target can always send all it has. -/
theorem drains (hag : Agree hc tc) (hpages : KeepsPages tc)
    (hrun : (wireSystem hc tc).RunIn (WireStep tc) es s) :
    ∃ fs s', (wireSystem hc tc).RunIn (WireStep tc) (es ++ fs) s' ∧ SameHost s s' ∧
      inHand tc s'.target.q = [] := by
  generalize hw : work tc s.target.q = w
  induction w using Nat.strongRecOn generalizing es s with
  | ind w ih =>
    rcases Nat.eq_zero_or_pos w with h0 | hpos
    · exact ⟨[], s, by simpa using hrun, ⟨rfl, rfl, rfl⟩, inHand_of_work (hw.trans h0)⟩
    · obtain ⟨fs, s₁, n, hrun₁, hsame₁, hq, hpc⟩ := enters_loop hrun
      obtain ⟨t, ht, hlt⟩ :=
        sendTurn_work hag.target (wireOk_run hag hpages hrun₁).send.send (going_run hrun₁) hpc
        (by rw [hq, hw]; exact hpos)
      have hstep : wireStep hc tc s₁ (.sendTurn false []) = some { s₁ with target := t } := by
        simp [wireStep, ht]
      have hall : WireStep tc s₁ (.sendTurn false []) := fun _ r hr => by cases hr
      have hrun₂ := hrun₁.snoc hall hstep
      rw [hq, hw] at hlt
      obtain ⟨gs, s', hrun', hsame', hnil⟩ := ih _ hlt hrun₂ rfl
      have hsame₂ : SameHost s₁ s' := ⟨hsame'.host, hsame'.read, hsame'.finished⟩
      exact ⟨fs ++ [.sendTurn false []] ++ gs, s', by simpa using hrun', hsame₁.trans hsame₂, hnil⟩

/-- The host has ended a prefix of what the target has finished, in its order and with its status
and data, and reads on without an error; it has ended all of it as soon as nothing is on the way,
and a target that is not down can always get it there. -/
theorem completions_exactly_once (hag : Agree hc tc) (hpages : KeepsPages tc)
    (hrun : (wireSystem hc tc).RunIn (WireStep tc) es s) :
    s.host.rdEnabled = true ∧ s.host.ends <+: s.finished ∧
      (∀ n ≤ s.unread.length, (nvmeTcpRecvSkb hc (s.unread.take n) s.host).1 = ((n : ℤ) : Ret)) ∧
      (s.unread = [] → inHand tc s.target.q = [] → s.host.ends = s.finished) ∧
      (s.target.q.fatal = false → ∃ fs s', (wireSystem hc tc).RunIn (WireStep tc) (es ++ fs) s' ∧
        s'.finished = s.finished ∧ s'.host.ends = s.finished) := by
  have h := wireOk_run hag hpages hrun
  have hall : ∀ {s : WireState}, WireOk hc tc s → s.unread = [] → inHand tc s.target.q = [] →
      s.host.ends = s.finished := by
    intro s h hun hin
    obtain ⟨last, hdel⟩ := h.delivers
    have hfeeds := hdel.feeds
    rw [hun, hin] at hfeeds
    cases hfeeds
    exact hdel.ends
  refine ⟨h.enabled, ?_, fun n hn => ?_, hall h, fun _ => ?_⟩
  · obtain ⟨last, hdel⟩ := h.delivers
    rw [← hdel.ends]
    exact hdel.feeds.later.log.filter _
  · obtain ⟨q, hret, -⟩ := h.reads hn
    rw [hret]
  · obtain ⟨fs, s₁, hrun₁, hsame, hnil⟩ := drains hag hpages hrun
    obtain ⟨q, -, hstep, h₂⟩ := (wireOk_run hag hpages hrun₁).reads le_rfl
    have hread : WireStep tc s₁ (.read s₁.unread.length) := trivial
    have hrun₂ := hrun₁.snoc hread hstep
    have hun : s₁.target.q.sent.drop (s₁.read + s₁.unread.length) = [] := by
      rw [← List.drop_drop]
      exact List.drop_length
    have hend := hall h₂ hun hnil
    rw [List.append_assoc] at hrun₂
    exact ⟨_, _, hrun₂, hsame.finished, hend.trans hsame.finished⟩

section Sample

instance (tc : Target.Config) (s : WireState) : (e : WireEvent) → Decidable (WireStep tc s e)
  | .respond _ _ => inferInstanceAs (Decidable (_ ∧ _ ∧ _))
  | .sendTurn _ _ => inferInstanceAs (Decidable (_ → ∀ _ ∈ _, _))
  | .issue _ _ | .sendStart _ | .read _ => .isTrue trivial

def wireTarget : Target.Config :=
  { sampleTarget with
    hdrDigest := false
    crc := sampleConfig.crc
    crc_length := sampleConfig.crc_length }

theorem wireTarget_keepsPages : KeepsPages wireTarget := nofun

theorem wireTarget_agree : Agree sampleConfig wireTarget := ⟨rfl, rfl, rfl, rfl⟩

/-- A read is answered, and the host is in the middle of the header of its data. -/
def sampleWire : List WireEvent :=
  [.issue sampleRead (blankRequest sampleConfig), .respond (.slot 0) sampleReadCmd, .sendStart 1,
    .sendTurn false [], .read 10]

theorem completions_exactly_once_read :
    ∃ s, (wireSystem sampleConfig wireTarget).RunIn (WireStep wireTarget) sampleWire s ∧
      s.host.ends = [] ∧ ∃ fs s',
      (wireSystem sampleConfig wireTarget).RunIn (WireStep wireTarget) (sampleWire ++ fs) s' ∧
        s'.host.ends = [.endRequest 0 0 0 [1, 2, 3]] := by
  obtain ⟨s, hrun, hends, hfatal, hfin⟩ :=
    @Runs.System.exists_runIn_of_execIn _ _ (wireSystem sampleConfig wireTarget)
    (WireStep wireTarget) _ (fun s => s.host.ends = [] ∧ s.target.q.fatal = false ∧
      s.finished = [.endRequest 0 0 0 [1, 2, 3]]) _ sampleWire (by decide +kernel)
  obtain ⟨fs, s', hrun', -, hends'⟩ :=
    (completions_exactly_once wireTarget_agree wireTarget_keepsPages hrun).2.2.2.2 hfatal
  exact ⟨s, hrun, hends, fs, s', hrun', hends'.trans hfin⟩

end Sample

end Runs

end BlkSwitch
