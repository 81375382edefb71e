import BlkSwitch.Proofs.HostStream
import BlkSwitch.Sanity.HostMsgs
import BlkSwitch.Sanity.HostSilent

/-! Requests on their way to the backend. Whatever the host's workers, the socket, the reads of the
target and the R2Ts do in between, the target receives the commands in the order they were issued
in, and the backend executes each of them at most once, a write with exactly the data of its
request. -/

namespace BlkSwitch

open Host Target

/-! The host. -/

section Host

variable {c : Host.Config} {s s' : HostState} {e : HostEvent}

instance (c : Host.Config) : Decidable (LegacyQueue c) := by
  unfold LegacyQueue
  infer_instance

/-- The request is set up, and the socket takes a whole caravan or, on the legacy path, what it
can. -/
def Behaves (c : Host.Config) : HostEvent → Prop
  | .queueRq _ rq => SetUp rq
  | .sendRest _ _ replies => if LegacyQueue c then Polite replies else replies = []
  | _ => True

/-- What is sent and held is what was submitted, on either path. -/
structure HostFlows (c : Host.Config) (s : HostState) : Prop where
  streams : Streams s.q
  path : Thru c ∧ QueueOk c s.q ∨ LegacyQueue c ∧ LegacyOk c s.q
  stream : s.q.sent ++ heldBytes c s.q = s.submitted.flatten

theorem thru_or_legacy (c : Host.Config) : Thru c ∨ LegacyQueue c := by
  by_cases h : LegacyQueue c
  · exact .inr h
  · unfold LegacyQueue at h
    exact .inl ⟨by omega, by omega, by omega⟩

theorem Host.Thru.not_legacy (h : Thru c) : ¬ LegacyQueue c := by
  obtain ⟨h1, h2, h3⟩ := h
  unfold LegacyQueue
  omega

theorem hostFlows_init (c : Host.Config) : HostFlows c (hostSystem c).init := by
  refine ⟨Streams.init c, ?_, rfl⟩
  rcases thru_or_legacy c with hc | hc
  · exact .inl ⟨hc, queueOk_init c⟩
  · exact .inr ⟨hc, LegacyOk.init c⟩

theorem Host.Moves.stream (hm : Host.Moves c s s')
    (h : s.q.sent ++ heldBytes c s.q = s.submitted.flatten) :
    s'.q.sent ++ heldBytes c s'.q = s'.submitted.flatten := by
  rcases hm with ⟨m, -, hsub, hsent, hheld⟩ | ⟨hsub, x, hsent, hheld⟩
  · change s'.submitted = s.submitted ++ [m] at hsub
    change s'.q.sent = s.q.sent at hsent
    change heldBytes c s'.q = heldBytes c s.q ++ m at hheld
    rw [hsub, hsent, hheld, ← List.append_assoc, h]
    simp
  · change s'.submitted = s.submitted at hsub
    change s'.q.sent = s.q.sent ++ x at hsent
    change heldBytes c s.q = x ++ heldBytes c s'.q at hheld
    rw [hsub, hsent, List.append_assoc, ← hheld, h]

theorem HostFlows.step (hd : c.dataDigest = false) (h : HostFlows c s) (hconf : Conforming s e)
    (hok : Behaves c e) (hstep : hostStep c s e = some s') : HostFlows c s' := by
  have hwhole : WholeWrites s e := by
    cases e with
    | queueRq t rq => exact SetUp.whole hok
    | _ => trivial
  rcases h.path with ⟨hc, hq⟩ | ⟨hc, hq⟩
  · have htakes : TakesCaravan s e := by
      cases e with
      | sendRest l nospace replies =>
        rw [Behaves, if_neg hc.not_legacy] at hok
        exact hok
      | _ => trivial
    obtain ⟨⟨hq', hs'⟩, hm⟩ := caravan_moves hc hd ⟨hq, h.streams⟩ ⟨hconf, htakes, hwhole⟩ hstep
    exact ⟨hs', .inl ⟨hc, hq'⟩, hm.stream h.stream⟩
  · have hpolite : PoliteSocket s e := by
      cases e with
      | sendRest l nospace replies =>
        rw [Behaves, if_pos hc] at hok
        exact hok
      | _ => trivial
    obtain ⟨⟨hq', hs'⟩, hm⟩ := legacy_moves hc hd ⟨hq, h.streams⟩ ⟨hconf, hpolite, hwhole⟩ hstep
    exact ⟨hs', .inr ⟨hc, hq'⟩, hm.stream h.stream⟩

/-- Only requests and R2Ts bring PDUs. -/
theorem hostStep_submitted (hrq : ∀ t rq, e ≠ .queueRq t rq) (hr2t : ∀ t pdu, e ≠ .handleR2t t pdu)
    (hstep : hostStep c s e = some s') : s'.submitted = s.submitted := by
  cases e with
  | queueRq t rq => exact absurd rfl (hrq t rq)
  | handleR2t t pdu => exact absurd rfl (hr2t t pdu)
  | requestUnlocked i =>
    simp only [hostStep] at hstep
    cases hcall : s.calls[i]? with
    | none => simp [hcall] at hstep
    | some noDelay =>
      simp only [hcall, Option.some.injEq] at hstep
      obtain rfl := hstep
      split_ifs <;> rfl
  | dataReady | writeSpace =>
    obtain rfl := Option.some_inj.1 hstep
    rfl
  | doorbellTimeout | workStart l | sendDequeue l =>
    simp only [hostStep, Option.ite_none_right_eq_some, Option.some.injEq] at hstep
    obtain ⟨-, rfl⟩ := hstep
    rfl
  | sendRest l nospace replies =>
    simp only [hostStep, Option.ite_none_right_eq_some, Option.some.injEq] at hstep
    obtain ⟨-, rfl⟩ := hstep
    split_ifs
    · unfold sendFailed
      dsimp only
      split_ifs <;> rfl
    · rfl
  | tryRecv l got expired =>
    simp only [hostStep] at hstep
    split at hstep
    · split_ifs at hstep <;> (obtain rfl := Option.some_inj.1 hstep; rfl)
    · cases hstep

/-- The request behind a write that is to be asked for its data. -/
def Keeps (c : Host.Config) (q : SendQueue) (job : Job) : Prop :=
  ∃ rq, job = execution c rq ∧ rq.write = true ∧ rq.cmd.commandId = rq.tag ∧
    Silent c rq (q.reqs rq.tag.toNat)

theorem Keeps.step {job : Job} (h : Keeps c s.q.toSendQueue job) (hstep : hostStep c s e = some s')
    (hrq : ∀ t rq, e = .queueRq t rq → t ≠ job.1.commandId.toNat)
    (hr2t : ∀ t pdu, e = .handleR2t t pdu → t ≠ job.1.commandId.toNat) :
    Keeps c s'.q.toSendQueue job := by
  obtain ⟨rq, rfl, hw, htag, hs⟩ := h
  have hid : (execution c rq).1.commandId = rq.tag := commandOf_commandId.trans htag
  rw [hid] at hrq hr2t
  exact ⟨rq, rfl, hw, htag,
    hs.step hstep (fun rq' he => hrq _ rq' he rfl) fun pdu he => hr2t _ pdu he rfl⟩

end Host

/-! Both ends. -/

/-- The messages `ms` that the target has not read, the data that its commands are owed and the
commands it refused account for everything that was issued. -/
structure Linked (hc : Host.Config) (tc : Target.Config) (ms : List Msg)
    (debts : List (CmdId × Job)) (lost : List Job) (s : ForwardState) : Prop where
  host : HostFlows hc s.host
  kept : Kept tc (initLedger tc) s.target.q
  up : s.target.q.fatal = false
  read : s.read ≤ s.host.submitted.flatten.length
  synced : Synced tc ms (s.r2ts.map fun pdu => CmdId.slot pdu.ttag.toNat) debts s.target.q
    (s.host.submitted.flatten.drop s.read)
  r2ts : ∀ pdu ∈ s.r2ts, ∃ job, (CmdId.slot pdu.ttag.toNat, job) ∈ debts ∧
    pdu.commandId = job.1.commandId ∧ pdu.first = 0 ∧ pdu.second.toNat = job.2.length
  asks : ∀ d ∈ debts, Awaits ms s.target.q d.1 → Keeps hc s.host.q.toSendQueue d.2
  carries : ∀ pdu data, Msg.capsule pdu data false ∈ ms → pdu.cmd.nvmeIsWrite = true → data ≠ [] →
    Keeps hc s.host.q.toSendQueue (pdu.cmd, data)
  tags : ((debts.map Prod.snd ++ jobs ms).map fun job => job.1.commandId).Nodup
  named : ∀ rq ∈ s.issued, rq.cmd.commandId = rq.tag
  order : s.target.q.received ++ (jobs ms).map Prod.fst = s.issued.map (commandOf hc)
  all : (s.issued.map (execution hc)).Perm
    (s.target.q.executed ++ lost ++ (debts.map Prod.snd ++ jobs ms))
  lost : lost.map Prod.fst = s.refused

section Steps

variable {hc : Host.Config} {tc : Target.Config} {ms : List Msg} {debts : List (CmdId × Job)}
    {lost : List Job}
  {s : ForwardState}

theorem linked_init (hc : Host.Config) (tc : Target.Config) :
    Linked hc tc [] [] [] (forwardSystem hc tc).init := by
  have hfree : CmdId.connect ∉ slots tc := by simp [slots]
  have hdebts : DebtsOk tc [] (initQueue tc) := by
    refine ⟨by simp, by simp, by simp, by simp, by simp, ?_, by simp [initQueue], hfree⟩
    intro i _ hdata
    simp [initQueue, zeroCmd, NvmetTcpCmd.hasDataIn] at hdata
  refine ⟨hostFlows_init hc, kept_init tc, rfl, Nat.zero_le _,
    ⟨⟨hdebts, by simp, .refl _, by simp⟩, ?_⟩, by simp [forwardSystem],
    by simp, by simp, by simp [jobs], by simp [forwardSystem], rfl, .refl _, rfl⟩
  exact .front 0 ⟨⟨rfl, rfl⟩, rfl, ⟨le_rfl, by simp⟩, List.replicate 128 0, rfl⟩

theorem Linked.works (ha : Agreed hc tc) (h : Linked hc tc ms debts lost s) {e : HostEvent}
    {s₁ : HostState} (hrq : ∀ t rq, e ≠ .queueRq t rq) (hr2t : ∀ t pdu, e ≠ .handleR2t t pdu)
    (hok : Behaves hc e) (hstep : hostStep hc s.host e = some s₁) :
    Linked hc tc ms debts lost { s with host := s₁ } := by
  have hconf : Conforming s.host e := by
    cases e with
    | handleR2t t pdu => exact absurd rfl (hr2t t pdu)
    | _ => trivial
  have hsub := hostStep_submitted hrq hr2t hstep
  have hkeeps : ∀ job, Keeps hc s.host.q.toSendQueue job →
      Keeps hc s₁.q.toSendQueue job := fun job hj =>
    hj.step hstep (fun t rq he => absurd he (hrq t rq)) fun t pdu he => absurd he (hr2t t pdu)
  refine ⟨h.host.step ha.plain.1 hconf hok hstep, h.kept, h.up, ?_, ?_, h.r2ts,
    fun d hd haw => hkeeps _ (h.asks d hd haw), fun pdu data hin hw hne =>
    hkeeps _ (h.carries pdu data hin hw hne), h.tags, h.named, h.order, h.all, h.lost⟩
  · dsimp only
    rw [hsub]
    exact h.read
  · dsimp only
    rw [hsub]
    exact h.synced

theorem flatten_concat_drop {pdus : List (List Byte)} {n : ℕ} (h : n ≤ pdus.flatten.length)
    (pdu : List Byte) :
    (pdus ++ [pdu]).flatten.drop n = pdus.flatten.drop n ++ pdu := by
  simp [List.drop_append_of_le_length h]

theorem jobs_append (ms ms' : List Msg) : jobs (ms ++ ms') = jobs ms ++ jobs ms' :=
  List.filterMap_append

theorem jobs_h2c (ms : List Msg) (pdu : NvmeTcpDataPdu) (data : List Byte) :
    jobs (ms ++ [.h2c pdu data]) = jobs ms :=
  (jobs_append _ _).trans (List.append_nil _)

theorem answered_append (ms ms' : List Msg) : answered (ms ++ ms') = answered ms ++ answered ms' :=
  List.filterMap_append

theorem mem_jobs {pdu : NvmeTcpCmdPdu} {data : List Byte} {inl : Bool}
    (h : Msg.capsule pdu data inl ∈ ms) :
    (pdu.cmd, data) ∈ jobs ms := List.mem_filterMap.2 ⟨_, h, rfl⟩

theorem Linked.free (h : Linked hc tc ms debts lost s) {t : UInt16}
    (hfree : s.issued.countP (fun rq => rq.tag == t) = s.finished t) {job : Job}
    (hjob : job ∈ debts.map Prod.snd ++ jobs ms) : job.1.commandId ≠ t := by
  have hcount := h.all.countP_eq (fun job : NvmeCommand × List Byte => job.1.commandId == t)
  have hissued : (s.issued.map (execution hc)).countP
    (fun job : NvmeCommand × List Byte => job.1.commandId == t) =
      s.issued.countP (fun rq => rq.tag == t) := by
    rw [List.countP_map]
    refine List.countP_congr fun rq hrq => ?_
    simp only [Function.comp_apply, execution, commandOf_commandId, h.named rq hrq]
  have hlost : s.refused.countP (fun cmd => cmd.commandId == t) =
      lost.countP (fun job : NvmeCommand × List Byte => job.1.commandId == t) := by
    rw [← h.lost, List.countP_map]
    rfl
  intro he
  have hpos : 0 < (debts.map Prod.snd ++ jobs ms).countP
      (fun job : NvmeCommand × List Byte => job.1.commandId == t) :=
    List.countP_pos_iff.2 ⟨job, hjob, by simpa using he⟩
  rw [hissued, hfree, ForwardState.finished, hlost, List.countP_append,
    List.countP_append] at hcount
  omega

theorem Linked.issues (ha : Agreed hc tc) (h : Linked hc tc ms debts lost s) {rq : Rq}
    {s₁ : HostState} (hs : SetUp rq)
    (hfree : s.issued.countP (fun rq' => rq'.tag == rq.tag) = s.finished rq.tag)
    (hstep : hostStep hc s.host (.queueRq rq.tag.toNat rq) = some s₁) :
    Linked hc tc (ms ++ [capsuleOf hc rq]) debts lost
      { s with host := s₁, issued := s.issued ++ [rq] } := by
  have hconf : Conforming s.host (.queueRq rq.tag.toNat rq) := trivial
  have hhost := h.host.step ha.plain.1 hconf hs hstep
  have hother : ∀ job ∈ debts.map Prod.snd ++ jobs ms, Keeps hc s.host.q.toSendQueue job →
      Keeps hc s₁.q.toSendQueue job := by
    intro job hjob hk
    refine hk.step hstep (fun t rq' he htag => ?_) fun t pdu he => by cases he
    obtain ⟨rfl, -⟩ := HostEvent.queueRq.inj he
    exact h.free hfree hjob (UInt16.toNat_inj.1 htag).symm
  have hjobs : jobs (ms ++ [capsuleOf hc rq]) = jobs ms ++ [execution hc rq] := jobs_append _ _
  have hid : (execution hc rq).1.commandId = rq.tag := commandOf_commandId.trans hs.tag
  simp only [hostStep, Option.ite_none_right_eq_some, Option.some.injEq] at hstep
  obtain ⟨-, rfl⟩ := hstep
  refine ⟨hhost, h.kept, h.up, ?_, ?_, h.r2ts, ?_, ?_, ?_, ?_, ?_, ?_, h.lost⟩
  · change s.read ≤ (s.host.submitted ++ [_]).flatten.length
    rw [List.flatten_append, List.length_append]
    exact h.read.trans (Nat.le_add_right _ _)
  · change Synced _ _ _ _ _
      ((s.host.submitted ++ [submittedCmd hc rq (nvmeTcpSetupCmdPdu hc rq _)]).flatten.drop s.read)
    rw [flatten_concat_drop h.read, submittedCmd_eq ha]
    exact h.synced.command ⟨capsuleOf_framed ha, capsuleOf_fits ha hs⟩
  · intro d hd haw
    refine hother _ (List.mem_append_left _ (List.mem_map_of_mem hd))
      (h.asks d hd ⟨haw.1, fun hans => haw.2 ?_⟩)
    rw [answered_append]
    exact List.mem_append_left _ hans
  · intro pdu data hin hw hne
    rcases List.mem_append.1 hin with hin | hin
    · exact hother _ (List.mem_append_right _ (mem_jobs hin)) (h.carries pdu data hin hw hne)
    · -- a long write waits for its R2T
      obtain ⟨rfl, rfl, hf⟩ := Msg.capsule.inj (List.mem_singleton.1 hin)
      have h0 : rq.dataLen ≠ 0 := by
        rw [← execution_length hc rq]
        exact fun h0 => hne (List.length_eq_zero_iff.1 h0)
      have hwr : rq.write = true :=
        (hs.direction h0).symm.trans (commandOf_nvmeIsWrite.symm.trans hw)
      refine ⟨rq, rfl, hwr, hs.tag, ?_⟩
      dsimp only
      rw [submit_reqs_self]
      refine silent_setupCmdPdu rq _ fun _ => ?_
      by_contra hle
      simp [follows, hwr, h0, not_lt.1 hle] at hf
  · rw [hjobs, ← List.append_assoc, List.map_append, List.nodup_append]
    refine ⟨h.tags, by simp, ?_⟩
    intro t ht t' ht'
    obtain ⟨job, hjob, rfl⟩ := List.mem_map.1 ht
    obtain rfl : t' = rq.tag := (List.mem_singleton.1 ht').trans hid
    exact h.free hfree hjob
  · intro rq' hrq
    rcases List.mem_append.1 hrq with hrq | hrq
    · exact h.named rq' hrq
    · rw [List.mem_singleton.1 hrq]
      exact hs.tag
  · rw [hjobs, List.map_append, ← List.append_assoc, h.order]
    simp [execution]
  · rw [hjobs, List.map_append, ← List.append_assoc (debts.map Prod.snd), ← List.append_assoc]
    exact h.all.append_right _

theorem Linked.replies (ha : Agreed hc tc) (h : Linked hc tc ms debts lost s) {pdu : NvmeTcpR2tPdu}
    {s₁ : HostState} (hpdu : pdu ∈ s.r2ts)
    (hstep : hostStep hc s.host (.handleR2t pdu.commandId.toNat pdu) = some s₁) :
    ∃ m, Linked hc tc (ms ++ [m]) debts lost { s with host := s₁, r2ts := s.r2ts.erase pdu } := by
  obtain ⟨job, hmem, hid, hfirst, hsecond⟩ := h.r2ts pdu hpdu
  have hasked : CmdId.slot pdu.ttag.toNat ∈ s.r2ts.map fun pdu => CmdId.slot pdu.ttag.toNat :=
    List.mem_map_of_mem hpdu
  obtain ⟨rq, rfl, hw, htag, hsilent⟩ := h.asks _ hmem (h.synced.awaits h.kept hasked)
  have hlen : (execution hc rq).2.length = rq.dataLen := execution_length hc rq
  have hid' : pdu.commandId = rq.tag := hid.trans (commandOf_commandId.trans htag)
  have h0 : rq.dataLen ≠ 0 := by
    have hmore := (h.synced.owes _ hmem).more
    dsimp only at hmore
    omega
  rw [hid'] at hstep
  have hconf : Conforming s.host (.handleR2t rq.tag.toNat pdu) := by
    refine ⟨fun hz => ?_, by rw [hsilent.same, hw]⟩
    rw [hz] at hsecond
    exact h0 (hlen.symm.trans hsecond.symm)
  have hhost := h.host.step ha.plain.1 hconf trivial hstep
  have hother : ∀ job : Job, job.1.commandId ≠ rq.tag → Keeps hc s.host.q.toSendQueue job →
      Keeps hc s₁.q.toSendQueue job := by
    intro job hne hk
    refine hk.step hstep (fun t rq' he => by cases he) fun t pdu' he htag => hne ?_
    obtain ⟨rfl, -⟩ := HostEvent.handleR2t.inj he
    exact (UInt16.toNat_inj.1 htag).symm
  obtain ⟨hyes, hrq, hpl, hsent⟩ := hsilent.answers (hsecond.trans hlen)
  simp only [hostStep, Option.ite_none_right_eq_some] at hstep
  obtain ⟨-, hstep⟩ := hstep
  rw [if_pos hyes] at hstep
  obtain rfl := Option.some_inj.1 hstep
  have htags := h.tags
  rw [List.map_append, List.map_map, List.nodup_append] at htags
  have herase := List.perm_cons_erase hpdu
  generalize nvmeTcpSetupH2cDataPdu hc
    (s.host.q.reqs rq.tag.toNat) pdu = p at hrq hpl hsent hhost hother
  refine ⟨.h2c (h2cPdu hc p.2 pdu.ttag) (execution hc rq).2, hhost, h.kept, h.up, ?_, ?_, ?_, ?_,
    ?_, ?_, h.named, ?_, ?_, h.lost⟩
  · change s.read ≤ (s.host.submitted ++ [_]).flatten.length
    rw [List.flatten_append, List.length_append]
    exact h.read.trans (Nat.le_add_right _ _)
  · change Synced _ _ _ _ _
      ((s.host.submitted ++ [submittedH2c hc p.2 pdu.ttag]).flatten.drop s.read)
    rw [flatten_concat_drop h.read, submittedH2c_eq ha hrq h0 hw hpl hsent]
    refine h.synced.reply (herase.map _) hmem ⟨?_, ?_⟩ (h2cPdu_framed ha _ _ _)
    · simp [h2cPdu, hsent]
    · simp only [h2cPdu, hpl, dataLen_toNat]
      exact hlen.symm
  · exact fun pdu' hin => h.r2ts pdu' (List.mem_of_mem_erase hin)
  · -- no other write of the target's has the tag
    intro d hd haw
    have hans : d.1 ∉ answered ms ∧ d.1 ≠ .slot pdu.ttag.toNat := by
      have := haw.2
      rw [answered_append, List.mem_append, not_or] at this
      exact ⟨this.1, by simpa [answered, Msg.slot?, h2cPdu] using this.2⟩
    refine hother _ (fun he => hans.2 ?_) (h.asks d hd ⟨haw.1, hans.1⟩)
    have hsame : d.2.1.commandId = (execution hc rq).1.commandId := he.trans (hid'.symm.trans hid)
    exact congrArg Prod.fst (List.inj_on_of_nodup_map htags.1 hd hmem hsame)
  · intro pdu' data hin hw' hne
    rcases List.mem_append.1 hin with hin | hin
    · refine hother _ (fun he => ?_) (h.carries pdu' data hin hw' hne)
      refine htags.2.2 _ (List.mem_map_of_mem hmem) _ (List.mem_map_of_mem (mem_jobs hin)) ?_
      exact (hid.symm.trans hid').trans he.symm
    · cases List.mem_singleton.1 hin
  · rw [jobs_h2c]
    exact h.tags
  · rw [jobs_h2c]
    exact h.order
  · rw [jobs_h2c]
    exact h.all

/-- What the target reads, it reads without failing. -/
theorem Linked.recvs (ha : Agreed hc tc) (h : Linked hc tc ms debts lost s) {b : List Byte}
    {env : Env} (hb : b <+: s.unread) (hle : b.length ≤ recvWants s.target.q)
    (hok : ∀ pdu ∈ headerRead s.target.q b, (NvmeTcpHdr.decode pdu).type ≠ nvmeTcpH2cData →
      TakenUp tc s.target.q env pdu) :
    (nvmetTcpTryRecv tc env b s.target.q).oops = false := by
  have hpre : b <+: s.host.submitted.flatten.drop s.read := by
    rw [← h.host.stream]
    exact hb.trans ((List.prefix_append _ _).drop _)
  obtain ⟨-, -, ms', debts', got, ran, refused, hsync, -⟩ :=
    h.synced.recv h.kept ha.plain.2 hpre hle hok
  exact hsync.oops

theorem Linked.reads (ha : Agreed hc tc) (h : Linked hc tc ms debts lost s) {b : List Byte}
    {env : Env} {t : TargetState} (hb : b <+: s.unread)
    (hok : ∀ pdu ∈ headerRead s.target.q b, (NvmeTcpHdr.decode pdu).type ≠ nvmeTcpH2cData →
      TakenUp tc s.target.q env pdu)
    (hstep : targetStep tc s.target (.recv b env) = some t) :
    ∃ ms' debts' lost', Linked hc tc ms' debts' lost'
      { s with
        target := t
        read := s.read + b.length
        refused := s.refused ++ refusals env s.target.q t.q } := by
  simp only [targetStep] at hstep
  split at hstep
  case h_2 => cases hstep
  split_ifs at hstep with hle
  obtain rfl := Option.some_inj.1 hstep
  obtain ⟨hle, -⟩ := hle
  have hpre : b <+: s.host.submitted.flatten.drop s.read := by
    rw [← h.host.stream]
    exact hb.trans ((List.prefix_append _ _).drop _)
  obtain ⟨hfair, hfatal, ms', debts', got, ran, refused, hsync, hand⟩ :=
    h.synced.recv h.kept ha.plain.2 hpre hle hok
  have hup := hfatal.trans h.up
  have hperm : (debts.map Prod.snd ++ jobs ms).Perm
      (ran ++ refused ++ (debts'.map Prod.snd ++ jobs ms')) := by
    rw [hand.jobs, ← List.append_assoc, ← List.append_assoc]
    exact hand.kept.append_right _
  have hrefused : refusals env s.target.q (nvmetTcpTryRecv tc env b s.target.q) =
      refused.map Prod.fst := by
    rw [hand.refused, refusals, hand.received]
    cases env.init <;> simp [ReqInit.rejection]
  refine ⟨ms', debts', lost ++ refused, h.host, h.kept.tryRecv hfair hup, hup, ?_, ?_, ?_, ?_, ?_,
    ?_, h.named, ?_, ?_, ?_⟩
  · have := hpre.length_le
    rw [List.length_drop] at this
    have := h.read
    dsimp only
    omega
  · rw [List.drop_drop] at hsync
    exact hsync
  · intro pdu hpdu
    obtain ⟨job, hmem, hrest⟩ := h.r2ts pdu hpdu
    exact ⟨job, hand.stays _ hmem (h.synced.awaits h.kept (List.mem_map_of_mem hpdu)).1, hrest⟩
  · intro d hd haw
    rcases hand.awaits d hd haw with ⟨hold, haw'⟩ | ⟨pdu, data, hin, heq⟩
    · exact h.asks d hold haw'
    · have ho := hsync.owes d hd
      rw [heq] at ho ⊢
      refine h.carries pdu data hin ho.write fun hnil => ?_
      have hmore := ho.more
      simp [hnil] at hmore
  · exact fun pdu data hin => h.carries pdu data (hand.rest hin)
  · have htags := (hperm.map _).nodup_iff.1 h.tags
    rw [List.map_append, List.nodup_append] at htags
    exact htags.2.1
  · dsimp only
    rw [hand.received, ← h.order, hand.jobs, List.map_append, List.append_assoc]
  · dsimp only
    rw [hand.executed]
    refine h.all.trans ((hperm.append_left _).trans (List.perm_iff_count.2 fun job => ?_))
    simp only [List.count_append]
    omega
  · rw [List.map_append, h.lost, hrefused]

theorem Linked.stays (h : Linked hc tc ms debts lost s) {t : TargetState}
    {r2ts : List NvmeTcpR2tPdu} (hk : Kept tc (initLedger tc) t.q) (hup : t.q.fatal = false)
    (hsync : Synced tc ms (r2ts.map fun pdu => CmdId.slot pdu.ttag.toNat) debts t.q
      (s.host.submitted.flatten.drop s.read))
    (hnew : ∀ pdu ∈ r2ts, pdu ∈ s.r2ts ∨ ∃ job, (CmdId.slot pdu.ttag.toNat, job) ∈ debts ∧
      pdu.commandId = job.1.commandId ∧ pdu.first = 0 ∧ pdu.second.toNat = job.2.length)
    (hcmd : t.q.cmd = s.target.q.cmd)
    (hlogs : t.q.received = s.target.q.received ∧ t.q.executed = s.target.q.executed) :
    Linked hc tc ms debts lost { s with target := t, r2ts := r2ts } := by
  refine ⟨h.host, hk, hup, h.read, hsync, ?_, ?_, h.carries, h.tags, h.named,
    hlogs.1.symm ▸ h.order, hlogs.2.symm ▸ h.all, h.lost⟩
  · intro pdu hin
    rcases hnew pdu hin with hin | hin
    · exact h.r2ts pdu hin
    · exact hin
  · intro d hd haw
    exact h.asks d hd ⟨hcmd ▸ haw.1, haw.2⟩

theorem r2tPdu_asks {i : CmdId} {job : Job} {q : NvmetTcpQueue} (ha : Agreed hc tc)
    (hd : DebtsOk tc debts q) (hmem : (i, job) ∈ debts) (hcmd : q.cmd ≠ some i)
    (hsmall : job.2.length < 2 ^ 32) :
    CmdId.slot (r2tPdu tc i (q.cmds i)).ttag.toNat = i ∧
      (r2tPdu tc i (q.cmds i)).commandId = job.1.commandId ∧ (r2tPdu tc i (q.cmds i)).first = 0 ∧
      ((r2tPdu tc i (q.cmds i)).second.toNat = job.2.length) := by
  have ho := hd.owes _ hmem
  have hfresh : (q.cmds i).rbytesDone = 0 := hd.fresh _ hmem hcmd
  have hslot := hd.slots _ hmem
  simp only [slots, List.mem_map, List.mem_range] at hslot
  obtain ⟨n, hn, rfl⟩ := hslot
  have hslots := ha.slots
  refine ⟨?_, congrArg NvmeCommand.commandId ho.same, ?_, ?_⟩
  · rw [r2tPdu, nvmetTcpCmdTag, UInt16.toNat_ofNat_of_lt' (by change _ < 2 ^ 16; omega)]
  · simp [r2tPdu, hfresh]
  · rw [r2tPdu, hfresh, ho.len, Nat.sub_zero]
    exact UInt32.toNat_ofNat_of_lt' hsmall

theorem Linked.turns (ha : Agreed hc tc) (h : Linked hc tc ms debts lost s) {nospace : Bool}
    {rs : List SockReply} {t : TargetState} (hrs : Polite rs)
    (hstep : targetStep tc s.target (.sendTurn nospace rs) = some t) :
    Linked hc tc ms debts lost
      { s with target := t, r2ts := s.r2ts ++ newR2ts tc s.target.q t.q } := by
  obtain ⟨last, heq⟩ := sendTurn_polite hrs hstep
  have hup : t.q.fatal = false := by
    rw [heq, trySendTurn_fatal]
    exact h.up
  have hk := h.kept.step (e := .sendTurn nospace rs) trivial hstep hup
  obtain ⟨new, hwait, hsync, hquiet⟩ := (h.synced.replies rs).turn last nospace
  rw [← heq] at hwait hsync hquiet
  have hdrop : t.q.waiting.drop s.target.q.waiting.length = new := by
    rw [hwait]
    exact List.drop_left
  have hnew : ∀ i ∈ new, ∃ job, (i, job) ∈ debts ∧ t.q.cmd ≠ some i ∧ job.2.length < 2 ^ 32 := by
    intro i hi
    obtain ⟨job, hd⟩ := mem_of_mem_ids
      (hsync.asks i (.inl (by rw [hwait]; exact List.mem_append_right _ hi)))
    have haw := hsync.awaits hk (List.mem_append_right _ hi)
    obtain ⟨rq, rfl, -⟩ := h.asks _ hd ⟨hquiet.cmd ▸ haw.1, haw.2⟩
    have hsmall := rq.dataLen_small
    exact ⟨_, hd, haw.1, by rw [execution_length]; omega⟩
  refine h.stays hk hup ?_ ?_ hquiet.cmd hquiet.logs
  · rw [newR2ts, hdrop, List.map_append, List.map_map]
    have hid : new.map ((fun pdu : NvmeTcpR2tPdu => CmdId.slot pdu.ttag.toNat) ∘ fun i => r2tPdu tc
        i (t.q.cmds i)) = new := by
      refine (List.map_congr_left fun i hi => ?_).trans (List.map_id new)
      obtain ⟨job, hd, hcmd, hsmall⟩ := hnew i hi
      exact (r2tPdu_asks ha hsync.toDebtsOk hd hcmd hsmall).1
    rw [hid]
    exact hsync
  · intro pdu hin
    rw [newR2ts, hdrop] at hin
    rcases List.mem_append.1 hin with hin | hin
    · exact .inl hin
    · obtain ⟨i, hi, rfl⟩ := List.mem_map.1 hin
      obtain ⟨job, hd, hcmd, hsmall⟩ := hnew i hi
      obtain ⟨hslot, hrest⟩ := r2tPdu_asks ha hsync.toDebtsOk hd hcmd hsmall
      exact .inr ⟨job, by rw [hslot]; exact hd, hrest⟩

theorem Linked.completes (h : Linked hc tc ms debts lost s) {i : CmdId} {cqe : NvmeCompletion}
    {data : List Byte} {t : TargetState}
    (hstep : targetStep tc s.target (.complete i cqe data) = some t) :
    Linked hc tc ms debts lost { s with target := t } := by
  simp only [targetStep] at hstep
  obtain ⟨q', hq', rfl⟩ := Option.map_eq_some_iff.1 hstep
  have hsync := h.synced.completes h.kept hq'
  have hk := h.kept.completes hq'
  obtain ⟨-, heq⟩ := backendCompletes_some hq'
  exact h.stays hk (by rw [heq]; exact h.up) hsync (fun pdu hin => .inl hin) (by rw [heq]; rfl)
    ⟨by rw [heq]; rfl, by rw [heq]; rfl⟩

theorem Linked.starts (h : Linked hc tc ms debts lost s) {budget : ℕ} {t : TargetState}
    (hstep : targetStep tc s.target (.sendStart budget) = some t) :
    Linked hc tc ms debts lost { s with target := t } := by
  simp only [targetStep, sendStart] at hstep
  split at hstep
  case h_2 => cases hstep
  split_ifs at hstep
  obtain rfl := Option.some_inj.1 hstep
  exact h.stays h.kept h.up h.synced (fun pdu hin => .inl hin) rfl ⟨rfl, rfl⟩

/-- What the steps ask of the world: requests and the host's socket as `Behaves` says, a target that
takes up the commands it reads, and a target's socket that does not answer with an error. -/
def ForwardOk (hc : Host.Config) (tc : Target.Config) (s : ForwardState) : ForwardEvent → Prop
  | .host e => Behaves hc e
  | .target (.recv b env) => ∀ pdu ∈ headerRead s.target.q b,
      (NvmeTcpHdr.decode pdu).type ≠ nvmeTcpH2cData → TakenUp tc s.target.q env pdu
  | .target (.sendTurn _ replies) => Polite replies
  | .target (.complete _ _ _) | .target (.sendStart _) => True

theorem Linked.step (ha : Agreed hc tc) (h : Linked hc tc ms debts lost s) {e : ForwardEvent}
    {s' : ForwardState} (hok : ForwardOk hc tc s e) (hstep : forwardStep hc tc s e = some s') :
    ∃ ms' debts' lost', Linked hc tc ms' debts' lost' s' := by
  cases e with
  | host e =>
    by_cases hrq : ∃ t rq, e = .queueRq t rq
    · obtain ⟨t, rq, rfl⟩ := hrq
      simp only [forwardStep, Option.ite_none_right_eq_some] at hstep
      obtain ⟨⟨rfl, hfree⟩, hstep⟩ := hstep
      obtain ⟨s₁, hs₁, rfl⟩ := Option.map_eq_some_iff.1 hstep
      exact ⟨_, _, _, h.issues ha hok hfree hs₁⟩
    by_cases hr2t : ∃ t pdu, e = .handleR2t t pdu
    · obtain ⟨t, pdu, rfl⟩ := hr2t
      simp only [forwardStep, Option.ite_none_right_eq_some] at hstep
      obtain ⟨⟨rfl, hpdu⟩, hstep⟩ := hstep
      obtain ⟨s₁, hs₁, rfl⟩ := Option.map_eq_some_iff.1 hstep
      obtain ⟨m, hm⟩ := h.replies ha hpdu hs₁
      exact ⟨_, _, _, hm⟩
    have hplain : forwardStep hc tc s (.host e) = (hostStep hc s.host e).map fun h =>
        { s with host := h } := by
      cases e with
      | queueRq t rq => exact absurd ⟨t, rq, rfl⟩ hrq
      | handleR2t t pdu => exact absurd ⟨t, pdu, rfl⟩ hr2t
      | _ => rfl
    rw [hplain] at hstep
    obtain ⟨s₁, hs₁, rfl⟩ := Option.map_eq_some_iff.1 hstep
    exact ⟨_, _, _, h.works ha (fun t rq he => hrq ⟨t, rq, he⟩) (fun t pdu he => hr2t ⟨t, pdu, he⟩)
      hok hs₁⟩
  | target e =>
    cases e with
    | recv b env =>
      simp only [forwardStep, Option.ite_none_right_eq_some] at hstep
      obtain ⟨hb, hstep⟩ := hstep
      obtain ⟨t, ht, rfl⟩ := Option.map_eq_some_iff.1 hstep
      exact h.reads ha hb hok ht
    | complete i cqe data =>
      obtain ⟨t, ht, rfl⟩ := Option.map_eq_some_iff.1 hstep
      exact ⟨_, _, _, h.completes ht⟩
    | sendStart budget =>
      obtain ⟨t, ht, rfl⟩ := Option.map_eq_some_iff.1 hstep
      exact ⟨_, _, _, h.starts ht⟩
    | sendTurn nospace replies =>
      obtain ⟨t, ht, rfl⟩ := Option.map_eq_some_iff.1 hstep
      exact ⟨_, _, _, h.turns ha hok ht⟩

/-- The commands that are owed their data are those of the slots that wait for it. -/
theorem Linked.owed (h : Linked hc tc ms debts lost s) :
    ((debts.map Prod.snd).map Prod.fst).Perm
      (((Target.held s.target.q).filter fun i => (s.target.q.cmds i).hasDataIn).map
        fun i => (s.target.q.cmds i).req.cmd) := by
  have hd := h.synced.toDebtsOk
  have hnd : (Target.held s.target.q).Nodup := (List.nodup_append.1 h.kept.nodup).2.1
  have hids : (debts.map Prod.fst).Perm
      ((Target.held s.target.q).filter fun i => (s.target.q.cmds i).hasDataIn) := by
    refine (List.perm_ext_iff_of_nodup hd.ids (hnd.filter _)).2 fun i => ?_
    rw [List.mem_filter]
    constructor
    · intro hi
      obtain ⟨job, hmem⟩ := mem_of_mem_ids hi
      have hneed := (hd.owes _ hmem).needDataIn
      simp only [NvmetTcpCmd.needDataIn, Bool.and_eq_true] at hneed
      exact ⟨(hd.due _ hmem).held, hneed.1⟩
    · rintro ⟨hheld, hdata⟩
      exact hd.all i hheld hdata
  have hcmds : (debts.map Prod.snd).map Prod.fst = (debts.map Prod.fst).map fun i =>
      (s.target.q.cmds i).req.cmd := by
    rw [List.map_map, List.map_map]
    exact List.map_congr_left fun d hmem => (hd.owes d hmem).same.symm
  rw [hcmds]
  exact hids.map _

end Steps

/-- In every run of two ends that agree the target receives the commands in the order they were
issued in, reads no data as a header, and does not fail: not in the reads it has made, and not in
the next one. The backend executes each request at most once, a write with exactly its data, and the
rest were refused, are owed data by the host, or have not been read. -/
theorem requests_reach_backend {hc : Host.Config} {tc : Target.Config} (ha : Agreed hc tc)
    {es : List ForwardEvent} {s : ForwardState}
    (h : (forwardSystem hc tc).RunIn (ForwardOk hc tc) es s) :
    s.target.q.fatal = false ∧
    (∀ b env, b <+: s.unread → b.length ≤ recvWants s.target.q →
      ForwardOk hc tc s (.target (.recv b env)) →
      (nvmetTcpTryRecv tc env b s.target.q).oops = false) ∧
    ∃ refused owed unread : List (NvmeCommand × List Byte),
      (s.issued.map (execution hc)).Perm (s.target.q.executed ++ refused ++ (owed ++ unread)) ∧
      s.target.q.received ++ unread.map Prod.fst = s.issued.map (commandOf hc) ∧
      refused.map Prod.fst = s.refused ∧
      (owed.map Prod.fst).Perm
      (((Target.held s.target.q).filter fun i => (s.target.q.cmds i).hasDataIn).map
        fun i => (s.target.q.cmds i).req.cmd) ∧
      (s.unread = [] → heldBytes hc s.host.q = [] → unread = []) := by
  obtain ⟨ms, debts, lost, hl⟩ :=
    h.invariant (I := fun s => ∃ ms debts lost, Linked hc tc ms debts lost s)
    ⟨_, _, _, linked_init hc tc⟩ fun s e s' ⟨_, _, _, hl⟩ hok hstep => hl.step ha hok hstep
  refine ⟨hl.up, fun b env hb hle hok => hl.recvs ha hb hle hok, lost, debts.map Prod.snd, jobs ms,
    hl.all, hl.order, hl.lost, hl.owed, fun hunread hheld => ?_⟩
  have hwire : s.host.submitted.flatten.drop s.read = [] := by
    rw [← hl.host.stream, hheld, List.append_nil]
    exact hunread
  have hsync := hl.synced
  rw [hwire] at hsync
  exact hsync.jobs_nil

section Sample

instance (c : Host.Config) : (e : HostEvent) → Decidable (Behaves c e)
  | .queueRq _ rq => inferInstanceAs (Decidable (SetUp rq))
  | .sendRest _ _ replies =>
    inferInstanceAs (Decidable (if LegacyQueue c then Polite replies else replies = []))
  | .handleR2t _ _ | .requestUnlocked _ | .doorbellTimeout | .dataReady | .writeSpace | .workStart _
  | .sendDequeue _ | .tryRecv _ _ _ => .isTrue trivial

instance (hc : Host.Config) (tc : Target.Config) (s : ForwardState) :
    (e : ForwardEvent) → Decidable (ForwardOk hc tc s e)
  | .host e => inferInstanceAs (Decidable (Behaves hc e))
  | .target (.recv b env) => inferInstanceAs (Decidable (∀ pdu ∈ headerRead s.target.q b,
      (NvmeTcpHdr.decode pdu).type ≠ nvmeTcpH2cData → TakenUp tc s.target.q env pdu))
  | .target (.sendTurn _ replies) => inferInstanceAs (Decidable (Polite replies))
  | .target (.complete _ _ _) | .target (.sendStart _) => .isTrue trivial

def forwardTarget : Target.Config := { sampleTarget with nrCmds := 4 }

def forwardHost : Host.Config :=
  { sampleConfig with
    hdrDigest := true
    cmndCapsuleLen := 68
    crc := sampleTarget.crc
    crc_length := sampleTarget.crc_length }

theorem forwardHost_agreed : Agreed forwardHost forwardTarget :=
  ⟨⟨rfl, rfl⟩, ⟨rfl, rfl⟩, by decide, by decide⟩

theorem smallBio_backed {data : List Byte} (h : data ≠ []) :
    Bio.Backed ⟨1, [⟨data⟩], 0, data.length⟩ := by
  have hpos := List.length_pos_iff.2 h
  exact ⟨hpos, by simpa using h, by simpa [BioVec.len] using hpos, by simp, by simpa using hpos⟩

theorem smallBios_backed {data : List Byte} (h : data ≠ []) :
    ([⟨1, [⟨data⟩], 0, data.length⟩] : List Bio) ≠ [] ∧
      ∀ b ∈ ([⟨1, [⟨data⟩], 0, data.length⟩] : List Bio), b.Backed :=
  ⟨by simp, by simpa using smallBio_backed h⟩

def smallRq (write : Bool) (opcode : UInt8) (tag : UInt16) (data : List Byte) (h : data ≠ [])
    (hsmall : ([⟨1, [⟨data⟩], 0, data.length⟩].map Bio.size).sum + 128 < 2 ^ 32) : Rq :=
  { bioRq write opcode 1 [⟨1, [⟨data⟩], 0, data.length⟩] tag (smallBios_backed h) hsmall with
    cmd := { blankRq.cmd with opcode := opcode, commandId := tag } }

def shortWrite : Rq := smallRq true 1 0 [1, 2, 3, 4] (by simp) (by decide)
def longWrite : Rq := smallRq true 1 1 [5, 6, 7, 8, 9] (by simp) (by decide)
def shortRead : Rq := smallRq false 2 2 [0, 0] (by simp) (by decide)

def forwardSends (n : ℕ) : List ForwardEvent :=
  .host .doorbellTimeout :: .host (.workStart .thru) :: (List.replicate n
    [.host (.sendDequeue .thru), .host (.sendRest .thru false []),
      .host (.tryRecv .thru false false)]).flatten

def forwardReads (wire : List Byte) (env : Env) : List ℕ → List ForwardEvent
  | [] => []
  | n :: ns => .target (.recv (wire.take n) env) :: forwardReads (wire.drop n) env ns

/-- A short write whose data follows it, a long one that is asked for its data, and a read that is
refused. -/
def forwardRun : List ForwardEvent :=
  let front := msgWire forwardTarget
    [capsuleOf forwardHost shortWrite, capsuleOf forwardHost longWrite,
    capsuleOf forwardHost shortRead]
  let data := msgWire forwardTarget
    [.h2c ⟨⟨nvmeTcpH2cData, 5, 24, 28, 33⟩, 1, 1, 0, 5⟩ [5, 6, 7, 8, 9]]
  [.host (.queueRq 0 shortWrite), .host (.queueRq 1 longWrite), .host (.queueRq 2 shortRead)] ++
    forwardSends 4 ++
    forwardReads front ⟨.accept 4, .all⟩ [3, 5, 68, 1, 3] ++ forwardReads (front.drop 80)
    ⟨.accept 5, .all⟩ [8, 68] ++
    forwardReads (front.drop 156) ⟨.reject ⟨0, 0, 0, 2, 2⟩, .all⟩ [8, 68] ++
    [.target (.sendStart 2), .target (.sendTurn false []), .target (.sendTurn false []),
      .host (.handleR2t 1 ⟨⟨nvmeTcpR2t, 1, 24, 0, 28⟩, 1, 1, 0, 5⟩)] ++ forwardSends 2 ++
    forwardReads data ⟨.accept 0, .all⟩ [8, 20, 2, 3]

theorem requests_reach_backend_three : ∃ s, (forwardSystem forwardHost forwardTarget).RunIn
      (ForwardOk forwardHost forwardTarget) forwardRun s ∧
    s.target.q.executed = [execution forwardHost shortWrite, execution forwardHost longWrite] ∧
    s.refused = [commandOf forwardHost shortRead] ∧ s.target.q.fatal = false ∧
    s.issued.length = 3 := by
  obtain ⟨s, hrun, hexec, hrefused, hissued⟩ : ∃ s, (forwardSystem forwardHost forwardTarget).RunIn
      (ForwardOk forwardHost forwardTarget) forwardRun s ∧
      s.target.q.executed = [execution forwardHost shortWrite, execution forwardHost longWrite] ∧
      s.refused = [commandOf forwardHost shortRead] ∧ s.issued.length = 3 :=
    Runs.System.exists_runIn_of_execIn (fun s : ForwardState =>
      s.target.q.executed = [execution forwardHost shortWrite, execution forwardHost longWrite] ∧
      s.refused = [commandOf forwardHost shortRead] ∧ s.issued.length = 3) (by decide +kernel)
  exact ⟨s, hrun, hexec, hrefused, (requests_reach_backend forwardHost_agreed hrun).1, hissued⟩

end Sample

end BlkSwitch
