import BlkSwitch.Proofs.TargetCaravan

/-! What the target makes of the socket's answer to a caravan. `nvmet_tcp_try_send` reports a
failure and forgets it: the caravan is emptied and its commands are put back whatever the answer.
So nothing is lost exactly when the socket takes everything, or when it has refused the data digest
before, the one thing a queue that aggregates sends by itself, and the connection goes down. -/

namespace BlkSwitch.Target

open NvmetTcpQueue

/-- The queue whose caravan a turn gives to `kernel_sendmsg`, if it does. -/
def flushOf (c : Config) (last nospace : Bool) (q : NvmetTcpQueue) : Option NvmetTcpQueue :=
  let p := nvmetTcpTrySendOne c q
  if c.nvmetTcpAggr ∧ p.2.caravanLen ≠ 0 ∧ (p.2.sendNow ∨ p.1 ≤ 0 ∨ last) ∧ nospace = false then
    some p.2
  else none

/-- How many bytes of the caravan the socket took; none if it answered with an error. -/
def caravanTaken (q : NvmetTcpQueue) : ℕ := (q.kernelSend q.caravanBytes).1.toNat

/-- The entries of a caravan that are not wholly within its first `n` bytes. -/
def unaccepted (cmds : CmdId → NvmetTcpCmd) : ℕ → List Kvec → List Kvec
  | _, [] => []
  | n, k :: ks =>
    if (k.bytes cmds).length ≤ n then unaccepted cmds (n - (k.bytes cmds).length) ks
    else k :: ks

/-- What the socket did not take is still queued, and its commands have not been put back. -/
structure Requeued (q q' : NvmetTcpQueue) : Prop where
  suffix : q'.caravanBytes = q.caravanBytes.drop (caravanTaken q)
  off : ∀ k ∈ unaccepted q.cmds (caravanTaken q) q.caravanIovs, k.cmd ∉ q'.freeList

def digestRest (cmd : NvmetTcpCmd) : List Byte :=
  (cmd.expDdgst.drop (4 * cmd.offset)).take (NVME_TCP_DIGEST_LENGTH - cmd.offset)

def AnsweredDigest (i : CmdId) (r : ℤ) (q : NvmetTcpQueue) : Prop :=
  (q.cmds i).state = .ddgst ∧ (q.kernelSend (digestRest (q.cmds i))).1 = r

/-- What the socket answers to the data digest of a command, in a turn that comes to it. -/
def digestReply (c : Config) (i : CmdId) (q : NvmetTcpQueue) : Option ℤ :=
  let p := stage i .dataPdu (nvmetTrySendDataPdu c i)
    (stage i .data (nvmetTrySendData c i) Prod.mk) 1 q
  if 0 < p.1 ∧ (p.2.cmds i).state = .ddgst then some (p.2.kernelSend (digestRest (p.2.cmds i))).1
  else none

/-- What the socket answers to a data digest in a turn, if it is asked. -/
def digestAnswer (c : Config) (q : NvmetTcpQueue) : Option ℤ :=
  match q.sndCmd with
  | some i => digestReply c i q
  | none =>
    match nvmetTcpFetchCmd c q with
    | (none, _) => none
    | (some i, q) => digestReply c i q

/-- The socket fails at a data digest, and not for want of space. -/
def DigestRefused (c : Config) (q : NvmetTcpQueue) : Prop :=
  ∃ r ∈ digestAnswer c q, r < 0 ∧ r ≠ -EAGAIN

section Stages

variable {c : Config} {i : CmdId} {st : SendState} {f : NvmetTcpQueue → ℤ × NvmetTcpQueue}
  {next M : ℤ → NvmetTcpQueue → ℤ × NvmetTcpQueue}

theorem stage_eq (ret : ℤ) (q : NvmetTcpQueue) :
    stage i st f next ret q =
      if (q.cmds i).state = st then if (f q).1 ≤ 0 then f q else next (f q).1 (f q).2
      else next ret q := rfl

theorem stage_nonneg (hf : ∀ q, 0 ≤ (f q).1) (hnext : ∀ ret q, 0 ≤ ret → 0 ≤ (next ret q).1)
    (ret : ℤ) (q : NvmetTcpQueue) (hret : 0 ≤ ret) : 0 ≤ (stage i st f next ret q).1 := by
  have hq := hf q
  rw [stage_eq]
  split_ifs
  · exact hq
  · exact hnext _ _ hq
  · exact hnext _ _ hret

/-- A stage that does not fail hands a failure behind it on, if it lets the turn get there. -/
theorem stage_fails_iff (i : CmdId) (st : SendState) {r : ℤ} {D : NvmetTcpQueue → Prop}
    (hf : ∀ q, 0 ≤ (f q).1) (hr : r < 0)
    (hnext : ∀ ret one q, 0 ≤ ret → 0 < one →
      ((next ret q).1 = r ↔ 0 < (M one q).1 ∧ D (M one q).2))
    (ret one : ℤ) (q : NvmetTcpQueue) (hret : 0 ≤ ret) (hone : 0 < one) :
    (stage i st f next ret q).1 = r ↔ 0 < (stage i st f M one q).1 ∧
      D (stage i st f M one q).2 := by
  have hq := hf q
  rw [stage_eq, stage_eq]
  split_ifs
  · constructor
    · intro h
      omega
    · intro h
      omega
  · exact hnext _ _ _ hq (by omega)
  · exact hnext _ _ _ hret hone

theorem trySendDdgst_fst (q : NvmetTcpQueue) :
    (nvmetTrySendDdgst c i q).1 =
      if (q.kernelSend (digestRest (q.cmds i))).1 ≤ 0 then
        (q.kernelSend (digestRest (q.cmds i))).1
      else 1 := by
  simp only [nvmetTrySendDdgst]
  by_cases hle : (q.kernelSend (digestRest (q.cmds i))).1 ≤ 0
  · rw [if_pos hle]
    exact congrArg Prod.fst (if_pos hle)
  · rw [if_neg hle, show ((q.cmds i).expDdgst.drop (4 * (q.cmds i).offset)).take
      (NVME_TCP_DIGEST_LENGTH - (q.cmds i).offset) = digestRest (q.cmds i) from rfl, if_neg hle]
    split_ifs <;> rfl

variable (haggr : aggregates c = true)

include haggr

/-- The caravan never refuses: what is appended is all there is. -/
theorem trySendHdr_nonneg (buf : Buffer) (done : NvmetTcpQueue → NvmetTcpQueue)
    (q : NvmetTcpQueue) :
    0 ≤ (trySendHdr c i buf done q).1 := by
  simp only [trySendHdr, emit, haggr, ↓reduceIte]
  by_cases hfull : q.i10TargetIsCaravanFull = true
  · simp [hfull]
  · simp only [hfull, Bool.false_eq_true, ↓reduceIte, Int.toNat_natCast, Nat.sub_self, ne_eq,
      not_true_eq_false]
    split_ifs <;> simp

theorem trySendDataLoop_nonneg : ∀ (fuel : ℕ) (q : NvmetTcpQueue), 0 ≤
    (trySendDataLoop c i fuel q).1
  | 0, q => by simp [trySendDataLoop]
  | fuel + 1, q => by
    simp only [trySendDataLoop]
    split
    · simp only [emit, haggr, ↓reduceIte]
      by_cases hfull : q.i10TargetIsCaravanFull = true
      · simp [hfull]
      · simp only [hfull, Bool.false_eq_true, ↓reduceIte]
        split_ifs
        · simp
        · exact trySendDataLoop_nonneg fuel _
    · simp

theorem nvmetTrySendResponse_nonneg (q : NvmetTcpQueue) : 0 ≤ (nvmetTrySendResponse c i q).1 := by
  simp only [nvmetTrySendResponse, haggr, ↓reduceIte]
  split_ifs <;> simp

theorem behindDigest_nonneg (ret : ℤ) (q : NvmetTcpQueue) (hret : 0 ≤ ret) :
    0 ≤ (stage i .r2t (nvmetTrySendR2t c i) (stage i .response (nvmetTrySendResponse c i) Prod.mk)
      ret q).1 :=
  stage_nonneg (trySendHdr_nonneg haggr _ _)
    (stage_nonneg (nvmetTrySendResponse_nonneg haggr) fun _ _ hret => hret) ret q hret

theorem digestStage_fails_iff {r ret : ℤ} (hr : r < 0) (q : NvmetTcpQueue) (hret : 0 ≤ ret) :
    (stage i .ddgst (nvmetTrySendDdgst c i) (stage i .r2t (nvmetTrySendR2t c i)
      (stage i .response (nvmetTrySendResponse c i) Prod.mk)) ret q).1 = r ↔
        AnsweredDigest i r q := by
  have hrest := behindDigest_nonneg (i := i) haggr (nvmetTrySendDdgst c i q).1
    (nvmetTrySendDdgst c i q).2
  have hpass := behindDigest_nonneg (i := i) haggr ret q hret
  have hsend := trySendDdgst_fst (c := c) (i := i) q
  unfold AnsweredDigest
  by_cases hst : (q.cmds i).state = .ddgst
  · rw [stage_eq, if_pos hst, and_iff_right hst]
    split_ifs at hsend with hle
    · rw [if_pos (hsend ▸ hle), hsend]
    · -- a digest that is out is no failure, and neither is the answer
      rw [if_neg (by omega)]
      have hpos := hrest (by omega)
      constructor <;> intro h <;> omega
  · rw [stage_eq, if_neg hst]
    constructor
    · intro h
      omega
    · intro h
      exact absurd h.1 hst

theorem stages_fail_iff {r : ℤ} (hr : r < 0) (q : NvmetTcpQueue) :
    (stage i .dataPdu (nvmetTrySendDataPdu c i) (stage i .data (nvmetTrySendData c i)
      (stage i .ddgst (nvmetTrySendDdgst c i) (stage i .r2t (nvmetTrySendR2t c i)
        (stage i .response (nvmetTrySendResponse c i) Prod.mk)))) 0 q).1 = r ↔
          r ∈ digestReply c i q := by
  have hpdu : ∀ q, 0 ≤ (nvmetTrySendDataPdu c i q).1 := trySendHdr_nonneg haggr _ _
  have hdata : ∀ q, 0 ≤ (nvmetTrySendData c i q).1 := fun q => trySendDataLoop_nonneg haggr _ q
  have hmid := stage_fails_iff i .data (M := Prod.mk)
      (D := AnsweredDigest i r) hdata hr fun ret one q hret hone => by
    rw [digestStage_fails_iff haggr hr q hret, and_iff_right hone]
  have hall := stage_fails_iff i .dataPdu (M := stage i .data (nvmetTrySendData c i) Prod.mk)
    (D := AnsweredDigest i r)
    hpdu hr hmid 0 1 q le_rfl one_pos
  rw [hall]
  simp [digestReply, AnsweredDigest, and_assoc]

/-- A turn fails at the data digest or nowhere. -/
theorem trySendCmd_neg_iff (q : NvmetTcpQueue) :
    (trySendCmd c i q).1 < 0 ↔ ∃ r ∈ digestReply c i q, r < 0 ∧ r ≠ -EAGAIN := by
  unfold trySendCmd
  dsimp only
  constructor
  · intro h
    split_ifs at h with hneg hagain
    · exact absurd h (by decide)
    · exact ⟨_, (stages_fail_iff haggr hneg q).1 rfl, hneg, hagain⟩
    · exact absurd h (by decide)
  · rintro ⟨r, hr, hneg, hagain⟩
    rw [← stages_fail_iff haggr hneg q] at hr
    rw [hr, if_pos hneg, if_neg hagain]
    exact hneg

theorem trySendOne_neg_iff (q : NvmetTcpQueue) :
    (nvmetTcpTrySendOne c q).1 < 0 ↔ DigestRefused c q := by
  unfold nvmetTcpTrySendOne DigestRefused digestAnswer
  cases q.sndCmd with
  | some i => exact trySendCmd_neg_iff haggr q
  | none =>
    dsimp only
    cases hfetch : nvmetTcpFetchCmd c q with
    | mk next q' =>
      cases next with
      | none => simp
      | some i => exact trySendCmd_neg_iff haggr q'

end Stages

section Flush

variable {c : Config} {q q₁ : NvmetTcpQueue} {last nospace : Bool}

theorem trySendTurn_flush (h : flushOf c last nospace q = some q₁) :
    trySendTurn c last nospace q =
      (if (nvmetTcpTrySendOne c q).1 ≤ 0 ∨ last then .done (nvmetTcpTrySendOne c q).1 false
        else .more,
          caravanSent (q₁.kernelSend q₁.caravanBytes).2) := by
  simp only [flushOf, Option.ite_none_right_eq_some, Option.some.injEq] at h
  obtain ⟨⟨haggr, hlen, hwhen, hspace⟩, rfl⟩ := h
  simp only [trySendTurn, if_pos (And.intro haggr (And.intro hlen hwhen)), hspace,
    Bool.false_eq_true, ↓reduceIte]

theorem ioWorkFails_fatal (ret : ℤ) (q : NvmetTcpQueue) : (ioWorkFails ret q).fatal = true := by
  unfold ioWorkFails nvmetTcpFatalError
  split_ifs <;> rfl

theorem caravanBytes_caravanSent (q : NvmetTcpQueue) : (caravanSent q).caravanBytes = [] := by
  rw [caravanSent, freeCaravanCmds_eq]
  rfl

theorem caravanTaken_le (q : NvmetTcpQueue) : caravanTaken q ≤ q.caravanBytes.length := by
  unfold caravanTaken kernelSend
  split
  · exact le_rfl
  · exact le_rfl
  · split_ifs <;> simp only [Int.toNat_natCast] <;> omega

theorem unaccepted_all (cmds : CmdId → NvmetTcpCmd) (ks : List Kvec) :
    unaccepted cmds (ks.flatMap (Kvec.bytes cmds)).length ks = [] := by
  induction ks with
  | nil => rfl
  | cons k ks ih =>
    simp only [unaccepted, List.flatMap_cons, List.length_append, Nat.le_add_right, ↓reduceIte,
      Nat.add_sub_cancel_left]
    exact ih

/-- The caravan is emptied in any case, so nothing of it is missed when there was no rest. -/
theorem requeued_iff {f : NvmetTcpQueue} :
    Requeued q (caravanSent f) ↔ caravanTaken q = q.caravanBytes.length := by
  constructor
  · intro h
    have hdrop : q.caravanBytes.drop (caravanTaken q) = [] := by
      rw [← h.suffix, caravanBytes_caravanSent]
    have hle := caravanTaken_le q
    have hge := List.drop_eq_nil_iff.1 hdrop
    omega
  · intro h
    apply Requeued.mk
    · rw [h, caravanBytes_caravanSent, List.drop_length]
    · rw [h]
      intro k hk
      rw [caravanBytes, unaccepted_all] at hk
      cases hk

end Flush

/-- A turn that sends a caravan loses nothing of it, or takes the connection down, exactly when
the socket took all of it or has refused a data digest before. -/
theorem caravan_answer_reconciled_iff {c : Config} {s s' : TargetState} {n : ℕ} {nospace : Bool}
    {replies : List SockReply} {q : NvmetTcpQueue} (haggr : aggregates c = true)
    (hpc : s.pc = .sending (n + 1)) (hup : s.q.fatal = false)
    (hs : sendTurn c nospace replies s = some s')
    (hflush : flushOf c (n == 0) nospace { s.q with replies := replies } = some q) :
    s'.q.fatal = true ∨ Requeued q s'.q ↔
      caravanTaken q = q.caravanBytes.length ∨ DigestRefused c { s.q with replies := replies } := by
  rw [← trySendOne_neg_iff haggr]
  have hturn := trySendTurn_flush hflush
  have hfatal : (caravanSent (q.kernelSend q.caravanBytes).2).fatal = false := by
    have h := (trySendTurn_fatal c (n == 0) nospace { s.q with replies := replies }).trans hup
    rwa [hturn] at h
  by_cases hret : (nvmetTcpTrySendOne c { s.q with replies := replies }).1 < 0
  · have hs' : s'.q.fatal = true := by
      simp only [sendTurn, hpc, hturn, if_pos (Or.inl hret.le), if_pos hret,
        Option.some.injEq] at hs
      rw [← hs]
      exact ioWorkFails_fatal _ _
    exact ⟨fun _ => .inr hret, fun _ => .inl hs'⟩
  · have hs' : s'.q = caravanSent (q.kernelSend q.caravanBytes).2 := by
      simp only [sendTurn, hpc, hturn] at hs
      split_ifs at hs
      · simp only [if_neg hret, Option.some.injEq] at hs
        rw [← hs]
      · simp only [Option.some.injEq] at hs
        rw [← hs]
    rw [hs', hfatal, requeued_iff]
    simp [hret]

section Sample

/-- The test of a sample state: its next turn sends a caravan of 52 bytes, of which `n` are
taken. -/
def flushesData (n : ℕ) (replies : List SockReply) (s : TargetState) : Bool :=
  (flushOf plainTarget true false { s.q with replies := replies }).any fun q =>
    caravanTaken q = n ∧ q.caravanBytes.length = 52

/-- And it leaves nothing behind, with the connection up. -/
def emptiesCaravan (replies : List SockReply) (s : TargetState) : Bool :=
  (sendTurn plainTarget false replies s).any fun s' => s'.q.fatal = false ∧ s'.q.caravanBytes = []

theorem caravan_answer_reconciled_all :
    ∃ s s' q, (targetSystem plainTarget).Run sampleSlotRun s ∧
      sendTurn plainTarget false [] s = some s' ∧ s.q.fatal = false ∧
      flushOf plainTarget true false { s.q with replies := [] } = some q ∧ caravanTaken q = 52 ∧
      (s'.q.fatal = true ∨ Requeued q s'.q ↔ caravanTaken q = q.caravanBytes.length ∨
        DigestRefused plainTarget { s.q with replies := [] }) := by
  obtain ⟨s, hrun, hpc, hup, hstep, hflush⟩ : ∃ s, (targetSystem plainTarget).Run sampleSlotRun s ∧
      s.pc = .sending 1 ∧ s.q.fatal = false ∧
        (sendTurn plainTarget false [] s).isSome ∧ flushesData 52 [] s :=
    Runs.System.exists_runIn_of_execIn
      (fun s : TargetState => s.pc = .sending 1 ∧ s.q.fatal = false ∧
      (sendTurn plainTarget false [] s).isSome ∧ flushesData 52 [] s) (by decide +kernel)
  obtain ⟨s', hs'⟩ := Option.isSome_iff_exists.1 hstep
  obtain ⟨q, hq, htaken⟩ := (Option.any_eq_true _ _).1 hflush
  exact ⟨s, s', q, hrun, hs', hup, hq, (of_decide_eq_true htaken).1,
    caravan_answer_reconciled_iff (by decide) hpc hup hs' hq⟩

/-- The socket takes 10 of the 52 bytes, and another command is answered. -/
def sampleShortRun : List TargetEvent :=
  sampleSlotRun ++ [.sendTurn false [.ret 10]] ++ sampleRecv (sampleCapsule 1 1)
    ⟨.accept 4, .all⟩ ++
    [.recv [1, 2, 3, 4] ⟨.accept 0, .all⟩, .complete (.slot 0) ⟨0, 0, 0, 0, 0⟩ [1, 2, 3, 4],
    .sendStart 1,
      .sendTurn false []]

/-- The rest is dropped and its command put back, and the next response follows on the same
connection. -/
theorem short_send_drops_the_rest :
    (∃ s s' q, (targetSystem plainTarget).Run sampleSlotRun s ∧
      sendTurn plainTarget false [.ret 10] s = some s' ∧
      flushOf plainTarget true false { s.q with replies := [.ret 10] } = some q ∧
      ¬ (s'.q.fatal = true ∨ Requeued q s'.q)) ∧ ∃ s,
      (targetSystem plainTarget).Run sampleShortRun s ∧ s.q.fatal = false ∧ s.q.caravanIovs = [] ∧
        s.q.freeList = [.slot 1, .slot 0] ∧ s.q.queued.flatten.length = 24 + 52 + 24 ∧
        s.q.sent.length = 24 + 10 + 24 := by
  constructor
  · obtain ⟨s, hrun, hstep, hflush⟩ : ∃ s, (targetSystem plainTarget).Run sampleSlotRun s ∧
        emptiesCaravan [.ret 10] s ∧ flushesData 10 [.ret 10] s :=
      Runs.System.exists_runIn_of_execIn (fun s : TargetState =>
        emptiesCaravan [.ret 10] s ∧ flushesData 10 [.ret 10] s) (by decide +kernel)
    obtain ⟨s', hs', hafter⟩ := (Option.any_eq_true _ _).1 hstep
    obtain ⟨q, hq, htaken⟩ := (Option.any_eq_true _ _).1 hflush
    obtain ⟨hup, hnil⟩ := of_decide_eq_true hafter
    obtain ⟨hten, hlen⟩ := of_decide_eq_true htaken
    refine ⟨s, s', q, hrun, hs', hq, ?_⟩
    rintro (hdown | hre)
    · rw [hup] at hdown
      cases hdown
    · -- 42 bytes should be left
      have hsuffix := congrArg List.length hre.suffix
      rw [hnil, hten, List.length_drop, hlen] at hsuffix
      cases hsuffix
  · exact Runs.System.exists_runIn_of_execIn
      (fun s : TargetState => s.q.fatal = false ∧ s.q.caravanIovs = [] ∧
      s.q.freeList = [.slot 1, .slot 0] ∧ s.q.queued.flatten.length = 24 + 52 + 24 ∧
      s.q.sent.length = 24 + 10 + 24) (by decide +kernel)

end Sample

end BlkSwitch.Target
