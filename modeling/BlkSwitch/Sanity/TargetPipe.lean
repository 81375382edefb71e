import BlkSwitch.Lib.Pipe
import BlkSwitch.Sanity.TargetStream

/-! The send path of the target is a pipe: what is queued goes in at the back, a fetch, a step and
a flush only move bytes forward. With aggregation the socket has to take each caravan whole. -/

namespace BlkSwitch.Target

open NvmetTcpQueue Pipes

def respView (c : Config) : View NvmetTcpQueue Byte where
  msgs q := q.queued
  out q := q.sent
  held q := inHand c q

section Moves

variable {c : Config} {q : NvmetTcpQueue}

theorem fetched_ok {i : CmdId} {sl rl : List CmdId} {len : ℤ} (h : SendOk c q)
    (hf : Fetches q i sl rl len) :
    SendOk c (fetched c i sl rl len q) ∧ (respView c).Emits q (fetched c i sl rl len q) := by
  have hback : backlog q = i :: (sl ++ rl.reverse) := hf.order
  have hi : i ∈ backlog q := by simp [hback]
  obtain ⟨hprep, -, hentry⟩ := h.waits i hi
  obtain ⟨howes, hsend⟩ := setupFirstPdu_owes (c := c) i hprep
  have hnd := h.nodup
  rw [hback, List.nodup_cons] at hnd
  have hcmd : (fetched c i sl rl len q).cmds i = setupFirstPdu c i (q.cmds i) :=
    modifyCmd_cmds_self _ _ _
  have hother : ∀ j, j ≠ i → (fetched c i sl rl len q).cmds j = q.cmds j :=
    fun j hj => modifyCmd_cmds_of_ne _ _ _ hj
  have hne : ∀ j ∈ sl ++ rl.reverse, j ≠ i := fun j hj hji => hnd.1 (hji ▸ hj)
  have hsnd : ∀ j, (fetched c i sl rl len q).sndCmd = some j → j = i :=
    fun j hj => (Option.some.inj hj).symm
  refine ⟨⟨h.len, h.pos, h.direct, hf.len h.listLen, hnd.2, ?_, ?_, ?_⟩, .of_eq rfl rfl ?_⟩
  · intro j hj
    obtain ⟨hp, -, hk⟩ := h.waits j (by rw [hback]; exact List.mem_cons_of_mem _ hj)
    refine ⟨?_, fun hs => hne j hj (hsnd j hs), hk⟩
    rwa [hother j (hne j hj)]
  · intro j hj
    obtain rfl := hsnd j hj
    rw [hcmd]
    exact hsend
  · intro j hj k hk hki
    obtain rfl := hsnd j hj
    exact absurd hki (hentry k hk)
  · have hcar : (fetched c i sl rl len q).caravanBytes = q.caravanBytes :=
      caravanBytes_congr rfl fun k hk => hother _ (hentry k hk)
    have htail : ((backlog (fetched c i sl rl len q)).flatMap fun j =>
        owedPdus c j ((fetched c i sl rl len q).cmds j)) =
        (sl ++ rl.reverse).flatMap fun j => owedPdus c j (q.cmds j) :=
      List.flatMap_congr fun j hj => by rw [hother j (hne j hj)]
    simp only [respView, inHand]
    rw [hcar, htail, sndOwes_some (i := i) rfl, hcmd, howes, sndOwes_none hf.idle, hback]
    simp

/-- The socket takes whole what it is given. -/
def TakesAll (c : Config) (rs : List SockReply) : Prop := aggregates c = true → ∀ r ∈ rs, r = .all

/-- A flush hands the caravan over whole, and where there is none it sends nothing. -/
theorem flushed_sent (h : SendOk c q) (hrep : TakesAll c q.replies) :
    ∃ rs, (q.kernelSend q.caravanBytes).2 = q.heard q.caravanBytes rs ∧ TakesAll c rs := by
  cases ha : aggregates c with
  | true =>
    cases hr : q.replies with
    | nil => exact ⟨[], by simp [kernelSend, heard, hr], fun _ => by simp⟩
    | cons r rs =>
      have hall := hrep ha
      simp only [hr, List.forall_mem_cons] at hall
      obtain ⟨rfl, hall⟩ := hall
      exact ⟨rs, by simp [kernelSend, heard, hr], fun _ => hall⟩
  | false =>
    have hnil : q.caravanBytes = [] := by simp [caravanBytes, h.direct ha]
    have hno : ∀ rs, TakesAll c rs := fun _ ht => absurd (ha.symm.trans ht) Bool.false_ne_true
    rw [hnil]
    rcases q.kernelSend_cases [] with ⟨r, -, rs, hs⟩ | ⟨n, -, rs, hs⟩
    · exact ⟨rs, by rw [hs], hno rs⟩
    · exact ⟨rs, by rw [hs, List.take_nil], hno rs⟩

theorem flushed_ok (h : SendOk c q) (hrep : TakesAll c q.replies) :
    SendOk c (caravanSent (q.kernelSend q.caravanBytes).2) ∧
      TakesAll c (caravanSent (q.kernelSend q.caravanBytes).2).replies ∧
      (respView c).Emits q (caravanSent (q.kernelSend q.caravanBytes).2) := by
  obtain ⟨rs, hsend, hrs⟩ := flushed_sent h hrep
  rw [hsend, caravanSent, freeCaravanCmds_eq]
  refine ⟨⟨rfl, by simp, fun _ => rfl, h.listLen, h.nodup, ?_, h.snd, by simp⟩, hrs, rfl,
    q.caravanBytes, rfl, rfl⟩
  intro i hi
  obtain ⟨hp, hs, -⟩ := h.waits i hi
  exact ⟨hp, hs, by simp⟩

theorem queued_ok {i : CmdId} {cmd : NvmetTcpCmd} (h : SendOk c q) (hu : Unsent q i)
    (hp : Prepared cmd) :
    SendOk c (nvmetTcpQueueResponse c i (q.modifyCmd i fun _ => cmd)) ∧
      inHand c (nvmetTcpQueueResponse c i (q.modifyCmd i fun _ => cmd)) = inHand c q ++
      owedPdus c i cmd := by
  obtain ⟨hr, hs, hsnd, hk⟩ := hu
  have hback : backlog (nvmetTcpQueueResponse c i (q.modifyCmd i fun _ => cmd)) = backlog q ++
      [i] := by
    simp [backlog, nvmetTcpQueueResponse, modifyCmd]
  have hfresh : i ∉ backlog q := by simp [backlog, hr, hs]
  have hcmd : (nvmetTcpQueueResponse c i (q.modifyCmd i fun _ => cmd)).cmds i = cmd :=
    modifyCmd_cmds_self q i fun _ => cmd
  have hother : ∀ j, j ≠ i →
      (nvmetTcpQueueResponse c i (q.modifyCmd i fun _ => cmd)).cmds j = q.cmds j :=
    fun j hj => modifyCmd_cmds_of_ne q i (fun _ => cmd) hj
  have hne : ∀ j ∈ backlog q, j ≠ i := fun j hj hji => hfresh (hji ▸ hj)
  have hsndne : ∀ j, q.sndCmd = some j → j ≠ i := fun j hj hji => hsnd (hji ▸ hj)
  refine ⟨⟨h.len, h.pos, h.direct, h.listLen, ?_, ?_, ?_, ?_⟩, ?_⟩
  · rw [hback]
    exact List.nodup_append.2
      ⟨h.nodup, by simp, fun a ha b hb => by simpa [List.mem_singleton.1 hb] using hne a ha⟩
  · intro j hj
    rw [hback] at hj
    rcases List.mem_append.1 hj with hj | hj
    · rw [hother j (hne j hj)]
      exact h.waits j hj
    · obtain rfl := List.mem_singleton.1 hj
      rw [hcmd]
      exact ⟨hp, hsnd, hk⟩
  · intro j hj
    rw [hother j (hsndne j hj)]
    exact h.snd j hj
  · intro j hj
    rw [hother j (hsndne j hj)]
    exact h.apart j hj
  · have hcar : (nvmetTcpQueueResponse c i (q.modifyCmd i fun _ => cmd)).caravanBytes =
        q.caravanBytes :=
      caravanBytes_congr rfl fun k hkq => hother _ (hk k hkq)
    have hrest : sndOwes c (nvmetTcpQueueResponse c i (q.modifyCmd i fun _ => cmd)) =
        sndOwes c q := by
      cases hsq : q.sndCmd with
      | none => rw [sndOwes_none hsq, sndOwes_none]; exact hsq
      | some j => rw [sndOwes_some hsq, sndOwes_some (i := j), hother j (hsndne j hsq)]; exact hsq
    have htail : ((backlog q ++ [i]).flatMap fun j =>
        owedPdus c j ((nvmetTcpQueueResponse c i (q.modifyCmd i fun _ => cmd)).cmds j)) =
        ((backlog q).flatMap fun j => owedPdus c j (q.cmds j)) ++ owedPdus c i cmd := by
      rw [List.flatMap_append, List.flatMap_congr fun j hj => by rw [hother j (hne j hj)]]
      simp [hcmd]
    simp only [inHand]
    rw [hcar, hrest, hback, htail]
    simp

end Moves

section Turns

variable {c : Config}

/-- What a turn does to the send path. -/
theorem turn_ok (hd : c.dataDigest = false) {last nospace : Bool} {q : NvmetTcpQueue}
    (h : SendOk c q) (hrep : TakesAll c q.replies) :
    SendOk c (trySendTurn c last nospace q).2 ∧
      (respView c).Emits q (trySendTurn c last nospace q).2 := by
  have hinv := @trySendTurn_invariant c
    (fun q' => SendOk c q' ∧ TakesAll c q'.replies ∧ (respView c).Emits q q') ?_ ?_ ?_ ?_ last
      nospace q
    ⟨h, hrep, .refl q⟩
  · exact ⟨hinv.1, hinv.2.2⟩
  · rintro q₁ i sl rl len ⟨h₁, hr, he⟩ hf
    obtain ⟨hok, hem⟩ := fetched_ok h₁ hf
    exact ⟨hok, hr, he.trans hem⟩
  · rintro i q₁ q₂ ⟨h₁, hr, he⟩ hs
    obtain ⟨ks, out, ha⟩ := h₁.sends hd hs
    have hf := hs.2.frame
    refine ⟨h₁.advance hs.1 hf ha, fun hagg => ?_,
      he.trans ⟨hf.logs.2.2.2, out, ha.sent, ha.inHand h₁ hs.1 hf⟩⟩
    rw [ha.replies hagg]
    exact hr hagg
  · rintro q₁ ⟨h₁, hr, he⟩
    obtain ⟨hok, hr', hem⟩ := flushed_ok h₁ hr
    exact ⟨hok, hr', he.trans hem⟩
  · rintro q₁ ⟨h₁, hr, he⟩
    exact ⟨⟨h₁.len, h₁.pos, h₁.direct, h₁.listLen, h₁.nodup, h₁.waits, h₁.snd, h₁.apart⟩, hr, he⟩

theorem SendOk.iovs_eq_nil {q : NvmetTcpQueue} (h : SendOk c q) (h0 : q.caravanLen = 0) :
    q.caravanIovs = [] := by
  rw [h.len] at h0
  cases hk : q.caravanIovs with
  | nil => rfl
  | cons k ks =>
    have hpos := h.pos k (by simp [hk])
    simp only [hk, List.map_cons, List.sum_cons] at h0
    omega

theorem SendOk.ioWorkFails {q : NvmetTcpQueue} (h : SendOk c q) (ret : ℤ) :
    SendOk c (Target.ioWorkFails ret q) ∧ (respView c).Emits q (Target.ioWorkFails ret q) ∧
      (Target.ioWorkFails ret q).caravanIovs = q.caravanIovs := by
  unfold Target.ioWorkFails nvmetTcpFatalError
  split_ifs <;>
    exact ⟨⟨h.len, h.pos, h.direct, h.listLen, h.nodup, h.waits, h.snd, h.apart⟩,
      .of_eq rfl rfl rfl, rfl⟩

/-- Between calls the caravan is empty, unless the last one found the socket full. -/
structure RespOk (c : Config) (s : TargetState) : Prop where
  send : SendOk c s.q
  idle : s.pc = .idle false → s.q.caravanIovs = []

theorem respOk_init (c : Config) : RespOk c ⟨initQueue c, .idle false⟩ :=
  ⟨⟨rfl, by simp [initQueue], fun _ => rfl, rfl, by simp [backlog, initQueue],
    by simp [backlog, initQueue], by simp [initQueue], by simp [initQueue]⟩, fun _ => rfl⟩

theorem RespOk.sendStart {s s' : TargetState} (h : RespOk c s) {budget : ℕ}
    (hs : Target.sendStart budget s = some s') :
    RespOk c s' ∧ s'.q = s.q := by
  unfold Target.sendStart at hs
  split at hs
  · split_ifs at hs
    cases hs
    exact ⟨⟨h.send, by simp⟩, rfl⟩
  · cases hs

theorem RespOk.sendTurn (hd : c.dataDigest = false) {s s' : TargetState} (h : RespOk c s)
    {nospace : Bool} {replies : List SockReply} (hrep : TakesAll c replies)
    (hs : Target.sendTurn c nospace replies s = some s') :
    RespOk c s' ∧ (respView c).Emits s.q s'.q := by
  unfold Target.sendTurn at hs
  split at hs
  case h_2 => cases hs
  case h_1 n hpc =>
    have hq : SendOk c { s.q with replies := replies } :=
      ⟨h.send.len, h.send.pos, h.send.direct, h.send.listLen, h.send.nodup, h.send.waits,
        h.send.snd, h.send.apart⟩
    have hturn := @turn_ok c hd (n == 0) nospace { s.q with replies := replies } hq hrep
    split at hs
    case h_1 q' hres =>
      rw [hres] at hturn
      cases hs
      exact ⟨⟨hturn.1, by simp⟩, hturn.2⟩
    case h_2 ret stalled q' hres =>
      rw [hres] at hturn
      cases hs
      have hnil : stalled = false → q'.caravanIovs = [] := by
        rintro rfl
        cases hagg : c.nvmetTcpAggr with
        | true => exact hturn.1.iovs_eq_nil (trySendTurn_done hagg hres)
        | false => exact hturn.1.direct (by simp [aggregates, hagg])
      obtain ⟨hok, hem, hiovs⟩ := hturn.1.ioWorkFails ret
      split_ifs with hret
      · refine ⟨⟨hok, fun hp => ?_⟩, hturn.2.trans hem⟩
        exact hiovs.trans (hnil (by simpa using hp))
      · exact ⟨⟨hturn.1, fun hp => hnil (by simpa using hp)⟩, hturn.2⟩

end Turns

end BlkSwitch.Target
