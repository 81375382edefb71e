import BlkSwitch.Proofs.HostDoorbell
import BlkSwitch.Sanity.HostLanes
import BlkSwitch.Sanity.HostPath
import BlkSwitch.Spec.Steering

/-! `nr_req` counts the requests that wait for the doorbell: those on `send_list` and those taken
into the caravan since the worker last found `send_list` empty. It is changed under the lock only,
and a request on `send_list` is classed when it is taken off as it was when it was put there. Both
counts are an `int`, and nothing brings them down while `send_list` is never found empty. -/

namespace BlkSwitch.Host

open SendQueue

/-- The counters of a queue between two holders of the lock. -/
structure Counter (c : Config) (q : NvmeTcpQueue) : Prop where
  nodup : q.sendList.Nodup
  active : ∀ t ∈ q.sendList, q.request ≠ some t
  prio : q.sendList ≠ [] → q.prioClass = laneClass c
  count : q.nrReq.toInt = q.sendList.countP (isDelayed c q) + q.nrCaravanReq.toInt
  nonneg : 0 ≤ q.nrCaravanReq.toInt

def CountFits (q : NvmeTcpQueue) : Prop := q.nrReq.toInt < 2 ^ 31 - 1

theorem toInt_succ {n : Int32} (h : n.toInt < 2 ^ 31 - 1) : (n + 1).toInt = n.toInt + 1 := by
  have hle := n.le_toInt
  have hone : (1 : Int32).toInt = 1 := rfl
  rw [Int32.toInt_add, hone, Int.bmod_eq_of_le] <;> omega

section Counter

variable {c : Config} {q q' : NvmeTcpQueue} {t : ℕ}

theorem isDelayed_congr (hprio : q'.prioClass = q.prioClass) (hr : q'.reqs t = q.reqs t) :
    isDelayed c q' t = isDelayed c q t := by
  simp only [isDelayed, i10HostLegacyPath, i10HostIsLatency, hprio, hr]

theorem countP_isDelayed {l : List ℕ} (hprio : l ≠ [] → q'.prioClass = q.prioClass)
    (hr : ∀ t ∈ l, q'.reqs t = q.reqs t) : l.countP (isDelayed c q') = l.countP (isDelayed c q) :=
  List.countP_congr fun t ht => by rw [isDelayed_congr (hprio (List.ne_nil_of_mem ht)) (hr t ht)]

theorem Counter.same (h : Counter c q) (hlist : q'.sendList = q.sendList)
    (hprio : q'.prioClass = q.prioClass)
    (hn : q'.nrReq = q.nrReq ∧ q'.nrCaravanReq = q.nrCaravanReq)
    (hr : ∀ t ∈ q.sendList, q'.reqs t = q.reqs t)
    (hreq : q'.request = q.request ∨ q'.request = none) : Counter c q' := by
  refine ⟨hlist ▸ h.nodup, ?_, ?_, ?_, ?_⟩
  · rw [hlist]
    intro t ht heq
    rcases hreq with hreq | hreq
    · exact h.active t ht (hreq ▸ heq)
    · rw [hreq] at heq
      cases heq
  · rw [hlist, hprio]
    exact h.prio
  · rw [hlist, countP_isDelayed (fun _ => hprio) hr, hn.1, hn.2]
    exact h.count
  · rw [hn.2]
    exact h.nonneg

theorem Counter.replace (h : Counter c q) (hout : Out q t) (r : NvmeTcpRequest) :
    Counter c { q with toSendQueue := q.modifyReq t fun _ => r } := by
  refine h.same rfl rfl ⟨rfl, rfl⟩ (fun u hu => ?_) (.inl rfl)
  have hut : u ≠ t := fun he => hout.1 (he ▸ hu)
  simp [hut]

theorem Counter.locked (h : Counter c q) (hout : Out q t) (hfits : CountFits q) :
    Counter c (nvmeTcpQueueRequestLocked c t q).2 := by
  have hprio : (if c.qid ≤ c.numOnlineCpus then 0 else 1) = laneClass c := rfl
  set q₁ : NvmeTcpQueue :=
    { q with prioClass := laneClass c, sendList := q.sendList ++ [t] } with hq₁
  have hold : q.sendList.countP (isDelayed c q₁) = q.sendList.countP (isDelayed c q) :=
    countP_isDelayed (fun hne => (h.prio hne).symm) fun _ _ => rfl
  have hcount : (q.sendList ++ [t]).countP (isDelayed c q₁) =
      q.sendList.countP (isDelayed c q) + if isDelayed c q₁ t then 1 else 0 := by
    rw [List.countP_append, List.countP_singleton, hold]
  have hall : ∀ (n : Int32) timer set, n.toInt = q.nrReq.toInt +
    (if isDelayed c q₁ t then 1 else 0) →
      Counter c { q₁ with nrReq := n, doorbellTimer := timer, timerSet := set } := by
    intro n timer set hn
    refine ⟨?_, ?_, fun _ => rfl, ?_, h.nonneg⟩
    · exact List.nodup_append.2 ⟨h.nodup, List.nodup_singleton t, fun a ha b hb => by
        rw [List.mem_singleton.1 hb]
        exact fun heq => hout.1 (heq ▸ ha)⟩
    · intro u hu
      rcases List.mem_append.1 hu with hu | hu
      · exact h.active u hu
      · rw [List.mem_singleton.1 hu]
        exact hout.2
    · have hq := h.count
      change n.toInt = ((q.sendList ++ [t]).countP (isDelayed c q₁) : ℤ) + q.nrCaravanReq.toInt
      rw [hcount, hn, hq]
      push_cast
      ring
  unfold nvmeTcpQueueRequestLocked
  simp only [hprio, ← hq₁]
  split_ifs with hdel harm
  · exact hall _ _ _ (by rw [if_pos hdel]; exact toInt_succ hfits)
  · exact hall (q.nrReq + 1) q.doorbellTimer q.timerSet
      (by rw [if_pos hdel]; exact toInt_succ hfits)
  · exact hall q.nrReq q.doorbellTimer q.timerSet (by rw [if_neg hdel, add_zero])

/-- A request that is taken off goes from the one count to the other, and a caravan that is sent
away takes its count along. -/
theorem Counter.dequeue (h : Counter c q) : Counter c (nvmeTcpTrySendDequeue c q).2 := by
  obtain ⟨t, -, heq⟩ | ⟨t, rest, -, hlist, heq⟩ | ⟨-, hlist, -, -, heq⟩ | ⟨-, -, -, heq⟩ :=
    trySendDequeue_cases c q <;>
    rw [heq]
  · exact h
  · have hnd := h.nodup
    rw [hlist] at hnd
    have hprio := h.prio (by simp [hlist])
    have hcount := h.count
    rw [hlist, List.countP_cons] at hcount
    -- the request was counted before, so there is room for it in the caravan's count
    have htaken : isDelayed c q t = true → q.nrCaravanReq.toInt < 2 ^ 31 - 1 := by
      intro hdel
      have hlt := q.nrReq.toInt_lt
      rw [if_pos hdel] at hcount
      omega
    refine ⟨(List.nodup_cons.1 hnd).2, ?_, fun _ => hprio, ?_, ?_⟩
    · intro u hu heq
      cases heq
      exact (List.nodup_cons.1 hnd).1 hu
    · change q.nrReq.toInt = (rest.countP (isDelayed c q) : ℤ) + _
      rw [hcount]
      dsimp only
      split_ifs with hdel
      · rw [toInt_succ (htaken hdel)]
        push_cast
        ring
      · push_cast
        ring
    · have hnonneg := h.nonneg
      dsimp only
      split_ifs with hdel
      · rw [toInt_succ (htaken hdel)]
        omega
      · exact hnonneg
  · refine ⟨h.nodup, h.active, h.prio, ?_, le_rfl⟩
    have hcount := h.count
    rw [hlist] at hcount
    obtain heq : q.nrReq = q.nrCaravanReq := Int32.toInt_inj.1 (by simpa using hcount)
    dsimp only
    rw [hlist, heq, Int32.sub_self]
    rfl
  · exact h

theorem Counter.rest (h : Counter c q) (nospace : Bool) :
    Counter c (nvmeTcpTrySendRest c nospace q).2 := by
  unfold nvmeTcpTrySendRest
  dsimp only
  cases hreq : q.request with
  | none =>
    obtain ⟨hreqs, hnone⟩ :=
      trySendRest_none c I10_MAX_AGGREGATION_SIZE (i10HostLegacyPath c q) q.sendNow nospace hreq
    exact h.same rfl rfl ⟨rfl, rfl⟩ (fun u _ => congrFun hreqs u) (.inr hnone)
  | some t =>
    have htouch := trySendRest_touches c I10_MAX_AGGREGATION_SIZE
      (i10HostLegacyPath c q) q.sendNow nospace hreq
    exact h.same rfl rfl ⟨rfl, rfl⟩
      (fun u hu => htouch.others u fun he => h.active u hu (he ▸ hreq)) htouch.request

end Counter

section Runs

variable {c : Config} {s s' : HostState}

theorem Unused.out {q : NvmeTcpQueue} {t : ℕ} (h : Unused q t) : Out q t := ⟨h.1, h.2.1⟩

theorem Counter.submit {t : ℕ} (h : Counter c s.q) (hout : Out s.q t) (hfits : CountFits s.q)
    (r : NvmeTcpRequest) (pdu : List Byte) :
    Counter c (submit c s t r pdu).q := by
  rw [submit_q]
  exact (h.replace hout r).locked hout hfits

/-- No request is put on `send_list` when `nr_req` cannot count it. -/
def HostFits (s : HostState) : HostEvent → Prop
  | .queueRq _ _ => CountFits s.q
  | .handleR2t _ _ => CountFits s.q
  | _ => True

def ReuseFits (s : HostState) : ReuseEvent → Prop
  | .queueRq _ _ => CountFits s.q
  | .handleR2t _ _ => CountFits s.q
  | .recvData _ _ => True
  | .host e => HostFits s e

theorem Counter.hostStep {e : HostEvent} (h : Counter c s.q) (hfits : HostFits s e)
    (hstep : hostStep c s e = some s') : Counter c s'.q := by
  cases e with
  | queueRq t rq =>
    simp only [Host.hostStep, Option.ite_none_right_eq_some, Option.some.injEq] at hstep
    obtain ⟨hu, rfl⟩ := hstep
    exact h.submit hu.out hfits _ _
  | handleR2t t pdu =>
    simp only [Host.hostStep, Option.ite_none_right_eq_some] at hstep
    obtain ⟨hu, hstep⟩ := hstep
    split_ifs at hstep
    · obtain rfl := Option.some_inj.1 hstep
      exact h.submit hu.out hfits _ _
    · obtain rfl := Option.some_inj.1 hstep
      exact h.replace hu.out _
  | requestUnlocked i =>
    simp only [Host.hostStep] at hstep
    cases hcall : s.calls[i]? with
    | none => simp [hcall] at hstep
    | some noDelay =>
      simp only [hcall, Option.some.injEq] at hstep
      obtain rfl := hstep
      rcases queueRequestUnlocked_eq noDelay s.q with ⟨heq, hf⟩ | ⟨heq, hf⟩
      · simp only [heq, hf]
        exact h
      · simp only [heq, hf]
        exact h.same rfl rfl ⟨rfl, rfl⟩ (fun _ _ => rfl) (.inl rfl)
  | doorbellTimeout =>
    simp only [Host.hostStep, Option.ite_none_right_eq_some, Option.some.injEq] at hstep
    obtain ⟨-, rfl⟩ := hstep
    exact h.same rfl rfl ⟨rfl, rfl⟩ (fun _ _ => rfl) (.inl rfl)
  | dataReady =>
    obtain rfl := Option.some_inj.1 hstep
    exact h
  | writeSpace =>
    obtain rfl := Option.some_inj.1 hstep
    exact h.same rfl rfl ⟨rfl, rfl⟩ (fun _ _ => rfl) (.inl rfl)
  | workStart l =>
    simp only [Host.hostStep, Option.ite_none_right_eq_some, Option.some.injEq] at hstep
    obtain ⟨-, rfl⟩ := hstep
    exact h
  | sendDequeue l =>
    simp only [Host.hostStep, Option.ite_none_right_eq_some, Option.some.injEq] at hstep
    obtain ⟨-, rfl⟩ := hstep
    exact h.dequeue
  | sendRest l nospace replies =>
    simp only [Host.hostStep, Option.ite_none_right_eq_some, Option.some.injEq] at hstep
    obtain ⟨-, rfl⟩ := hstep
    have hq : Counter c { s.q with replies := replies } :=
      h.same rfl rfl ⟨rfl, rfl⟩ (fun _ _ => rfl) (.inl rfl)
    have hrest := hq.rest nospace
    split_ifs with hfail
    · -- the request is dropped, failed or not, and stays counted
      have hdrop : Counter c
          { (nvmeTcpTrySendRest c nospace { s.q with replies := replies }).2 with request := none } :=
        hrest.same rfl rfl ⟨rfl, rfl⟩ (fun _ _ => rfl) (.inr rfl)
      unfold sendFailed
      dsimp only
      split_ifs <;> exact hdrop
    · exact hrest
  | tryRecv l got expired =>
    simp only [Host.hostStep] at hstep
    split at hstep
    · split_ifs at hstep <;> (obtain rfl := Option.some_inj.1 hstep; exact h)
    · cases hstep

theorem Counter.step {e : ReuseEvent} (h : Counter c s.q) (hfits : ReuseFits s e)
    (hstep : reuseStep c s e = some s') : Counter c s'.q := by
  cases e with
  | queueRq t rq =>
    simp only [reuseStep, Option.ite_none_right_eq_some, Option.some.injEq] at hstep
    obtain ⟨hout, rfl⟩ := hstep
    exact h.submit hout hfits _ _
  | handleR2t t pdu =>
    simp only [reuseStep, Option.ite_none_right_eq_some] at hstep
    obtain ⟨hout, hstep⟩ := hstep
    split_ifs at hstep
    · obtain rfl := Option.some_inj.1 hstep
      exact h.submit hout hfits _ _
    · obtain rfl := Option.some_inj.1 hstep
      exact h.replace hout _
  | recvData t r =>
    simp only [reuseStep, Option.ite_none_right_eq_some, Option.some.injEq] at hstep
    obtain ⟨hout, rfl⟩ := hstep
    exact h.replace hout r
  | host e => exact h.hostStep hfits hstep

theorem counter_init (c : Config) : Counter c (reuseSystem c).init.q :=
  ⟨List.nodup_nil, by simp [reuseSystem, hostSystem, blankQueue], fun h => absurd rfl h, rfl,
    le_rfl⟩

end Runs

/-- `two_nr[0]` in `blk_mq_get_request`. -/
def batchRoom (q : NvmeTcpQueue) : Int32 := .ofInt Blk.BLK_SWITCH_TCP_BATCH - q.nrReq

theorem batchRoom_le {q : NvmeTcpQueue} (h : 0 ≤ q.nrReq.toInt) : (batchRoom q).toInt ≤ 16 := by
  have hlt := q.nrReq.toInt_lt
  have h16 : (Int32.ofInt Blk.BLK_SWITCH_TCP_BATCH).toInt = 16 := rfl
  rw [batchRoom, Int32.toInt_sub, h16, Int.bmod_eq_of_le] <;> omega

/-- Whatever happens on a host queue, send errors included: as long as `nr_req` does not overflow,
it is the number of delayable requests on `send_list` and in the caravan, so no queue has more than
a batch of room. -/
theorem doorbell_counter_exact (c : Config) {es : List ReuseEvent} {s : HostState}
    (h : (reuseSystem c).RunIn ReuseFits es s) :
    s.q.nrReq.toInt = s.q.sendList.countP (isDelayed c s.q) + s.q.nrCaravanReq.toInt ∧
      0 ≤ s.q.nrCaravanReq.toInt ∧ (batchRoom s.q).toInt ≤ 16 := by
  have hok : Counter c s.q := h.invariant (I := fun s => Counter c s.q) (counter_init c)
    fun s e s' hI hfits hstep => hI.step hfits hstep
  have hcount := hok.count
  have hnonneg := hok.nonneg
  exact ⟨hcount, hnonneg, batchRoom_le (by omega)⟩

/-- Two reads are in the caravan, its flush fails, and one of their tags is used again at once. -/
def failedFlushRun : List ReuseEvent :=
  [.queueRq 0 sampleRead, .queueRq 1 sampleRead, .host .doorbellTimeout, .host (.workStart .thru),
    .host (.sendDequeue .thru), .host (.sendRest .thru false []),
    .host (.tryRecv .thru false false), .host (.sendDequeue .thru),
    .host (.sendRest .thru false []), .host (.tryRecv .thru false false),
    .host (.sendDequeue .thru), .host (.sendRest .thru false [.ret (-EPIPE)]),
    .queueRq 0 sampleRead]

instance (q : NvmeTcpQueue) : Decidable (CountFits q) := inferInstanceAs (Decidable (_ < _))

instance (s : HostState) : (e : HostEvent) → Decidable (HostFits s e)
  | .queueRq _ _ | .handleR2t _ _ => inferInstanceAs (Decidable (CountFits s.q))
  | .requestUnlocked _ | .doorbellTimeout | .dataReady | .writeSpace | .workStart _ | .sendDequeue _
  | .sendRest _ _ _ | .tryRecv _ _ _ => isTrue trivial

instance (s : HostState) : (e : ReuseEvent) → Decidable (ReuseFits s e)
  | .queueRq _ _ | .handleR2t _ _ => inferInstanceAs (Decidable (CountFits s.q))
  | .recvData _ _ => isTrue trivial
  | .host e => inferInstanceAs (Decidable (HostFits s e))

theorem doorbell_counter_exact_sample : ∃ s,
    (reuseSystem sampleConfig).RunIn ReuseFits failedFlushRun s ∧ s.q.sendList = [0] ∧
      s.q.caravanIovs ≠ [] ∧ s.q.nrReq = 1 ∧
      s.q.nrReq.toInt = s.q.sendList.countP (isDelayed sampleConfig s.q) +
      s.q.nrCaravanReq.toInt := by
  obtain ⟨s, hrun, hlist, hcar, hreq⟩ : ∃ s,
    (reuseSystem sampleConfig).RunIn ReuseFits failedFlushRun s ∧
      s.q.sendList = [0] ∧ s.q.caravanIovs ≠ [] ∧ s.q.nrReq = 1 :=
    Runs.System.exists_runIn_of_execIn
      (fun s : HostState => s.q.sendList = [0] ∧ s.q.caravanIovs ≠ [] ∧ s.q.nrReq = 1)
        (by decide +kernel)
  exact ⟨s, hrun, hlist, hcar, hreq, (doorbell_counter_exact sampleConfig hrun).1⟩

section Overflow

/-- A request is submitted while the worker runs, and the worker takes it on before it looks for
another one. -/
def served (t : ℕ) (rq : Rq) : List HostEvent :=
  [.queueRq t rq, .requestUnlocked 0, .sendDequeue .thru, .sendRest .thru false [],
    .tryRecv .thru false true, .workStart .thru]

/-- Reads and flushes by turns, on three tags. A flush sends the caravan away, and the worker never
finds `send_list` empty. -/
def busyRun : ℕ → List HostEvent
  | 0 => [.dataReady, .workStart .thru]
  | n + 1 => busyRun n ++ served (n % 2) sampleRead ++ served 2 sampleFlush

variable {c : Config} {es : List HostEvent} {s s' : HostState} {l : List ℕ} {t : ℕ} {rq : Rq}

structure Reached (c : Config) (es : List HostEvent) (s : HostState) : Prop where
  run : (hostSystem c).Run es s
  door : Doorbell c s

theorem Reached.snoc (hc : Thru c) {e : HostEvent} (h : Reached c es s)
    (hstep : hostStep c s e = some s') (htakes : SocketTakes s e) (hcounted : Counted c s e) :
    Reached c (es ++ [e]) s' :=
  ⟨Runs.System.RunIn.snoc h.run trivial hstep, h.door.step hc htakes hcounted hstep⟩

structure Looking (c : Config) (es : List HostEvent) (l : List ℕ) (s : HostState) :
    Prop extends Reached c es s where
  pc : (s.work .thru).pc = .send
  calls : s.calls = []
  request : s.q.request = none
  list : s.q.sendList = l

theorem Looking.submitted (hc : Thru c) (h : Looking c es [] s) (hu : Unused s.q t) (rq : Rq) :
    ∃ s', Looking c (es ++ [.queueRq t rq, .requestUnlocked 0]) [t] s' ∧
      s'.q.toSendQueue = s.q.modifyReq t (fun _ => nvmeTcpSetupCmdPdu c rq (s.q.reqs t)) ∧
      s'.q.nrCaravanReq = s.q.nrCaravanReq := by
  set r := nvmeTcpSetupCmdPdu c rq (s.q.reqs t)
  set q₀ : NvmeTcpQueue := { s.q with toSendQueue := s.q.modifyReq t fun _ => r }
  obtain ⟨hsq, hlist, -, hcar⟩ := queueRequestLocked_fields c t q₀
  set p := nvmeTcpQueueRequestLocked c t q₀
  set s₁ := submit c s t r (submittedCmd c rq r)
  have hstep₁ : hostStep c s (.queueRq t rq) = some s₁ := if_pos hu
  have hlist' : p.2.sendList = [t] := by rw [hlist]; exact congrArg (· ++ [t]) h.list
  have hcalls : s₁.calls = [p.1] := congrArg (· ++ [p.1]) h.calls
  set s₂ : HostState := { s₁ with q := (nvmeTcpQueueRequestUnlocked p.1 p.2).2, calls := [] }
  have hstep₂ : hostStep c s₁ (.requestUnlocked 0) =
      some (if (nvmeTcpQueueRequestUnlocked p.1 p.2).1 then s₂.kick else s₂) := by
    simp only [hostStep, hcalls]
    rfl
  have hreach := (h.snoc hc hstep₁ trivial trivial).snoc hc hstep₂ trivial trivial
  rw [List.append_assoc] at hreach
  have hsame : s₂.q.toSendQueue = q₀.toSendQueue ∧ s₂.q.sendList = [t] ∧
      s₂.q.nrCaravanReq = s.q.nrCaravanReq := by
    rcases queueRequestUnlocked_eq p.1 p.2 with ⟨heq, -⟩ | ⟨heq, -⟩ <;> simp only [s₂, heq] <;>
      exact ⟨hsq, hlist', hcar⟩
  obtain ⟨hsq₂, hlist₂, hcar₂⟩ := hsame
  have hnone : s₂.q.request = none := by rw [hsq₂]; exact h.request
  have hpc : (s₂.work .thru).pc = .send := h.pc
  split_ifs at hreach with hkick
  · have hprio : s₂.q.prioClass = 0 := hreach.door.ok.prio
    have hpc' : (s₂.kick.work .thru).pc =
      .send := by rw [kick_thru hprio]; simpa [HostState.queueWork] using hpc
    exact ⟨s₂.kick, ⟨hreach, hpc', rfl, hnone, hlist₂⟩, hsq₂, hcar₂⟩
  · exact ⟨s₂, ⟨hreach, hpc, rfl, hnone, hlist₂⟩, hsq₂, hcar₂⟩

theorem flushIf_room {q : SendQueue} {aggr : ℕ} {flush : Bool} (haggr : 0 < aggr)
    (h : flush = false → q.i10HostIsCaravanFull aggr = false) :
    (q.flushIf flush).i10HostIsCaravanFull aggr = false := by
  cases flush with
  | false => exact h rfl
  | true =>
    simp [SendQueue.flushIf, SendQueue.flushed, caravanSent, SendQueue.i10HostIsCaravanFull,
      I10_CARAVAN_CAPACITY]
    omega

theorem trySendRest_cmd (hc : Thru c) {q : NvmeTcpQueue} (h : QueueOk c q) (hrep : q.replies = [])
    (hreq : q.request = some t) (hst : (q.reqs t).state = .cmdPdu)
    (hi : (q.reqs t).hasInlineData c = false)
    (hroom : q.sendNow = false → q.i10HostIsCaravanFull I10_MAX_AGGREGATION_SIZE = false) :
    nvmeTcpTrySendRest c false q =
      (1, { q with toSendQueue := (q.flushIf q.sendNow).putCmd c t }) := by
  have hoff : (q.reqs t).offset = 0 := by
    have hready := (h.active t hreq).1.2
    simp only [hst] at hready
    exact hready.1
  have hall := @trySendRest_all c I10_MAX_AGGREGATION_SIZE false q.sendNow false q.toSendQueue hrep
    h.caravanBytes_ne
  have hcmd := @trySendReq_cmd c I10_MAX_AGGREGATION_SIZE t (q.flushIf q.sendNow)
    (by simpa using hst)
    (by simpa using hoff) (flushIf_room (by decide) hroom) (by simpa using hi)
  unfold nvmeTcpTrySendRest
  rw [hc.legacy h.prio, hall]
  simp [hreq, hcmd]

theorem putCmd_sendNow (q : SendQueue) (hi : (q.reqs t).hasInlineData c = false) :
    (q.putCmd c t).sendNow = (q.sendNow || i10HostIsNodelayPath (q.reqs t)) := by
  unfold SendQueue.putCmd SendQueue.putHdr SendQueue.digestHdr
  simp only [hi, Bool.false_eq_true, if_false]
  split_ifs <;> rfl

theorem flushIf_sendNow (q : SendQueue) : (q.flushIf q.sendNow).sendNow = false := by
  cases h : q.sendNow with
  | false => exact h
  | true => rfl

theorem Looking.dequeued (hc : Thru c) (h : Looking c es [t] s) :
    ∃ s', Reached c (es ++ [.sendDequeue .thru]) s' ∧ (s'.work .thru).pc = .flush ∧ s'.calls = [] ∧
      s'.q = { s.q with
        sendList := []
        nrCaravanReq := s.q.nrCaravanReq + if i10HostIsNodelayPath (s.q.reqs t) then 0 else 1
        request := some t } := by
  have hdel := hc.isDelayed h.door.ok.prio t
  set q : NvmeTcpQueue := { s.q with
    sendList := []
    nrCaravanReq := s.q.nrCaravanReq + if i10HostIsNodelayPath (s.q.reqs t) then 0 else 1
    request := some t }
  have hdeq : nvmeTcpTrySendDequeue c s.q = (false, q) := by
    cases hn : i10HostIsNodelayPath (s.q.reqs t) <;>
      simp [nvmeTcpTrySendDequeue, h.request, h.list, hdel, hn, q]
  have hstep : hostStep c s (.sendDequeue .thru) = some ({ s with q := q }.setPc .thru .flush) := by
    simp only [hostStep, h.pc, if_true, hdeq]
    rfl
  have hstale : ¬ Stale s.q := by
    rintro ⟨-, hnil, -⟩
    rw [h.list] at hnil
    cases hnil
  exact ⟨_, h.snoc hc hstep trivial hstale, by simp, h.calls, rfl⟩

theorem Reached.sent (hc : Thru c) (h : Reached c es s) (hpc : (s.work .thru).pc = .flush)
    (hreq : s.q.request = some t) (hst : (s.q.reqs t).state = .cmdPdu)
    (hi : (s.q.reqs t).hasInlineData c = false)
    (hroom : s.q.sendNow = false → s.q.i10HostIsCaravanFull I10_MAX_AGGREGATION_SIZE = false) :
    ∃ s', Reached c (es ++ [.sendRest .thru false []]) s' ∧
      (s'.work .thru).pc = .recv 1 ∧ s'.calls = s.calls ∧ s'.q = { s.q with
        toSendQueue := ({ s.q.toSendQueue with replies := [] }.flushIf s.q.sendNow).putCmd c t
          } := by
  set q : NvmeTcpQueue := { s.q with replies := [] }
  have hrest := trySendRest_cmd (q := q) hc (h.door.ok.withSocket _ _) rfl hreq hst hi hroom
  have hstep : hostStep c s (.sendRest .thru false []) =
      some ({ s with q := { q with toSendQueue := (q.flushIf q.sendNow).putCmd c t } }.setPc .thru
        (.recv 1)) := by
    simp only [hostStep, hpc, if_true]
    rw [show nvmeTcpTrySendRest c false { s.q with replies := [] } = _ from hrest]
    rfl
  exact ⟨_, h.snoc hc hstep ⟨rfl, rfl⟩ trivial, by simp, rfl, rfl⟩

/-- With nothing to receive the worker is queued again at once. -/
theorem Reached.again (hc : Thru c) (h : Reached c es s) (hpc : (s.work .thru).pc = .recv 1) :
    ∃ s', Reached c (es ++ [.tryRecv .thru false true, .workStart .thru]) s' ∧
      (s'.work .thru).pc = .send ∧ s'.calls = s.calls ∧ s'.q = s.q := by
  set s₁ : HostState := (s.setPc .thru .idle).queueWork .thru
  have hstep₁ : hostStep c s (.tryRecv .thru false true) = some s₁ := by
    simp only [hostStep, hpc]
    rfl
  have hstep₂ : hostStep c s₁ (.workStart .thru) =
      some { s₁ with work := Function.update s₁.work .thru ⟨false, .send⟩ } := by
    have hwork : s₁.work .thru = ⟨true, .idle⟩ := by simp [s₁, HostState.queueWork]
    simp only [hostStep, hwork, and_self, if_true]
  have hreach := (h.snoc hc hstep₁ trivial trivial).snoc hc hstep₂ trivial trivial
  rw [List.append_assoc] at hreach
  exact ⟨_, hreach, by simp, rfl, rfl⟩

theorem Looking.taken (hc : Thru c) (h : Looking c es [t] s) (hst : (s.q.reqs t).state = .cmdPdu)
    (hi : (s.q.reqs t).hasInlineData c = false)
    (hroom : s.q.sendNow = false → s.q.i10HostIsCaravanFull I10_MAX_AGGREGATION_SIZE = false) :
    ∃ s', Looking c (es ++ [.sendDequeue .thru, .sendRest .thru false [], .tryRecv .thru false true,
        .workStart .thru]) [] s' ∧
      s'.q.caravanIovs = (if s.q.sendNow then [] else s.q.caravanIovs) ++ [hdrKvec c t 72] ∧
      s'.q.sendNow = i10HostIsNodelayPath (s.q.reqs t) ∧
      s'.q.nrCaravanReq =
        s.q.nrCaravanReq + if i10HostIsNodelayPath (s.q.reqs t) then 0 else 1 := by
  obtain ⟨s₁, h₁, hpc₁, hcalls₁, hq₁⟩ := h.dequeued hc
  obtain ⟨s₂, h₂, hpc₂, hcalls₂, hq₂⟩ :=
    h₁.sent hc hpc₁ (by rw [hq₁]) (by rw [hq₁]; exact hst) (by rw [hq₁]; exact hi)
    (by rw [hq₁]; exact hroom)
  obtain ⟨s₃, h₃, hpc₃, hcalls₃, hq₃⟩ := h₂.again hc hpc₂
  simp only [List.append_assoc, List.cons_append, List.nil_append] at h₃
  -- the queue that the command goes into
  set q : SendQueue := { s₁.q.toSendQueue with replies := [] }.flushIf s₁.q.sendNow
  have hreqs : q.reqs t = s.q.reqs t := by
    simp only [q, flushIf_reqs]
    rw [hq₁]
  have hi' : (q.reqs t).hasInlineData c = false := by rw [hreqs]; exact hi
  have hempty : q.sendNow = false := flushIf_sendNow { s₁.q.toSendQueue with replies := [] }
  have hcar : q.caravanIovs = if s.q.sendNow then [] else s.q.caravanIovs := by
    simp only [q]
    rw [hq₁]
    cases s.q.sendNow <;> rfl
  have hsend : s₃.q.toSendQueue = q.putCmd c t := by rw [hq₃, hq₂]
  refine ⟨s₃, ⟨h₃, hpc₃, ?_, ?_, ?_⟩, ?_, ?_, ?_⟩
  · rw [hcalls₃, hcalls₂, hcalls₁]
  · rw [hsend, putCmd_request, if_neg (Bool.eq_false_iff.1 hi')]
  · rw [hq₃, hq₂, hq₁]
  · rw [hsend, (putCmd_caravan c t q).iovs, ← hcar]
    rfl
  · rw [hsend, putCmd_sendNow _ hi', hempty, hreqs]
    rfl
  · rw [hq₃, hq₂, hq₁]

theorem Looking.served (hc : Thru c) (h : Looking c es [] s) (rq : Rq) (hu : Unused s.q t)
    (hi : (nvmeTcpSetupCmdPdu c rq (s.q.reqs t)).hasInlineData c = false)
    (hroom : s.q.sendNow = false → s.q.i10HostIsCaravanFull I10_MAX_AGGREGATION_SIZE = false) :
    ∃ s', Looking c (es ++ served t rq) [] s' ∧
      s'.q.caravanIovs = (if s.q.sendNow then [] else s.q.caravanIovs) ++ [hdrKvec c t 72] ∧
      s'.q.sendNow = i10HostIsNodelayPath (nvmeTcpSetupCmdPdu c rq (s.q.reqs t)) ∧
      s'.q.nrCaravanReq = s.q.nrCaravanReq +
        if i10HostIsNodelayPath (nvmeTcpSetupCmdPdu c rq (s.q.reqs t)) then 0 else 1 := by
  obtain ⟨s₁, h₁, hsq, hcar⟩ := h.submitted hc hu rq
  have hself : s₁.q.reqs t = nvmeTcpSetupCmdPdu c rq
    (s.q.reqs t) := by rw [hsq, modifyReq_reqs_self]
  have hst : (s₁.q.reqs t).state = .cmdPdu := by rw [hself]; rfl
  obtain ⟨s₂, h₂, hiovs, hnow, hcount⟩ :=
    h₁.taken hc hst (by rw [hself]; exact hi) (by rw [hsq]; exact hroom)
  rw [hsq] at hiovs
  rw [hself] at hnow hcount
  rw [hcar] at hcount
  refine ⟨s₂, ?_, hiovs, hnow, hcount⟩
  simpa only [Host.served, List.append_assoc, List.cons_append, List.nil_append] using h₂

theorem Looking.unused (h : Looking c es [] s)
    (hk : ∀ k ∈ s.q.caravanIovs, ∀ off, k.base ≠ .pdu t off) :
    Unused s.q t :=
  ⟨by rw [h.list]; exact List.not_mem_nil, by rw [h.request]; exact Option.some_ne_none t |>.symm,
    hk⟩

theorem Looking.room (h : Looking c es l s) (hshort : s.q.caravanIovs.length < 32)
    (hlen : (s.q.caravanIovs.map Kvec.len).sum < 65536) :
    s.q.i10HostIsCaravanFull I10_MAX_AGGREGATION_SIZE = false := by
  have hcar := h.door.ok.caravan
  have hsum := hcar.len
  have hmapped := hcar.mapped
  simp only [SendQueue.i10HostIsCaravanFull, Bool.or_eq_false_iff, decide_eq_false_iff_not]
  refine ⟨⟨?_, ?_⟩, ?_⟩
  · unfold I10_CARAVAN_CAPACITY
    omega
  · unfold I10_MAX_AGGREGATION_SIZE
    omega
  · unfold I10_MAX_AGGREGATION_SIZE
    omega

/-- `n` reads later `nr_caravan_req` has been counted up `n` times. -/
theorem busyRun_looking (n : ℕ) : ∃ s, Looking sampleConfig (busyRun n) [] s ∧
    s.q.nrCaravanReq = Int32.ofNat n ∧ (s.q.sendNow = false → s.q.caravanIovs = []) ∧
      ∀ k ∈ s.q.caravanIovs, ∀ off, k.base ≠ .pdu (n % 2) off := by
  have hc := sampleConfig_thru
  induction n with
  | zero =>
    have hinit : Reached sampleConfig [] (hostSystem sampleConfig).init := ⟨.nil, Doorbell.init _⟩
    have hready := hinit.snoc (e := .dataReady) hc rfl trivial trivial
    have hstart := hready.snoc (e := .workStart .thru) hc rfl trivial trivial
    exact ⟨_, ⟨hstart, rfl, rfl, rfl, rfl⟩, rfl, fun _ => rfl,
      fun k hk => absurd hk List.not_mem_nil⟩
  | succ n ih =>
    obtain ⟨s, h, hcount, hfresh, hfree⟩ := ih
    obtain ⟨s₁, h₁, hiovs₁, hnow₁, hcount₁⟩ :=
      h.served (t := n % 2) hc sampleRead (h.unused hfree) rfl
      fun hs => h.room (by simp [hfresh hs]) (by simp [hfresh hs])
    have hk₁ : s₁.q.caravanIovs = [hdrKvec sampleConfig (n % 2) 72] := by
      rw [hiovs₁]
      cases hs : s.q.sendNow with
      | false => rw [hfresh hs]; rfl
      | true => rfl
    have hfree₁ : ∀ k ∈ s₁.q.caravanIovs, ∀ off, k.base ≠ .pdu 2 off := by
      have hne : n % 2 ≠ 2 := by omega
      simp [hk₁, hdrKvec, hne]
    obtain ⟨s₂, h₂, hiovs₂, hnow₂, hcount₂⟩ :=
      h₁.served (t := 2) hc sampleFlush (h₁.unused hfree₁) rfl
      fun _ => h₁.room (by simp [hk₁]) (by simp [hk₁, hdrKvec, nvmeTcpHdgstLen, sampleConfig])
    have hs₂ : s₂.q.sendNow = true := hnow₂
    refine ⟨s₂, h₂, ?_, fun hs => absurd hs (by simp [hs₂]), ?_⟩
    · have hone : s₁.q.nrCaravanReq = Int32.ofNat n + 1 := by rw [hcount₁, hcount]; rfl
      have hzero : s₂.q.nrCaravanReq = s₁.q.nrCaravanReq + 0 := hcount₂
      rw [hzero, Int32.add_zero, hone, Int32.ofNat_add]
      rfl
    · have hs₁ : s₁.q.sendNow = false := hnow₁
      have hne : n % 2 ≠ (n + 1) % 2 := by omega
      have h2 : 2 ≠ (n + 1) % 2 := by omega
      simp [hiovs₂, hs₁, hk₁, hdrKvec, hne, h2]

theorem run_reuse (h : (hostSystem c).Run es s) : (reuseSystem c).Run (es.map .host) s := by
  induction h with
  | nil => exact .nil
  | snoc _ _ hstep ih =>
    rw [List.map_append]
    exact Runs.System.RunIn.snoc ih trivial hstep

theorem busyRun_counts (n : ℕ) : ∃ s, (reuseSystem sampleConfig).Run ((busyRun n).map .host) s ∧
    s.q.sendList = [] ∧ s.q.request = none ∧ s.q.nrReq = Int32.ofNat n ∧
      s.q.nrCaravanReq = Int32.ofNat n := by
  obtain ⟨s, h, hcar, -, -⟩ := busyRun_looking n
  have hcount := h.door.count
  rw [h.list, hcar] at hcount
  exact ⟨s, run_reuse h.run, h.list, h.request, by simpa using hcount, hcar⟩

/-- With 2³¹ + 32 reads both counts have gone past the end of an `int`, and the queue seems to have
room for 2³¹ - 16 more. -/
theorem doorbell_counter_overflows : ∃ s,
    (reuseSystem sampleConfig).Run ((busyRun (2 ^ 31 + 32)).map .host) s ∧ s.q.sendList = [] ∧
      s.q.request = none ∧ ¬ 0 ≤ s.q.nrReq.toInt ∧ ¬ 0 ≤ s.q.nrCaravanReq.toInt ∧
      ¬ (batchRoom s.q).toInt ≤ 16 := by
  obtain ⟨s, hrun, hlist, hreq, hnr, hcar⟩ := busyRun_counts (2 ^ 31 + 32)
  refine ⟨s, hrun, hlist, hreq, ?_, ?_, ?_⟩
  · rw [hnr]
    decide
  · rw [hcar]
    decide
  · rw [batchRoom, hnr]
    decide

end Overflow

end BlkSwitch.Host
