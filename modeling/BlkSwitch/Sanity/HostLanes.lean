import BlkSwitch.Sanity.HostQueue

/-! What a step of the host does to the class of the queue, the doorbell timer and the two workers,
the requests and the caravan left aside. -/

namespace BlkSwitch.Host

variable {c : Config} {s s' : HostState}

def laneOf (q : NvmeTcpQueue) : Lane := if i10HostIsLatency q then .lat else .thru

def laneClass (c : Config) : ℕ := if c.qid ≤ c.numOnlineCpus then 0 else 1

def Off (s : HostState) (l : Lane) : Prop := s.work l = ⟨false, .idle⟩

instance (s : HostState) (l : Lane) : Decidable (Off s l) := inferInstanceAs (Decidable (_ = _))

def kicked (s : HostState) : Lane → Work :=
  Function.update s.work (laneOf s.q) { s.work (laneOf s.q) with queued := true }

structure Quiet (s s' : HostState) : Prop where
  prio : s'.q.prioClass = s.q.prioClass
  timer : s'.q.doorbellTimer = s.q.doorbellTimer
  calls : s'.calls = s.calls

/-- A request has gone through the locked part of `nvme_tcp_queue_request`. The timer is only
started for a queue in the throughput class. -/
structure Submits (c : Config) (s s' : HostState) : Prop where
  prio : s'.q.prioClass = laneClass c
  timer : s'.q.doorbellTimer = true → s.q.doorbellTimer = true ∨ c.qid ≤ c.numOnlineCpus
  work : s'.work = s.work
  calls : ∃ noDelay, s'.calls = s.calls ++ [noDelay]

structure Works (l : Lane) (s s' : HostState) : Prop extends Quiet s s' where
  on : ¬ Off s l
  other : ∀ l', l' ≠ l → s'.work l' = s.work l'

inductive LaneStep (c : Config) (s s' : HostState) : HostEvent → Prop
  | queueRq {t : ℕ} {rq : Rq} : Submits c s s' → LaneStep c s s' (.queueRq t rq)
  | answer {t : ℕ} {pdu : NvmeTcpR2tPdu} : (nvmeTcpSetupH2cDataPdu c (s.q.reqs t) pdu).1 = true →
      Submits c s s' → LaneStep c s s' (.handleR2t t pdu)
  | refuse {t : ℕ} {pdu : NvmeTcpR2tPdu} : (nvmeTcpSetupH2cDataPdu c (s.q.reqs t) pdu).1 = false →
      Quiet s s' → s'.work = s.work → LaneStep c s s' (.handleR2t t pdu)
  | unlocked {i : ℕ} : i < s.calls.length → s'.calls = s.calls.eraseIdx i →
    s'.q.prioClass = s.q.prioClass →
      (s'.q.doorbellTimer = true → s.q.doorbellTimer = true) → s'.work = s.work ∨
        s'.work = kicked s →
      LaneStep c s s' (.requestUnlocked i)
  | timeout : s.q.doorbellTimer = true → s'.q.doorbellTimer = false →
    s'.q.prioClass = s.q.prioClass →
      s'.calls = s.calls → s'.work = kicked s → LaneStep c s s' .doorbellTimeout
  | dataReady : Quiet s s' → s'.work = kicked s → LaneStep c s s' .dataReady
  | writeSpace : Quiet s s' → s'.work = kicked s → LaneStep c s s' .writeSpace
  | workStart {l : Lane} : (s.work l).queued = true →
    (s.work l).pc = .idle → Works l s s' → LaneStep c s s' (.workStart l)
  | sendDequeue {l : Lane} : (s.work l).pc = .send → Works l s s' → LaneStep c s s' (.sendDequeue l)
  | sendRest {l : Lane} {nospace : Bool} {replies : List SockReply} :
    (s.work l).pc = .flush → Works l s s' →
      LaneStep c s s' (.sendRest l nospace replies)
  | tryRecv {l : Lane} {got expired : Bool} {result : ℤ} :
    (s.work l).pc = .recv result → Works l s s' →
      LaneStep c s s' (.tryRecv l got expired)

theorem setPc_other {l l' : Lane} (h : l' ≠ l) (s : HostState) (pc : IoWorkPc) :
    (s.setPc l pc).work l' = s.work l' :=
  Function.update_of_ne h _ _

theorem queueWork_other {l l' : Lane} (h : l' ≠ l) (s : HostState) :
    (s.queueWork l).work l' = s.work l' :=
  Function.update_of_ne h _ _

theorem not_off_of_pc {l : Lane} (h : (s.work l).pc ≠ .idle) : ¬ Off s l :=
  fun hoff => h (by rw [hoff])

/-- A latency queue is on the legacy path, which has no doorbell. -/
theorem queueRequestLocked_timer (c : Config) (t : ℕ) (q : NvmeTcpQueue) :
    (nvmeTcpQueueRequestLocked c t q).2.doorbellTimer = true → q.doorbellTimer = true ∨
      c.qid ≤ c.numOnlineCpus := by
  intro h
  by_cases hle : c.qid ≤ c.numOnlineCpus
  · exact .inr hle
  · left
    unfold nvmeTcpQueueRequestLocked at h
    simpa [isDelayed, i10HostLegacyPath, i10HostIsLatency, hle] using h

theorem submits_submit (c : Config) (s : HostState) (t : ℕ) (r : NvmeTcpRequest) (pdu : List Byte) :
    Submits c s (submit c s t r pdu) := by
  constructor
  · exact (queueRequestLocked_fields c t _).2.2.1
  · rw [submit_q]
    exact queueRequestLocked_timer c t _
  · rfl
  · exact ⟨_, rfl⟩

theorem trySendDequeue_quiet (c : Config) (q : NvmeTcpQueue) :
    (nvmeTcpTrySendDequeue c q).2.prioClass = q.prioClass ∧
      (nvmeTcpTrySendDequeue c q).2.doorbellTimer = q.doorbellTimer := by
  rcases trySendDequeue_cases c
    q with ⟨t, -, h⟩ | ⟨t, rest, -, -, h⟩ | ⟨-, -, -, -, h⟩ | ⟨-, -, -, h⟩ <;>
    (rw [h]; exact ⟨rfl, rfl⟩)

theorem sendFailed_quiet (s : HostState) (l : Lane) (result : ℤ) :
    Quiet s (sendFailed s l result) ∧ ∀ l', l' ≠ l →
      (sendFailed s l result).work l' = s.work l' := by
  unfold sendFailed
  dsimp only
  split_ifs <;> exact ⟨⟨rfl, rfl, rfl⟩, fun l' h => setPc_other h _ _⟩

theorem hostStep_lanes {e : HostEvent} (hstep : hostStep c s e = some s') : LaneStep c s s' e := by
  cases e with
  | queueRq t rq =>
    simp only [hostStep, Option.ite_none_right_eq_some, Option.some.injEq] at hstep
    obtain ⟨-, rfl⟩ := hstep
    exact .queueRq (submits_submit c s t _ _)
  | handleR2t t pdu =>
    simp only [hostStep, Option.ite_none_right_eq_some] at hstep
    obtain ⟨-, hstep⟩ := hstep
    split_ifs at hstep with hacc
    · cases hstep
      exact .answer hacc (submits_submit c s t _ _)
    · cases hstep
      exact .refuse (by simpa using hacc) ⟨rfl, rfl, rfl⟩ rfl
  | requestUnlocked i =>
    simp only [hostStep] at hstep
    cases hcall : s.calls[i]? with
    | none => simp [hcall] at hstep
    | some noDelay =>
      simp only [hcall, Option.some.injEq] at hstep
      subst hstep
      have hi := (List.getElem?_eq_some_iff.1 hcall).1
      rcases queueRequestUnlocked_eq noDelay s.q with ⟨heq, hf⟩ | ⟨heq, hf⟩
      · simp only [heq, hf, Bool.false_eq_true, ↓reduceIte]
        exact .unlocked hi rfl rfl id (.inl rfl)
      · simp only [heq, hf, ↓reduceIte]
        exact .unlocked hi rfl rfl (fun h => by cases h) (.inr rfl)
  | doorbellTimeout =>
    simp only [hostStep, Option.ite_none_right_eq_some, Option.some.injEq] at hstep
    obtain ⟨htimer, rfl⟩ := hstep
    exact .timeout htimer rfl rfl rfl rfl
  | dataReady =>
    cases hstep
    exact .dataReady ⟨rfl, rfl, rfl⟩ rfl
  | writeSpace =>
    cases hstep
    exact .writeSpace ⟨rfl, rfl, rfl⟩ rfl
  | workStart l =>
    simp only [hostStep, Option.ite_none_right_eq_some, Option.some.injEq] at hstep
    obtain ⟨⟨hq, hpc⟩, rfl⟩ := hstep
    refine .workStart hq hpc
      ⟨⟨rfl, rfl, rfl⟩, fun hoff => ?_, fun l' hl => Function.update_of_ne hl _ _⟩
    rw [hoff] at hq
    cases hq
  | sendDequeue l =>
    simp only [hostStep, Option.ite_none_right_eq_some, Option.some.injEq] at hstep
    obtain ⟨hpc, rfl⟩ := hstep
    obtain ⟨hprio, htimer⟩ := trySendDequeue_quiet c s.q
    exact .sendDequeue hpc
      ⟨⟨hprio, htimer, rfl⟩, not_off_of_pc (by rw [hpc]; decide), fun l' hl => setPc_other hl _ _⟩
  | sendRest l nospace replies =>
    simp only [hostStep, Option.ite_none_right_eq_some, Option.some.injEq] at hstep
    obtain ⟨hpc, rfl⟩ := hstep
    have hon : ¬ Off s l := not_off_of_pc (by rw [hpc]; decide)
    split_ifs
    · obtain ⟨hquiet, hother⟩ := sendFailed_quiet
        { s with q := (nvmeTcpTrySendRest c nospace { s.q with replies := replies }).2 } l
        (nvmeTcpTrySendRest c nospace { s.q with replies := replies }).1
      exact .sendRest hpc ⟨⟨hquiet.prio, hquiet.timer, hquiet.calls⟩, hon, hother⟩
    · exact .sendRest hpc ⟨⟨rfl, rfl, rfl⟩, hon, fun l' hl => setPc_other hl _ _⟩
  | tryRecv l got expired =>
    simp only [hostStep] at hstep
    split at hstep
    · next result hpc =>
      have hon : ¬ Off s l := not_off_of_pc (by rw [hpc]; simp)
      split_ifs at hstep
      · cases hstep
        exact .tryRecv hpc ⟨⟨rfl, rfl, rfl⟩, hon, fun l' hl => setPc_other hl _ _⟩
      · cases hstep
        exact .tryRecv hpc ⟨⟨rfl, rfl, rfl⟩, hon,
          fun l' hl => (queueWork_other hl _).trans (setPc_other hl _ _)⟩
      · cases hstep
        exact .tryRecv hpc ⟨⟨rfl, rfl, rfl⟩, hon, fun l' hl => setPc_other hl _ _⟩
    · cases hstep

theorem kicked_other {l : Lane} (h : l ≠ laneOf s.q) : kicked s l = s.work l :=
  Function.update_of_ne h _ _

end BlkSwitch.Host
