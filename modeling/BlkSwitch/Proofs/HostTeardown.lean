import BlkSwitch.Proofs.HostDoorbell
import BlkSwitch.Sanity.HostLanes
import BlkSwitch.Spec.HostTeardown

/-! Stopping a host queue. The stop silences the callbacks and cancels both workers, and the
doorbell timer is cancelled only when the queue is freed: a timer that is still set when the
throughput worker has been cancelled queues that worker again. When it is not set, nothing is left
that could. -/

namespace BlkSwitch.Host

/-- `__nvme_tcp_stop_queue` has returned and the queue is not set up again. -/
def isStopped : Phase → Bool
  | .stopped | .freed | .down => true
  | _ => false

def isPast : Phase → Lane → Bool
  | .thruCancelled, .thru | .cancel .lat, .thru => true
  | .stopped, _ | .freed, _ | .down, _ => true
  | _, _ => false

def IdleWhenStopped (s : TeardownState) : Prop :=
  isStopped s.phase = true → Off s.host .thru ∧ Off s.host .lat

/-- The doorbell timer is not set when the throughput worker has been cancelled. -/
def TimerSilent (s : TeardownState) : TeardownEvent → Prop
  | .cancelDone => s.phase = .cancel .thru → s.host.q.doorbellTimer = false
  | _ => True

instance (s : TeardownState) : DecidablePred (TimerSilent s)
  | .cancelDone => inferInstanceAs
    (Decidable (s.phase = .cancel .thru → s.host.q.doorbellTimer = false))
  | .party _ _ | .sockShutdown | .restoreSockCalls | .cancelStart | .freeQueue | .hrtimerCancel
  | .allocQueue =>
    .isTrue trivial

section Held

variable (p : Phase) (h : HostState) (l : Lane)

theorem held_eq : (held p h).q = h.q ∧ (held p h).calls = h.calls ∧
    ((held p h).work l).pc = (h.work l).pc := by
  cases p with
  | cancel l' =>
    refine ⟨rfl, rfl, ?_⟩
    by_cases hl : l = l'
    · subst hl
      simp [held, unqueue]
    · simp [held, unqueue, Function.update_of_ne hl]
  | _ => exact ⟨rfl, rfl, rfl⟩

theorem unqueue_off {l' : Lane} (hoff : Off h l) : Off (unqueue h l') l := by
  by_cases hl : l = l'
  · subst hl
    unfold Off at hoff ⊢
    simp [unqueue, hoff]
  · unfold Off at hoff ⊢
    simpa [unqueue, Function.update_of_ne hl] using hoff

theorem held_off (hoff : Off h l) : Off (held p h) l := by
  cases p with
  | cancel l' => exact unqueue_off h l hoff
  | _ => exact hoff

theorem inRecv_congr {h h' : HostState} {l : Lane} (hpc : (h'.work l).pc = (h.work l).pc) :
    inRecv h' l = inRecv h l := by
  unfold inRecv
  rw [hpc]

theorem not_inRecv_of_off {h : HostState} {l : Lane} (hoff : Off h l) : inRecv h l = false := by
  unfold inRecv
  rw [hoff]

end Held

section Teardown

variable {c : Config} {s s' : TeardownState}

structure PartyOk (c : Config) (s : TeardownState) : Prop where
  length : s.callers.length = s.host.calls.length
  /-- a throughput queue never uses the other worker -/
  low : c.qid ≤ c.numOnlineCpus → s.host.q.prioClass = 0 ∧ Off s.host .lat
  /-- and a latency queue never sets the timer -/
  high : c.numOnlineCpus < c.qid → s.host.q.doorbellTimer = false ∧
    (s.callers ≠ [] → s.host.q.prioClass = 1)
  caller : ∀ l, some l ∈ s.callers → inRecv s.host l = true
  drained : s.phase ≠ .live → none ∉ s.callers
  gone : ∀ l, isPast s.phase l = true → Off s.host l
  silent : isPast s.phase .thru = true → s.host.q.doorbellTimer = false

structure TeardownOk (c : Config) (s : TeardownState) : Prop extends PartyOk c s where
  grabbed : ∀ l, s.phase = .cancel l → (s.host.work l).queued = false

theorem isPast_thru {p : Phase} {l : Lane} (h : isPast p l = true) : isPast p .thru = true := by
  cases p with
  | cancel l' => cases l' <;> cases l <;> first | rfl | cases h
  | _ => cases l <;> first | rfl | cases h

def ownLane (c : Config) : Lane := if c.qid ≤ c.numOnlineCpus then .thru else .lat

theorem PartyOk.not_past (h : PartyOk c s) {l : Lane} (hl : inRecv s.host l = true) :
    isPast s.phase (ownLane c) = false := by
  by_contra hpast
  rw [Bool.not_eq_false] at hpast
  have hthru := h.gone .thru (isPast_thru hpast)
  have hlat : Off s.host .lat := by
    by_cases hq : c.qid ≤ c.numOnlineCpus
    · exact (h.low hq).2
    · rw [ownLane, if_neg hq] at hpast
      exact h.gone .lat hpast
  have hoff : Off s.host l := by
    cases l with
    | thru => exact hthru
    | lat => exact hlat
  rw [not_inRecv_of_off hoff] at hl
  cases hl

theorem PartyOk.held {h : HostState} {callers : List (Option Lane)} {p : Phase}
    (hok : PartyOk c ⟨h, callers, p⟩) :
    TeardownOk c ⟨held p h, callers, p⟩ := by
  have heq : (Host.held p h).q = h.q := (held_eq p h .thru).1
  refine ⟨⟨?_, ?_, ?_, ?_, hok.drained, ?_, ?_⟩, ?_⟩
  · exact hok.length.trans (congrArg List.length (held_eq p h .thru).2.1.symm)
  · intro hq
    exact ⟨(congrArg NvmeTcpQueue.prioClass heq).trans (hok.low hq).1,
      held_off p h .lat (hok.low hq).2⟩
  · intro hq
    rw [heq]
    exact hok.high hq
  · intro l hl
    exact (inRecv_congr (held_eq p h l).2.2).trans (hok.caller l hl)
  · intro l hl
    exact held_off p h l (hok.gone l hl)
  · intro hl
    rw [heq]
    exact hok.silent hl
  · rintro l rfl
    simp [Host.held, unqueue]

theorem PartyOk.submits {h : HostState} {who : Option Lane} (hok : PartyOk c s)
    (hsub : Submits c s.host h)
    (hwho : s.phase = .live ∧ who = none ∨ ∃ l, who = some l ∧ inRecv s.host l = true) :
    PartyOk c ⟨h, s.callers ++ [who], s.phase⟩ := by
  have hoff : ∀ l, Off s.host l → Off h l := fun l hl => by
    unfold Off
    rw [hsub.work]
    exact hl
  constructor
  · obtain ⟨noDelay, hcalls⟩ := hsub.calls
    simp only [hcalls, List.length_append, hok.length, List.length_singleton]
  · intro hq
    refine ⟨?_, hoff .lat (hok.low hq).2⟩
    simp only [hsub.prio, laneClass, if_pos hq]
  · intro hq
    constructor
    · by_contra htimer
      rcases hsub.timer (by simpa using htimer) with hold | hle
      · rw [(hok.high hq).1] at hold
        cases hold
      · omega
    · intro _
      simp only [hsub.prio, laneClass, if_neg (Nat.not_le.2 hq)]
  · intro l hl
    have hsame : inRecv h l = inRecv s.host l := inRecv_congr (by rw [hsub.work])
    rw [hsame]
    rcases List.mem_append.1 hl with hl | hl
    · exact hok.caller l hl
    · rcases hwho with ⟨-, rfl⟩ | ⟨l', rfl, hrecv⟩
      · cases List.mem_singleton.1 hl
      · cases List.mem_singleton.1 hl
        exact hrecv
  · intro hlive hnone
    rcases List.mem_append.1 hnone with hnone | hnone
    · exact hok.drained hlive hnone
    · rcases hwho with ⟨hphase, -⟩ | ⟨l, rfl, -⟩
      · exact hlive hphase
      · cases List.mem_singleton.1 hnone
  · intro l hl
    exact hoff l (hok.gone l hl)
  · intro hpast
    by_contra htimer
    rcases hsub.timer (by simpa using htimer) with hold | hle
    · rw [hok.silent hpast] at hold
      cases hold
    · -- a worker is at it, so the throughput worker has not been cancelled
      rcases hwho with ⟨hphase, -⟩ | ⟨l, -, hrecv⟩
      · rw [hphase] at hpast
        cases hpast
      · have hno := hok.not_past hrecv
        rw [ownLane, if_pos hle, hpast] at hno
        cases hno

/-- A step that submits nothing, as far as the workers that must stay off stay off. -/
theorem PartyOk.frame {h : HostState} (hok : PartyOk c s)
    (hprio : h.q.prioClass = s.host.q.prioClass)
    (htimer : h.q.doorbellTimer = true → s.host.q.doorbellTimer = true)
    (hcalls : h.calls = s.host.calls) (hlat : s.host.q.prioClass = 0 → Off s.host .lat → Off h .lat)
    (hcaller : ∀ l, some l ∈ s.callers → inRecv h l = inRecv s.host l)
    (hgone : ∀ l, isPast s.phase l = true → Off s.host l → Off h l) :
    PartyOk c ⟨h, s.callers, s.phase⟩ := by
  have hstill : s.host.q.doorbellTimer = false → h.q.doorbellTimer = false := fun hf => by
    by_contra ht
    rw [htimer (by simpa using ht)] at hf
    cases hf
  constructor
  · simp only [hcalls, hok.length]
  · intro hq
    obtain ⟨hzero, hoff⟩ := hok.low hq
    exact ⟨hprio.trans hzero, hlat hzero hoff⟩
  · intro hq
    exact ⟨hstill (hok.high hq).1, fun hne => hprio.trans ((hok.high hq).2 hne)⟩
  · intro l hl
    exact (hcaller l hl).trans (hok.caller l hl)
  · exact hok.drained
  · intro l hl
    exact hgone l hl (hok.gone l hl)
  · intro hl
    exact hstill (hok.silent hl)

theorem off_of_work {h h' : HostState} {l : Lane} (hwork : h'.work l = h.work l) (hoff : Off h l) :
    Off h' l :=
  hwork.trans hoff

theorem PartyOk.quiet {h : HostState} (hok : PartyOk c s)
    (hprio : h.q.prioClass = s.host.q.prioClass)
    (htimer : h.q.doorbellTimer = true → s.host.q.doorbellTimer = true)
    (hcalls : h.calls = s.host.calls) (hwork : h.work = s.host.work) :
    PartyOk c ⟨h, s.callers, s.phase⟩ := by
  apply hok.frame hprio htimer hcalls
  · intro _ hoff
    exact off_of_work (by rw [hwork]) hoff
  · intro l _
    exact inRecv_congr (by rw [hwork])
  · intro l _ hoff
    exact off_of_work (by rw [hwork]) hoff

theorem PartyOk.kick {h : HostState} (hok : PartyOk c s)
    (hprio : h.q.prioClass = s.host.q.prioClass)
    (htimer : h.q.doorbellTimer = true → s.host.q.doorbellTimer = true)
    (hcalls : h.calls = s.host.calls) (hwork : h.work = kicked s.host)
    (hpast : isPast s.phase (laneOf s.host.q) = false) :
    PartyOk c ⟨h, s.callers, s.phase⟩ := by
  apply hok.frame hprio htimer hcalls
  · intro hzero hoff
    have hne : Lane.lat ≠ laneOf s.host.q := by simp [laneOf, i10HostIsLatency, hzero]
    exact off_of_work (by rw [hwork, kicked_other hne]) hoff
  · intro l _
    apply inRecv_congr
    rw [hwork]
    by_cases hl : l = laneOf s.host.q
    · subst hl
      simp [kicked]
    · rw [kicked_other hl]
  · intro l hl hoff
    have hne : l ≠ laneOf s.host.q := by
      rintro rfl
      rw [hpast] at hl
      cases hl
    exact off_of_work (by rw [hwork, kicked_other hne]) hoff

theorem PartyOk.works {h : HostState} {l : Lane} (hok : PartyOk c s) (hw : Works l s.host h)
    (hcall : some l ∈ s.callers → inRecv s.host l = false) : PartyOk c ⟨h, s.callers, s.phase⟩ := by
  have hoff : ∀ l', Off s.host l' → Off h l' := fun l' hl' => by
    have hne : l' ≠ l := by
      rintro rfl
      exact hw.on hl'
    exact off_of_work (hw.other l' hne) hl'
  apply hok.frame hw.prio (fun ht => hw.timer ▸ ht) hw.calls
  · intro _ hlat
    exact hoff .lat hlat
  · intro l' hl'
    have hne : l' ≠ l := by
      rintro rfl
      have hrecv := hok.caller l' hl'
      rw [hcall hl'] at hrecv
      cases hrecv
    exact inRecv_congr (by rw [hw.other l' hne])
  · intro l' _ hl'
    exact hoff l' hl'

theorem PartyOk.leave (hok : PartyOk c s) (i : ℕ) :
    PartyOk c ⟨{ s.host with calls := s.host.calls.eraseIdx i }, s.callers.eraseIdx i,
      s.phase⟩ := by
  constructor
  · simp only [List.length_eraseIdx, hok.length]
  · exact hok.low
  · intro hq
    refine ⟨(hok.high hq).1, fun hne => (hok.high hq).2 fun hnil => hne ?_⟩
    simp [hnil]
  · intro l hl
    exact hok.caller l (List.mem_of_mem_eraseIdx hl)
  · intro hlive hnone
    exact hok.drained hlive (List.mem_of_mem_eraseIdx hnone)
  · exact hok.gone
  · exact hok.silent

theorem PartyOk.not_past_of_call (hok : PartyOk c s) {i : ℕ} (hi : i < s.host.calls.length) :
    isPast s.phase (laneOf s.host.q) = false := by
  rw [← hok.length] at hi
  have hne : s.callers ≠ [] := List.ne_nil_of_length_pos (Nat.zero_lt_of_lt hi)
  have hlane : laneOf s.host.q = ownLane c := by
    by_cases hq : c.qid ≤ c.numOnlineCpus
    · simp [laneOf, ownLane, i10HostIsLatency, (hok.low hq).1, hq]
    · simp [laneOf, ownLane, i10HostIsLatency, (hok.high (by omega)).2 hne, hq]
  rw [hlane]
  by_cases hlive : s.phase = .live
  · rw [hlive]
    cases ownLane c <;> rfl
  · obtain ⟨who, hwho⟩ := List.exists_mem_of_ne_nil _ hne
    cases who with
    | none => exact absurd hwho (hok.drained hlive)
    | some l => exact hok.not_past (hok.caller l hwho)

/-- The timer is only set while the throughput worker has not been cancelled. -/
theorem PartyOk.not_past_of_timer (hok : PartyOk c s) (htimer : s.host.q.doorbellTimer = true) :
    isPast s.phase (laneOf s.host.q) = false := by
  have hq : c.qid ≤ c.numOnlineCpus := by
    by_contra hq
    rw [(hok.high (by omega)).1] at htimer
    cases htimer
  have hlane : laneOf s.host.q = .thru := by
    simp [laneOf, i10HostIsLatency, (hok.low hq).1]
  rw [hlane]
  by_contra hpast
  rw [hok.silent (by simpa using hpast)] at htimer
  cases htimer

theorem TeardownOk.party {who : Option Lane} {e : HostEvent} {h : HostState} (hok : TeardownOk c s)
    (hrun : mayRun s who e = true) (hstep : hostStep c s.host e = some h) :
    TeardownOk c ⟨held s.phase h, callersAfter s who h e, s.phase⟩ := by
  apply PartyOk.held
  have hp := hok.toPartyOk
  have hgrow : ∀ {h : HostState}, Submits c s.host h → s.host.calls.length < h.calls.length :=
      fun hsub => by
    obtain ⟨noDelay, hcalls⟩ := hsub.calls
    rw [hcalls]
    simp
  have hrecv : ∀ {l : Lane}, (∀ r, (s.host.work l).pc ≠ .recv r) → inRecv s.host l = false :=
      fun {l} hno => by
    unfold inRecv
    split
    · next r hr => exact absurd hr (hno r)
    · rfl
  cases hostStep_lanes hstep with
  | queueRq hsub =>
    simp only [mayRun, Bool.and_eq_true, decide_eq_true_eq, Option.isNone_iff_eq_none] at hrun
    simp only [callersAfter, if_pos (hgrow hsub)]
    exact hp.submits hsub (.inl hrun)
  | answer _ hsub =>
    simp only [callersAfter, if_pos (hgrow hsub)]
    obtain ⟨l, hl, hin⟩ := (Option.any_eq_true _ _).1 hrun
    exact hp.submits hsub (.inr ⟨l, hl, hin⟩)
  | refuse _ hquiet hwork =>
    simp only [callersAfter, hquiet.calls, lt_irrefl, ↓reduceIte]
    exact hp.quiet hquiet.prio (fun h => hquiet.timer ▸ h) hquiet.calls hwork
  | @unlocked i hi hcalls hprio htimer hwork =>
    simp only [callersAfter]
    have hleave := hp.leave i
    rcases hwork with hwork | hwork
    · exact hleave.quiet hprio htimer hcalls hwork
    · exact hleave.kick hprio htimer hcalls hwork (hp.not_past_of_call hi)
  | timeout htimer hoff hprio hcalls hwork =>
    exact hp.kick hprio (fun h => by rw [hoff] at h; cases h) hcalls hwork
      (hp.not_past_of_timer htimer)
  | dataReady hquiet hwork =>
    apply hp.kick hquiet.prio (fun h => hquiet.timer ▸ h) hquiet.calls hwork
    simp only [mayRun, Bool.or_eq_true, decide_eq_true_eq] at hrun
    rcases hrun with hphase | hphase <;> rw [hphase] <;> cases laneOf s.host.q <;> rfl
  | writeSpace hquiet hwork =>
    apply hp.kick hquiet.prio (fun h => hquiet.timer ▸ h) hquiet.calls hwork
    simp only [mayRun, Bool.or_eq_true, decide_eq_true_eq] at hrun
    rcases hrun with hphase | hphase <;> rw [hphase] <;> cases laneOf s.host.q <;> rfl
  | workStart _ hpc hw => exact hp.works hw fun _ => hrecv fun r => by rw [hpc]; simp
  | sendDequeue hpc hw => exact hp.works hw fun _ => hrecv fun r => by rw [hpc]; simp
  | sendRest hpc hw => exact hp.works hw fun _ => hrecv fun r => by rw [hpc]; simp
  | tryRecv hpc hw =>
    apply hp.works hw
    intro hmem
    simp only [mayRun, decide_eq_true_eq] at hrun
    exact absurd hmem hrun

theorem PartyOk.unqueue {l : Lane} {p : Phase} (hok : PartyOk c s) (hlive : s.phase ≠ .live)
    (hpast : ∀ l', isPast p l' = true → isPast s.phase l' = true)
    (hp : ∀ l', p = .cancel l' → l' = l) :
    TeardownOk c ⟨unqueue s.host l, s.callers, p⟩ := by
  have hpc : ∀ l', ((Host.unqueue s.host l).work l').pc = (s.host.work l').pc := fun l' => by
    by_cases hl : l' = l
    · subst hl
      simp [Host.unqueue]
    · simp [Host.unqueue, Function.update_of_ne hl]
  refine ⟨⟨hok.length, ?_, hok.high, ?_, fun _ => hok.drained hlive, ?_,
    fun h => hok.silent (hpast _ h)⟩, ?_⟩
  · intro hq
    exact ⟨(hok.low hq).1, unqueue_off _ _ (hok.low hq).2⟩
  · intro l' hl'
    exact (inRecv_congr (hpc l')).trans (hok.caller l' hl')
  · intro l' hl'
    exact unqueue_off _ _ (hok.gone l' (hpast l' hl'))
  · intro l' hl'
    rw [hp l' hl']
    simp [Host.unqueue]

theorem teardownOk_setUp {h : HostState} (hcalls : h.calls = []) (hoff : ∀ l, Off h l)
    (htimer : h.q.doorbellTimer = false) (hlow : c.qid ≤ c.numOnlineCpus → h.q.prioClass = 0) :
    TeardownOk c ⟨h, [], .live⟩ := by
  constructor
  · constructor
    · exact (congrArg List.length hcalls).symm
    · intro hq
      exact ⟨hlow hq, hoff .lat⟩
    · intro _
      exact ⟨htimer, fun hne => absurd rfl hne⟩
    · intro l hl
      cases hl
    · intro hlive
      exact absurd rfl hlive
    · intro l _
      exact hoff l
    · intro _
      exact htimer
  · intro l hl
    cases hl

theorem PartyOk.advance {p : Phase} (hok : PartyOk c s) (hnone : none ∉ s.callers)
    (hgone : ∀ l, isPast p l = true → Off s.host l)
    (hsilent : isPast p .thru = true → s.host.q.doorbellTimer = false) (hp : ∀ l, p ≠ .cancel l) :
    TeardownOk c ⟨s.host, s.callers, p⟩ :=
  ⟨⟨hok.length, hok.low, hok.high, hok.caller, fun _ => hnone, hgone, hsilent⟩,
    fun l hl => absurd hl (hp l)⟩

theorem TeardownOk.cancelled {l : Lane} (hok : TeardownOk c s) (hphase : s.phase = .cancel l)
    (hpc : (s.host.work l).pc = .idle) : Off s.host l := by
  have hq := hok.grabbed l hphase
  unfold Off
  cases hw : s.host.work l with
  | mk queued pc =>
    rw [hw] at hq hpc
    simp only at hq hpc
    rw [hq, hpc]

theorem TeardownOk.step {e : TeardownEvent} (hok : TeardownOk c s) (hsilent : TimerSilent s e)
    (hstep : teardownStep c s e = some s') : TeardownOk c s' := by
  have hp := hok.toPartyOk
  cases e with
  | party who e =>
    simp only [teardownStep, Option.ite_none_right_eq_some] at hstep
    obtain ⟨hrun, hstep⟩ := hstep
    obtain ⟨h, hh, rfl⟩ := Option.map_eq_some_iff.1 hstep
    exact hok.party hrun hh
  | sockShutdown =>
    simp only [teardownStep, Option.ite_none_right_eq_some, Option.some.injEq] at hstep
    obtain ⟨⟨-, hnone⟩, rfl⟩ := hstep
    exact hp.advance hnone (fun l hl => by cases l <;> cases hl) (fun hl => by cases hl)
      (fun l => by simp)
  | restoreSockCalls =>
    simp only [teardownStep, Option.ite_none_right_eq_some, Option.some.injEq] at hstep
    obtain ⟨hphase, rfl⟩ := hstep
    exact hp.advance (hok.drained (by simp [hphase])) (fun l hl => by cases l <;> cases hl)
      (fun hl => by cases hl)
      (fun l => by simp)
  | cancelStart =>
    simp only [teardownStep] at hstep
    split at hstep
    · next hphase =>
      cases hstep
      exact hp.unqueue (by simp [hphase]) (fun l hl => by cases l <;> cases hl)
        (fun l hl => by cases hl; rfl)
    · next hphase =>
      cases hstep
      apply hp.unqueue (by simp [hphase])
      · intro l hl
        rw [hphase]
        cases l with
        | thru => rfl
        | lat => cases hl
      · intro l hl
        cases hl
        rfl
    · cases hstep
  | cancelDone =>
    simp only [teardownStep] at hstep
    split at hstep
    · next hphase =>
      simp only [Option.ite_none_right_eq_some, Option.some.injEq] at hstep
      obtain ⟨hpc, rfl⟩ := hstep
      refine hp.advance (hok.drained (by simp [hphase])) (fun l hl => ?_) (fun _ => hsilent hphase)
        (fun l => by simp)
      cases l with
      | thru => exact hok.cancelled hphase hpc
      | lat => cases hl
    · next hphase =>
      simp only [Option.ite_none_right_eq_some, Option.some.injEq] at hstep
      obtain ⟨hpc, rfl⟩ := hstep
      refine hp.advance (hok.drained (by simp [hphase])) (fun l _ => ?_)
        (fun _ => hok.silent (by rw [hphase]; rfl))
        (fun l => by simp)
      cases l with
      | thru => exact hok.gone .thru (by rw [hphase]; rfl)
      | lat => exact hok.cancelled hphase hpc
    · cases hstep
  | freeQueue =>
    simp only [teardownStep, Option.ite_none_right_eq_some, Option.some.injEq] at hstep
    obtain ⟨hphase, rfl⟩ := hstep
    exact hp.advance (hok.drained (by simp [hphase]))
      (fun l _ => hok.gone l (by rw [hphase]; cases l <;> rfl))
      (fun _ => hok.silent (by rw [hphase]; rfl)) (fun l => by simp)
  | hrtimerCancel =>
    simp only [teardownStep, Option.ite_none_right_eq_some, Option.some.injEq] at hstep
    obtain ⟨hphase, rfl⟩ := hstep
    have hgone : ∀ l, Off s.host l := fun l => hok.gone l (by rw [hphase]; cases l <;> rfl)
    exact ⟨⟨hok.length, hok.low, fun hq => ⟨rfl, (hok.high hq).2⟩, hok.caller,
      fun _ => hok.drained (by simp [hphase]), fun l _ => hgone l, fun _ => rfl⟩,
      fun l hl => by cases hl⟩
  | allocQueue =>
    simp only [teardownStep, Option.ite_none_right_eq_some, Option.some.injEq] at hstep
    obtain ⟨-, rfl⟩ := hstep
    exact teardownOk_setUp rfl (fun _ => rfl) rfl fun hq => (hok.low hq).1

theorem teardownOk_init (c : Config) : TeardownOk c (teardownSystem c).init :=
  teardownOk_setUp rfl (fun _ => rfl) rfl fun _ => rfl

theorem TeardownOk.idle (h : TeardownOk c s) : IdleWhenStopped s := by
  intro hstopped
  have hpast : ∀ l, isPast s.phase l = true := fun l => by
    cases hphase : s.phase with
    | stopped => rfl
    | freed => rfl
    | down => rfl
    | _ =>
      rw [hphase] at hstopped
      cases hstopped
  exact ⟨h.gone .thru (hpast .thru), h.gone .lat (hpast .lat)⟩

theorem kick_not_off {h : HostState} (hzero : h.q.prioClass = 0) : ¬ Off h.kick .thru := by
  rw [kick_thru hzero]
  intro hoff
  cases congrArg Work.queued hoff

/-- With the timer set, the stop goes on to its end and the timer queues the worker. -/
theorem TeardownOk.timer_fires (h : TeardownOk c s) (hphase : s.phase = .cancel .thru)
    (htimer : s.host.q.doorbellTimer = true) (hstep : teardownStep c s .cancelDone = some s') :
    ∃ s'', (teardownSystem c).exec s' [.cancelStart, .cancelDone, .party none .doorbellTimeout] =
      some s'' ∧ ¬ IdleWhenStopped s'' := by
  have hq : c.qid ≤ c.numOnlineCpus := by
    by_contra hq
    rw [(h.high (by omega)).1] at htimer
    cases htimer
  obtain ⟨hzero, hlat⟩ := h.low hq
  simp only [teardownStep, hphase, Option.ite_none_right_eq_some, Option.some.injEq] at hstep
  obtain ⟨-, rfl⟩ := hstep
  have hidle : ((unqueue s.host .lat).work .lat).pc = .idle := by
    rw [unqueue_off _ .lat hlat]
  have hset : (unqueue s.host .lat).q.doorbellTimer = true := htimer
  refine ⟨⟨{ unqueue s.host .lat with
      q := { s.host.q with doorbellTimer := false, timerSet := 0 } }.kick, s.callers, .stopped⟩, ?_,
        fun hidle => ?_⟩
  · simp only [Runs.System.exec, teardownSystem, teardownStep, hidle, ↓reduceIte, mayRun, hostStep,
      hset, Option.bind_some, Option.map_some]
    rfl
  · exact absurd (hidle rfl).1 (kick_not_off hzero)

end Teardown

/-- In every run in which the timer is not set when the throughput worker has been cancelled, a
stopped queue has no work; and when it is set, the queue can be stopped and get work again. -/
theorem no_work_when_stopped (c : Config) :
    (∀ es s, (teardownSystem c).RunIn TimerSilent es s → IdleWhenStopped s) ∧
      ∀ es s s', (teardownSystem c).RunIn TimerSilent es s →
      (teardownSystem c).step s .cancelDone = some s' →
        ¬ TimerSilent s .cancelDone →
        ∃ s'', (teardownSystem c).exec s'
          [.cancelStart, .cancelDone, .party none .doorbellTimeout] = some s'' ∧
          ¬ IdleWhenStopped s'' := by
  have hrun : ∀ es s, (teardownSystem c).RunIn TimerSilent es s → TeardownOk c s := by
    intro es s hrun
    apply hrun.invariant (I := TeardownOk c) (teardownOk_init c)
    intro s e s' hI hok hstep
    exact hI.step hok hstep
  constructor
  · intro es s h
    exact (hrun es s h).idle
  · intro es s s' h hstep hset
    obtain ⟨hphase, htimer⟩ : s.phase = .cancel .thru ∧ s.host.q.doorbellTimer = true := by
      simpa [TimerSilent] using hset
    exact (hrun es s h).timer_fires hphase htimer hstep

/-- A read sets the timer, which rings while the queue is being stopped: the worker is taken
back. -/
def sampleStop : List TeardownEvent :=
  [.party none (.queueRq 0 sampleRead), .party none (.requestUnlocked 0), .sockShutdown,
    .party none .doorbellTimeout, .restoreSockCalls, .cancelStart, .cancelDone, .cancelStart,
    .cancelDone, .freeQueue, .hrtimerCancel]

theorem no_work_when_stopped_sample :
    (∃ s, (teardownSystem sampleConfig).RunIn TimerSilent (sampleStop.take 3) s ∧
      s.host.q.doorbellTimer = true) ∧
    ∃ s, (teardownSystem sampleConfig).RunIn TimerSilent sampleStop s ∧ s.phase = .down ∧
      IdleWhenStopped s := by
  constructor
  · exact Runs.System.exists_runIn_of_execIn
      (fun s : TeardownState => s.host.q.doorbellTimer = true) (by decide +kernel)
  · obtain ⟨s, hrun, hphase⟩ : ∃ s, (teardownSystem sampleConfig).RunIn TimerSilent sampleStop s ∧
        s.phase = .down :=
      Runs.System.exists_runIn_of_execIn (fun s : TeardownState => s.phase = .down)
        (by decide +kernel)
    exact ⟨s, hrun, hphase, (no_work_when_stopped sampleConfig).1 _ s hrun⟩

/-- A read waits for the doorbell; the queue is stopped and freed, and then the doorbell rings. -/
def lateDoorbell : List TeardownEvent :=
  [.party none (.queueRq 0 sampleRead), .party none (.requestUnlocked 0), .sockShutdown,
    .restoreSockCalls, .cancelStart, .cancelDone, .cancelStart, .cancelDone, .freeQueue,
    .party none .doorbellTimeout, .party none (.workStart .thru)]

theorem work_after_free : ∃ s, (teardownSystem sampleConfig).Run lateDoorbell s ∧ s.phase = .freed ∧
    (s.host.work .thru).pc = .send ∧ ¬ IdleWhenStopped s := by
  obtain ⟨s, hrun, hphase, hpc⟩ : ∃ s,
    (teardownSystem sampleConfig).RunIn (fun _ _ => True) lateDoorbell s ∧
      s.phase = .freed ∧ (s.host.work .thru).pc = .send :=
    Runs.System.exists_runIn_of_execIn
      (fun s : TeardownState => s.phase = .freed ∧ (s.host.work .thru).pc = .send)
        (by decide +kernel)
  refine ⟨s, hrun, hphase, hpc, fun hidle => ?_⟩
  have hoff := (hidle (by rw [hphase]; rfl)).1
  rw [hoff] at hpc
  cases hpc

end BlkSwitch.Host
