import BlkSwitch.Proofs.HostDoorbell
import BlkSwitch.Sanity.HostLanes

/-! The two workers of a host queue. Which of them is queued follows from the class that the last
submission gave the queue, so there is one worker at a time as long as no submission changes the
class while a worker is queued or running. -/

namespace BlkSwitch.Host

def OneWorker (s : HostState) : Prop := Off s .thru ∨ Off s .lat

/-- A submission gives the queue the class it has, or finds no worker at work. -/
def KeepsClass (c : Config) (s : HostState) : Prop :=
  laneClass c = s.q.prioClass ∨ Off s .thru ∧ Off s .lat

instance (c : Config) (s : HostState) : Decidable (KeepsClass c s) :=
  inferInstanceAs (Decidable (_ ∨ _ ∧ _))

def ClassSettled (c : Config) (s : HostState) (e : ℕ × HostEvent) : Prop :=
  match e.2 with
  | .queueRq _ _ => KeepsClass (withCpus c e.1) s
  | .handleR2t t pdu =>
    (nvmeTcpSetupH2cDataPdu (withCpus c e.1) (s.q.reqs t) pdu).1 = true →
      KeepsClass (withCpus c e.1) s
  | _ => True

instance (c : Config) (s : HostState) : DecidablePred (ClassSettled c s)
  | (n, .queueRq _ _) => inferInstanceAs (Decidable (KeepsClass (withCpus c n) s))
  | (n, .handleR2t t pdu) =>
    inferInstanceAs (Decidable ((nvmeTcpSetupH2cDataPdu (withCpus c n) (s.q.reqs t) pdu).1 = true →
      KeepsClass (withCpus c n) s))
  | (_, .requestUnlocked _) | (_, .doorbellTimeout) | (_, .dataReady) | (_, .writeSpace) | (_,
    .workStart _)
  | (_, .sendDequeue _) | (_, .sendRest _ _ _) | (_, .tryRecv _ _ _) => .isTrue trivial

section Workers

variable {c : Config} {s s' : HostState}

/-- Only the worker of the queue's class is queued or running. -/
structure OneLane (s : HostState) : Prop where
  lane : ∀ l, ¬ Off s l → l = laneOf s.q
  prio : s.q.prioClass = 0 ∨ s.q.prioClass = 1

theorem OneLane.oneWorker (h : OneLane s) : OneWorker s := by
  by_contra hno
  obtain ⟨hthru, hlat⟩ := not_or.1 hno
  have heq := (h.lane .thru hthru).trans (h.lane .lat hlat).symm
  cases heq

theorem laneOf_congr {q q' : NvmeTcpQueue} (h : q'.prioClass = q.prioClass) :
    laneOf q' = laneOf q := by
  simp [laneOf, i10HostIsLatency, h]

theorem off_congr {l : Lane} (h : s'.work l = s.work l) : Off s' l ↔ Off s l := by
  unfold Off
  rw [h]

theorem OneLane.kick (h : OneLane s) (hprio : s'.q.prioClass = s.q.prioClass)
    (hwork : s'.work = kicked s) :
    OneLane s' := by
  constructor
  · intro l hl
    rw [laneOf_congr hprio]
    by_contra hne
    apply hne
    apply h.lane l
    rwa [← off_congr (by rw [hwork, kicked_other hne])]
  · rw [hprio]
    exact h.prio

theorem OneLane.same (h : OneLane s) (hprio : s'.q.prioClass = s.q.prioClass)
    (hwork : s'.work = s.work) :
    OneLane s' := by
  constructor
  · intro l hl
    rw [laneOf_congr hprio]
    apply h.lane l
    rwa [← off_congr (by rw [hwork])]
  · rw [hprio]
    exact h.prio

theorem OneLane.works {l : Lane} (h : OneLane s) (hw : Works l s s') : OneLane s' := by
  constructor
  · intro l' hl'
    rw [laneOf_congr hw.prio]
    by_cases heq : l' = l
    · rw [heq]
      exact h.lane l hw.on
    · apply h.lane l'
      rwa [← off_congr (hw.other l' heq)]
  · rw [hw.prio]
    exact h.prio

theorem laneClass_cases (c : Config) : laneClass c = 0 ∨ laneClass c = 1 := by
  unfold laneClass
  split_ifs
  · exact .inl rfl
  · exact .inr rfl

theorem OneLane.submits (h : OneLane s) (hsub : Submits c s s') (hkeep : KeepsClass c s) :
    OneLane s' := by
  rcases hkeep with hclass | ⟨hthru, hlat⟩
  · exact h.same (hsub.prio.trans hclass) hsub.work
  · constructor
    · intro l hl
      have hon : ¬ Off s l := fun hoff => hl ((off_congr (by rw [hsub.work])).2 hoff)
      cases l with
      | thru => exact absurd hthru hon
      | lat => exact absurd hlat hon
    · rw [hsub.prio]
      exact laneClass_cases c

theorem OneLane.step {n : ℕ} {e : HostEvent} (h : OneLane s) (hok : ClassSettled c s (n, e))
    (hstep : hostStep (withCpus c n) s e = some s') : OneLane s' := by
  cases hostStep_lanes hstep with
  | queueRq hsub => exact h.submits hsub hok
  | answer hacc hsub => exact h.submits hsub (hok hacc)
  | refuse _ hquiet hwork => exact h.same hquiet.prio hwork
  | unlocked _ _ hprio _ hwork =>
    rcases hwork with hwork | hwork
    · exact h.same hprio hwork
    · exact h.kick hprio hwork
  | timeout _ _ hprio _ hwork => exact h.kick hprio hwork
  | dataReady hquiet hwork => exact h.kick hquiet.prio hwork
  | writeSpace hquiet hwork => exact h.kick hquiet.prio hwork
  | workStart _ _ hw => exact h.works hw
  | sendDequeue _ hw => exact h.works hw
  | sendRest _ hw => exact h.works hw
  | tryRecv _ hw => exact h.works hw

theorem oneLane_init (c : Config) : OneLane (hotplugSystem c).init :=
  ⟨fun _ hl => absurd rfl hl, .inl rfl⟩

theorem laneOf_ne {q q' : NvmeTcpQueue} (hq : q.prioClass = 0 ∨ q.prioClass = 1)
    (hq' : q'.prioClass = 0 ∨ q'.prioClass = 1) (hne : q'.prioClass ≠ q.prioClass) :
    laneOf q' ≠ laneOf q := by
  rcases hq with hq | hq <;> rcases hq' with hq' | hq' <;>
    simp [laneOf, i10HostIsLatency, hq, hq'] at hne ⊢

/-- After a submission that changes the class of a queue at work, a socket callback queues the other
worker. -/
theorem OneLane.second_worker (h : OneLane s) (hsub : Submits c s s') (hno : ¬ KeepsClass c s) :
    ¬ OneWorker s'.kick := by
  obtain ⟨hclass, hbusy⟩ := not_or.1 hno
  have hlane : laneOf s'.q ≠ laneOf s.q :=
    laneOf_ne h.prio (by rw [hsub.prio]; exact laneClass_cases c) (by rw [hsub.prio]; exact hclass)
  have hon : ¬ Off s (laneOf s.q) := by
    intro hoff
    apply hbusy
    have hall : ∀ l, Off s l := fun l => by
      by_contra hl
      exact hl (h.lane l hl ▸ hoff)
    exact ⟨hall .thru, hall .lat⟩
  have hboth : ∀ l, ¬ Off s'.kick l := by
    intro l hoff
    change kicked s' l = _ at hoff
    by_cases hl : l = laneOf s'.q
    · rw [hl, kicked, Function.update_self] at hoff
      cases congrArg Work.queued hoff
    · -- the worker that was at work before the submission
      have hl' : l = laneOf s.q := by
        cases l <;> cases hq : laneOf s.q <;> cases hq' : laneOf s'.q <;> simp_all
      rw [kicked_other hl, hsub.work, hl'] at hoff
      exact hon hoff
  rintro (hoff | hoff)
  · exact hboth .thru hoff
  · exact hboth .lat hoff

end Workers

def thirdQueue : Config := { sampleConfig with qid := 3 }

end BlkSwitch.Host
