import BlkSwitch.Sanity.HostQueue

/-! Whether a request of a throughput queue can be forgotten. `nr_req` counts the delayable
requests that wait or ride in the caravan, and the timer is armed when it becomes 1; so it
has to fall back to 0 whenever the caravan leaves. It does, except when a dequeue finds the
list empty with `send_now` raised while the timer is still running: then the caravan leaves
and the count of its requests stays behind. -/

namespace BlkSwitch.Host

def Present (q : NvmeTcpQueue) : Prop :=
  q.sendList ≠ [] ∨ q.caravanIovs ≠ [] ∨ q.request ≠ none

/-- Somebody is going to look after it: the worker, the timer or a submitter. -/
def Attended (s : HostState) : Prop :=
  (s.work .thru).queued = true ∨ (s.work .thru).pc ≠ .idle ∨ s.q.doorbellTimer = true ∨ s.calls ≠ []

def SocketTakes (_ : HostState) : HostEvent → Prop
  | .sendRest _ nospace replies => nospace = false ∧ replies = []
  | _ => True

/-- The caravan is about to leave without its requests being taken off `nr_req`. -/
def Stale (q : NvmeTcpQueue) : Prop :=
  q.request = none ∧ q.sendList = [] ∧ q.sendNow = true ∧ q.timerSet ≠ 0 ∧ q.doorbellTimer = true ∧
    q.nrCaravanReq ≠ 0

instance (q : NvmeTcpQueue) : Decidable (Present q) := by unfold Present; infer_instance
instance (s : HostState) : Decidable (Attended s) := by unfold Attended; infer_instance
instance (q : NvmeTcpQueue) : Decidable (Stale q) := by unfold Stale; infer_instance
instance (s : HostState) (e : HostEvent) : Decidable (SocketTakes s e) := by
  cases e <;> unfold SocketTakes <;> infer_instance

/-- No dequeue meets a stale caravan, and no R2T that is accepted asks for nothing. -/
def Counted (c : Config) (s : HostState) : HostEvent → Prop
  | .sendDequeue _ => ¬ Stale s.q
  | .handleR2t t pdu => (nvmeTcpSetupH2cDataPdu c (s.q.reqs t) pdu).1 = true → pdu.second ≠ 0
  | _ => True

instance (c : Config) (s : HostState) (e : HostEvent) : Decidable (Counted c s e) := by
  cases e <;> unfold Counted <;> infer_instance

/-- The worker is queued, the timer runs, or a submitter is about to queue the worker. -/
def Rung (s : HostState) : Prop :=
  (s.work .thru).queued = true ∨ s.q.doorbellTimer = true ∨ true ∈ s.calls

structure Doorbell (c : Config) (s : HostState) : Prop where
  ok : QueueOk c s.q
  lat : s.work .lat = ⟨false, .idle⟩
  count : s.q.nrReq =
    Int32.ofNat (s.q.sendList.countP fun t => !i10HostIsNodelayPath (s.q.reqs t)) + s.q.nrCaravanReq
  held : s.q.nrCaravanReq ≠ 0 → s.q.caravanIovs ≠ [] ∨ s.q.request ≠ none
  rung : match (s.work .thru).pc with
    | .idle => Present s.q → Rung s
    | .recv result => result ≤ 0 → Present s.q → Rung s
    | .send => True
    | .flush => s.q.request = none →
        (s.q.sendNow = true → s.q.nrCaravanReq = 0) ∧
          (s.q.sendList ≠ [] ∨ s.q.sendNow = false → Rung s)

variable {c : Config}

theorem Thru.isDelayed (hc : Thru c) {q : NvmeTcpQueue} (hp : q.prioClass = 0) (t : ℕ) :
    isDelayed c q t = !i10HostIsNodelayPath (q.reqs t) := by
  simp [Host.isDelayed, hc.legacy hp]

theorem Doorbell.counted {s : HostState} (h : Doorbell c s) (hne : s.q.nrReq ≠ 0) :
    s.q.sendList ≠ [] ∨ s.q.nrCaravanReq ≠ 0 := by
  by_contra hno
  rw [not_or, not_not, not_not] at hno
  have hcount := h.count
  rw [hno.1, hno.2] at hcount
  exact hne (by simpa using hcount)

/-- As long as a counted request is left, somebody was going to ring; except that the worker
may be on its way through `nvme_tcp_try_send`. -/
theorem Doorbell.rung_of_counted {s : HostState} (h : Doorbell c s) (hne : s.q.nrReq ≠ 0) :
    match (s.work .thru).pc with
    | .idle => Rung s
    | .recv result => result ≤ 0 → Rung s
    | .send => True
    | .flush => s.q.request = none → Rung s := by
  have hpresent : Present s.q := by
    rcases h.counted hne with hl | hn
    · exact .inl hl
    · rcases h.held hn with hcar | hreq
      · exact .inr (.inl hcar)
      · exact .inr (.inr hreq)
  have hrung := h.rung
  cases hpc : (s.work .thru).pc with
  | idle => simp only [hpc] at hrung; exact hrung hpresent
  | recv result => simp only [hpc] at hrung; exact fun hr => hrung hr hpresent
  | send => trivial
  | flush =>
    simp only [hpc] at hrung
    intro hnone
    obtain ⟨hnow, hrest⟩ := hrung hnone
    rcases h.counted hne with hl | hn
    · exact hrest (.inl hl)
    · refine hrest (.inr ?_)
      by_contra hs
      exact hn (hnow (by simpa using hs))

theorem Doorbell.timer {s s' : HostState} (h : Doorbell c s) {d b : Bool} {n : ℤ}
    (hq : s'.q = { s.q with doorbellTimer := d, timerSet := n, sockNospace := b })
    (hlat : s'.work .lat = s.work .lat) (hpc : (s'.work .thru).pc = (s.work .thru).pc)
    (hr : Rung s → Rung s') : Doorbell c s' := by
  have hrung := h.rung
  refine ⟨?_, hlat.trans h.lat, by rw [hq]; exact h.count, by rw [hq]; exact h.held, ?_⟩
  · rw [hq]
    exact (h.ok.withSocket b s.q.replies).of_eq rfl rfl rfl
  · rw [hpc]
    cases hcase : (s.work .thru).pc with
    | idle =>
      simp only [hcase] at hrung ⊢
      rw [hq]
      exact fun hp => hr (hrung hp)
    | recv result =>
      simp only [hcase] at hrung ⊢
      rw [hq]
      exact fun h0 hp => hr (hrung h0 hp)
    | send => trivial
    | flush =>
      simp only [hcase] at hrung ⊢
      rw [hq]
      exact fun hnone => ⟨(hrung hnone).1, fun hx => hr ((hrung hnone).2 hx)⟩

theorem kick_thru {s : HostState} (hp : s.q.prioClass = 0) : s.kick = s.queueWork .thru := by
  simp [HostState.kick, i10HostIsLatency, hp]

theorem Doorbell.kick {s s' : HostState} (h : Doorbell c s) {d b : Bool} {n : ℤ}
    (hs : s'.q = { s.q with doorbellTimer := d, timerSet := n, sockNospace := b })
    (hw : s'.work = s.work) :
    Doorbell c s'.kick := by
  have hp : s'.q.prioClass = 0 := by rw [hs]; exact h.ok.prio
  rw [kick_thru hp]
  have hs' : (s'.queueWork .thru).q = _ := hs
  refine h.timer hs' ?_ ?_ fun _ => .inl ?_
  · simp [HostState.queueWork, hw]
  · simp [HostState.queueWork, hw]
  · simp [HostState.queueWork]

/-- What the locked part of `nvme_tcp_queue_request` does to the counters and the timer. -/
theorem queueRequestLocked_cases (hc : Thru c) (q : NvmeTcpQueue) (t : ℕ) :
    (i10HostIsNodelayPath (q.reqs t) = true ∧ (nvmeTcpQueueRequestLocked c t q).1 = true ∧
      (nvmeTcpQueueRequestLocked c t q).2.nrReq = q.nrReq ∧
      (nvmeTcpQueueRequestLocked c t q).2.doorbellTimer = q.doorbellTimer) ∨
    (i10HostIsNodelayPath (q.reqs t) = false ∧ (nvmeTcpQueueRequestLocked c t q).1 = false ∧
      (nvmeTcpQueueRequestLocked c t q).2.nrReq = q.nrReq + 1 ∧
      ((nvmeTcpQueueRequestLocked c t q).2.doorbellTimer = true ↔ q.doorbellTimer = true ∨
      q.nrReq = 0)) := by
  have hdel := hc.isDelayed (q := { q with prioClass := 0, sendList := q.sendList ++ [t] }) rfl t
  unfold nvmeTcpQueueRequestLocked
  simp only [if_pos hc.cpu, hdel]
  cases hn : i10HostIsNodelayPath (q.reqs t) with
  | true => exact .inl (by simp)
  | false =>
    refine .inr ?_
    have hone : q.nrReq + 1 = 1 ↔ q.nrReq = 0 := by grind
    cases q.doorbellTimer with
    | true => simp
    | false => by_cases h0 : q.nrReq = 0 <;> simp [hone, h0]

/-- A prepared request goes on the list: a no-delay one leaves its call behind, the first
delayable one arms the timer, and behind another counted one somebody was going to ring. -/
theorem Doorbell.submit (hc : Thru c) {s : HostState} (h : Doorbell c s) {t : ℕ} (hu : Unused s.q t)
    {r : NvmeTcpRequest} (hr : Ready c r) (hst : r.state ≠ .data) (pdu : List Byte) :
    Doorbell c (submit c s t r pdu) := by
  set q₀ : NvmeTcpQueue := { s.q with toSendQueue := s.q.modifyReq t fun _ => r } with hq₀
  obtain ⟨hsq, hl, -, hcar⟩ := queueRequestLocked_fields c t q₀
  have hself : q₀.reqs t = r := modifyReq_reqs_self t s.q.toSendQueue fun _ => r
  have hcount₀ : (s.q.sendList.countP fun u => !i10HostIsNodelayPath (q₀.reqs u)) =
      s.q.sendList.countP fun u => !i10HostIsNodelayPath (s.q.reqs u) := by
    refine List.countP_congr fun u hu' => ?_
    have hut : u ≠ t := fun he => hu.1 (he ▸ hu')
    rw [show q₀.reqs u = s.q.reqs u from modifyReq_reqs_of_ne t s.q.toSendQueue hut fun _ => r]
  have hq : (Host.submit c s t r pdu).q = (nvmeTcpQueueRequestLocked c t q₀).2 := rfl
  have hcalls : (Host.submit c s t r pdu).calls = s.calls ++
    [(nvmeTcpQueueRequestLocked c t q₀).1] := rfl
  have hwork : (Host.submit c s t r pdu).work = s.work := rfl
  have hcases := queueRequestLocked_cases hc q₀ t
  rw [hself] at hcases
  have hkeep : Rung s → Rung (Host.submit c s t r pdu) := by
    rintro (hqd | hd | hcall)
    · exact .inl hqd
    · refine .inr (.inl ?_)
      rw [hq]
      rcases hcases with ⟨-, -, -, htimer⟩ | ⟨-, -, -, htimer⟩
      · rw [htimer]; exact hd
      · exact htimer.2 (.inl hd)
    · exact .inr (.inr (by rw [hcalls]; exact List.mem_append_left _ hcall))
  have hnew : (s.q.nrReq ≠ 0 → Rung s) → Rung (Host.submit c s t r pdu) := by
    intro hold
    rcases hcases with ⟨-, hcall, -, -⟩ | ⟨-, -, -, htimer⟩
    · exact .inr (.inr (by rw [hcalls, hcall]; simp))
    · by_cases h0 : s.q.nrReq = 0
      · exact .inr (.inl (by rw [hq]; exact htimer.2 (.inr h0)))
      · exact hkeep (hold h0)
  have hcount := h.count
  refine ⟨h.ok.locked hc hu hr hst, h.lat, ?_, ?_, ?_⟩
  · rw [hq, hl, hcar, hsq, List.countP_append, hcount₀, List.countP_singleton, hself]
    change _ = _ + s.q.nrCaravanReq
    rw [Int32.ofNat_add]
    rcases hcases with ⟨hn, -, hnr, -⟩ | ⟨hn, -, hnr, -⟩
    · rw [hnr, hn]
      change s.q.nrReq = _
      simp [hcount]
    · rw [hnr, hn]
      change s.q.nrReq + 1 = _
      rw [hcount, Int32.add_assoc, Int32.add_assoc, Int32.add_comm s.q.nrCaravanReq]
      rfl
  · rw [hq, hcar, hsq]
    exact h.held
  · rw [hwork]
    have hold := h.rung_of_counted
    cases hpc : (s.work .thru).pc with
    | idle => simp only [hpc] at hold ⊢; exact fun _ => hnew hold
    | recv result => simp only [hpc] at hold ⊢; exact fun h0 _ => hnew fun hne => hold hne h0
    | send => trivial
    | flush =>
      have hrung := h.rung
      simp only [hpc] at hold hrung ⊢
      rw [hq, hcar, hsq]
      exact fun hnone => ⟨(hrung hnone).1, fun _ => hnew fun hne => hold hne hnone⟩

theorem Doorbell.refuse {s : HostState} (h : Doorbell c s) {t : ℕ} (hu : Unused s.q t)
    {r : NvmeTcpRequest} (hr : ReqGood c r) :
    Doorbell c { s with q := { s.q with toSendQueue := s.q.modifyReq t fun _ => r } } := by
  refine ⟨h.ok.replace hu hr, h.lat, ?_, h.held, h.rung⟩
  have hcount := h.count
  rw [hcount]
  congr 2
  refine (List.countP_congr fun u hu' => ?_).symm
  have hut : u ≠ t := fun he => hu.1 (he ▸ hu')
  have hsame : (s.q.modifyReq t fun _ => r).reqs u = s.q.reqs u :=
    modifyReq_reqs_of_ne t s.q.toSendQueue hut fun _ => r
  rw [hsame]

theorem Doorbell.unlocked {s : HostState} (h : Doorbell c s) {i : ℕ} {noDelay : Bool}
    (hcall : s.calls[i]? = some noDelay) :
    Doorbell c (if (nvmeTcpQueueRequestUnlocked noDelay s.q).1 then
      { s with q := (nvmeTcpQueueRequestUnlocked noDelay s.q).2, calls := s.calls.eraseIdx i }.kick
      else
        { s with
          q := (nvmeTcpQueueRequestUnlocked noDelay s.q).2
          calls := s.calls.eraseIdx i }) := by
  by_cases hret : noDelay = false ∧ s.q.nrReq.toInt < I10_AGGREGATION_SIZE
  · simp only [nvmeTcpQueueRequestUnlocked, hret, and_self, if_true, Bool.false_eq_true, if_false]
    refine h.timer (d := s.q.doorbellTimer) (b := s.q.sockNospace)
      (n := s.q.timerSet) rfl rfl rfl ?_
    rintro (hqd | hd | hmem)
    · exact .inl hqd
    · exact .inr (.inl hd)
    · obtain ⟨j, hj⟩ := List.mem_iff_getElem?.1 hmem
      have hji : j ≠ i := by
        rintro rfl
        rw [hcall, hret.1] at hj
        cases hj
      exact .inr (.inr (List.mem_eraseIdx_iff_getElem?.2 ⟨j, hji, hj⟩))
  · simp only [nvmeTcpQueueRequestUnlocked, hret, if_false, if_true]
    exact h.kick (b := s.q.sockNospace) rfl rfl

@[simp] theorem setPc_thru (s : HostState) (pc : IoWorkPc) :
    ((s.setPc .thru pc).work .thru) = { s.work .thru with pc := pc } := by
  simp [HostState.setPc]

@[simp] theorem setPc_lat (s : HostState) (pc : IoWorkPc) :
    (s.setPc .thru pc).work .lat = s.work .lat := by
  simp [HostState.setPc]

@[simp] theorem setPc_calls (s : HostState) (l : Lane) (pc : IoWorkPc) :
    (s.setPc l pc).calls = s.calls := rfl

theorem Doorbell.dequeue (hc : Thru c) {s : HostState} (h : Doorbell c s) (hstale : ¬ Stale s.q) :
    Doorbell c ({ s with q := (nvmeTcpTrySendDequeue c s.q).2 }.setPc .thru
      (if (nvmeTcpTrySendDequeue c s.q).1 then .recv 0 else .flush)) := by
  have hq := h.ok.dequeue
  have hcount := h.count
  obtain ⟨t, hreq, heq⟩ | ⟨t, rest, hreq, hlist, heq⟩ | ⟨hreq, hlist, -, -, heq⟩ | ⟨hreq, hlist,
      hcond, heq⟩ :=
    trySendDequeue_cases c s.q <;> rw [heq] at hq ⊢ <;> dsimp only at hq ⊢
  · refine ⟨hq, by simpa using h.lat, h.count, h.held, ?_⟩
    simp [hreq]
  · -- the request moves from the list into `queue->request`, and its count along with it
    refine ⟨hq, by simpa using h.lat, ?_, fun _ => .inr (by simp), by simp⟩
    rw [hlist, List.countP_cons, Int32.ofNat_add] at hcount
    have hdel := hc.isDelayed h.ok.prio t
    simp only [setPc_q]
    rw [hdel]
    cases hn : i10HostIsNodelayPath (s.q.reqs t) <;> simp [hn] at hcount ⊢ <;> grind
  · refine ⟨hq, by simpa using h.lat, ?_, fun hne => absurd rfl hne, by simp [hlist]⟩
    rw [hlist] at hcount
    simp only [setPc_q, hlist]
    simp at hcount ⊢
    grind
  · refine ⟨hq, by simpa using h.lat, h.count, h.held, ?_⟩
    by_cases hlen : s.q.caravanLen = 0
    · have hnil := h.ok.caravan.len_eq_zero.1 hlen
      simp [hlen, Present, hlist, hreq, hnil]
    · -- the timer is still on, so it will ring for a caravan that stays
      obtain ⟨hset, htimer⟩ := hcond.resolve_left hlen
      have hlen' : (s.q.caravanLen == 0) = false := by simpa using hlen
      simp only [hlen', setPc_thru, setPc_q]
      refine fun _ => ⟨fun hnow => ?_, fun _ => .inr (.inl htimer)⟩
      by_contra hne
      exact hstale ⟨hreq, hlist, hnow, hset, htimer, hne⟩

theorem Doorbell.rest (hc : Thru c) {s : HostState} (h : Doorbell c s)
    (hpc : (s.work .thru).pc = .flush) :
    ∃ result q', nvmeTcpTrySendRest c false { s.q with replies := [] } = (result, q') ∧ 0 ≤ result ∧
      Doorbell c ({ s with q := q' }.setPc .thru (.recv result)) := by
  have hok : QueueOk c { s.q with replies := [] } := h.ok.withSocket _ _
  have hq := hok.rest hc rfl false
  have hrung := h.rung
  simp only [hpc] at hrung
  obtain ⟨-, hns, -⟩ | ⟨hreq, heq⟩ | ⟨t, q', hreq, heq, hsteps⟩ :=
    trySendRest_cases hc hok rfl false
  · cases hns
  · rw [heq] at hq
    obtain ⟨hnow, hrest⟩ := hrung hreq
    refine ⟨0, _, heq, le_rfl, hq, by simpa using h.lat, ?_, ?_, ?_⟩
    · have hcount := h.count
      simpa using hcount
    · intro hne
      have hs : s.q.sendNow = false := by
        by_contra hs
        exact hne (hnow (by simpa using hs))
      rcases h.held hne with hcar | hr
      · exact .inl (by simpa [hs, SendQueue.flushIf] using hcar)
      · exact absurd hreq hr
    · simp only [setPc_thru, setPc_q]
      rintro - hpres
      cases hs : s.q.sendNow with
      | false => exact hrest (.inr hs)
      | true =>
        -- the caravan is gone; what is left is on the list
        rcases hpres with hl | hcar | hr
        · exact hrest (.inl hl)
        · exact absurd hcar (by simp [hs, SendQueue.flushIf, SendQueue.flushed, caravanSent])
        · exact absurd hr (by simpa using hreq)
  · rw [heq] at hq
    have hreq' : s.q.request = some t := hreq
    obtain ⟨hready, hmem⟩ := h.ok.active t hreq'
    have hother := (frame_of_steps hsteps.to_reflTransGen).others
    obtain ⟨-, -, hne⟩ := steps_working (by decide) (by simpa using hready)
      (hok.caravan.flushIf s.q.sendNow) hsteps
    refine ⟨1, _, heq, by decide, hq, by simpa using h.lat, ?_, fun _ => .inl hne, by simp⟩
    have hcount := h.count
    simp only [setPc_q]
    rw [hcount]
    congr 2
    refine (List.countP_congr fun u hu => ?_).symm
    have hut : u ≠ t := fun he => hmem (he ▸ hu)
    have hsame : q'.reqs u = s.q.reqs u := by simpa using hother u hut
    rw [hsame]

theorem Doorbell.step (hc : Thru c) {s s' : HostState} {e : HostEvent} (h : Doorbell c s)
    (htakes : SocketTakes s e) (hcounted : Counted c s e) (hstep : hostStep c s e = some s') :
    Doorbell c s' := by
  have hidle : ∀ l pc, (s.work l).pc = pc → pc ≠ .idle → l = .thru := by
    intro l pc hpc hne
    cases l with
    | thru => rfl
    | lat => rw [h.lat] at hpc; exact absurd hpc.symm hne
  cases e with
  | queueRq t rq =>
    simp only [hostStep, Option.ite_none_right_eq_some, Option.some.injEq] at hstep
    obtain ⟨hu, rfl⟩ := hstep
    obtain ⟨hr, hst⟩ := ready_setupCmdPdu (h.ok.good t) rq
    exact h.submit hc hu hr (by rw [hst]; decide) _
  | handleR2t t pdu =>
    simp only [hostStep, Option.ite_none_right_eq_some] at hstep
    obtain ⟨hu, hstep⟩ := hstep
    split_ifs at hstep with hacc
    · obtain rfl := Option.some_inj.1 hstep
      exact h.submit hc hu (ready_setupH2c (h.ok.good t) hacc (hcounted hacc)) (by simp) _
    · obtain rfl := Option.some_inj.1 hstep
      exact h.refuse hu (good_setupH2c_refused (h.ok.good t) (by simpa using hacc))
  | requestUnlocked i =>
    simp only [hostStep] at hstep
    cases hcall : s.calls[i]? with
    | none => simp [hcall] at hstep
    | some noDelay =>
      simp only [hcall, Option.some.injEq] at hstep
      obtain rfl := hstep
      exact h.unlocked hcall
  | doorbellTimeout =>
    simp only [hostStep, Option.ite_none_right_eq_some, Option.some.injEq] at hstep
    obtain ⟨-, rfl⟩ := hstep
    exact h.kick (b := s.q.sockNospace) rfl rfl
  | dataReady =>
    obtain rfl := Option.some_inj.1 hstep
    exact h.kick (d := s.q.doorbellTimer) (b := s.q.sockNospace) (n := s.q.timerSet) rfl rfl
  | writeSpace =>
    obtain rfl := Option.some_inj.1 hstep
    exact h.kick (d := s.q.doorbellTimer) (n := s.q.timerSet) rfl rfl
  | workStart l =>
    simp only [hostStep, Option.ite_none_right_eq_some, Option.some.injEq] at hstep
    obtain ⟨⟨hqd, -⟩, rfl⟩ := hstep
    cases l with
    | lat => rw [h.lat] at hqd; cases hqd
    | thru => exact ⟨h.ok, by simpa using h.lat, h.count, h.held, by simp⟩
  | sendDequeue l =>
    simp only [hostStep, Option.ite_none_right_eq_some, Option.some.injEq] at hstep
    obtain ⟨hpc, rfl⟩ := hstep
    obtain rfl := hidle l _ hpc (by simp)
    exact h.dequeue hc hcounted
  | sendRest l nospace replies =>
    obtain ⟨rfl, rfl⟩ := htakes
    simp only [hostStep, Option.ite_none_right_eq_some, Option.some.injEq] at hstep
    obtain ⟨hpc, rfl⟩ := hstep
    obtain rfl := hidle l _ hpc (by simp)
    obtain ⟨result, q', heq, h0, hd⟩ := h.rest hc hpc
    rw [heq]
    rw [if_neg h0.not_gt]
    exact hd
  | tryRecv l got expired =>
    simp only [hostStep] at hstep
    split at hstep
    next result hpc =>
      obtain rfl := hidle l _ hpc (by simp)
      have hrung := h.rung
      simp only [hpc] at hrung
      split_ifs at hstep with hstop
      · obtain rfl := Option.some_inj.1 hstep
        refine ⟨h.ok, by simpa using h.lat, h.count, h.held, ?_⟩
        simpa [Rung] using hrung hstop.1
      · obtain rfl := Option.some_inj.1 hstep
        refine ⟨h.ok, ?_, h.count, h.held, ?_⟩
        · simpa [HostState.queueWork] using h.lat
        · simp [HostState.queueWork, Rung]
      · obtain rfl := Option.some_inj.1 hstep
        exact ⟨h.ok, by simpa using h.lat, h.count, h.held, by simp⟩
    next => cases hstep

theorem Doorbell.init (c : Config) : Doorbell c (hostSystem c).init :=
  ⟨queueOk_init c, rfl, rfl, fun h => absurd rfl h, by simp [hostSystem, blankQueue, Present]⟩

theorem Doorbell.attended {s : HostState} (h : Doorbell c s) (hp : Present s.q) : Attended s := by
  have hrung := h.rung
  by_cases hpc : (s.work .thru).pc = .idle
  · simp only [hpc] at hrung
    rcases hrung hp with hqd | hd | hcall
    · exact .inl hqd
    · exact .inr (.inr (.inl hd))
    · exact .inr (.inr (.inr (List.ne_nil_of_mem hcall)))
  · exact .inr (.inl hpc)

def sampleConfig : Config where
  qid := 1
  numOnlineCpus := 2
  i10DelayedDoorbellUs := 50
  hdrDigest := false
  dataDigest := false
  cmndCapsuleLen := 64 + 8192
  icdoff := 0
  crc := fun _ => [0, 0, 0, 0]
  crc_length := fun _ => rfl

def sector : BioVec := ⟨List.replicate 512 0⟩

theorem sector_len : sector.data.length = 512 := List.length_replicate

theorem sector_backed (opf : UInt32) : Bio.Backed ⟨opf, [sector], 0, 512⟩ := by
  have hne : sector.data ≠ [] := List.ne_nil_of_length_pos (by rw [sector_len]; decide)
  exact ⟨by simp, by simpa using hne, by simp [BioVec.len, sector_len], by simp [sector_len], by simp⟩

def bioRq (write : Bool) (opcode : UInt8) (nrPhysSegments : ℕ) (bio : List Bio) (tag : UInt16)
    (hbacked : bio ≠ [] ∧ ∀ b ∈ bio, b.Backed) (hsmall : (bio.map Bio.size).sum + 128 < 2 ^ 32) :
    Rq where
  write := write
  nrPhysSegments := nrPhysSegments
  specialVec := none
  bio := bio
  tag := tag
  cmd := { blankRq.cmd with opcode := opcode }
  backed := fun _ _ => hbacked
  special := blankRq.special
  small := ⟨hsmall, blankRq.small.2⟩

def sampleRead : Rq :=
  bioRq false 2 1 [⟨0, [sector], 0, 512⟩] 0 ⟨by simp, by simpa using sector_backed 0⟩ (by decide)

def sampleFlush : Rq := { blankRq with tag := 1 }

def sampleWrite : Rq :=
  bioRq true 1 1 [⟨1, [sector], 0, 512⟩] 0 ⟨by simp, by simpa using sector_backed 1⟩ (by decide)

def noInline (c : Config) : Config := { c with cmndCapsuleLen := 64 }

/-- A queue on which the target has to ask for the data of a write. -/
def r2tConfig : Config := noInline sampleConfig

def askFor (first second : UInt32) : NvmeTcpR2tPdu where
  hdr := ⟨nvmeTcpR2t, 0, 24, 0, 24⟩
  commandId := 0
  ttag := 7
  first := first
  second := second

/-- As long as no stale caravan is met, whatever is left to be sent is attended to. -/
theorem no_lost_doorbell (hc : Thru c) {es : List HostEvent} {s : HostState}
    (hrun : (hostSystem c).RunIn (fun s e => SocketTakes s e ∧ Counted c s e) es s) :
    Present s.q → Attended s :=
  (hrun.invariant (Doorbell.init c) fun _ _ _ h hok hstep => h.step hc hok.1 hok.2 hstep).attended

theorem sampleConfig_thru : Thru sampleConfig := ⟨by decide, by decide, by decide⟩

/-- A write and a flush are submitted while the worker runs; it takes both into one caravan and
sends it. The target then asks for the data of the write. -/
def answeredRun : List HostEvent :=
  [.queueRq 0 sampleWrite, .requestUnlocked 0, .queueRq 1 sampleFlush, .dataReady, .workStart .thru,
    .sendDequeue .thru, .sendRest .thru false [], .requestUnlocked 0, .tryRecv .thru false false,
    .sendDequeue .thru, .sendRest .thru false [], .tryRecv .thru false false,
    .sendDequeue .thru, .sendRest .thru false [], .tryRecv .thru false false,
    .handleR2t 0 (askFor 0 512), .requestUnlocked 0]

/-- The write is on the list again, for its data. -/
theorem no_lost_doorbell_write :
    ∃ s, (hostSystem r2tConfig).RunIn
      (fun s e => SocketTakes s e ∧ Counted r2tConfig s e) answeredRun s ∧ s.q.sendList = [0] ∧
      s.q.sent ≠ [] ∧ Present s.q ∧ Attended s := by
  obtain ⟨s, hrun, hlist, hsent⟩ : ∃ s, (hostSystem r2tConfig).RunIn
      (fun s e => SocketTakes s e ∧ Counted r2tConfig s e) answeredRun s ∧ s.q.sendList = [0] ∧
        s.q.sent ≠ [] :=
    Runs.System.exists_runIn_of_execIn (fun s : HostState => s.q.sendList = [0] ∧ s.q.sent ≠ [])
      (by decide +kernel)
  have hp : Present s.q := .inl (by simp [hlist])
  exact ⟨s, hrun, hlist, hsent, hp, no_lost_doorbell ⟨by decide, by decide, by decide⟩ hrun hp⟩

/-- A flush is submitted behind a read. The worker takes both before the submitter of the flush
has cancelled the timer, so the next dequeue finds the timer on and leaves `nr_req` at 1; the
caravan goes, and the next read finds `nr_req` at 2. -/
def staleRun : List HostEvent :=
  [.queueRq 0 sampleRead, .requestUnlocked 0, .queueRq 1 sampleFlush, .dataReady, .workStart .thru,
    .sendDequeue .thru, .sendRest .thru false [], .tryRecv .thru false false,
    .sendDequeue .thru, .sendRest .thru false [], .tryRecv .thru false false,
    .sendDequeue .thru, .requestUnlocked 0, .sendRest .thru false [], .tryRecv .thru false false,
    .workStart .thru, .sendDequeue .thru, .tryRecv .thru false false,
    .queueRq 2 sampleRead, .requestUnlocked 0]

/-- The second read of `staleRun` is on the list and nobody is going to look at it. -/
theorem doorbell_lost_after_stale_caravan :
    Thru sampleConfig ∧ ∃ s, (hostSystem sampleConfig).RunIn SocketTakes staleRun s ∧
      Present s.q ∧ ¬ Attended s :=
  ⟨sampleConfig_thru,
    Runs.System.exists_runIn_of_execIn (fun s => Present s.q ∧ ¬ Attended s) (by decide +kernel)⟩

end BlkSwitch.Host
