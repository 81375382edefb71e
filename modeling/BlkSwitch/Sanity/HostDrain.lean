import BlkSwitch.Proofs.HostStream
import BlkSwitch.Sanity.HostPath
import BlkSwitch.Sanity.HostWalk

/-! A host queue whose socket has space is drained by `nvme_tcp_try_send`: every call that finds a
request brings it to its end or moves it on. What waits further back on `send_list` is not touched
meanwhile. -/

namespace BlkSwitch.Host

open SendQueue

/-- A queue between two calls, on either path, with whole bios in its requests. -/
structure Sendable (c : Config) (q : NvmeTcpQueue) : Prop where
  streams : Streams q
  path : Thru c ∧ QueueOk c q ∨ LegacyQueue c ∧ LegacyOk c q

/-- The queue after `n` calls of `nvme_tcp_try_send` with space in the socket. -/
def trySends (c : Config) (n : ℕ) (q : NvmeTcpQueue) : NvmeTcpQueue :=
  (fun q => (nvmeTcpTrySend c q).2)^[n] q

def NvmeTcpQueue.behind (l : List ℕ) (q : NvmeTcpQueue) : NvmeTcpQueue :=
  { q with sendList := q.sendList ++ l }

def Loaded (q : NvmeTcpQueue) : Prop := q.request ≠ none ∨ q.sendList ≠ []

def Apart (q : NvmeTcpQueue) (u : ℕ) : Prop := u ∉ q.sendList ∧ q.request ≠ some u

/-- Calls that request `t` may still need: one that finds the caravan full before each step. -/
def callsLeft (t : ℕ) (q : SendQueue) : ℕ := 2 * stepsLeft (q.reqs t) + if q.sendNow then 0 else 1

def queueLeft (q : NvmeTcpQueue) : ℕ :=
  q.request.elim 0 (fun t => callsLeft t q.toSendQueue + 1) +
    (q.sendList.map fun t => 2 * stepsLeft (q.reqs t) + 3).sum

variable {c : Config} {q q' : NvmeTcpQueue} {t : ℕ}

def taken (c : Config) (t : ℕ) (q : NvmeTcpQueue) : NvmeTcpQueue :=
  { q with
    sendList := q.sendList.tail
    nrCaravanReq := if isDelayed c q t then q.nrCaravanReq + 1 else q.nrCaravanReq
    request := some t }

def NvmeTcpQueue.roomy (q : NvmeTcpQueue) : NvmeTcpQueue := { q with replies := [] }

theorem trySend_of_request (h : q.request = some t) :
    nvmeTcpTrySend c q = nvmeTcpTrySendRest c false q.roomy := by
  have hdeq : nvmeTcpTrySendDequeue c q = (false, q) := by simp [nvmeTcpTrySendDequeue, h]
  rw [nvmeTcpTrySend, hdeq]
  rfl

theorem trySend_taken (hreq : q.request = none) (hlist : q.sendList.head? = some t) :
    nvmeTcpTrySend c q = nvmeTcpTrySend c (taken c t q) := by
  obtain ⟨rest, hrest⟩ : ∃ rest, q.sendList = t :: rest := List.head?_eq_some_iff.1 hlist
  simp [nvmeTcpTrySend, nvmeTcpTrySendDequeue, hreq, hrest, taken]

theorem Loaded.cases (h : Loaded q) : (∃ t, q.request = some t) ∨ ∃ t, q.request = none ∧
    q.sendList.head? = some t := by
  cases hreq : q.request with
  | some t => exact .inl ⟨t, rfl⟩
  | none =>
    obtain ⟨t, rest, hlist⟩ := List.exists_cons_of_ne_nil (h.resolve_left (not_not.2 hreq))
    exact .inr ⟨t, rfl, by simp [hlist]⟩

/-! The list. -/

theorem trySend_list_of_request (h : q.request = some t) :
    (nvmeTcpTrySend c q).2.sendList = q.sendList := by
  rw [trySend_of_request h]
  rfl

theorem trySend_list_of_head (hreq : q.request = none) (hlist : q.sendList.head? = some t) :
    (nvmeTcpTrySend c q).2.sendList = q.sendList.tail := by
  rw [trySend_taken hreq hlist, trySend_list_of_request (t := t) rfl]
  rfl

/-- What waits behind plays no part in a call that finds a request. -/
theorem trySend_behind (h : Loaded q) (l : List ℕ) :
    (nvmeTcpTrySend c (q.behind l)).2 = (nvmeTcpTrySend c q).2.behind l := by
  have hsome : ∀ {q : NvmeTcpQueue} {t : ℕ}, q.request = some t →
      (nvmeTcpTrySend c (q.behind l)).2 = (nvmeTcpTrySend c q).2.behind l := by
    intro q t hreq
    rw [trySend_of_request hreq, trySend_of_request (q := q.behind l) hreq]
    rfl
  rcases h.cases with ⟨t, hreq⟩ | ⟨t, hreq, hlist⟩
  · exact hsome hreq
  · obtain ⟨rest, hrest⟩ : ∃ rest, q.sendList = t :: rest := List.head?_eq_some_iff.1 hlist
    have hbehind : taken c t (q.behind l) = (taken c t q).behind l := by
      simp only [taken, NvmeTcpQueue.behind, hrest, List.tail_cons, List.cons_append]
      rfl
    have hhead : (q.behind l).sendList.head? = some t := by simp [NvmeTcpQueue.behind, hrest]
    rw [trySend_taken (q := q.behind l) hreq hhead, hbehind, hsome (t := t) rfl,
      ← trySend_taken hreq hlist]

/-! One call. -/

structure Called (c : Config) (q q' : NvmeTcpQueue) : Prop where
  ok : Sendable c q'
  less : queueLeft q' < queueLeft q
  prio : q'.prioClass = q.prioClass
  apart : ∀ u, Apart q u → Apart q' u ∧ q'.reqs u = q.reqs u ∧
    (NotIn q.toSendQueue u → NotIn q'.toSendQueue u)

theorem Sendable.roomy (h : Sendable c q) : Sendable c q.roomy := by
  refine ⟨⟨h.streams.sound, h.streams.active, h.streams.waiting⟩, ?_⟩
  rcases h.path with ⟨hc, hq⟩ | ⟨hc, hq⟩
  · exact .inl ⟨hc, hq.withSocket _ _⟩
  · exact .inr ⟨hc, hq.toListOk.of_eq rfl rfl rfl, hq.path, hq.empty⟩

theorem Sendable.waiting (h : Sendable c q) (ht : t ∈ q.sendList) :
    (q.reqs t).state ≠ .data ∧ q.request ≠ some t := by
  rcases h.path with ⟨-, hq⟩ | ⟨-, hq⟩
  · exact ⟨(hq.waiting t ht).2, fun hreq => (hq.active t hreq).2 ht⟩
  · exact ⟨(hq.waiting t ht).2, fun hreq => (hq.active t hreq).2 ht⟩

theorem Sendable.taken (h : Sendable c q) (hreq : q.request = none)
    (hlist : q.sendList.head? = some t) :
    Sendable c (taken c t q) := by
  obtain ⟨rest, hrest⟩ : ∃ rest, q.sendList = t :: rest := List.head?_eq_some_iff.1 hlist
  have hdeq : nvmeTcpTrySendDequeue c q = (false, Host.taken c t q) := by
    simp [nvmeTcpTrySendDequeue, hreq, hrest, Host.taken]
  have hs := h.streams.dequeue (c := c) fun u hu => (h.waiting hu).1
  rw [hdeq] at hs
  refine ⟨hs, ?_⟩
  rcases h.path with ⟨hc, hq⟩ | ⟨hc, hq⟩
  · have hq' := hq.dequeue
    rw [hdeq] at hq'
    exact .inl ⟨hc, hq'⟩
  · have hl := hq.toListOk.dequeue fun _ hr => hr.legacy
    rw [hdeq] at hl
    exact .inr ⟨hc, hl, fun _ => hq.path (.inl (by simp [hrest])), hq.empty⟩

/-- After a flush there is room, so a call that finds the caravan full is followed by one that does
not. -/
theorem callsLeft_less {q q' : SendQueue}
    (h : Progress I10_MAX_AGGREGATION_SIZE t (q.flushIf q.sendNow) q')
    (hreq : q'.request = some t) : callsLeft t q' < callsLeft t q := by
  rcases h with hnone | ⟨-, hprog⟩
  · rw [hreq] at hnone
    cases hnone
  · rw [flushIf_reqs] at hprog
    unfold callsLeft
    cases hq : q.sendNow with
    | false =>
      rcases hprog with hless | ⟨-, hsame, hmark⟩
      · simp only [Bool.false_eq_true, if_false]
        split_ifs <;> omega
      · simp [hmark, hsame]
    | true =>
      have hroom : ¬ (q.flushIf true).i10HostIsCaravanFull I10_MAX_AGGREGATION_SIZE = true := by
        simp [SendQueue.flushIf, SendQueue.flushed, caravanSent, SendQueue.i10HostIsCaravanFull,
          I10_CARAVAN_CAPACITY, I10_MAX_AGGREGATION_SIZE]
      rcases hprog with hless | ⟨hf, -, -⟩
      · simp only [if_true]
        split_ifs <;> omega
      · rw [hq] at hf
        exact absurd hf hroom

theorem queueLeft_less (h : Sendable c q) (hreq : q.request = some t)
    (hlist : q'.sendList = q.sendList) (hother : ∀ u, u ≠ t → q'.reqs u = q.reqs u)
    (hend : q'.request = none ∨ q'.request = some t ∧
      callsLeft t q'.toSendQueue < callsLeft t q.toSendQueue) :
    queueLeft q' < queueLeft q := by
  have hwait : (q.sendList.map fun u => 2 * stepsLeft (q'.reqs u) + 3) =
      q.sendList.map fun u => 2 * stepsLeft (q.reqs u) + 3 := by
    refine List.map_congr_left fun u hu => ?_
    rw [hother u fun he => (h.waiting hu).2 (he ▸ hreq)]
  unfold queueLeft
  rw [hlist, hwait, hreq]
  rcases hend with hnone | ⟨hsome, hless⟩
  · simp [hnone]
  · simpa [hsome] using hless

theorem Sendable.called (hd : c.dataDigest = false) (h : Sendable c q) (hreq : q.request = some t) :
    Called c q (nvmeTcpTrySend c q).2 := by
  have hroomy := h.roomy
  rw [trySend_of_request hreq]
  have htouch : Touches t q.roomy.toSendQueue (nvmeTcpTrySendRest c false q.roomy).2.toSendQueue :=
    trySendRest_touches c I10_MAX_AGGREGATION_SIZE
      (i10HostLegacyPath c q.roomy) q.sendNow false hreq
  have hapart : ∀ u, Apart q u → u ≠ t ∧ Apart (nvmeTcpTrySendRest c false q.roomy).2 u := by
    rintro u ⟨hlist, hne⟩
    refine ⟨fun he => hne (he ▸ hreq), hlist, ?_⟩
    rcases htouch.request with hsame | hnone
    · rw [hsame]
      exact hne
    · rw [hnone]
      exact (Option.some_ne_none u).symm
  rcases hroomy.path with ⟨hc, hq⟩ | ⟨hc, hq⟩
  · obtain ⟨hs, -⟩ := rest_emits hc hd hq hroomy.streams rfl false
    obtain ⟨-, hfalse, -⟩ | ⟨hnone, -⟩ | ⟨t', p, hreq', heq, hsteps⟩ :=
      trySendRest_cases hc hq rfl false
    · cases hfalse
    · exact absurd hnone (by simp [NvmeTcpQueue.roomy, hreq])
    · obtain rfl : t = t' := Option.some.inj (hreq.symm.trans hreq')
      have hok := hq.rest hc rfl false
      obtain ⟨-, hprog⟩ := steps_progress (by simpa using (hq.active t hreq).1) hsteps
      refine ⟨⟨hs, .inl ⟨hc, hok⟩⟩, queueLeft_less h hreq rfl htouch.others ?_, rfl, fun u hu => ?_⟩
      · rw [heq]
        by_cases hp : p.request = none
        · exact .inl hp
        · obtain ⟨hsome, -⟩ := hprog.resolve_left hp
          exact .inr ⟨hsome, callsLeft_less (q := q.roomy.toSendQueue) hprog hsome⟩
      · obtain ⟨hut, hu'⟩ := hapart u hu
        refine ⟨hu', htouch.others u hut, fun hnot => ?_⟩
        rw [heq]
        exact notIn_of_steps hut hsteps.to_reflTransGen
          (NotIn.flushIf (q := q.roomy.toSendQueue) hnot _)
  · obtain ⟨-, hok, hs, hdone, -⟩ :=
      hq.rest hd hroomy.streams (by simp [NvmeTcpQueue.roomy, Polite]) false
    refine ⟨⟨hs, .inr ⟨hc, hok⟩⟩, queueLeft_less h hreq rfl htouch.others (.inl (hdone rfl)), rfl,
      fun u hu => ?_⟩
    obtain ⟨hut, hu'⟩ := hapart u hu
    refine ⟨hu', htouch.others u hut, fun _ k hk => ?_⟩
    rw [hok.empty.1] at hk
    cases hk

theorem Sendable.call (hd : c.dataDigest = false) (h : Sendable c q) (hload : Loaded q) :
    Called c q (nvmeTcpTrySend c q).2 := by
  rcases hload.cases with ⟨t, hreq⟩ | ⟨t, hreq, hlist⟩
  · exact h.called hd hreq
  · obtain ⟨rest, hrest⟩ : ∃ rest, q.sendList = t :: rest := List.head?_eq_some_iff.1 hlist
    have hcall := (h.taken hreq hlist).called hd (t := t) rfl
    rw [trySend_taken hreq hlist]
    refine ⟨hcall.ok, hcall.less.trans ?_, hcall.prio, ?_⟩
    · have hflag : (if q.sendNow = true then 0 else 1) ≤ 1 := by split_ifs <;> omega
      change 2 * stepsLeft (q.reqs t) + (if q.sendNow = true then 0 else 1) + 1 +
        (q.sendList.tail.map fun u => 2 * stepsLeft (q.reqs u) + 3).sum < _
      unfold queueLeft
      rw [hreq, hrest]
      simp
      omega
    · rintro u ⟨hmem, hne⟩
      refine hcall.apart u ⟨?_, ?_⟩
      · change u ∉ q.sendList.tail
        exact fun hmem' => hmem (List.mem_of_mem_tail hmem')
      · rintro ⟨⟩
        exact hmem (by simp [hrest])

/-! All the calls. -/

theorem trySends_succ (c : Config) (n : ℕ) (q : NvmeTcpQueue) :
    trySends c (n + 1) q = trySends c n (nvmeTcpTrySend c q).2 := Function.iterate_succ_apply _ n q

/-- The queue is drained, and what waits behind is next. -/
theorem Sendable.drains (hd : c.dataDigest = false) (h : Sendable c q) :
    ∃ n q', (∀ l, trySends c n (q.behind l) = q'.behind l) ∧ q'.request = none ∧ q'.sendList = [] ∧
      Sendable c q' ∧ q'.prioClass = q.prioClass ∧
      ∀ u, Apart q u → q'.reqs u = q.reqs u ∧ (NotIn q.toSendQueue u → NotIn q'.toSendQueue u) := by
  induction hn : queueLeft q using Nat.strong_induction_on generalizing q with
  | _ n ih =>
    by_cases hload : Loaded q
    · have hcall := h.call hd hload
      obtain ⟨n, q', hrun, hreq, hlist, hok, hprio, hapart⟩ := ih _ (hn ▸ hcall.less) hcall.ok rfl
      refine ⟨n + 1, q', fun l => ?_, hreq, hlist, hok, hprio.trans hcall.prio, fun u hu => ?_⟩
      · rw [trySends_succ, trySend_behind hload, hrun]
      · obtain ⟨hu', hreqs, hnot⟩ := hcall.apart u hu
        obtain ⟨hreqs', hnot'⟩ := hapart u hu'
        exact ⟨hreqs'.trans hreqs, fun hin => hnot' (hnot hin)⟩
    · obtain ⟨hreq, hlist⟩ := not_or.1 hload
      exact ⟨0, q, fun _ => rfl, not_not.1 hreq, not_not.1 hlist, h, rfl, fun _ _ => ⟨rfl, id⟩⟩

/-- The queue of a throughput lane is one at every point of a run. -/
theorem sendable_of_run (hc : Thru c) (hd : c.dataDigest = false) {es : List HostEvent}
    {s : HostState} (hrun : (hostSystem c).RunIn
      (fun s e => Conforming s e ∧ TakesCaravan s e ∧ WholeWrites s e) es s) :
    Sendable c s.q := by
  obtain ⟨hq, hs⟩ := hrun.invariant (I := fun s => QueueOk c s.q ∧ Streams s.q)
    ⟨queueOk_init c, Streams.init c⟩
    fun s e s' hI hok hstep => (caravan_moves hc hd hI hok hstep).1
  exact ⟨hs, .inl ⟨hc, hq⟩⟩

theorem sendable_of_legacy_run (hc : LegacyQueue c) (hd : c.dataDigest = false)
    {es : List HostEvent} {s : HostState}
    (hrun : (hostSystem c).RunIn (fun s e => Conforming s e ∧ PoliteSocket s e ∧ WholeWrites s e) es
    s) :
    Sendable c s.q := by
  obtain ⟨hq, hs⟩ := hrun.invariant (I := fun s => LegacyOk c s.q ∧ Streams s.q)
    ⟨LegacyOk.init c, Streams.init c⟩
    fun s e s' hI hok hstep => (legacy_moves hc hd hI hok hstep).1
  exact ⟨hs, .inr ⟨hc, hq⟩⟩

end BlkSwitch.Host
