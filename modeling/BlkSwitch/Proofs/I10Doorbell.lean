import BlkSwitch.Proofs.HostDoorbell
import BlkSwitch.Spec.I10Queue

/-! Whether the i10 host can leave a request behind. `nr_req` is counted outside the lock of the
queue and cleared by the flush, so a request can be counted in the shadow of another; where the
counting is orderly, every request is attended to. -/

namespace BlkSwitch.I10

open Host SendQueue Relation

structure Delays (c : Config) : Prop where
  io : c.qid ≠ 0
  delay : I10_MIN_DOORBELL_TIMEOUT ≤ c.i10DelayedDoorbellUs

def Present (q : I10HostQueue) : Prop := q.sendList ≠ [] ∨ q.caravanIovs ≠ [] ∨ q.request ≠ none

def Attended (s : I10State) : Prop :=
  s.work.queued = true ∨ s.work.pc ≠ .idle ∨ s.q.doorbellTimer = true ∨ s.calls ≠ []

def SocketTakes (_ : I10State) : I10Event → Prop
  | .sendRest nospace replies => nospace = false ∧ replies = []
  | .handleR2t _ pdu => pdu.second ≠ 0
  | _ => True

/-- A call stands between its `nr_req++` and its decision. -/
def counting (s : I10State) : Bool := s.calls.any fun p => p.2 == .counted

/-- A request is queued again only when no earlier call about it is still underway. -/
def Returned (s : I10State) : I10Event → Prop
  | .queueRq t _ => t ∉ s.calls.map Prod.fst
  | .handleR2t t _ => t ∉ s.calls.map Prod.fst
  | _ => True

/-- `nr_req` is counted up for a request the queue still holds, and not while it is 1 on account
of a call that has yet to start the timer. -/
def CountsInTurn (c : Config) (s : I10State) : I10Event → Prop
  | .requestNext i => ∀ p ∈ s.calls[i]?, p.2 = .listed → isDelayed c s.q p.1 = true →
      ¬ Free s.q.toSendQueue s.q.sendList p.1 ∧
        ¬ (s.q.nrReq = 1 ∧ s.q.doorbellTimer = false ∧ counting s = true)
  | _ => True

/-- A caravan is not flushed behind an empty fetch while a request that has come in since has
been counted and has nobody else to look after it. -/
def FlushesNone (s : I10State) : I10Event → Prop
  | .sendRest _ _ => s.q.request = none → i10HostSendCaravan s.q = true →
      s.work.queued = true ∨ s.q.doorbellTimer = true ∨ ∀ t ∈ s.q.sendList, (t, .listed) ∈ s.calls
  | _ => True

/-- Someone other than the worker is going to see to what the worker has not seen. -/
def Rung (s : I10State) : Prop :=
  (s.work.queued = true ∨ s.q.doorbellTimer = true ∨ s.q.nrReq = 1 ∧ counting s = true) ∨
    s.q.caravanIovs = [] ∧ s.q.request = none ∧ ∀ t ∈ s.q.sendList, (t, .listed) ∈ s.calls

structure Doorbell (c : Config) (s : I10State) : Prop where
  ok : ListOk c (Ready c) s.q.toSendQueue s.q.sendList
  caravan : CaravanOk c s.q.toSendQueue
  now : s.q.sendNow = true → s.q.caravanIovs ≠ []
  tags : (s.calls.map Prod.fst).Nodup
  nonneg : 0 ≤ s.q.nrReq
  held : 0 < s.q.nrReq → s.q.caravanIovs ≠ [] ∨
    ∃ t, (t ∈ s.q.sendList ∨ s.q.request = some t) ∧ (t, .listed) ∉ s.calls
  rung : match s.work.pc with
    | .idle => Rung s
    | .recv result => result ≤ 0 → Rung s
    | .flush => s.q.request = none → s.q.caravanIovs ≠ []
    | .send => True

variable {c : Config} {s : I10State}

theorem Delays.legacy (hc : Delays c) : i10HostLegacyPath c = false := by
  have := hc.io
  have := hc.delay
  simp [i10HostLegacyPath]
  omega

/-- What has been said about the doorbell stays true when the parties that ring it move, as long
as those who relied on them do not lose by it. -/
theorem Doorbell.rung_of_imp (h : Doorbell c s) {s' : I10State} (hpc : s'.work.pc = s.work.pc)
    (hcar : s'.q.caravanIovs = s.q.caravanIovs) (hreq : s'.q.request = s.q.request)
    (himp : Rung s → Rung s') :
    match s'.work.pc with
    | .idle => Rung s'
    | .recv result => result ≤ 0 → Rung s'
    | .flush => s'.q.request = none → s'.q.caravanIovs ≠ []
    | .send => True := by
  have hrung := h.rung
  rw [hpc, hcar, hreq]
  cases hp : s.work.pc with
  | idle => simp only [hp] at hrung; exact himp hrung
  | send => trivial
  | flush => simpa only [hp] using hrung
  | recv result => simp only [hp] at hrung; exact fun h0 => himp (hrung h0)

/-! Submission. -/

theorem Rung.submit (h : Rung s) (t : ℕ) (r : NvmeTcpRequest) : Rung (submit s t r) := by
  rcases h with (hq | hd | ⟨hn, hcount⟩) | ⟨hcar, hreq, hall⟩
  · exact .inl (.inl hq)
  · exact .inl (.inr (.inl hd))
  · refine .inl (.inr (.inr ⟨hn, ?_⟩))
    simp only [counting, I10.submit, List.any_append]
    exact Bool.or_eq_true_iff.2 (.inl hcount)
  · refine .inr ⟨hcar, hreq, fun u hu => ?_⟩
    rcases List.mem_append.1 hu with hu | hu
    · exact List.mem_append_left _ (hall u hu)
    · rw [List.mem_singleton.1 hu]
      exact List.mem_append_right _ (by simp)

theorem Doorbell.submit (h : Doorbell c s) {t : ℕ} (hu : Free s.q.toSendQueue s.q.sendList t)
    (hnew : t ∉ s.calls.map Prod.fst) {r : NvmeTcpRequest} (hr : Ready c r)
    (hst : r.state ≠ .data) :
    Doorbell c (submit s t r) := by
  refine ⟨h.ok.enqueue hu hr hst, ⟨h.caravan.len, h.caravan.entry, h.caravan.mapped⟩, h.now, ?_,
    h.nonneg, ?_, ?_⟩
  · simp only [I10.submit, List.map_append, List.map_cons, List.map_nil]
    exact List.nodup_append.2 ⟨h.tags, by simp, by
      intro a ha b hb hab
      rw [List.mem_singleton.1 hb] at hab
      exact hnew (hab ▸ ha)⟩
  · intro hpos
    rcases h.held hpos with hcar | ⟨u, hmem, hnot⟩
    · exact .inl hcar
    · have hut : u ≠ t := by
        rintro rfl
        rcases hmem with hmem | hreq
        · exact hu.1 hmem
        · exact hu.2.1 hreq
      refine .inr ⟨u, hmem.imp_left (List.mem_append_left _), fun hin => ?_⟩
      rcases List.mem_append.1 hin with hin | hin
      · exact hnot hin
      · exact hut (congrArg Prod.fst (List.mem_singleton.1 hin))
  · exact h.rung_of_imp rfl rfl rfl fun hr => hr.submit t r

theorem Doorbell.refuse (h : Doorbell c s) {t : ℕ} (hu : Free s.q.toSendQueue s.q.sendList t)
    {r : NvmeTcpRequest} (hr : ReqGood c r) :
    Doorbell c { s with q := { s.q with toSendQueue := s.q.modifyReq t fun _ => r } } :=
  ⟨h.ok.replace hu hr, ⟨h.caravan.len, h.caravan.entry, h.caravan.mapped⟩, h.now, h.tags, h.nonneg,
    h.held, h.rung_of_imp rfl rfl rfl id⟩

/-! The callers' second half. -/

theorem Doorbell.kick (h : Doorbell c s) (d b : Bool) :
    Doorbell c { s with q := { s.q with doorbellTimer := d, sockNospace := b } }.queueWork :=
  ⟨h.ok.of_eq rfl rfl rfl, ⟨h.caravan.len, h.caravan.entry, h.caravan.mapped⟩, h.now, h.tags,
    h.nonneg, h.held, h.rung_of_imp rfl rfl rfl fun _ => .inl (.inl rfl)⟩

theorem Doorbell.returns (h : Doorbell c s) (i : ℕ) {d w : Bool}
    (himp : Rung s → Rung { s with
      q := { s.q with doorbellTimer := d }
      work := { s.work with queued := w }
      calls := s.calls.eraseIdx i }) :
    Doorbell c { s with
      q := { s.q with doorbellTimer := d }
      work := { s.work with queued := w }
      calls := s.calls.eraseIdx i } := by
  refine ⟨h.ok.of_eq rfl rfl rfl, ⟨h.caravan.len, h.caravan.entry, h.caravan.mapped⟩, h.now, ?_,
    h.nonneg, ?_, h.rung_of_imp rfl rfl rfl himp⟩
  · exact h.tags.sublist ((List.eraseIdx_sublist _ _).map _)
  · intro hpos
    rcases h.held hpos with hcar | ⟨u, hmem, hnot⟩
    · exact .inl hcar
    · exact .inr ⟨u, hmem, fun hin => hnot (List.mem_of_mem_eraseIdx hin)⟩

theorem not_listed_of_set (htags : (s.calls.map Prod.fst).Nodup) {i t : ℕ}
    (hcall : s.calls[i]? = some (t, .listed)) :
    (t, CallPc.listed) ∉ s.calls.set i (t, .counted) := by
  intro hin
  obtain ⟨j, hj⟩ := List.mem_iff_getElem?.1 hin
  rw [List.getElem?_set] at hj
  split_ifs at hj with hij hlt
  · simp at hj
  · -- the same tag twice
    have hi : (s.calls.map Prod.fst)[i]? = some t := by simp [hcall]
    have hj' : (s.calls.map Prod.fst)[j]? = some t := by simp [hj]
    have hilt : i < (s.calls.map Prod.fst).length := (List.getElem?_eq_some_iff.1 hi).1
    exact hij ((List.getElem?_inj hilt htags).1 (hi.trans hj'.symm))

theorem Doorbell.counts (h : Doorbell c s) {i t : ℕ} (hcall : s.calls[i]? = some (t, .listed))
    (hfree : ¬ Free s.q.toSendQueue s.q.sendList t)
    (halone : ¬ (s.q.nrReq = 1 ∧ s.q.doorbellTimer = false ∧ counting s = true)) :
    Doorbell c
      { s with
        q := { s.q with nrReq := s.q.nrReq + 1 }
        calls := s.calls.set i (t, .counted) } := by
  have hn := h.nonneg
  have hnot := not_listed_of_set h.tags hcall
  have hilt : i < s.calls.length := (List.getElem?_eq_some_iff.1 hcall).1
  refine ⟨h.ok.of_eq rfl rfl rfl, ⟨h.caravan.len, h.caravan.entry, h.caravan.mapped⟩, h.now, ?_, ?_,
    fun _ => ?_, h.rung_of_imp rfl rfl rfl fun hr => ?_⟩
  · have hself : (s.calls.set i (t, CallPc.counted)).map Prod.fst = s.calls.map Prod.fst := by
      rw [List.map_set]
      refine List.ext_getElem? fun j => ?_
      rw [List.getElem?_set]
      split_ifs with hij hlt
      · subst hij
        simp [hcall]
      · subst hij
        simp at hlt
        omega
      · rfl
    rw [hself]
    exact h.tags
  · change 0 ≤ s.q.nrReq + 1
    omega
  · by_cases hcar : s.q.caravanIovs = []
    · refine .inr ⟨t, ?_, hnot⟩
      by_contra hout
      rw [not_or] at hout
      exact hfree ⟨hout.1, hout.2, fun k hk => absurd hk (by simp [hcar])⟩
    · exact .inl hcar
  · have hcounting : (s.calls.set i (t, CallPc.counted)).any (fun p => p.2 == .counted) = true :=
      List.any_eq_true.2 ⟨_, List.mem_set hilt _, rfl⟩
    rcases hr with (hq | hd | ⟨h1, hcount⟩) | ⟨hcar, hreq, hall⟩
    · exact .inl (.inl hq)
    · exact .inl (.inr (.inl hd))
    · -- the call that made `nr_req` 1 has yet to start the timer, unless it runs
      have hd : s.q.doorbellTimer = true := by
        by_contra hd
        exact halone ⟨h1, by simpa using hd, hcount⟩
      exact .inl (.inr (.inl hd))
    · have hzero : s.q.nrReq = 0 := by
        by_contra hne
        rcases h.held (by omega) with hcar' | ⟨u, hmem | hreq', hnot'⟩
        · exact hcar' hcar
        · exact hnot' (hall u hmem)
        · exact absurd (hreq.symm.trans hreq') (by simp)
      refine .inl (.inr (.inr ⟨?_, hcounting⟩))
      change s.q.nrReq + 1 = 1
      omega

theorem Doorbell.requestNext (h : Doorbell c s) {i t : ℕ} {pc : CallPc}
    (hcall : s.calls[i]? = some (t, pc)) (hturn : CountsInTurn c s (.requestNext i)) {s' : I10State}
    (hstep : i10Step c s (.requestNext i) = some s') : Doorbell c s' := by
  have hturn' := hturn (t, pc) hcall
  simp only [i10Step, hcall, Option.some.injEq] at hstep
  cases pc with
  | listed =>
    by_cases hdel : isDelayed c s.q t = true
    · simp only [i10HostQueueRequestNext, hdel, if_true, Bool.false_eq_true, if_false] at hstep
      subst hstep
      exact h.counts hcall (hturn' rfl hdel).1 (hturn' rfl hdel).2
    · simp only [i10HostQueueRequestNext, hdel, Bool.false_eq_true, if_false, if_true] at hstep
      subst hstep
      exact h.returns i (d := false) (w := true) fun _ => .inl (.inl rfl)
  | counted =>
    by_cases harm : s.q.doorbellTimer = false ∧ s.q.nrReq = 1
    · simp only [i10HostQueueRequestNext, if_pos harm, Bool.false_eq_true, if_false] at hstep
      subst hstep
      exact h.returns i (d := true) (w := s.work.queued) fun _ => .inl (.inr (.inl rfl))
    by_cases hfull : (I10_AGGREGATION_SIZE : ℤ) ≤ s.q.nrReq
    · simp only [i10HostQueueRequestNext, if_neg harm, if_pos hfull, if_true] at hstep
      subst hstep
      exact h.returns i (d := false) (w := true) fun _ => .inl (.inl rfl)
    · simp only [i10HostQueueRequestNext, if_neg harm, if_neg hfull, Bool.false_eq_true,
        if_false] at hstep
      subst hstep
      refine h.returns i (d := s.q.doorbellTimer) (w := s.work.queued) fun hr => ?_
      rcases hr with (hq | hd | ⟨h1, -⟩) | ⟨hcar, hreq, hall⟩
      · exact .inl (.inl hq)
      · exact .inl (.inr (.inl hd))
      · -- this call would have started the timer
        have hd : s.q.doorbellTimer = true := by
          by_contra hd
          exact harm ⟨by simpa using hd, h1⟩
        exact .inl (.inr (.inl hd))
      · refine .inr ⟨hcar, hreq, fun u hu => ?_⟩
        obtain ⟨j, hj⟩ := List.mem_iff_getElem?.1 (hall u hu)
        refine List.mem_eraseIdx_iff_getElem?.2 ⟨j, ?_, hj⟩
        rintro rfl
        rw [hcall] at hj
        cases hj

/-! The worker. -/

theorem Doorbell.fetch (h : Doorbell c s) :
    Doorbell c (({ s with q := (i10HostTrySendFetch s.q).2 } : I10State).setPc
      (if (i10HostTrySendFetch s.q).1 then .recv 0 else .flush)) := by
  unfold i10HostTrySendFetch
  cases hreq : s.q.request with
  | some t =>
    exact ⟨h.ok, h.caravan, h.now, h.tags, h.nonneg, h.held,
      fun hnone => by cases hreq.symm.trans hnone⟩
  | none =>
    cases hlist : s.q.sendList with
    | cons t rest =>
      have hok := h.ok
      rw [hlist] at hok
      refine ⟨hok.take fun _ hr => hr, ⟨h.caravan.len, h.caravan.entry, h.caravan.mapped⟩, h.now,
        h.tags, h.nonneg, fun hpos => ?_, fun hnone => by cases hnone⟩
      rcases h.held hpos with hcar | ⟨u, hmem | hreq', hnot⟩
      · exact .inl hcar
      · rw [hlist] at hmem
        refine .inr ⟨u, ?_, hnot⟩
        rcases List.mem_cons.1 hmem with rfl | hmem
        · exact .inr rfl
        · exact .inl hmem
      · exact absurd (hreq.symm.trans hreq') (by simp)
    | nil =>
      by_cases hzero : s.q.caravanLen = 0
      · have hnil := h.caravan.len_eq_zero.1 hzero
        simp only [hzero, beq_self_eq_true, if_true]
        exact ⟨h.ok, h.caravan, h.now, h.tags, h.nonneg, h.held,
          fun _ => .inr ⟨hnil, hreq, by simp [I10State.setPc, hlist]⟩⟩
      · have hne : (s.q.caravanLen == 0) = false := by simpa using hzero
        simp only [hne, Bool.false_eq_true, if_false]
        exact ⟨h.ok, h.caravan, h.now, h.tags, h.nonneg, h.held,
          fun _ hnil => hzero (h.caravan.len_eq_zero.2 hnil)⟩

theorem Doorbell.caravanBytes_ne (h : Doorbell c s) (hf : i10HostSendCaravan s.q = true) :
    s.q.caravanBytes ≠ [] := by
  have hlen := caravanBytes_length h.caravan fun t => (h.ok.good t).buf
  intro hnil
  rw [hnil] at hlen
  have hzero : s.q.caravanLen = 0 := hlen.symm
  simp only [i10HostSendCaravan, hzero] at hf
  exact h.now (by simpa using hf) (h.caravan.len_eq_zero.1 hzero)

/-- What `i10_host_try_send` does behind its fetch. -/
theorem Doorbell.rest_cases (hc : Delays c) (h : Doorbell c s) (hrep : s.q.replies = []) :
    (s.q.request = none ∧ i10HostTrySendRest c false s.q =
      (0, { s.q with
        toSendQueue := s.q.flushIf (i10HostSendCaravan s.q)
        nrReq := if i10HostSendCaravan s.q then 0 else s.q.nrReq })) ∨
    ∃ t q', s.q.request = some t ∧
      i10HostTrySendRest c false s.q =
        (1, { s.q with toSendQueue := q', nrReq := if i10HostSendCaravan s.q then 0 else s.q.nrReq }) ∧
      TransGen (SendStep c I10_AGGREGATION_SIZE t) (s.q.flushIf (i10HostSendCaravan s.q)) q' := by
  have hall := @trySendRest_all c I10_AGGREGATION_SIZE false
    (i10HostSendCaravan s.q) false s.q.toSendQueue hrep
    h.caravanBytes_ne
  have hsent : (i10HostSendCaravan s.q && !false && decide
    (0 < (s.q.kernelSend s.q.caravanBytes).1)) =
      i10HostSendCaravan s.q := by
    cases hf : i10HostSendCaravan s.q with
    | false => rfl
    | true =>
      have hpos := List.length_pos_of_ne_nil (h.caravanBytes_ne hf)
      simpa [SendQueue.kernelSend, hrep] using hpos
  unfold i10HostTrySendRest
  dsimp only
  rw [hsent, hc.legacy, hall]
  simp only [Bool.and_false, Bool.false_eq_true, if_false]
  cases hreq : s.q.request with
  | none => exact .inl ⟨rfl, rfl⟩
  | some t =>
    obtain ⟨q', heq, hsteps⟩ :=
      @trySendReq_steps c I10_AGGREGATION_SIZE t (s.q.flushIf (i10HostSendCaravan s.q))
      (by simpa using hrep) (by simpa using hreq) (by simpa using (h.ok.active t hreq).1)
    exact .inr ⟨t, q', rfl, by simp [heq], hsteps⟩

theorem Doorbell.rest (hc : Delays c) (h : Doorbell c s) (hpc : s.work.pc = .flush)
    (hrep : s.q.replies = []) (hflush : s.q.request = none → i10HostSendCaravan s.q = true →
      s.work.queued = true ∨ s.q.doorbellTimer = true ∨ ∀ t ∈ s.q.sendList,
        (t, .listed) ∈ s.calls) :
    0 ≤ (i10HostTrySendRest c false s.q).1 ∧
      Doorbell c (({ s with q := (i10HostTrySendRest c false s.q).2 } : I10State).setPc
        (.recv (i10HostTrySendRest c false s.q).1)) := by
  have hn := h.nonneg
  have hrung := h.rung
  simp only [hpc] at hrung
  obtain ⟨hreq, heq⟩ | ⟨t, q', hreq, heq, hsteps⟩ := h.rest_cases hc hrep
  · rw [heq]
    refine ⟨le_rfl, ?_⟩
    cases hf : i10HostSendCaravan s.q with
    | true =>
      refine ⟨h.ok.of_eq rfl rfl rfl, .flushed _,
        fun hnow => absurd hnow (by simp [flushIf, flushed, caravanSent, I10State.setPc]), h.tags,
        le_rfl, fun hpos => absurd hpos (lt_irrefl 0), fun _ => ?_⟩
      rcases hflush hreq hf with hq | hd | hall
      · exact .inl (.inl hq)
      · exact .inl (.inr (.inl hd))
      · exact .inr ⟨rfl, hreq, hall⟩
    | false =>
      -- not flushed although there is a caravan: the timer is on
      have hd : s.q.doorbellTimer = true := by
        have hlen : s.q.caravanLen ≠ 0 := fun h0 => hrung hreq (h.caravan.len_eq_zero.1 h0)
        simp [i10HostSendCaravan, hreq, hlen] at hf
        exact hf.2
      exact ⟨h.ok.of_eq rfl rfl rfl, h.caravan, h.now, h.tags, h.nonneg, h.held,
        fun _ => .inl (.inr (.inl hd))⟩
  · have hready := (h.ok.active t hreq).1
    have hframe := frame_of_steps hsteps.to_reflTransGen
    obtain ⟨hwork, hok, hne⟩ := steps_working (by decide) (by simpa using hready)
      (h.caravan.flushIf (i10HostSendCaravan s.q)) hsteps
    have hother : ∀ u, u ≠ t → q'.reqs u = s.q.reqs u :=
      fun u hu => by simpa using hframe.others u hu
    rw [heq]
    refine ⟨zero_le_one, h.ok.steps hreq hother hwork, hok, fun _ => hne, h.tags, ?_,
      fun _ => .inl hne, fun h1 => absurd h1 (not_le.2 zero_lt_one)⟩
    change 0 ≤ if i10HostSendCaravan s.q then 0 else s.q.nrReq
    split_ifs <;> omega

theorem Doorbell.step (hc : Delays c) {s' : I10State} {e : I10Event} (h : Doorbell c s)
    (htakes : SocketTakes s e) (hret : Returned s e) (hturn : CountsInTurn c s e)
    (hflush : FlushesNone s e) (hstep : i10Step c s e = some s') : Doorbell c s' := by
  cases e with
  | queueRq t rq =>
    simp only [i10Step, Option.ite_none_right_eq_some, Option.some.injEq] at hstep
    obtain ⟨hu, rfl⟩ := hstep
    obtain ⟨hr, hst⟩ := ready_setupCmdPdu (h.ok.good t) rq
    exact h.submit hu hret hr (by rw [hst]; decide)
  | handleR2t t pdu =>
    simp only [i10Step, Option.ite_none_right_eq_some] at hstep
    obtain ⟨hu, hstep⟩ := hstep
    split_ifs at hstep with hacc
    · obtain rfl := Option.some_inj.1 hstep
      exact h.submit hu hret (ready_setupH2c (h.ok.good t) hacc htakes) (by simp)
    · obtain rfl := Option.some_inj.1 hstep
      exact h.refuse hu (good_setupH2c_refused (h.ok.good t) (by simpa using hacc))
  | requestNext i =>
    cases hcall : s.calls[i]? with
    | none => simp [i10Step, hcall] at hstep
    | some p => exact h.requestNext hcall hturn hstep
  | doorbellTimeout =>
    simp only [i10Step, Option.ite_none_right_eq_some, Option.some.injEq] at hstep
    obtain ⟨-, rfl⟩ := hstep
    exact h.kick false s.q.sockNospace
  | dataReady =>
    obtain rfl := Option.some_inj.1 hstep
    exact h.kick s.q.doorbellTimer s.q.sockNospace
  | writeSpace =>
    obtain rfl := Option.some_inj.1 hstep
    exact h.kick s.q.doorbellTimer false
  | workStart =>
    simp only [i10Step, Option.ite_none_right_eq_some, Option.some.injEq] at hstep
    obtain ⟨-, rfl⟩ := hstep
    exact ⟨h.ok, h.caravan, h.now, h.tags, h.nonneg, h.held, trivial⟩
  | sendFetch =>
    simp only [i10Step, Option.ite_none_right_eq_some, Option.some.injEq] at hstep
    obtain ⟨-, rfl⟩ := hstep
    exact h.fetch
  | sendRest nospace replies =>
    obtain ⟨rfl, rfl⟩ := htakes
    simp only [i10Step, Option.ite_none_right_eq_some, Option.some.injEq] at hstep
    obtain ⟨hpc, rfl⟩ := hstep
    have h₀ : Doorbell c { s with q := { s.q with replies := [] } } :=
      ⟨h.ok.of_eq rfl rfl rfl, ⟨h.caravan.len, h.caravan.entry, h.caravan.mapped⟩, h.now, h.tags,
        h.nonneg, h.held, h.rung_of_imp rfl rfl rfl id⟩
    obtain ⟨hnn, hd⟩ := h₀.rest hc hpc rfl hflush
    rw [if_neg hnn.not_gt]
    exact hd
  | tryRecv got expired =>
    have hrung := h.rung
    simp only [i10Step] at hstep
    split at hstep
    next result hpc =>
      simp only [hpc] at hrung
      split_ifs at hstep with hstop
      · obtain rfl := Option.some_inj.1 hstep
        exact ⟨h.ok, h.caravan, h.now, h.tags, h.nonneg, h.held, hrung hstop.1⟩
      · obtain rfl := Option.some_inj.1 hstep
        exact ⟨h.ok, h.caravan, h.now, h.tags, h.nonneg, h.held, .inl (.inl rfl)⟩
      · obtain rfl := Option.some_inj.1 hstep
        exact ⟨h.ok, h.caravan, h.now, h.tags, h.nonneg, h.held, trivial⟩
    next => cases hstep

theorem Doorbell.init (c : Config) : Doorbell c (i10System c).init := by
  obtain ⟨hlist, -, hcar, -⟩ := queueOk_init c
  exact ⟨hlist.of_eq rfl rfl rfl,
    ⟨hcar.len, hcar.entry, hcar.mapped⟩, by simp [i10System, blankQueue],
    List.nodup_nil, le_rfl, fun h => absurd h (lt_irrefl 0), .inr ⟨rfl, rfl, by simp [i10System]⟩⟩

theorem Doorbell.attended (h : Doorbell c s) (hp : Present s.q) : Attended s := by
  have hrung := h.rung
  by_cases hpc : s.work.pc = .idle
  · simp only [hpc] at hrung
    rcases hrung with (hq | hd | ⟨-, hcount⟩) | ⟨hcar, hreq, hall⟩
    · exact .inl hq
    · exact .inr (.inr (.inl hd))
    · obtain ⟨p, hmem, -⟩ := List.any_eq_true.1 hcount
      exact .inr (.inr (.inr (List.ne_nil_of_mem hmem)))
    · rcases hp with hl | hcar' | hreq'
      · obtain ⟨t, ht⟩ := List.exists_mem_of_ne_nil _ hl
        exact .inr (.inr (.inr (List.ne_nil_of_mem (hall t ht))))
      · exact absurd hcar hcar'
      · exact absurd hreq hreq'
  · exact .inr (.inl hpc)

instance (q : I10HostQueue) : Decidable (Present q) := by unfold Present; infer_instance
instance (s : I10State) : Decidable (Attended s) := by unfold Attended; infer_instance
instance (s : I10State) (e : I10Event) : Decidable (SocketTakes s e) := by
  cases e <;> unfold SocketTakes <;> infer_instance
instance (s : I10State) (e : I10Event) : Decidable (Returned s e) := by
  cases e <;> unfold Returned <;> infer_instance
instance (c : Config) (s : I10State) (e : I10Event) : Decidable (CountsInTurn c s e) := by
  cases e <;> unfold CountsInTurn <;> infer_instance
instance (s : I10State) (e : I10Event) : Decidable (FlushesNone s e) := by
  cases e <;> unfold FlushesNone <;> infer_instance

/-- As long as the counting is orderly, whatever is left to be sent is attended to. -/
theorem i10_no_lost_doorbell (hc : Delays c) {es : List I10Event}
    (hrun : (i10System c).RunIn
      (fun s e => SocketTakes s e ∧ Returned s e ∧ CountsInTurn c s e ∧ FlushesNone s e) es s) :
    Present s.q → Attended s :=
  (hrun.invariant (Doorbell.init c) fun _ _ _ h hok hstep =>
    h.step hc hok.1 hok.2.1 hok.2.2.1 hok.2.2.2 hstep).attended

theorem sampleConfig_delays : Delays sampleConfig := ⟨by decide, by decide⟩

/-- Two reads, one call after the other: the timer looks after both. -/
theorem i10_no_lost_doorbell_reads :
    ∃ s, (i10System sampleConfig).RunIn
        (fun s e => SocketTakes s e ∧ Returned s e ∧ CountsInTurn sampleConfig s e ∧
          FlushesNone s e)
        [.queueRq 0 sampleRead, .requestNext 0, .requestNext 0, .queueRq 1 sampleRead,
          .requestNext 0, .requestNext 0] s ∧
      Present s.q ∧ Attended s := by
  obtain ⟨s, hrun, hp⟩ : ∃ s, (i10System sampleConfig).RunIn
      (fun s e => SocketTakes s e ∧ Returned s e ∧ CountsInTurn sampleConfig s e ∧ FlushesNone s e)
      [.queueRq 0 sampleRead, .requestNext 0, .requestNext 0, .queueRq 1 sampleRead, .requestNext 0,
        .requestNext 0] s ∧ Present s.q :=
    Runs.System.exists_runIn_of_execIn (fun s : I10State => Present s.q) (by decide +kernel)
  exact ⟨s, hrun, hp, i10_no_lost_doorbell sampleConfig_delays hrun hp⟩

/-- Both reads are counted before either call looks at `nr_req`: it is 2 for both, and neither
starts the timer. -/
theorem i10_doorbell_lost_by_two_counts :
    Delays sampleConfig ∧ ∃ s, (i10System sampleConfig).RunIn SocketTakes
        [.queueRq 0 sampleRead, .queueRq 1 sampleRead, .requestNext 0, .requestNext 1,
          .requestNext 0, .requestNext 0] s ∧
      Present s.q ∧ ¬ Attended s :=
  ⟨sampleConfig_delays,
    Runs.System.exists_runIn_of_execIn (fun s => Present s.q ∧ ¬ Attended s) (by decide +kernel)⟩

end BlkSwitch.I10
