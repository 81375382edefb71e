import BlkSwitch.Spec.HostMaps
import BlkSwitch.Sanity.HostQueue

/-! The queue maps of the nvme-tcp host. `ctrl->io_queues` outlives a connection, and an entry that
a reconnect does not set again is taken for a new one: the maps stay inside the queues that were
granted exactly when no such entry is left over. The class a queue works in follows from its
number alone, and agrees with the maps exactly when the default map has one queue for each CPU. -/

namespace BlkSwitch.Host

open Blk (HctxType)

/-- Every map that is used lies within the `granted` queues, and no two maps of their own
overlap. -/
structure MapsInside (o : CtrlOptions) (granted : ℕ) (s : Ctrl) : Prop where
  inside : ∀ ty, 0 < (s.map ty).nrQueues → (s.map ty).queueOffset + (s.map ty).nrQueues ≤ granted
  apart : ∀ a b, a ≠ b → dedicated o s.ioQueues a = true → dedicated o s.ioQueues b = true →
    (s.map a).queueOffset + (s.map a).nrQueues ≤ (s.map b).queueOffset ∨
      (s.map b).queueOffset + (s.map b).nrQueues ≤ (s.map a).queueOffset

/-- Nothing of an earlier connect is left that the next one would map: no queues for reads when
reads share theirs, and no queues for polling when none are left for it. -/
def Fresh (o : CtrlOptions) (s : Ctrl) (granted : ℕ) : Prop :=
  (o.nrWriteQueues ≠ 0 → granted ≤ o.nrIoQueues → s.ioQueues .read = 0) ∧
    (o.nrPollQueues ≠ 0 → leftQueues o granted = 0 →
      s.ioQueues .poll = 0 ∧ (s.tagset = true → (s.map .poll).nrQueues ≤ granted))

section Maps

variable {o : CtrlOptions} {s s' : Ctrl} {granted : ℕ}

/-- What holds of a controller between two connects. -/
structure CtrlOk (o : CtrlOptions) (s : Ctrl) : Prop where
  read : o.nrWriteQueues = 0 → s.ioQueues .read = 0
  first : s.tagset = false → s.ioQueues .poll = 0
  poll : s.tagset = true → dedicated o s.ioQueues .poll = false →
    (s.map .poll).queueOffset = 0 ∧ (o.nrPollQueues = 0 → (s.map .poll).nrQueues = 0)
  again : s.tagset = true → nvmeTcpSetIoQueues o s.nrHwQueues s.ioQueues = s.ioQueues ∧
    nvmeTcpMapQueues o s.ioQueues s.map = s.map

theorem setIoQueues_again (io : HctxType → ℕ) :
    nvmeTcpSetIoQueues o granted (nvmeTcpSetIoQueues o granted io) =
      nvmeTcpSetIoQueues o granted io := by
  funext ty
  cases ty <;> simp only [nvmeTcpSetIoQueues] <;> split_ifs <;> rfl

theorem mapQueues_again (io : HctxType → ℕ) (map : HctxType → QueueMap) :
    nvmeTcpMapQueues o io (nvmeTcpMapQueues o io map) = nvmeTcpMapQueues o io map := by
  funext ty
  cases ty <;> simp only [nvmeTcpMapQueues]
  split_ifs <;> rfl

def mapBefore (o : CtrlOptions) (s : Ctrl) (granted : ℕ) : HctxType → QueueMap :=
  if s.tagset then s.map else allocTagSet o granted

/-- That a connect with the number of queues there is does not map them again makes no
difference. -/
theorem configure_map (h : CtrlOk o s) :
    (nvmeTcpConfigureIoQueues o granted s).map =
      nvmeTcpMapQueues o (nvmeTcpSetIoQueues o granted s.ioQueues) (mapBefore o s granted) := by
  unfold nvmeTcpConfigureIoQueues mapBefore
  split_ifs with ht hn
  · obtain ⟨hset, hmap⟩ := h.again ht
    rw [hn, hset, hmap]
  · rfl
  · rfl

theorem separate_eq_true : separate o granted = true ↔ o.nrWriteQueues ≠ 0 ∧
    o.nrIoQueues < granted := by
  simp [separate]

theorem separate_eq_false : separate o granted = false ↔ o.nrWriteQueues = 0 ∨
    granted ≤ o.nrIoQueues := by
  rw [← Bool.not_eq_true, separate_eq_true]
  omega

theorem leftQueues_separate (h : separate o granted = true) :
    o.nrIoQueues + defaultQueues o granted + leftQueues o granted = granted := by
  simp only [leftQueues, defaultQueues, h, ↓reduceIte]
  have hlt := (separate_eq_true.1 h).2
  omega

theorem leftQueues_shared (h : separate o granted = false) :
    defaultQueues o granted + leftQueues o granted = granted := by
  simp only [leftQueues, defaultQueues, h, Bool.false_eq_true, ↓reduceIte]
  omega

theorem setIoQueues_sum (h : CtrlOk o s)
    (hfresh : o.nrWriteQueues ≠ 0 → granted ≤ o.nrIoQueues → s.ioQueues .read = 0) :
    defaultQueues o granted + nvmeTcpSetIoQueues o granted s.ioQueues .read + leftQueues o granted =
      granted := by
  cases hsep : separate o granted with
  | true =>
    simp only [nvmeTcpSetIoQueues, hsep, ↓reduceIte]
    have hsum := leftQueues_separate hsep
    omega
  | false =>
    have hread : s.ioQueues .read = 0 := by
      rcases separate_eq_false.1 hsep with hw | hg
      · exact h.read hw
      · by_cases hw : o.nrWriteQueues = 0
        · exact h.read hw
        · exact hfresh hw hg
    simp only [nvmeTcpSetIoQueues, hsep, hread, Bool.false_eq_true, ↓reduceIte, Nat.add_zero]
    exact leftQueues_shared hsep

theorem not_dedicated_poll
    (h : dedicated o (nvmeTcpSetIoQueues o granted s.ioQueues) .poll = false) :
    dedicated o s.ioQueues .poll = false ∧ (o.nrPollQueues ≠ 0 → leftQueues o granted = 0) := by
  simp only [dedicated, nvmeTcpSetIoQueues, Bool.and_eq_false_iff, bne_eq_false_iff_eq] at h ⊢
  split_ifs at h <;> omega

theorem CtrlOk.configure (h : CtrlOk o s) : CtrlOk o (nvmeTcpConfigureIoQueues o granted s) := by
  constructor
  · intro hw
    have hsep : separate o granted = false := separate_eq_false.2 (.inl hw)
    simp only [nvmeTcpConfigureIoQueues, nvmeTcpSetIoQueues, hsep, Bool.false_eq_true, ↓reduceIte]
    exact h.read hw
  · intro ht
    cases ht
  · intro _ hded
    rw [configure_map h]
    change dedicated o (nvmeTcpSetIoQueues o granted s.ioQueues) .poll = false at hded
    simp only [nvmeTcpMapQueues, hded, Bool.false_eq_true, ↓reduceIte, mapBefore]
    split_ifs with ht
    · apply h.poll ht
      exact (not_dedicated_poll hded).1
    · simp only [allocTagSet]
      split_ifs <;> simp_all
  · intro _
    constructor
    · exact setIoQueues_again _
    · have hmap := @configure_map o s granted h
      rw [hmap]
      exact mapQueues_again _ _

theorem ctrlOk_init (o : CtrlOptions) : CtrlOk o (connectSystem o).init := by
  constructor
  · intro _
    rfl
  · intro _
    rfl
  · intro ht
    cases ht
  · intro ht
    cases ht

theorem ctrlOk_of_run {es : List ℕ} (h : (connectSystem o).Run es s) : CtrlOk o s := by
  apply h.invariant (I := CtrlOk o) (ctrlOk_init o)
  intro s e s' hI _ hstep
  simp only [connectSystem, connectStep] at hstep
  split_ifs at hstep
  cases hstep
  exact hI.configure

theorem mapBefore_poll_inside (h : CtrlOk o s) (hfresh : Fresh o s granted)
    (hded : dedicated o (nvmeTcpSetIoQueues o granted s.ioQueues) .poll = false)
    (hpos : 0 < (mapBefore o s granted .poll).nrQueues) :
    (mapBefore o s granted .poll).queueOffset +
      (mapBefore o s granted .poll).nrQueues ≤ granted := by
  obtain ⟨hold, hleft⟩ := not_dedicated_poll hded
  unfold mapBefore at hpos ⊢
  split_ifs at hpos ⊢ with ht
  · obtain ⟨hoff, hnone⟩ := h.poll ht hold
    have hp : o.nrPollQueues ≠ 0 := fun hp => by
      rw [hnone hp] at hpos
      cases hpos
    have hle := (hfresh.2 hp (hleft hp)).2 ht
    omega
  · simp only [allocTagSet] at hpos ⊢
    split_ifs <;> simp

theorem setIoQueues_poll_le (hfresh : Fresh o s granted) (hp : o.nrPollQueues ≠ 0) :
    nvmeTcpSetIoQueues o granted s.ioQueues .poll ≤ leftQueues o granted := by
  by_cases hl : leftQueues o granted = 0
  · simp only [nvmeTcpSetIoQueues, hl, ne_eq, not_true_eq_false, and_false, ↓reduceIte]
    exact (hfresh.2 hp hl).1.le
  · simp only [nvmeTcpSetIoQueues, hl, hp, ne_eq, not_false_eq_true, and_self, ↓reduceIte]
    exact Nat.min_le_right _ _

theorem mapsInside_of_fresh (h : CtrlOk o s) (hfresh : Fresh o s granted) :
    MapsInside o granted (nvmeTcpConfigureIoQueues o granted s) := by
  have hsum := setIoQueues_sum h hfresh.1
  have hdef : nvmeTcpSetIoQueues o granted s.ioQueues .default = defaultQueues o granted := rfl
  constructor
  · rw [configure_map h]
    intro ty hpos
    cases ty with
    | default =>
      simp only [nvmeTcpMapQueues, hdef] at hpos ⊢
      omega
    | read =>
      simp only [nvmeTcpMapQueues, hdef] at hpos ⊢
      split_ifs at hpos ⊢ <;> simp only at hpos ⊢ <;> omega
    | poll =>
      cases hded : dedicated o (nvmeTcpSetIoQueues o granted s.ioQueues) .poll with
      | false =>
        simp only [nvmeTcpMapQueues, hded, Bool.false_eq_true, ↓reduceIte] at hpos ⊢
        exact mapBefore_poll_inside h hfresh hded hpos
      | true =>
        have hp : o.nrPollQueues ≠ 0 := by
          simp only [dedicated, Bool.and_eq_true, bne_iff_ne] at hded
          exact hded.1
        have hle := setIoQueues_poll_le hfresh hp
        simp only [nvmeTcpMapQueues, hded, ↓reduceIte, hdef]
        omega
  · rw [configure_map h]
    change ∀ a b, a ≠ b → dedicated o (nvmeTcpSetIoQueues o granted s.ioQueues) a = true →
      dedicated o (nvmeTcpSetIoQueues o granted s.ioQueues) b = true → _
    intro a b hab ha hb
    cases a <;> cases b <;>
      simp only [nvmeTcpMapQueues, ha, hb, ↓reduceIte, ne_eq, not_true_eq_false] at hab ⊢ <;> omega

/-- A number of queues for reads that is left over is mapped behind all the queues there are. -/
theorem read_fresh (h : CtrlOk o s)
    (hin : MapsInside o granted (nvmeTcpConfigureIoQueues o granted s)) (hw : o.nrWriteQueues ≠ 0)
    (hg : granted ≤ o.nrIoQueues) : s.ioQueues .read = 0 := by
  by_contra hread
  have hsep : separate o granted = false := separate_eq_false.2 (.inr hg)
  have hread' : nvmeTcpSetIoQueues o granted s.ioQueues .read = s.ioQueues .read := by
    simp [nvmeTcpSetIoQueues, hsep]
  have hdef : defaultQueues o granted = granted := by
    simp only [defaultQueues, hsep, Bool.false_eq_true, ↓reduceIte]
    omega
  have hmap : (nvmeTcpConfigureIoQueues o granted s).map .read = ⟨s.ioQueues .read, granted⟩ := by
    rw [configure_map h]
    simp [nvmeTcpMapQueues, dedicated, hread', hread, hw]
    exact hdef
  have hle := hin.inside .read
  rw [hmap] at hle
  have hle := hle (by simp only; omega)
  simp only at hle
  omega

theorem poll_fresh (h : CtrlOk o s)
    (hin : MapsInside o granted (nvmeTcpConfigureIoQueues o granted s)) (hp : o.nrPollQueues ≠ 0)
    (hl : leftQueues o granted = 0) :
    s.ioQueues .poll = 0 ∧ (s.tagset = true → (s.map .poll).nrQueues ≤ granted) := by
  have hpoll : nvmeTcpSetIoQueues o granted s.ioQueues .poll = s.ioQueues .poll := by
    simp [nvmeTcpSetIoQueues, hl]
  have hle := hin.inside .poll
  rw [configure_map h] at hle
  by_cases hz : s.ioQueues .poll = 0
  · refine ⟨hz, fun ht => ?_⟩
    have hmap : nvmeTcpMapQueues o (nvmeTcpSetIoQueues o granted s.ioQueues)
      (mapBefore o s granted) .poll =
        s.map .poll := by
      simp [nvmeTcpMapQueues, dedicated, hpoll, hz, mapBefore, ht]
    rw [hmap] at hle
    omega
  · exfalso
    have hded : dedicated o (nvmeTcpSetIoQueues o granted s.ioQueues) .poll = true := by
      simp [dedicated, hpoll, hz, hp]
    simp only [nvmeTcpMapQueues, hded, ↓reduceIte, hpoll] at hle
    have hle := hle (by omega)
    have hdef : nvmeTcpSetIoQueues o granted s.ioQueues .default = defaultQueues o granted := rfl
    have hread := setIoQueues_sum h (read_fresh h hin)
    omega

end Maps

/-- After any connects and reconnects, the next one maps inside what it was granted exactly when
nothing of the earlier ones is left that it would map. -/
theorem queue_maps_inside (o : CtrlOptions) :
    (∀ es s, (connectSystem o).RunIn (Fresh o) es s → es ≠ [] → MapsInside o s.nrHwQueues s) ∧
      ∀ es s granted s', (connectSystem o).Run es s → (connectSystem o).step s granted = some s' →
        (MapsInside o granted s' ↔ Fresh o s granted) := by
  have hnext : ∀ es s granted s', (connectSystem o).Run es s →
    (connectSystem o).step s granted = some s' →
      s'.nrHwQueues = granted ∧ (MapsInside o granted s' ↔ Fresh o s granted) := by
    intro es s granted s' hrun hstep
    have hI := ctrlOk_of_run hrun
    simp only [connectSystem, connectStep] at hstep
    split_ifs at hstep
    cases hstep
    refine ⟨rfl, fun hin => ?_, mapsInside_of_fresh hI⟩
    exact ⟨read_fresh hI hin, poll_fresh hI hin⟩
  constructor
  · intro es s hrun hne
    cases hrun with
    | nil => exact absurd rfl hne
    | snoc hpast hok hstep =>
      obtain ⟨hgranted, hiff⟩ := hnext _ _ _ _ (hpast.mono fun _ _ _ => trivial) hstep
      rw [hgranted]
      exact hiff.2 hok
  · intro es s granted s' hrun hstep
    exact (hnext es s granted s' hrun hstep).2

def sampleOptions : CtrlOptions :=
  { nrIoQueues := 2, nrWriteQueues := 2, nrPollQueues := 0, numOnlineCpus := 4 }

theorem queue_maps_inside_sample :
    ∃ s s', (connectSystem sampleOptions).Run [4] s ∧
      (connectSystem sampleOptions).step s 3 = some s' ∧ MapsInside sampleOptions 3 s' := by
  obtain ⟨s, hrun, hread, hstep⟩ : ∃ s,
    (connectSystem sampleOptions).RunIn (fun _ _ => True) [4] s ∧
      s.ioQueues .read = 2 ∧ ((connectSystem sampleOptions).step s 3).isSome = true :=
    Runs.System.exists_runIn_of_execIn
      (fun s : Ctrl => s.ioQueues .read = 2 ∧
        ((connectSystem sampleOptions).step s 3).isSome = true) (by decide +kernel)
  obtain ⟨s', hs'⟩ := Option.isSome_iff_exists.1 hstep
  refine ⟨s, s', hrun, hs', ?_⟩
  apply ((queue_maps_inside sampleOptions).2 [4] s 3 s' hrun hs').2
  exact ⟨fun _ hle => absurd hle (by decide), fun hp => absurd rfl hp⟩

/-- Four queues are granted, then two: the two queues for reads of the first connect are mapped
behind the two there are. -/
theorem reconnect_maps_outside : ∃ s, (connectSystem sampleOptions).Run [4, 2] s ∧
    s.nrHwQueues = 2 ∧ s.map .read = ⟨2, 2⟩ ∧ ¬ MapsInside sampleOptions 2 s := by
  obtain ⟨s, hrun, hn, hmap⟩ : ∃ s, (connectSystem sampleOptions).RunIn (fun _ _ => True) [4, 2] s ∧
      s.nrHwQueues = 2 ∧ s.map .read = ⟨2, 2⟩ :=
    Runs.System.exists_runIn_of_execIn (fun s : Ctrl => s.nrHwQueues = 2 ∧ s.map .read = ⟨2, 2⟩)
      (by decide +kernel)
  refine ⟨s, hrun, hn, hmap, fun hin => ?_⟩
  have hle := hin.inside .read
  rw [hmap] at hle
  exact absurd (hle (by decide)) (by decide)

/-- The hardware queue of a queue of the driver (`nvme_tcp_init_hctx`). -/
def hctxIdx (qid : ℕ) : ℕ := qid - 1

def inMap (s : Ctrl) (ty : HctxType) (qid : ℕ) : Prop :=
  (s.map ty).queueOffset ≤ hctxIdx qid ∧ hctxIdx qid < (s.map ty).queueOffset + (s.map ty).nrQueues

/-- A queue that the block layer uses for latency requests or for polling alone. -/
def inLatencyMap (o : CtrlOptions) (s : Ctrl) (qid : ℕ) : Prop :=
  (dedicated o s.ioQueues .read = true ∧ inMap s .read qid) ∨
    (dedicated o s.ioQueues .poll = true ∧ inMap s .poll qid)

/-- A submission gives every I/O queue the class that its map says, and the class decides which way
a request goes when the doorbell is delayed. -/
def LanesAgree (o : CtrlOptions) (s : Ctrl) : Prop :=
  ∀ (c : Config) (t : ℕ) (q : NvmeTcpQueue), c.numOnlineCpus = o.numOnlineCpus → 1 ≤ c.qid →
    c.qid ≤ s.nrHwQueues →
    ((nvmeTcpQueueRequestLocked c t q).2.prioClass = 0 ↔ inMap s .default c.qid) ∧
      ((nvmeTcpQueueRequestLocked c t q).2.prioClass = 1 ↔ inLatencyMap o s c.qid) ∧
      (I10_MIN_DOORBELL_TIMEOUT ≤ c.i10DelayedDoorbellUs →
        (i10HostLegacyPath c (nvmeTcpQueueRequestLocked c t q).2 = true ↔ inLatencyMap o s c.qid))

section Lanes

variable {o : CtrlOptions} {s : Ctrl} {granted : ℕ}

/-- A first connect that gives reads queues of their own, as numbers: `granted` queues are the
default ones, then those for reads, then those for polling. -/
theorem firstConnect_maps (hstep : (connectSystem o).step (connectSystem o).init granted = some s)
    (hown : dedicated o s.ioQueues .read = true) :
    ∃ rest, s.nrHwQueues = granted ∧
      s.map .default = ⟨min o.nrWriteQueues (granted - o.nrIoQueues), 0⟩ ∧
      s.map .read = ⟨o.nrIoQueues, min o.nrWriteQueues (granted - o.nrIoQueues)⟩ ∧
      min o.nrWriteQueues (granted - o.nrIoQueues) + o.nrIoQueues + rest = granted ∧
      0 < o.nrIoQueues ∧ (0 < rest → dedicated o s.ioQueues .poll = true) ∧
      (dedicated o s.ioQueues .poll = true →
        s.map .poll = ⟨rest, min o.nrWriteQueues (granted - o.nrIoQueues) + o.nrIoQueues⟩) := by
  simp only [connectSystem, connectStep] at hstep
  split_ifs at hstep with hgrant
  cases hstep
  have hmap := @configure_map o _ granted (ctrlOk_init o)
  simp only [connectSystem] at hmap
  rw [hmap]
  change dedicated o (nvmeTcpSetIoQueues o granted fun _ => 0) .read = true at hown
  change ∃ rest, granted = granted ∧ _ ∧ _ ∧ _ ∧ _ ∧
    (0 < rest → dedicated o (nvmeTcpSetIoQueues o granted fun _ => 0) .poll = true) ∧
      (dedicated o (nvmeTcpSetIoQueues o granted fun _ => 0) .poll = true → _)
  have hsep : separate o granted = true := by
    by_contra hsep
    simp [dedicated, nvmeTcpSetIoQueues, hsep] at hown
  have hdef : defaultQueues o granted = min o.nrWriteQueues (granted - o.nrIoQueues) := by
    simp [defaultQueues, hsep]
  have hread : nvmeTcpSetIoQueues o granted (fun _ => 0) .read = o.nrIoQueues := by
    simp [nvmeTcpSetIoQueues, hsep]
  have hsum := leftQueues_separate hsep
  -- what is left is not more than was asked for
  have hleft : leftQueues o granted ≤ o.nrPollQueues := by
    have hreq := hgrant.2
    unfold nvmeTcpNrIoQueues at hreq
    omega
  have hpos : 0 < o.nrIoQueues := by
    simp only [dedicated, hread, Bool.and_eq_true, bne_iff_ne] at hown
    omega
  refine ⟨leftQueues o granted, rfl, ?_, ?_, by omega, hpos, ?_, ?_⟩
  · simp [nvmeTcpMapQueues, nvmeTcpSetIoQueues, hdef]
  · simp only [nvmeTcpMapQueues, hown, ↓reduceIte, hread]
    rw [← hdef]
    rfl
  · intro hrest
    have hp : o.nrPollQueues ≠ 0 := by omega
    have hmin : min o.nrPollQueues (leftQueues o granted) ≠ 0 := by omega
    simp only [dedicated, nvmeTcpSetIoQueues, hp, Nat.pos_iff_ne_zero.1 hrest, hmin, ne_eq,
      not_false_eq_true, and_self, ↓reduceIte, Bool.and_eq_true, bne_iff_ne]
  · intro hded
    simp only [nvmeTcpMapQueues, hded, ↓reduceIte, hread, ← hdef]
    simp only [dedicated, nvmeTcpSetIoQueues, Bool.and_eq_true, bne_iff_ne] at hded
    simp only [nvmeTcpSetIoQueues, QueueMap.mk.injEq, and_true]
    split_ifs at hded ⊢ <;> omega

theorem firstConnect_inMap (hstep : (connectSystem o).step (connectSystem o).init granted = some s)
    (hown : dedicated o s.ioQueues .read = true) {qid : ℕ} (hq : 1 ≤ qid)
    (hg : qid ≤ s.nrHwQueues) :
    (inMap s .default qid ↔ qid ≤ min o.nrWriteQueues (granted - o.nrIoQueues)) ∧
      (inLatencyMap o s qid ↔ min o.nrWriteQueues (granted - o.nrIoQueues) < qid) := by
  obtain ⟨rest, hn, hdef, hread, hsum, -, hded, hpoll⟩ := firstConnect_maps hstep hown
  rw [hn] at hg
  constructor
  · simp only [inMap, hdef, hctxIdx]
    omega
  · simp only [inLatencyMap, hown, true_and, inMap, hread, hctxIdx]
    constructor
    · rintro (h | ⟨hd, h⟩)
      · omega
      · rw [hpoll hd] at h
        simp only at h
        omega
    · intro hlt
      by_cases hin : qid ≤ min o.nrWriteQueues (granted - o.nrIoQueues) + o.nrIoQueues
      · left
        omega
      · right
        have hd := hded (by omega)
        rw [hpoll hd]
        refine ⟨hd, ?_, ?_⟩ <;> simp only <;> omega

theorem prioClass_eq_zero (c : Config) (t : ℕ) (q : NvmeTcpQueue) :
    (nvmeTcpQueueRequestLocked c t q).2.prioClass = 0 ↔ c.qid ≤ c.numOnlineCpus := by
  rw [(queueRequestLocked_fields c t q).2.2.1]
  split_ifs with h <;> simp [h]

theorem prioClass_eq_one (c : Config) (t : ℕ) (q : NvmeTcpQueue) :
    (nvmeTcpQueueRequestLocked c t q).2.prioClass = 1 ↔ c.numOnlineCpus < c.qid := by
  rw [(queueRequestLocked_fields c t q).2.2.1]
  split_ifs with h <;> simp [h]
  omega

theorem zeroCrc_length (_ : List Byte) :
    ([0, 0, 0, 0] : List Byte).length = NVME_TCP_DIGEST_LENGTH := rfl

def queueConfig (o : CtrlOptions) (qid : ℕ) : Config where
  qid := qid
  numOnlineCpus := o.numOnlineCpus
  i10DelayedDoorbellUs := I10_MIN_DOORBELL_TIMEOUT
  hdrDigest := false
  dataDigest := false
  cmndCapsuleLen := 64
  icdoff := 0
  crc := fun _ => [0, 0, 0, 0]
  crc_length := zeroCrc_length

end Lanes

/-- A first connect with queues for reads: the class of every queue is that of its map exactly
when the default map has as many queues as there are CPUs. -/
theorem lanes_agree_iff (o : CtrlOptions) (granted : ℕ) (s : Ctrl)
    (hstep : (connectSystem o).step (connectSystem o).init granted = some s)
    (hown : dedicated o s.ioQueues .read = true) :
    LanesAgree o s ↔ min o.nrWriteQueues (granted - o.nrIoQueues) = o.numOnlineCpus := by
  have hmaps {qid : ℕ} := @firstConnect_inMap o s granted hstep hown qid
  constructor
  · intro hagree
    obtain ⟨rest, hn, -, -, hsum, hpos, -, -⟩ := firstConnect_maps hstep hown
    by_contra hne
    -- the first queue on which the two bounds differ
    have hone : 1 ≤ min (min o.nrWriteQueues (granted - o.nrIoQueues)) o.numOnlineCpus +
      1 := by omega
    have hle : min (min o.nrWriteQueues (granted - o.nrIoQueues)) o.numOnlineCpus + 1 ≤
      s.nrHwQueues := by omega
    have h := (hagree (queueConfig o _) 0 (blankQueue (queueConfig o 0)) rfl hone hle).1
    have hboth := (prioClass_eq_zero _ _ _).symm.trans (h.trans (hmaps hone hle).1)
    simp only [queueConfig] at hboth
    omega
  · intro hn c t q hcpus hq hg
    obtain ⟨hdef, hlat⟩ := hmaps hq hg
    have hone : (nvmeTcpQueueRequestLocked c t q).2.prioClass = 1 ↔ inLatencyMap o s c.qid := by
      rw [hlat, prioClass_eq_one, hcpus, hn]
    refine ⟨?_, hone, ?_⟩
    · rw [hdef, prioClass_eq_zero, hcpus, hn]
    · intro hbell
      rw [← hone]
      have hio : c.qid ≠ 0 := by omega
      have hdelay : ¬ c.i10DelayedDoorbellUs < I10_MIN_DOORBELL_TIMEOUT := by omega
      simp [i10HostLegacyPath, i10HostIsLatency, hio, hdelay]

/-- Four CPUs with four default queues and two for reads. -/
theorem lanes_agree_iff_sample :
    ∃ s, (connectSystem ⟨2, 4, 0, 4⟩).step (connectSystem ⟨2, 4, 0, 4⟩).init 6 = some s ∧
      dedicated ⟨2, 4, 0, 4⟩ s.ioQueues .read = true ∧ LanesAgree ⟨2, 4, 0, 4⟩ s :=
  ⟨_, rfl, rfl, (lanes_agree_iff ⟨2, 4, 0, 4⟩ 6 _ rfl rfl).2 (by decide)⟩

/-- Four CPUs with two default queues and four for reads: the third queue is one for reads, and
works in the class of the throughput queues. -/
theorem read_queue_in_throughput_class :
    ∃ s, (connectSystem ⟨4, 2, 0, 4⟩).step (connectSystem ⟨4, 2, 0, 4⟩).init 6 = some s ∧
      dedicated ⟨4, 2, 0, 4⟩ s.ioQueues .read = true ∧ inMap s .read 3 ∧
      (nvmeTcpQueueRequestLocked (queueConfig ⟨4, 2, 0, 4⟩ 3) 0
        (blankQueue (queueConfig ⟨4, 2, 0, 4⟩ 3))).2.prioClass = 0 ∧
          ¬ LanesAgree ⟨4, 2, 0, 4⟩ s := by
  refine ⟨_, rfl, rfl, ⟨by decide, by decide⟩, rfl, fun hagree => ?_⟩
  have hdef := (hagree (queueConfig ⟨4, 2, 0, 4⟩ 3) 0 (blankQueue (queueConfig ⟨4, 2, 0, 4⟩ 3)) rfl
    (by decide)
    (by decide)).1.1 rfl
  exact absurd hdef.2 (by decide)

end BlkSwitch.Host
