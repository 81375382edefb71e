import BlkSwitch.Lib.Loops
import BlkSwitch.Spec.Steering
import Mathlib.Data.Prod.Lex

/-! What the steering decisions of blk-switch amount to: when the class of a request and the type of
its hardware queue agree, that application steering comes to rest, and which core request steering
picks. -/

namespace BlkSwitch.Blk

section Class

variable {p : Task} {bio : Bio}

theorem or_and_eq (flags set mask : UInt32) :
    (flags ||| set) &&& mask = flags &&& mask ||| set &&& mask := by
  apply UInt32.toBitVec_inj.1
  ext i hi
  simp [Bool.and_or_distrib_right]

theorem or_and_self (flags set : UInt32) : (flags ||| set) &&& set = set := by
  apply UInt32.toBitVec_inj.1
  ext i hi
  simpa using fun h => Or.inr h

theorem or_prio_and (flags : UInt32) {mask : UInt32} (h : REQ_PRIO &&& mask = 0) :
    (flags ||| REQ_PRIO) &&& mask = flags &&& mask := by
  rw [or_and_eq, h, UInt32.or_zero]

def taskClass (p : Task) : UInt16 := ioprioPrioClass (p.ioContext.getD IOPRIO_DEFAULT)

theorem mapQueue_eq_read {flags : UInt32} (h : flags &&& REQ_HIPRI = 0) :
    blkMqMapQueue flags = .read ↔ flags &&& REQ_PRIO ≠ 0 ∧ flags &&& REQ_FUA = 0 := by
  unfold blkMqMapQueue
  rw [if_neg (not_not.2 h)]
  split_ifs with hread
  · simp [hread]
  · simp [hread]

theorem isThru_eq_false (bio : Bio) :
    blkSwitchIsThruRequest bio = false ↔ ioprioPrioClass bio.biIoprio = BLK_SWITCH_L_APP := by
  simp [blkSwitchIsThruRequest]

theorem setIoprio_latency (h : taskClass p = BLK_SWITCH_L_APP) :
    blkSwitchSetIoprio p bio =
      { bio with
        biIoprio := p.ioContext.getD IOPRIO_DEFAULT
        biOpf := bio.biOpf ||| REQ_PRIO } := by
  unfold blkSwitchSetIoprio
  exact if_pos h

theorem setIoprio_thru (h : taskClass p ≠ BLK_SWITCH_L_APP) : blkSwitchSetIoprio p bio = bio := by
  unfold blkSwitchSetIoprio
  exact if_neg h

/-- A latency task marks its bio, and then only a forced unit access keeps it from the latency
queue. -/
theorem latency_task_agrees_iff (hhi : bio.biOpf &&& REQ_HIPRI = 0)
    (h : taskClass p = BLK_SWITCH_L_APP) :
    (blkMqMapQueue (blkSwitchSetIoprio p bio).biOpf = .read ↔
      blkSwitchIsThruRequest (blkSwitchSetIoprio p bio) = false) ↔ bio.biOpf &&& REQ_FUA = 0 := by
  rw [setIoprio_latency h, isThru_eq_false]
  have hthru : ioprioPrioClass (p.ioContext.getD IOPRIO_DEFAULT) = BLK_SWITCH_L_APP := h
  have hmap := @mapQueue_eq_read (bio.biOpf ||| REQ_PRIO)
    (by rw [or_prio_and _ (by decide)]; exact hhi)
  rw [hmap, or_and_self, or_prio_and _ (by decide)]
  have hprio : REQ_PRIO ≠ 0 := by decide
  simp [hthru, hprio]

theorem other_task_agrees_iff (hhi : bio.biOpf &&& REQ_HIPRI = 0)
    (h : taskClass p ≠ BLK_SWITCH_L_APP) :
    (blkMqMapQueue (blkSwitchSetIoprio p bio).biOpf = .read ↔
      blkSwitchIsThruRequest (blkSwitchSetIoprio p bio) = false) ↔
      ((bio.biOpf &&& REQ_PRIO ≠ 0 ∧ bio.biOpf &&& REQ_FUA = 0) ↔
        ioprioPrioClass bio.biIoprio = BLK_SWITCH_L_APP) := by
  rw [setIoprio_thru h, isThru_eq_false, mapQueue_eq_read hhi]

end Class

/-- The hardware queue and the class of a request agree exactly when the flags the bio came with say
the same as its priority, or the task's priority replaces both and no forced unit access is asked
for. -/
theorem read_queue_iff_latency (p : Task) (bio : Bio) (hhi : bio.biOpf &&& REQ_HIPRI = 0) :
    (blkMqMapQueue (blkSwitchSetIoprio p bio).biOpf = .read ↔
        blkSwitchIsThruRequest (blkSwitchSetIoprio p bio) = false) ↔
      (taskClass p = BLK_SWITCH_L_APP → bio.biOpf &&& REQ_FUA = 0) ∧
        (taskClass p ≠ BLK_SWITCH_L_APP →
          ((bio.biOpf &&& REQ_PRIO ≠ 0 ∧ bio.biOpf &&& REQ_FUA = 0) ↔
            ioprioPrioClass bio.biIoprio = BLK_SWITCH_L_APP)) := by
  by_cases h : taskClass p = BLK_SWITCH_L_APP
  · rw [latency_task_agrees_iff hhi h]
    simp [h]
  · rw [other_task_agrees_iff hhi h]
    simp [h]

/-- A task in the real-time class, and its bio without flags. -/
theorem read_queue_iff_latency_sample :
    blkMqMapQueue (blkSwitchSetIoprio ⟨some 0x2000⟩ ⟨1, 0, 4096⟩).biOpf = .read ↔
      blkSwitchIsThruRequest (blkSwitchSetIoprio ⟨some 0x2000⟩ ⟨1, 0, 4096⟩) = false :=
  (read_queue_iff_latency ⟨some 0x2000⟩ ⟨1, 0, 4096⟩ (by decide)).2 (by decide)

/-- A file system's metadata bio, marked `REQ_PRIO`, in a task without a priority. -/
theorem prio_flag_thru_request :
    (⟨ REQ_PRIO, 0, 4096⟩ : Bio).biOpf &&& REQ_HIPRI = 0 ∧
      blkMqMapQueue (blkSwitchSetIoprio ⟨none⟩ ⟨ REQ_PRIO, 0, 4096⟩).biOpf = .read ∧
      blkSwitchIsThruRequest (blkSwitchSetIoprio ⟨none⟩ ⟨ REQ_PRIO, 0, 4096⟩) = true := by
  decide

section AppSteering

variable {n : Cores} {v : Appstr} {cur t : ℕ}

theorem appSteeringLoop_thru (iters : List ℕ) (target : Option ℕ) (minMetric : UInt64)
    (h : appSteeringLoop v true cur iters target minMetric = some t) :
    target = some t ∨ v.lAppstr t < v.lAppstr cur := by
  induction iters generalizing target minMetric with
  | nil => exact .inl h
  | cons iter iters ih =>
    simp only [appSteeringLoop, Bool.true_eq_false, and_false, ↓reduceIte, and_true] at h
    split_ifs at h with hskip hphase hwait hless
    · exact ih _ _ h
    · rcases ih _ _ h with heq | hlt
      · cases heq
        exact .inr hless.1
      · exact .inr hlt
    · exact ih _ _ h
    · exact ih _ _ h

/-- The cores a latency application on `cur` may move to. -/
def Candidate (v : Appstr) (cur cpu : ℕ) : Prop :=
  ¬ (cpu = cur ∨ BLK_SWITCH_THRESH_L < v.lAppstr cpu) ∧ v.appstrApp = BLK_SWITCH_L_APP ∧
    v.tAppstr cur ≠ 0 ∧ v.lAppstr cpu ≠ 0 ∧ v.sum cpu < v.sum cur

/-- The target is a candidate of the least load, if the one before the loop is a candidate at
all. -/
theorem appSteeringLoop_latency (iters : List ℕ) (target : Option ℕ) (minMetric : UInt64)
    (htarget : ∀ u, target = some u → v.sum u = minMetric ∧ Candidate v cur u)
    (h : appSteeringLoop v false cur iters target minMetric = some t) :
    Candidate v cur t ∧ v.sum t ≤ minMetric ∧ ∀ cpu ∈ iters, Candidate v cur cpu →
      v.sum t ≤ v.sum cpu := by
  induction iters generalizing target minMetric with
  | nil =>
    obtain ⟨hmin, hcand⟩ := htarget t h
    exact ⟨hcand, UInt64.le_of_eq hmin, fun _ hmem => by cases hmem⟩
  | cons iter iters ih =>
    simp only [appSteeringLoop, Bool.false_eq_true, and_false, ↓reduceIte, and_true] at h
    simp only [List.forall_mem_cons]
    split_ifs at h with hskip hphase hbetter
    · obtain ⟨hcand, hmin, hleast⟩ := ih _ _ htarget h
      exact ⟨hcand, hmin, fun hiter => absurd hskip hiter.1, hleast⟩
    · have hiter : Candidate v cur iter := ⟨hskip, hphase, hbetter.1, hbetter.2.1, hbetter.2.2.1⟩
      obtain ⟨hcand, hmin, hleast⟩ := ih (some iter) _ (by rintro u ⟨⟩; exact ⟨rfl, hiter⟩) h
      exact ⟨hcand, UInt64.le_of_lt (UInt64.lt_of_le_of_lt hmin hbetter.2.2.2), fun _ => hmin,
        hleast⟩
    · obtain ⟨hcand, hmin, hleast⟩ := ih _ _ htarget h
      refine ⟨hcand, hmin, fun hiter => ?_, hleast⟩
      -- a candidate that is not taken is no better than the one there is
      have hge : ¬ v.sum iter < minMetric :=
        fun hlt => hbetter ⟨hiter.2.2.1, hiter.2.2.2.1, hiter.2.2.2.2, hlt⟩
      exact UInt64.le_trans hmin (UInt64.not_lt.1 hge)
    · obtain ⟨hcand, hmin, hleast⟩ := ih _ _ htarget h
      exact ⟨hcand, hmin, fun hiter => absurd hiter.2.1 hphase, hleast⟩

theorem appSteeringLoop_mem (thru : Bool) (iters : List ℕ) (target : Option ℕ) (minMetric : UInt64)
    (h : appSteeringLoop v thru cur iters target minMetric = some t) : target = some t ∨
      t ∈ iters := by
  induction iters generalizing target minMetric with
  | nil => exact .inl h
  | cons iter iters ih =>
    have hnext : ∀ target' minMetric',
      appSteeringLoop v thru cur iters target' minMetric' = some t →
        target' = target ∨ target' = some iter → target = some t ∨ t ∈ iter :: iters := by
      intro target' minMetric' h' heq
      rcases ih _ _ h' with ht | hmem
      · rcases heq with rfl | rfl
        · exact .inl ht
        · cases ht
          exact .inr List.mem_cons_self
      · exact .inr (List.mem_cons_of_mem _ hmem)
    simp only [appSteeringLoop] at h
    split_ifs at h
    all_goals first
      | exact hnext _ _ h (.inl rfl)
      | exact hnext _ _ h (.inr rfl)

theorem appSteering_thru (h : appSteering n v true cur = some t) : v.lAppstr t < v.lAppstr cur := by
  rcases appSteeringLoop_thru _ _ _ h with hnone | hlt
  · cases hnone
  · exact hlt

theorem appSteering_latency (h : appSteering n v false cur = some t) :
    Candidate v cur t ∧ ∀ cpu ∈ (List.range n.count).map n.cpu, Candidate v cur cpu →
      v.sum t ≤ v.sum cpu := by
  obtain ⟨hcand, -, hleast⟩ := appSteeringLoop_latency _ _ _ (by rintro u ⟨⟩) h
  exact ⟨hcand, hleast⟩

theorem appSteering_mem {thru : Bool} (h : appSteering n v thru cur = some t) :
    t ∈ (List.range n.count).map n.cpu := by
  rcases appSteeringLoop_mem _ _ _ _ h with hnone | hmem
  · cases hnone
  · exact hmem

/-- The load that a move lowers: that of latency applications for a throughput application, and both
together for a latency application. -/
def moveLoad (v : Appstr) (thru : Bool) (cpu : ℕ) : ℕ :=
  if thru then (v.lAppstr cpu).toNat else (v.sum cpu).toNat

theorem appSteering_decreases {thru : Bool} (h : appSteering n v thru cur = some t) :
    moveLoad v thru t < moveLoad v thru cur := by
  cases thru with
  | true => exact UInt64.lt_iff_toNat_lt.1 (appSteering_thru h)
  | false => exact UInt64.lt_iff_toNat_lt.1 (appSteering_latency h).1.2.2.2.2

/-- A latency application has moved to the core it would choose again. -/
theorem appSteering_latency_stays (h : appSteering n v false cur = some t) :
    appSteering n v false t = none := by
  by_contra hne
  obtain ⟨u, hu⟩ := Option.ne_none_iff_exists'.1 hne
  obtain ⟨⟨-, happ, hbusy, -, hlt⟩, hleast⟩ := appSteering_latency h
  obtain ⟨⟨hskip, -, -, hlat, hless⟩, -⟩ := appSteering_latency hu
  have hcur : u ≠ cur := by
    rintro rfl
    exact UInt64.lt_irrefl _ (UInt64.lt_trans hlt hless)
  have hcand : Candidate v cur u :=
    ⟨fun hor => hor.elim hcur fun hthresh => hskip (.inr hthresh), happ, hbusy, hlat,
      UInt64.lt_trans hless hlt⟩
  have hle := hleast u (appSteering_mem hu) hcand
  exact absurd hless (UInt64.not_lt.2 hle)

end AppSteering

/-- On one snapshot, application steering never brings an application back to a CPU it was on, and
comes to rest; a latency application moves at most once. -/
theorem app_steering_settles (n : Cores) (v : Appstr) (thru : Bool) (cpu : ℕ) :
    (∀ i j x y, i < j → Loops.follow (appSteering n v thru) i cpu = some x →
        Loops.follow (appSteering n v thru) j cpu = some y → x ≠ y) ∧
      (∃ k, Loops.follow (appSteering n v thru) k cpu = none) ∧
      (thru = false → Loops.follow (appSteering n v thru) 2 cpu = none) := by
  have hdec : ∀ a b, appSteering n v thru a = some b → moveLoad v thru b < moveLoad v thru a :=
    fun _ _ => appSteering_decreases
  refine ⟨fun i j x y hij hx hy => Loops.follow_ne hdec hij hx hy,
    Loops.exists_follow_none hdec cpu, ?_⟩
  rintro rfl
  cases h : appSteering n v false cpu with
  | none => simp [Loops.follow, h]
  | some t => simp [Loops.follow, h, appSteering_latency_stays h]

/-- Core 0 is loaded, core 2 less so: a latency application moves there and stays. -/
def sampleAppstr : Appstr where
  lAppstr := fun cpu => if cpu = 0 then 8192 else 4096
  tAppstr := fun cpu => if cpu = 2 then 0 else 65536
  appstrApp := BLK_SWITCH_L_APP

theorem app_steering_settles_sample :
    appSteering ⟨4, 1, 0⟩ sampleAppstr false 0 = some 2 ∧
      Loops.follow (appSteering ⟨4, 1, 0⟩ sampleAppstr false) 2 0 = none :=
  ⟨by decide, (app_steering_settles ⟨4, 1, 0⟩ sampleAppstr false 0).2.2 rfl⟩

section RequestSteering

variable {n : Cores} {r : Reads} {cur : ℕ}

def InNode (n : Cores) (cpu : ℕ) : Prop := cpu ∈ (List.range n.count).map n.cpu

instance (n : Cores) (cpu : ℕ) : Decidable (InNode n cpu) :=
  inferInstanceAs (Decidable (cpu ∈ (List.range n.count).map n.cpu))

/-- A core of the node without latency load and with few requests out. -/
structure Eligible (n : Cores) (r : Reads) (cpu : ℕ) : Prop where
  node : InNode n cpu
  idle : r.lMetric cpu = 0
  active : r.nrActive cpu < BLK_SWITCH_TCP_BATCH

/-- The room left in the batch of a core, then its requests out. -/
def steerKey (r : Reads) (cpu : ℕ) : ℤ ×ₗ ℤ :=
  toLex (BLK_SWITCH_TCP_BATCH - r.nrReq cpu, r.nrActive cpu)

theorem eligible_tcp (cpu : ℕ) :
    eligible true r cpu = true ↔ r.lMetric cpu = 0 ∧ r.nrActive cpu < BLK_SWITCH_TCP_BATCH := by
  simp [eligible, BLK_SWITCH_RDMA, BLK_SWITCH_TCP]

/-- Where the pass stands: the least key so far, and a core that has it, the local one if it can
be. -/
structure Picked (r : Reads) (cur : ℕ) (past : List ℕ) (c : Choice) : Prop where
  least : ∀ cpu ∈ past, eligible true r cpu = true → toLex (c.minNr, c.minActive) ≤ steerKey r cpu
  start : c.target = none → c = ⟨none, 1024, 2048, 0⟩ ∧ ∀ cpu ∈ past, eligible true r cpu = false
  found : ∀ t, c.target = some t → t ∈ past ∧ eligible true r t = true ∧
    steerKey r t = toLex (c.minNr, c.minActive)
  here : cur ∈ past → eligible true r cur = true → steerKey r cur = toLex (c.minNr, c.minActive) →
    c.target = some cur

variable {past : List ℕ} {c c' : Choice} {cpu : ℕ}

theorem Picked.take (h : Picked r cur past c) (hel : eligible true r cpu = true)
    (hle : steerKey r cpu ≤ toLex (c.minNr, c.minActive))
    (htie : steerKey r cpu = toLex (c.minNr, c.minActive) → cpu ≠ cur → c.target ≠ some cur)
    (htarget : c'.target = some cpu) (hkey : toLex (c'.minNr, c'.minActive) = steerKey r cpu) :
    Picked r cur (past ++ [cpu]) c' := by
  constructor
  · rw [hkey]
    intro x hx hex
    rcases List.mem_append.1 hx with hx | hx
    · exact hle.trans (h.least x hx hex)
    · rw [List.mem_singleton.1 hx]
  · intro hnone
    rw [htarget] at hnone
    cases hnone
  · intro t ht
    rw [htarget] at ht
    cases ht
    exact ⟨List.mem_append_right _ List.mem_cons_self, hel, hkey.symm⟩
  · rw [hkey, htarget]
    intro hmem hcur heq
    by_contra hne
    have hcpu : cpu ≠ cur := fun he => hne (by rw [he])
    -- the local core was there before, with a key as small
    have hpast : cur ∈ past :=
      (List.mem_append.1 hmem).resolve_right fun hx => hcpu (List.mem_singleton.1 hx).symm
    have heq' : steerKey r cpu = toLex (c.minNr, c.minActive) :=
      le_antisymm hle (heq ▸ h.least cur hpast hcur)
    exact htie heq' hcpu (h.here hpast hcur (heq.trans heq'))

theorem Picked.keep (h : Picked r cur past c) (htarget : c'.target = c.target)
    (hmin : toLex (c'.minNr, c'.minActive) = toLex (c.minNr, c.minActive))
    (hnone : c.target = none → c' = c ∧ eligible true r cpu = false)
    (hel : eligible true r cpu = true → toLex (c.minNr, c.minActive) ≤ steerKey r cpu ∧
      (cpu = cur → steerKey r cpu ≠ toLex (c.minNr, c.minActive))) : Picked r cur (past ++ [cpu])
      c' := by
  constructor
  · rw [hmin]
    intro x hx hex
    rcases List.mem_append.1 hx with hx | hx
    · exact h.least x hx hex
    · rw [List.mem_singleton.1 hx] at hex ⊢
      exact (hel hex).1
  · intro ht
    rw [htarget] at ht
    obtain ⟨hc, hno⟩ := hnone ht
    obtain ⟨hstart, hall⟩ := h.start ht
    refine ⟨hc.trans hstart, fun x hx => ?_⟩
    rcases List.mem_append.1 hx with hx | hx
    · exact hall x hx
    · rw [List.mem_singleton.1 hx]
      exact hno
  · intro t ht
    rw [htarget] at ht
    obtain ⟨hmem, het, hkey⟩ := h.found t ht
    exact ⟨List.mem_append_left _ hmem, het, hkey.trans hmin.symm⟩
  · rw [hmin, htarget]
    intro hmem hcur heq
    rcases List.mem_append.1 hmem with hmem | hmem
    · exact h.here hmem hcur heq
    · have hcpu := (List.mem_singleton.1 hmem).symm
      exact absurd (hcpu ▸ heq) ((hel (hcpu ▸ hcur)).2 hcpu)

/-- The first core that is eligible is taken, as no batch has more room than the sentinel. -/
theorem Picked.target_ne_none (h : Picked r cur past c) (hreq : 0 ≤ r.nrReq cpu)
    (hge : ¬ twoNr true r cpu < c.minNr) : c.target ≠ none := by
  intro hnone
  rw [(h.start hnone).1] at hge
  simp only [twoNr, Bool.toNat_true, BLK_SWITCH_TCP, ↓reduceIte, BLK_SWITCH_TCP_BATCH] at hge
  omega

theorem Picked.step (h : Picked r cur past c) (hreq : 0 ≤ r.nrReq cpu) :
    Picked r cur (past ++ [cpu]) (pickCore true r cur c cpu) := by
  have hkey : steerKey r cpu = toLex (twoNr true r cpu, r.nrActive cpu) := rfl
  unfold pickCore
  split_ifs with hel hless heq hfewer hsame hcur htarget hrand
  · apply h.take hel _ _ rfl hkey.symm
    · rw [hkey, Prod.Lex.toLex_le_toLex]
      exact .inl hless
    · rw [hkey]
      intro he
      simp only [toLex_inj, Prod.mk.injEq] at he
      omega
  · apply h.take hel _ _ rfl (by rw [hkey, heq])
    · rw [hkey, Prod.Lex.toLex_le_toLex]
      exact .inr ⟨heq, hfewer.le⟩
    · rw [hkey]
      intro he
      simp only [toLex_inj, Prod.mk.injEq] at he
      omega
  · apply h.take hel _ _ rfl (by rw [hkey, heq, hsame])
    · rw [hkey, heq, hsame]
    · intro _ hne
      exact absurd hcur hne
  · -- a tie between cores that are not the local one is left to a random byte
    apply h.take hel _ _ rfl (by rw [hkey, heq, hsame])
    · rw [hkey, heq, hsame]
    · intro _ _
      exact htarget
  · refine h.keep rfl rfl (fun hnone => absurd hnone (h.target_ne_none hreq hless)) fun _ => ?_
    exact ⟨by rw [hkey, heq, hsame], fun he => absurd he hcur⟩
  · apply h.keep rfl rfl (fun hnone => absurd hnone (h.target_ne_none hreq hless))
    intro _
    exact ⟨by rw [hkey, heq, hsame], fun he => absurd he hcur⟩
  · apply h.keep rfl rfl (fun hnone => absurd hnone (h.target_ne_none hreq hless))
    intro _
    rw [hkey, Prod.Lex.toLex_le_toLex]
    refine ⟨.inr ⟨heq.symm, by omega⟩, fun _ he => ?_⟩
    simp only [toLex_inj, Prod.mk.injEq] at he
    exact hsame he.2
  · apply h.keep rfl rfl (fun hnone => absurd hnone (h.target_ne_none hreq hless))
    intro _
    rw [hkey, Prod.Lex.toLex_le_toLex]
    refine ⟨.inl (by simp only; omega), fun _ he => ?_⟩
    simp only [toLex_inj, Prod.mk.injEq] at he
    exact heq he.1
  · apply h.keep rfl rfl (fun _ => ⟨rfl, by simpa using hel⟩)
    intro hel'
    exact absurd hel' hel

theorem pickCores_picked (hreq : ∀ cpu, 0 ≤ r.nrReq cpu) :
    Picked r cur ((List.range n.count).map n.cpu) (pickCores n true r cur) := by
  apply Loops.foldl_past (I := Picked r cur)
  · constructor
    · intro _ hmem
      cases hmem
    · intro _
      exact ⟨rfl, fun _ hmem => by cases hmem⟩
    · rintro t ⟨⟩
    · intro hmem
      cases hmem
  · intro past cpu c h
    exact h.step (hreq cpu)

theorem eligible_iff : Eligible n r cpu ↔ InNode n cpu ∧ eligible true r cpu = true := by
  rw [eligible_tcp]
  exact ⟨fun h => ⟨h.node, h.idle, h.active⟩, fun h => ⟨h.1, h.2.1, h.2.2⟩⟩

/-- The draw ends with the first byte that stands for another core. -/
theorem drawOther_eq {rand : ℕ → UInt8} {first k : ℕ} (pos : ℕ)
    (hsame : ∀ j < k, randomCore n (rand (pos + j)) = first)
    (hother : randomCore n (rand (pos + k)) ≠ first) {fuel : ℕ} (hfuel : k < fuel) :
    drawOther n rand first fuel pos = some (randomCore n (rand (pos + k))) := by
  induction k generalizing pos fuel with
  | zero =>
    obtain ⟨fuel, rfl⟩ := Nat.exists_eq_add_one.2 hfuel
    simp only [drawOther]
    exact if_neg fun heq => hother heq.symm
  | succ k ih =>
    obtain ⟨fuel, rfl⟩ := Nat.exists_eq_add_one.2 (Nat.zero_lt_of_lt hfuel)
    simp only [drawOther]
    have hfirst : first = randomCore n (rand pos) := (hsame 0 (Nat.succ_pos k)).symm
    rw [if_pos hfirst]
    have hnext := ih (pos + 1) (fun j hj => ?_) ?_ (Nat.lt_of_succ_lt_succ hfuel)
    · rw [hnext, Nat.add_assoc, Nat.add_comm 1 k]
    · rw [Nat.add_assoc, Nat.add_comm 1 j]
      exact hsame (j + 1) (Nat.succ_lt_succ hj)
    · rw [Nat.add_assoc, Nat.add_comm 1 k]
      exact hother

theorem count_ge_two (hcpus : n.nrNodes * 2 ≤ n.nrCpus) (hnode : n.curNode < n.nrNodes) :
    2 ≤ n.count := by
  apply (Nat.le_div_iff_mul_le (by omega)).2
  omega

theorem randomCore_inNode (hcount : 2 ≤ n.count) (byte : UInt8) : InNode n (randomCore n byte) :=
  List.mem_map.2 ⟨_, List.mem_range.2 (Nat.mod_lt _ (by omega)), rfl⟩

theorem pickCore_target {blkSwitch : Bool} {t : ℕ}
    (h : (pickCore blkSwitch r cur c cpu).target = some t) :
    c.target = some t ∨ cpu = t := by
  unfold pickCore at h
  split_ifs at h <;> simp_all

theorem pickCores_inNode {blkSwitch : Bool} {t : ℕ}
    (h : (pickCores n blkSwitch r cur).target = some t) :
    InNode n t :=
  Loops.foldl_past (f := pickCore blkSwitch r cur) (b := ⟨none, 1024, 2048, 0⟩)
    (I := fun past c => ∀ t, c.target = some t → t ∈ past) (by simp)
    (fun past cpu c ih t ht => by
      rcases pickCore_target ht with hold | rfl
      · exact List.mem_append_left _ (ih t hold)
      · simp)
    ((List.range n.count).map n.cpu) t h

theorem drawOther_inNode (hcount : 2 ≤ n.count) {rand : ℕ → UInt8} {first t : ℕ} :
    ∀ {fuel pos : ℕ}, drawOther n rand first fuel pos = some t → InNode n t
  | fuel + 1, pos, h => by
    simp only [drawOther] at h
    split_ifs at h with hsame
    · exact drawOther_inNode hcount h
    · cases h
      exact randomCore_inNode hcount _

theorem requestSteering_inNode {blkSwitch : Bool} {threshB : Int32} {fuel t : ℕ}
    (hcount : 2 ≤ n.count) (h : requestSteering n blkSwitch threshB r cur fuel = some t) : t = cur ∨
      InNode n t := by
  unfold requestSteering at h
  dsimp only at h
  split_ifs at h with hlocal
  · exact .inl (Option.some.inj h).symm
  · right
    cases hpick : (pickCores n blkSwitch r cur).target with
    | some cpu =>
      rw [hpick] at h
      cases h
      exact pickCores_inNode hpick
    | none =>
      rw [hpick] at h
      obtain ⟨second, hsecond, ht⟩ := Option.map_eq_some_iff.1 h
      split_ifs at ht <;> subst ht
      · exact randomCore_inNode hcount _
      · exact drawOther_inNode hcount hsecond

theorem randomCore_inj (hnode : n.curNode < n.nrNodes) (a b : UInt8) :
    randomCore n a = randomCore n b ↔ a.toNat % n.count = b.toNat % n.count := by
  unfold randomCore Cores.cpu
  constructor
  · intro h
    exact Nat.eq_of_mul_eq_mul_right (by omega) (Nat.add_right_cancel h)
  · intro h
    rw [h]

theorem exists_other_byte (hcount : 2 ≤ n.count) (first : UInt8) :
    ∃ byte : UInt8, byte.toNat % n.count ≠ first.toNat % n.count := by
  by_cases h : first.toNat % n.count = 0
  · refine ⟨1, ?_⟩
    rw [h, UInt8.toNat_one, Nat.mod_eq_of_lt hcount]
    decide
  · refine ⟨0, ?_⟩
    rw [UInt8.toNat_zero, Nat.zero_mod]
    exact Ne.symm h

end RequestSteering

/-- Which core a throughput request goes to over TCP. -/
theorem request_steering_picks (n : Cores) (threshB : Int32) (r : Reads) (cur : ℕ)
    (hcpus : n.nrNodes * 2 ≤ n.nrCpus) (hnode : n.curNode < n.nrNodes)
    (hreq : ∀ cpu, 0 ≤ r.nrReq cpu) :
    (r.localActive ≤ (reqThresh true threshB).toInt →
      ∀ fuel, requestSteering n true threshB r cur fuel = some cur) ∧
      ((reqThresh true threshB).toInt < r.localActive →
        ((∃ cpu, Eligible n r cpu) →
          ∃ t, (∀ fuel, requestSteering n true threshB r cur fuel = some t) ∧
            Eligible n r t ∧ (∀ cpu, Eligible n r cpu → steerKey r t ≤ steerKey r cpu) ∧
            (Eligible n r cur → (∀ cpu, Eligible n r cpu → steerKey r cur ≤ steerKey r cpu) →
            t = cur)) ∧
          ((¬ ∃ cpu, Eligible n r cpu) →
            (∀ first : UInt8, ∃ byte : UInt8, byte.toNat % n.count ≠ first.toNat % n.count) ∧
            ∀ k, (∀ j < k, (r.rand (1 + j)).toNat % n.count = (r.rand 0).toNat % n.count) →
              (r.rand (1 + k)).toNat % n.count ≠ (r.rand 0).toNat % n.count →
              ∃ a b t, InNode n a ∧ InNode n b ∧ a ≠ b ∧ (t = a ∨ t = b) ∧
                r.nrActiveTwo t ≤ r.nrActiveTwo a ∧ r.nrActiveTwo t ≤ r.nrActiveTwo b ∧
                ∀ fuel, k < fuel → requestSteering n true threshB r cur fuel = some t)) := by
  have hcount := count_ge_two hcpus hnode
  have hpick := @pickCores_picked n r cur hreq
  refine ⟨fun hle fuel => ?_, fun hgt => ⟨?_, ?_⟩⟩
  · unfold requestSteering
    exact if_pos hle
  · rintro ⟨e, he⟩
    obtain ⟨hmem, hel⟩ := eligible_iff.1 he
    cases htarget : (pickCores n true r cur).target with
    | none =>
      have hno := (hpick.start htarget).2 e hmem
      rw [hel] at hno
      cases hno
    | some t =>
      obtain ⟨htmem, htel, htkey⟩ := hpick.found t htarget
      have hleast : ∀ cpu, Eligible n r cpu → steerKey r t ≤ steerKey r cpu := fun cpu hcpu => by
        rw [htkey]
        exact hpick.least cpu hcpu.node (eligible_iff.1 hcpu).2
      refine ⟨t, fun fuel => ?_, eligible_iff.2 ⟨htmem, htel⟩, hleast, fun hcur hbest => ?_⟩
      · unfold requestSteering
        rw [if_neg (not_le.2 hgt)]
        simp only [htarget]
      · have hkey := le_antisymm (hbest t (eligible_iff.2 ⟨htmem, htel⟩)) (hleast cur hcur)
        have hhere := hpick.here hcur.node (eligible_iff.1 hcur).2 (hkey.trans htkey)
        rw [htarget] at hhere
        exact Option.some.inj hhere
  · intro hno
    refine ⟨exists_other_byte hcount, fun k hsame hother => ?_⟩
    have htarget : (pickCores n true r cur).target = none := by
      by_contra hne
      obtain ⟨t, ht⟩ := Option.ne_none_iff_exists'.1 hne
      obtain ⟨htmem, htel, -⟩ := hpick.found t ht
      exact hno ⟨t, eligible_iff.2 ⟨htmem, htel⟩⟩
    have hdrawn : (pickCores n true r cur).drawn = 0 := by
      rw [(hpick.start htarget).1]
    have hdraw : ∀ fuel, k < fuel →
        drawOther n r.rand (randomCore n (r.rand 0)) fuel 1 = some
          (randomCore n (r.rand (1 + k))) := fun fuel hfuel => by
      apply drawOther_eq 1 _ _ hfuel
      · intro j hj
        exact (randomCore_inj hnode _ _).2 (hsame j hj)
      · intro heq
        exact hother ((randomCore_inj hnode _ _).1 heq)
    refine ⟨randomCore n (r.rand 0), randomCore n (r.rand (1 + k)),
      if r.nrActiveTwo (randomCore n (r.rand 0)) ≤ r.nrActiveTwo (randomCore n (r.rand (1 + k)))
        then randomCore n (r.rand 0) else randomCore n (r.rand (1 + k)),
      randomCore_inNode hcount _, randomCore_inNode hcount _, ?_, ?_, ?_, ?_, ?_⟩
    · intro heq
      exact hother ((randomCore_inj hnode _ _).1 heq.symm)
    · split_ifs
      · exact .inl rfl
      · exact .inr rfl
    · split_ifs <;> omega
    · split_ifs <;> omega
    · intro fuel hfuel
      unfold requestSteering
      rw [if_neg (not_le.2 hgt)]
      simp only [htarget, hdrawn]
      rw [hdraw fuel hfuel]
      rfl

/-- Two nodes of four cores; all cores are busy but 5, which has a batch to fill. -/
def sampleReads : Reads where
  localActive := 40
  nrActive := fun cpu => if cpu = 5 then 3 else 20
  nrReq := fun cpu => if cpu = 5 then 7 else 0
  lMetric := fun _ => 0
  nrActiveTwo := fun _ => 0
  rand := fun _ => 0

theorem request_steering_picks_sample :
    ∃ t, (∀ fuel, requestSteering ⟨8, 2, 1⟩ true 8 sampleReads 3 fuel = some t) ∧
      Eligible ⟨8, 2, 1⟩ sampleReads t := by
  obtain ⟨t, ht, hel, -⟩ :=
    ((request_steering_picks ⟨8, 2, 1⟩ 8 sampleReads 3 (by decide) (by decide)
    (fun cpu => by unfold sampleReads; dsimp only; split_ifs <;> decide)).2 (by decide)).1
    ⟨5, by decide, by decide, by decide⟩
  exact ⟨t, ht, hel⟩

/-- A core that request steering may pick over RDMA, whatever is active on it. -/
def RdmaEligible (n : Cores) (r : Reads) (cpu : ℕ) : Prop := InNode n cpu ∧ r.lMetric cpu = 0

/-- How request steering is meant to treat a queue of RDMA. -/
structure RdmaRule (n : Cores) (hctx : HwCtx) (threshB : Int32) (r : Reads) (cur : ℕ) : Prop where
  thresh : threshB ≤ 0 → reqThresh hctx.blkSwitch threshB = 8
  pick : (reqThresh hctx.blkSwitch threshB).toInt < r.localActive → (∃ cpu, RdmaEligible n r cpu) →
    ∃ t, (∀ fuel, requestSteering n hctx.blkSwitch threshB r cur fuel = some t) ∧
      RdmaEligible n r t ∧ (∀ cpu, RdmaEligible n r cpu → r.nrActive t ≤ r.nrActive cpu) ∧
      (RdmaEligible n r cur → (∀ cpu, RdmaEligible n r cpu → r.nrActive cur ≤ r.nrActive cpu) →
      t = cur)
  driver : tcpQueueReads n hctx.blkSwitch threshB r = []

/-- The 2 of RDMA does not outlive its store: it is read back as the 1 of TCP. -/
theorem rdma_blkSwitch (hctx : HwCtx) :
    (blkMqInitHctx nvmeRdmaInitHctx hctx).blkSwitch.toNat = BLK_SWITCH_TCP := rfl

/-- A queue of RDMA is treated as one only while a threshold is set and not passed, when there is
nothing to tell it from one of TCP. -/
theorem rdma_rule_iff (hctx : HwCtx) (n : Cores) (hcpus : n.nrNodes * 2 ≤ n.nrCpus)
    (hnode : n.curNode < n.nrNodes) (threshB : Int32) (r : Reads) (cur : ℕ) :
    RdmaRule n (blkMqInitHctx nvmeRdmaInitHctx hctx) threshB r cur ↔
      0 < threshB ∧ r.localActive ≤ (threshB * 2).toInt := by
  have htcp := rdma_blkSwitch hctx
  generalize (blkMqInitHctx nvmeRdmaInitHctx hctx) = h at htcp
  constructor
  · intro hrule
    have hpos : 0 < threshB := by
      by_contra hle
      have height := hrule.thresh (Int32.not_lt.1 hle)
      rw [reqThresh, if_neg hle, if_pos htcp] at height
      exact absurd height (by decide)
    refine ⟨hpos, ?_⟩
    by_contra hover
    have hreads := hrule.driver
    have hcount := count_ge_two hcpus hnode
    rw [tcpQueueReads, reqThresh, if_pos hpos, if_neg hover, List.filter_eq_nil_iff] at hreads
    exact hreads (n.cpu 0) (List.mem_map_of_mem (List.mem_range.2 (by omega))) (by simp [htcp])
  · rintro ⟨hpos, hle⟩
    have hthresh : reqThresh h.blkSwitch threshB = threshB * 2 := by rw [reqThresh, if_pos hpos]
    constructor
    · intro hnot
      exact absurd hpos (Int32.not_lt.2 hnot)
    · rw [hthresh]
      intro hover
      omega
    · rw [tcpQueueReads, hthresh, if_pos hle]

/-- Core 7 has the fewest requests active, and core 5 a fuller batch. -/
def rdmaReads : Reads where
  localActive := 40
  nrActive := fun cpu => if cpu = 5 then 10 else if cpu = 7 then 3 else 20
  nrReq := fun cpu => if cpu = 5 then 7 else 0
  lMetric := fun _ => 0
  nrActiveTwo := fun _ => 0
  rand := fun _ => 0

theorem rdma_rule_iff_sample :
    RdmaRule ⟨8, 2, 1⟩ (blkMqInitHctx nvmeRdmaInitHctx ⟨false, none⟩) 20 rdmaReads 3 :=
  (rdma_rule_iff ⟨false, none⟩ ⟨8, 2, 1⟩ (by decide) (by decide) 20 rdmaReads 3).2 (by decide)

/-- The default threshold is that of TCP, all four driver queues are read as queues of TCP, and the
request goes to core 5. -/
theorem rdma_steered_as_tcp :
    reqThresh (blkMqInitHctx nvmeRdmaInitHctx ⟨false, none⟩).blkSwitch 0 = 32 ∧
      tcpQueueReads ⟨8, 2, 1⟩ (blkMqInitHctx nvmeRdmaInitHctx ⟨false, none⟩).blkSwitch 8 rdmaReads =
      [1, 3, 5, 7] ∧ requestSteering ⟨8, 2, 1⟩
      (blkMqInitHctx nvmeRdmaInitHctx ⟨false, none⟩).blkSwitch 8 rdmaReads 3 0 = some 5 ∧
      rdmaReads.nrActive 7 < rdmaReads.nrActive 5 ∧
      ¬ RdmaRule ⟨8, 2, 1⟩ (blkMqInitHctx nvmeRdmaInitHctx ⟨false, none⟩) 8 rdmaReads 3 := by
  refine ⟨by decide, by decide, by decide, by decide, fun h => ?_⟩
  exact absurd h.driver (by decide)

end BlkSwitch.Blk
