import BlkSwitch.Proofs.Steering

/-! Which core application steering moves an application to: the loop over the node's cores, with
its skips, its abort and its running minimum, against what it is for. -/

namespace BlkSwitch.Blk

open Loops

section Spec

/-- The CPUs `i * nr_nodes + cur_node` with `i < nr_cpus / nr_nodes`. -/
def Cores.cpus (n : Cores) : List ℕ := (List.range n.count).map n.cpu

/-- A core that a latency application on `cur` may move to. -/
def LatencyFits (v : Appstr) (cur cpu : ℕ) : Prop :=
  cpu ≠ cur ∧ 0 < v.tAppstr cur ∧ 0 < v.lAppstr cpu ∧ v.lAppstr cpu ≤ 98304 ∧
    v.lAppstr cpu + v.tAppstr cpu < v.lAppstr cur + v.tAppstr cur

/-- A core that a throughput application on `cur` may move to. -/
def ThruFits (v : Appstr) (cur cpu : ℕ) : Prop :=
  cpu ≠ cur ∧ v.lAppstr cpu ≤ 98304 ∧ v.lAppstr cpu < v.lAppstr cur ∧ v.tAppstr cpu < 8388608

/-- A core whose latency application is to move before any throughput application of `cur` does. -/
def MovesFirst (v : Appstr) (cur cpu : ℕ) : Prop :=
  cpu ≠ cur ∧ v.lAppstr cur < v.lAppstr cpu ∧ v.lAppstr cpu < 98304

/-- The lowest-numbered of the cores that fit with the least load, `none` if no core fits. -/
def LowestLeast (n : Cores) (fits : ℕ → Prop) (load : ℕ → UInt64) : Option ℕ → Prop
  | none => ∀ cpu ∈ n.cpus, ¬ fits cpu
  | some t => t ∈ n.cpus ∧ fits t ∧ ∀ cpu ∈ n.cpus, fits cpu → load t < load cpu ∨
    load t = load cpu ∧ t ≤ cpu

instance (v : Appstr) (cur : ℕ) : DecidablePred (LatencyFits v cur) := fun cpu => by
  unfold LatencyFits
  infer_instance

instance (v : Appstr) (cur : ℕ) : DecidablePred (ThruFits v cur) := fun cpu => by
  unfold ThruFits
  infer_instance

instance (v : Appstr) (cur : ℕ) : DecidablePred (MovesFirst v cur) := fun cpu => by
  unfold MovesFirst
  infer_instance

end Spec

variable {n : Cores} {v : Appstr} {cur : ℕ}

theorem mem_cpus {cpu : ℕ} : cpu ∈ n.cpus ↔ ∃ i < n.count, n.cpu i = cpu := by simp [Cores.cpus]

theorem cpus_increasing (hn : 1 ≤ n.nrNodes) : n.cpus.Pairwise (· < ·) := by
  refine List.pairwise_map.2 (List.pairwise_lt_range.imp fun {i j} hij => ?_)
  have hmul : i * n.nrNodes < j * n.nrNodes := Nat.mul_lt_mul_of_pos_right hij hn
  unfold Cores.cpu
  omega

theorem cpus_inside (hnode : n.curNode < n.nrNodes) {cpu : ℕ} (h : cpu ∈ n.cpus) :
    cpu < n.nrCpus ∧ cpu % n.nrNodes = n.curNode := by
  obtain ⟨i, hi, rfl⟩ := mem_cpus.1 h
  have hmul : (i + 1) * n.nrNodes ≤ n.count * n.nrNodes := Nat.mul_le_mul_right _ hi
  have hcount : n.count * n.nrNodes ≤ n.nrCpus := Nat.div_mul_le_self _ _
  rw [Nat.add_mul, Nat.one_mul] at hmul
  unfold Cores.cpu
  exact ⟨by omega, by rw [Nat.mul_add_mod', Nat.mod_eq_of_lt hnode]⟩

/-- What a scan of the node's cores finds, when everything that fits is below the bound. -/
theorem scan_lowestLeast (hn : 1 ≤ n.nrNodes) {fits : ℕ → Prop} [DecidablePred fits]
    {load : ℕ → UInt64} {bound : ℕ} (hbound : ∀ cpu, fits cpu → (load cpu).toNat < bound) :
    LowestLeast n fits load (scanLeast fits (fun cpu => (load cpu).toNat) n.cpus none bound) := by
  rcases @scanLeast_split ℕ fits _ (fun cpu => (load cpu).toNat) n.cpus none bound with
    ⟨heq, hall⟩ | ⟨pre, t, post, hsplit, heq, hfit, -, hpre, hpost⟩
  · rw [heq]
    intro cpu hcpu hfits
    exact absurd (hall cpu hcpu hfits) (not_le.2 (hbound cpu hfits))
  · rw [heq]
    have hinc := cpus_increasing hn
    rw [hsplit] at hinc
    refine ⟨by simp [hsplit], hfit, fun cpu hcpu hfits => ?_⟩
    rw [hsplit, List.mem_append, List.mem_cons] at hcpu
    rcases hcpu with hcpu | rfl | hcpu
    · exact .inl (UInt64.lt_iff_toNat_lt.2 (hpre cpu hcpu hfits))
    · exact .inr ⟨rfl, le_rfl⟩
    · -- a core behind the target is no better, and has a higher number
      have hlt : t < cpu := (List.pairwise_cons.1 (List.pairwise_append.1 hinc).2.1).1 cpu hcpu
      rcases (hpost cpu hcpu hfits).lt_or_eq with hless | hsame
      · exact .inl (UInt64.lt_iff_toNat_lt.2 hless)
      · exact .inr ⟨UInt64.toNat_inj.1 hsame, hlt.le⟩

section Loop

theorem appSteeringLoop_scan_latency (happ : v.appstrApp = BLK_SWITCH_L_APP) (iters : List ℕ)
    (target : Option ℕ) (least : UInt64) :
    appSteeringLoop v false cur iters target least =
      scanLeast (LatencyFits v cur) (fun cpu => (v.sum cpu).toNat) iters target least.toNat := by
  induction iters generalizing target least with
  | nil => rfl
  | cons iter iters ih =>
    have htake : (LatencyFits v cur iter ∧ (v.sum iter).toNat < least.toNat) ↔
        ¬ (iter = cur ∨ BLK_SWITCH_THRESH_L < v.lAppstr iter) ∧
          v.tAppstr cur ≠ 0 ∧ v.lAppstr iter ≠ 0 ∧ v.sum iter < v.sum cur ∧ v.sum iter < least := by
      rw [← UInt64.lt_iff_toNat_lt, not_or, UInt64.not_lt, ← UInt64.pos_iff_ne_zero,
        ← UInt64.pos_iff_ne_zero]
      unfold LatencyFits Appstr.sum
      tauto
    simp only [appSteeringLoop, scanLeast, happ, true_and, ↓reduceIte]
    by_cases hskip : iter = cur ∨ BLK_SWITCH_THRESH_L < v.lAppstr iter
    · rw [if_pos hskip, if_neg fun h => (htake.1 h).1 hskip]
      exact ih target least
    · rw [if_neg hskip]
      split_ifs with hbetter hno
      · exact ih (some iter) (v.sum iter)
      · exact absurd (htake.2 ⟨hskip, hbetter⟩) hno
      · exact absurd (htake.1 ‹_›).2 hbetter
      · exact ih target least

/-- In the phase of throughput applications a core that has to move first stops the loop, and
without one it is a scan too. -/
theorem appSteeringLoop_scan_thru (happ : v.appstrApp = BLK_SWITCH_T_APP) (iters : List ℕ)
    (target : Option ℕ) (least : UInt64) (hleast : least ≤ 8388608) :
    appSteeringLoop v true cur iters target least =
      if ∃ cpu ∈ iters, MovesFirst v cur cpu then none
      else scanLeast (ThruFits v cur)
    (fun cpu => (v.tAppstr cpu).toNat) iters target least.toNat := by
  induction iters generalizing target least with
  | nil => simp [appSteeringLoop, scanLeast]
  | cons iter iters ih =>
    have hwait : MovesFirst v cur iter ↔ ¬ (iter = cur ∨ BLK_SWITCH_THRESH_L < v.lAppstr iter) ∧
        v.lAppstr cur < v.lAppstr iter ∧ v.lAppstr iter < BLK_SWITCH_THRESH_L := by
      have hlt : v.lAppstr iter < BLK_SWITCH_THRESH_L → ¬ BLK_SWITCH_THRESH_L < v.lAppstr iter :=
        fun h h' => UInt64.lt_irrefl _ (UInt64.lt_trans h h')
      unfold MovesFirst
      change _ ∧ _ ∧ v.lAppstr iter < BLK_SWITCH_THRESH_L ↔ _
      tauto
    have htake : (ThruFits v cur iter ∧ (v.tAppstr iter).toNat < least.toNat) ↔
        ¬ (iter = cur ∨ BLK_SWITCH_THRESH_L < v.lAppstr iter) ∧
          v.lAppstr iter < v.lAppstr cur ∧ v.tAppstr iter < least := by
      have hbelow : v.tAppstr iter < least → v.tAppstr iter < 8388608 :=
        fun h => UInt64.lt_of_lt_of_le h hleast
      rw [← UInt64.lt_iff_toNat_lt, not_or, UInt64.not_lt]
      unfold ThruFits
      change (_ ∧ v.lAppstr iter ≤ BLK_SWITCH_THRESH_L ∧ _) ∧ _ ↔ _
      tauto
    simp only [appSteeringLoop, scanLeast, happ, List.exists_mem_cons_iff, Bool.true_eq_false,
      and_false, and_true, ↓reduceIte]
    by_cases hskip : iter = cur ∨ BLK_SWITCH_THRESH_L < v.lAppstr iter
    · have hno : ¬ MovesFirst v cur iter := fun h => (hwait.1 h).1 hskip
      rw [if_pos hskip, if_neg fun h => (htake.1 h).1 hskip, ih target least hleast]
      simp only [hno, false_or]
    · rw [if_neg hskip]
      by_cases hfirst : MovesFirst v cur iter
      · rw [if_pos (hwait.1 hfirst).2, if_pos (.inl hfirst)]
      · rw [if_neg fun h => hfirst (hwait.2 ⟨hskip, h⟩)]
        simp only [hfirst, false_or]
        by_cases hbetter : v.lAppstr iter < v.lAppstr cur ∧ v.tAppstr iter < least
        · rw [if_pos hbetter, if_pos (htake.2 ⟨hskip, hbetter⟩),
            ih (some iter) (v.tAppstr iter) (UInt64.le_trans (UInt64.le_of_lt hbetter.2) hleast)]
        · rw [if_neg hbetter, if_neg fun h => hbetter (htake.1 h).2, ih target least hleast]

theorem appSteeringLoop_other_phase {thru : Bool}
    (happ : v.appstrApp ≠ if thru then BLK_SWITCH_T_APP else BLK_SWITCH_L_APP) (iters : List ℕ)
    (target : Option ℕ) (least : UInt64) :
    appSteeringLoop v thru cur iters target least = target := by
  induction iters with
  | nil => rfl
  | cons iter iters ih =>
    cases thru <;> simp only [Bool.false_eq_true, ↓reduceIte] at happ <;>
      simp [appSteeringLoop, happ, ih]

end Loop

/-- The target of application steering is the core it is meant to be, in either phase and for either
class, and always a core of the node. Loads are added as `unsigned long`. -/
theorem app_steering_target (n : Cores) (hn : 1 ≤ n.nrNodes) (hnode : n.curNode < n.nrNodes)
    (v : Appstr) (cur : ℕ) :
    (v.appstrApp = BLK_SWITCH_L_APP →
      LowestLeast n (LatencyFits v cur) (fun cpu => v.lAppstr cpu + v.tAppstr cpu)
    (appSteering n v false cur)) ∧
      (v.appstrApp = BLK_SWITCH_T_APP → (∃ cpu ∈ n.cpus, MovesFirst v cur cpu) →
      appSteering n v true cur = none) ∧
    (v.appstrApp = BLK_SWITCH_T_APP → (¬ ∃ cpu ∈ n.cpus, MovesFirst v cur cpu) →
      LowestLeast n (ThruFits v cur) v.tAppstr (appSteering n v true cur)) ∧
    (v.appstrApp ≠ BLK_SWITCH_L_APP → appSteering n v false cur = none) ∧
    (v.appstrApp ≠ BLK_SWITCH_T_APP → appSteering n v true cur = none) ∧
    ∀ thru t, appSteering n v thru cur = some t → t < n.nrCpus ∧ t % n.nrNodes = n.curNode := by
  have hthru : v.appstrApp = BLK_SWITCH_T_APP → appSteering n v true cur =
      if ∃ cpu ∈ n.cpus, MovesFirst v cur cpu then none
      else scanLeast (ThruFits v cur) (fun cpu => (v.tAppstr cpu).toNat) n.cpus none 8388608 :=
    fun happ => appSteeringLoop_scan_thru happ n.cpus none 8388608 (UInt64.le_refl _)
  refine ⟨fun happ => ?_, fun happ hfirst => ?_, fun happ hfirst => ?_, fun happ => ?_,
    fun happ => ?_, ?_⟩
  · have hscan : appSteering n v false cur =
        scanLeast (LatencyFits v cur) (fun cpu => (v.sum cpu).toNat) n.cpus none
          (v.sum cur).toNat :=
      appSteeringLoop_scan_latency happ n.cpus none (v.sum cur)
    rw [hscan]
    exact scan_lowestLeast hn fun cpu hfits => UInt64.lt_iff_toNat_lt.1 hfits.2.2.2.2
  · rw [hthru happ, if_pos hfirst]
  · rw [hthru happ, if_neg hfirst]
    exact scan_lowestLeast hn fun cpu hfits => UInt64.lt_iff_toNat_lt.1 hfits.2.2.2
  · exact appSteeringLoop_other_phase happ _ _ _
  · exact appSteeringLoop_other_phase happ _ _ _
  · intro thru t h
    exact cpus_inside hnode (appSteering_mem h)

/-- Four cores on one node: core 2 has the least load of those with a latency application. -/
theorem app_steering_target_sample :
    sampleAppstr.appstrApp = BLK_SWITCH_L_APP ∧
      appSteering ⟨4, 1, 0⟩ sampleAppstr false 0 = some 2 ∧
      LowestLeast ⟨4, 1, 0⟩ (LatencyFits sampleAppstr 0)
        (fun cpu => sampleAppstr.lAppstr cpu + sampleAppstr.tAppstr cpu) (some 2) := by
  have hsome : appSteering ⟨4, 1, 0⟩ sampleAppstr false 0 = some 2 := by decide
  refine ⟨rfl, hsome, ?_⟩
  rw [← hsome]
  exact (app_steering_target ⟨4, 1, 0⟩ (by decide) (by decide) sampleAppstr 0).1 rfl

end BlkSwitch.Blk
