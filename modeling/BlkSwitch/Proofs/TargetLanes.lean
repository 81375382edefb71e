import BlkSwitch.Proofs.HostMaps
import BlkSwitch.Spec.TargetLanes

/-! Host and target choose the class of a connection each for itself: the host from the number of
the queue, the target from an index that all queues of all controllers share. With `N` CPUs the
first `N + 1` indices are for throughput queues. The two sides agree as long as the queues that the
host has for throughput, and no others, find a place there, as they do when a single controller
connects its queues in order. -/

namespace BlkSwitch.Target

theorem exists_unused (used : List ℕ) : ∃ i ∈ List.range (used.length + 1), i ∉ used := by
  by_contra hall
  push Not at hall
  have hsub : (Finset.range (used.length + 1)) ⊆ used.toFinset := fun i hi =>
    List.mem_toFinset.2 (hall i (List.mem_range.2 (Finset.mem_range.1 hi)))
  have hcard := (Finset.card_le_card hsub).trans used.toFinset_card_le
  rw [Finset.card_range] at hcard
  omega

theorem idaSimpleGet_spec (used : List ℕ) : idaSimpleGet used ∉ used ∧
    ∀ i < idaSimpleGet used, i ∈ used := by
  obtain ⟨j, hj, hfree⟩ := exists_unused used
  unfold idaSimpleGet
  cases hfind : (List.range (used.length + 1)).find? fun i => decide (i ∉ used) with
  | none =>
    have hno := List.find?_eq_none.1 hfind j hj
    simp [hfree] at hno
  | some k =>
    obtain ⟨hk, -, hbelow⟩ := List.find?_range_eq_some.1 hfind
    refine ⟨by simpa using hk, fun i hi => ?_⟩
    simpa using hbelow i hi

theorem length_filter_range_le (n k : ℕ) :
    ((List.range k).filter (· ≤ n)).length = min k (n + 1) := by
  induction k with
  | zero => rfl
  | succ k ih =>
    rw [List.range_succ, List.filter_append, List.length_append, ih]
    by_cases h : k ≤ n <;> simp [h] <;> omega

/-- One of the first `n + 1` indices is drawn as long as some of them are free. -/
theorem idaSimpleGet_le_iff {used : List ℕ} (hnodup : used.Nodup) (n : ℕ) :
    idaSimpleGet used ≤ n ↔ used.countP (· ≤ n) ≤ n := by
  have hcard : used.countP (· ≤ n) = (used.filter (· ≤ n)).toFinset.card := by
    rw [List.toFinset_card_of_nodup (hnodup.filter _), List.countP_eq_length_filter]
  have hsub : (used.filter (· ≤ n)).toFinset ⊆ Finset.range (n + 1) := by
    intro i hi
    simp only [List.mem_toFinset, List.mem_filter, decide_eq_true_eq] at hi
    exact Finset.mem_range.2 (Nat.lt_succ_of_le hi.2)
  obtain ⟨hfree, hbelow⟩ := idaSimpleGet_spec used
  rw [hcard]
  constructor
  · intro hle
    -- the index that is drawn is free
    have hlt : (used.filter (· ≤ n)).toFinset ⊂ Finset.range (n + 1) := by
      refine Finset.ssubset_iff_subset_ne.2 ⟨hsub, fun heq => hfree ?_⟩
      have hmem := heq ▸ Finset.mem_range.2 (Nat.lt_succ_of_le hle)
      exact List.mem_of_mem_filter (List.mem_toFinset.1 hmem)
    have hlt' := Finset.card_lt_card hlt
    rw [Finset.card_range] at hlt'
    omega
  · intro hle
    by_contra hgt
    have hall : Finset.range (n + 1) ⊆ (used.filter (· ≤ n)).toFinset := by
      intro i hi
      have hi' := Nat.le_of_lt_succ (Finset.mem_range.1 hi)
      exact List.mem_toFinset.2 (List.mem_filter.2 ⟨hbelow i (by omega), decide_eq_true hi'⟩)
    have hcard' := Finset.card_le_card hall
    rw [Finset.card_range] at hcard'
    omega

def LanesMatch (numOnlineCpus : ℕ) (s : LaneState) : Prop :=
  ∀ x ∈ s, x.live = true → x.qid ≠ 0 → ∀ (c : Host.Config) (t : ℕ) (q : Host.NvmeTcpQueue),
    c.numOnlineCpus = numOnlineCpus → c.qid = x.qid →
      (x.prioClass = 1 ↔ (Host.nvmeTcpQueueRequestLocked c t q).2.prioClass = 1)

/-- How many queues that the host has for throughput, admin queues with them, hold an index. -/
def thruHeld (n : ℕ) (s : LaneState) : ℕ := s.countP fun x => decide (x.qid ≤ n)

/-- A queue for throughput connects while at most `n` of them are there, and any other queue while
there are more. -/
def InTurn (n : ℕ) (s : LaneState) : LaneEvent → Prop
  | .connect _ qid => qid ≤ n ↔ thruHeld n s ≤ n
  | _ => True

instance (n : ℕ) (s : LaneState) : DecidablePred (InTurn n s)
  | .connect _ qid => inferInstanceAs (Decidable (qid ≤ n ↔ thruHeld n s ≤ n))
  | .disconnect _ => .isTrue trivial
  | .release _ => .isTrue trivial

section Lanes

variable {n : ℕ} {s s' : LaneState}

theorem lanesMatch_iff : LanesMatch n s ↔ ∀ x ∈ s, x.live = true → x.qid ≠ 0 →
    (x.prioClass = 1 ↔ n < x.qid) := by
  constructor
  · intro h x hx hlive hqid
    have hx' := h x hx hlive hqid (Host.queueConfig ⟨0, 0, 0, n⟩ x.qid) 0
      (Host.blankQueue (Host.queueConfig ⟨0, 0, 0, n⟩ x.qid)) rfl rfl
    rw [Host.prioClass_eq_one] at hx'
    exact hx'
  · intro h x hx hlive hqid c t q hcpus hq
    rw [Host.prioClass_eq_one, hcpus, hq]
    exact h x hx hlive hqid

theorem allocQueue_prioClass (n : ℕ) (used : List ℕ) (ctrl qid : ℕ) :
    (nvmetTcpAllocQueue n used ctrl qid).prioClass = 1 ↔ n < idaSimpleGet used := by
  simp only [nvmetTcpAllocQueue]
  split_ifs with h <;> simp [h]

/-- Every queue holds an index of its own, on the side of its number. -/
structure Sided (n : ℕ) (s : LaneState) : Prop where
  nodup : (LaneState.used s).Nodup
  side : ∀ x ∈ s, (x.idx ≤ n ↔ x.qid ≤ n) ∧ (x.prioClass = 1 ↔ n < x.idx)

theorem Sided.lanesMatch (h : Sided n s) : LanesMatch n s := by
  rw [lanesMatch_iff]
  intro x hx _ _
  obtain ⟨hside, hclass⟩ := h.side x hx
  rw [hclass, ← not_le, hside, not_le]

/-- So the places that are taken can be counted by the numbers of the queues. -/
theorem Sided.draw_le_iff (h : Sided n s) : idaSimpleGet (LaneState.used s) ≤ n ↔
    thruHeld n s ≤ n := by
  have hcount : (LaneState.used s).countP (· ≤ n) = thruHeld n s := by
    unfold LaneState.used thruHeld
    rw [List.countP_map]
    exact List.countP_congr fun x hx => by simpa using (h.side x hx).1
  rw [idaSimpleGet_le_iff h.nodup, hcount]

theorem Sided.connect {ctrl qid : ℕ} (h : Sided n s) (hok : InTurn n s (.connect ctrl qid)) :
    Sided n (s ++ [nvmetTcpAllocQueue n (LaneState.used s) ctrl qid]) := by
  constructor
  · have hfree := (idaSimpleGet_spec (LaneState.used s)).1
    have hused : LaneState.used (s ++ [nvmetTcpAllocQueue n (LaneState.used s) ctrl qid]) =
        LaneState.used s ++ [idaSimpleGet (LaneState.used s)] := by
      simp [LaneState.used, nvmetTcpAllocQueue]
    rw [hused]
    exact List.nodup_append.2 ⟨h.nodup, List.nodup_singleton _,
      fun i hi j hj heq => hfree (List.mem_singleton.1 hj ▸ heq ▸ hi)⟩
  · intro x hx
    rcases List.mem_append.1 hx with hx | hx
    · exact h.side x hx
    · rw [List.mem_singleton.1 hx]
      exact ⟨h.draw_le_iff.trans hok.symm, allocQueue_prioClass n _ ctrl qid⟩

theorem Sided.step {e : LaneEvent} (h : Sided n s) (hok : InTurn n s e)
    (hstep : laneStep n s e = some s') :
    Sided n s' := by
  cases e with
  | connect ctrl qid =>
    cases hstep
    exact h.connect hok
  | disconnect i =>
    obtain ⟨y, hy, rfl⟩ := Option.map_eq_some_iff.1 hstep
    have hsame : LaneState.used (s.set i { y with live := false }) = LaneState.used s := by
      obtain ⟨hi, rfl⟩ := List.getElem?_eq_some_iff.1 hy
      unfold LaneState.used
      have hlen : i < (s.map (·.idx)).length := by simpa using hi
      rw [List.map_set]
      simpa using List.set_getElem_self hlen
    refine ⟨hsame ▸ h.nodup, fun x hx => ?_⟩
    rcases List.mem_or_eq_of_mem_set hx with hx | rfl
    · exact h.side x hx
    · exact h.side y (List.mem_of_getElem? hy)
  | release i =>
    obtain ⟨y, hy, hrel⟩ := Option.bind_eq_some_iff.1 hstep
    split_ifs at hrel
    cases hrel
    refine ⟨?_, fun x hx => h.side x (List.mem_of_mem_eraseIdx hx)⟩
    exact h.nodup.sublist ((List.eraseIdx_sublist s i).map _)

theorem sided_of_run {es : List LaneEvent} (hrun : (laneSystem n).RunIn (InTurn n) es s) :
    Sided n s := by
  apply hrun.invariant (I := Sided n)
  · exact ⟨List.nodup_nil, fun x hx => by cases hx⟩
  · intro s e s' hI hok hstep
    exact hI.step hok hstep

theorem Sided.not_lanesMatch {ctrl qid : ℕ} (h : Sided n s) (hqid : qid ≠ 0)
    (hno : ¬ InTurn n s (.connect ctrl qid)) (hstep : laneStep n s (.connect ctrl qid) = some s') :
    ¬ LanesMatch n s' := by
  cases hstep
  rw [lanesMatch_iff]
  intro hmatch
  have hx := hmatch _ (List.mem_append_right _ List.mem_cons_self) rfl hqid
  rw [allocQueue_prioClass] at hx
  apply hno
  exact (not_lt.symm.trans ((not_congr hx.symm).trans not_lt)).trans h.draw_le_iff

/-- The queues of one controller, connected in order with nobody else there. -/
theorem connects_in_order (n k : ℕ) :
    ∃ s, (laneSystem n).RunIn (InTurn n) ((List.range k).map (LaneEvent.connect 0)) s ∧
      s.map (·.qid) = List.range k := by
  induction k with
  | zero => exact ⟨[], .nil, rfl⟩
  | succ k ih =>
    obtain ⟨s, hrun, hqids⟩ := ih
    refine ⟨s ++ [nvmetTcpAllocQueue n (LaneState.used s) 0 k], ?_, ?_⟩
    · rw [List.range_succ, List.map_append]
      have hheld : thruHeld n s = min k (n + 1) := by
        have hcount : thruHeld n s = (s.map (·.qid)).countP (· ≤ n) := by
          rw [List.countP_map]
          rfl
        rw [hcount, hqids, List.countP_eq_length_filter]
        exact length_filter_range_le n k
      refine hrun.snoc ?_ rfl
      change k ≤ n ↔ thruHeld n s ≤ n
      omega
    · rw [List.map_append, hqids, List.range_succ]
      rfl

end Lanes

/-- In every run in which the queues connect in their turn, host and target agree on all live
queues; the first I/O queue that connects out of turn is in the wrong class. -/
theorem lanes_match (n : ℕ) (es : List LaneEvent) (s : LaneState)
    (hrun : (laneSystem n).RunIn (InTurn n) es s) :
    LanesMatch n s ∧ ∀ ctrl qid s', (laneSystem n).step s (.connect ctrl qid) = some s' → qid ≠ 0 →
      (LanesMatch n s' ↔ InTurn n s (.connect ctrl qid)) := by
  have hsided := sided_of_run hrun
  refine ⟨hsided.lanesMatch, fun ctrl qid s' hstep hqid => ⟨fun hmatch => ?_, fun hok => ?_⟩⟩
  · by_contra hno
    exact hsided.not_lanesMatch hqid hno hstep hmatch
  · exact (hsided.step hok hstep).lanesMatch

/-- One controller with its admin queue and four I/O queues, on two CPUs. -/
theorem lanes_match_sample : ∃ s,
    (laneSystem 2).RunIn (InTurn 2) ((List.range 5).map (LaneEvent.connect 0)) s ∧
      s.map (·.qid) = [0, 1, 2, 3, 4] ∧ LanesMatch 2 s := by
  obtain ⟨s, hrun, hqids⟩ := connects_in_order 2 5
  exact ⟨s, hrun, hqids, (lanes_match 2 _ s hrun).1⟩

/-- A second controller connects while the first has its three queues: its first I/O queue draws
index 4 and is in the latency class of the target, in the throughput class of the host. -/
theorem second_controller_mismatch : ∃ s, (laneSystem 2).Run
    [.connect 0 0, .connect 0 1, .connect 0 2, .connect 1 0, .connect 1 1] s ∧
      { ctrl := 1, qid := 1, idx := 4, prioClass := 1, live := true } ∈ s ∧ ¬ LanesMatch 2 s := by
  obtain ⟨s, hrun, hmem⟩ : ∃ s, (laneSystem 2).RunIn (fun _ _ => True)
      [.connect 0 0, .connect 0 1, .connect 0 2, .connect 1 0, .connect 1 1] s ∧
        ({ ctrl := 1, qid := 1, idx := 4, prioClass := 1, live := true } : LaneQueue) ∈ s :=
    Runs.System.exists_runIn_of_execIn
      (fun s : LaneState =>
        ({ ctrl := 1, qid := 1, idx := 4, prioClass := 1, live := true } : LaneQueue) ∈ s)
      (by decide +kernel)
  refine ⟨s, hrun, hmem, fun hmatch => ?_⟩
  have hlt := (lanesMatch_iff.1 hmatch _ hmem rfl (by decide)).1 rfl
  exact absurd hlt (by decide)

end BlkSwitch.Target
