import BlkSwitch.Proofs.Steering
import BlkSwitch.Spec.BlkNodes

/-! The CPU numbers of blk-switch stay in range as long as every hardware queue has a node, and a
hardware queue has one if it is the default queue of some CPU, or was there when the request queue
was set up. -/

namespace BlkSwitch.Blk

def IsNode (m : Machine) (h : ℤ) : Prop := ∃ cpu < m.nrCpuIds, h = m.node cpu

/-- Every hardware queue is the default queue of some CPU. -/
def Covered (m : Machine) (set : TagSet) : Prop :=
  ∀ i < set.nrHwQueues, ∃ cpu < m.nrCpuIds, (set.map .default).mqMap cpu = i

/-- Every hardware queue is some queue of some CPU. -/
def Served (m : Machine) (set : TagSet) : Prop :=
  ∀ i < set.nrHwQueues, ∃ cpu < m.nrCpuIds, ∃ j ∈ set.types, (set.map j).mqMap cpu = i

def Each (P : ℕ → ℤ → Prop) (q : HwQueues) : Prop := ∀ i h, q.queueHwCtx i = some h → P i h

def HasNodes (m : Machine) (q : HwQueues) : Prop := Each (fun _ => IsNode m) q

def IsCpu (m : Machine) (x : ℤ) : Prop := 0 ≤ x ∧ x < m.nrCpuIds

def Uses.InRange (m : Machine) (u : Uses) : Prop :=
  (∀ x ∈ u.subscripts, 0 ≤ x ∧ x < BLK_SWITCH_NR_CPUS) ∧ (∀ x ∈ u.perCpu, IsCpu m x) ∧
    ∀ x ∈ u.nodes, 0 ≤ x.1 ∧ x.1 < x.2

/-- Nodes are numbered from 0 up to the number of nodes online, and an update leaves no hardware
queue outside the default map. -/
def KeepsNodes (m : Machine) (s : NodeState) : NodeEvent → Prop
  | .updateNrHwQueues n map _ fallback _ =>
    Covered m (s.set.resized n map) ∧ ∀ f ∈ fallback, Covered m (s.set.restored map f.1)
  | .getRequest c => ∀ cpu < m.nrCpuIds, m.node cpu < c.params.numOnlineNodes
  | .endRequest _ _ => True

instance (m : Machine) (set : TagSet) : Decidable (Covered m set) :=
  inferInstanceAs (Decidable
    (∀ i < set.nrHwQueues, ∃ cpu < m.nrCpuIds, (set.map .default).mqMap cpu = i))

instance (m : Machine) (s : NodeState) (e : NodeEvent) : Decidable (KeepsNodes m s e) :=
  match e with
  | .updateNrHwQueues n map _ fallback _ => inferInstanceAs (Decidable
      (Covered m (s.set.resized n map) ∧ ∀ f ∈ fallback, Covered m (s.set.restored map f.1)))
  | .getRequest c => inferInstanceAs
    (Decidable (∀ cpu < m.nrCpuIds, m.node cpu < c.params.numOnlineNodes))
  | .endRequest _ _ => .isTrue trivial

instance (m : Machine) (u : Uses) : Decidable (u.InRange m) :=
  inferInstanceAs (Decidable ((∀ x ∈ u.subscripts, 0 ≤ x ∧ x < (BLK_SWITCH_NR_CPUS : ℤ)) ∧
    (∀ x ∈ u.perCpu, 0 ≤ x ∧ x < (m.nrCpuIds : ℤ)) ∧ ∀ x ∈ u.nodes, 0 ≤ x.1 ∧ x.1 < (x.2 : ℤ)))

variable {m : Machine} {set : TagSet} {q : HwQueues}

/-! Hardware queues and their nodes. -/

theorem Machine.MapsNodes.cases (hmaps : m.MapsNodes) (qmap : QueueMap) (i : ℕ) :
    IsNode m (m.blkMqHwQueueToNode qmap i) ∨ m.blkMqHwQueueToNode qmap i = NUMA_NO_NODE := by
  by_cases h : ∃ cpu < m.nrCpuIds, qmap.mqMap cpu = i
  · obtain ⟨cpu, hcpu, -, hnode⟩ := hmaps.mapped qmap i h
    exact .inl ⟨cpu, hcpu, hnode⟩
  · exact .inr (hmaps.unmapped qmap i fun cpu hcpu heq => h ⟨cpu, hcpu, heq⟩)

theorem Covered.isNode (h : Covered m set) (hmaps : m.MapsNodes) {i : ℕ} (hi : i < set.nrHwQueues) :
    IsNode m (m.blkMqHwQueueToNode (set.map .default) i) := by
  obtain ⟨cpu, hcpu, -, hnode⟩ := hmaps.mapped (set.map .default) i (h i hi)
  exact ⟨cpu, hcpu, hnode⟩

variable {P : ℕ → ℤ → Prop}

theorem Each.exitHctx (h : Each P q) (i : ℕ) : Each P (q.blkMqExitHctx i) := by
  unfold HwQueues.blkMqExitHctx
  cases hi : q.queueHwCtx i with
  | none => exact h
  | some node =>
    intro k node' hk
    dsimp only at hk
    by_cases hki : k = i
    · rw [hki, Function.update_self] at hk
      cases hk
    · rw [Function.update_of_ne hki] at hk
      exact h k node' hk

theorem Each.free (n : ℕ) : ∀ {j : ℕ} {q : HwQueues}, Each P q → Each P (freeHctxs j n q) := by
  induction n with
  | zero => intro j q h; exact h
  | succ n ih => intro j q h; exact ih (h.exitHctx j)

theorem allocAndInitHctx_fst (set : TagSet) (node : ℤ) (q : HwQueues) :
    (blkMqAllocAndInitHctx set node q).1 = node ∨
      node = NUMA_NO_NODE ∧ (blkMqAllocAndInitHctx set node q).1 = set.numaNode := by
  unfold blkMqAllocAndInitHctx blkMqAllocHctx
  split_ifs with hmem hnone
  · exact .inl rfl
  · exact .inr ⟨hnone, rfl⟩
  · exact .inl rfl

theorem Each.replace (h : Each P q) {node : ℤ} {i : ℕ}
    (hnew : P i (blkMqAllocAndInitHctx set node q).1) : Each P (replaceHctx set node i q) := by
  have hq : Each P (blkMqAllocAndInitHctx set node q).2 := by
    unfold blkMqAllocAndInitHctx
    split_ifs <;> exact h
  intro k node' hk
  unfold replaceHctx at hk
  dsimp only at hk
  by_cases hki : k = i
  · rw [hki, Function.update_self, Option.some.injEq] at hk
    rw [hki, ← hk]
    exact hnew
  · rw [Function.update_of_ne hki] at hk
    exact hq.exitHctx i k node' hk

/-- The contexts that `blk_mq_realloc_hw_ctxs` makes or keeps. -/
theorem Each.realloc {alloc : ℕ → Bool}
    (hnew : ∀ (q : HwQueues) (i : ℕ), i < set.nrHwQueues →
      P i (blkMqAllocAndInitHctx set (m.blkMqHwQueueToNode (set.map .default) i) q).1)
    (h : Each P q) : Each P (blkMqReallocHwCtxs m set alloc q) := by
  have hloop : ∀ (n i : ℕ) (q : HwQueues), i + n ≤ set.nrHwQueues → Each P q →
      Each P (reallocLoop m set alloc n i q).2 := by
    intro n
    induction n with
    | zero => intro i q _ h; exact h
    | succ n ih =>
      intro i q hi h
      unfold reallocLoop
      dsimp only
      split_ifs
      · exact ih _ _ (by omega) h
      · exact ih _ _ (by omega) (h.replace (hnew q i (by omega)))
      · exact ih _ _ (by omega) h
      · exact h
  have hend := hloop set.nrHwQueues 0 q (by omega) h
  unfold blkMqReallocHwCtxs
  dsimp only
  split_ifs
  · exact Each.free _ hend
  · exact Each.free _ hend

theorem IsNode.nonneg {h : ℤ} (hn : IsNode m h) : 0 ≤ h := by
  obtain ⟨cpu, -, rfl⟩ := hn
  omega

theorem IsNode.ne {h : ℤ} (hn : IsNode m h) : h ≠ NUMA_NO_NODE := by
  have hpos := hn.nonneg
  unfold NUMA_NO_NODE
  omega

theorem HasNodes.realloc (h : HasNodes m q) (hmaps : m.MapsNodes) (hcov : Covered m set)
    (alloc : ℕ → Bool) :
    HasNodes m (blkMqReallocHwCtxs m set alloc q) := by
  refine Each.realloc (fun q i hi => ?_) h
  have hnode := hcov.isNode hmaps hi
  rcases allocAndInitHctx_fst set (m.blkMqHwQueueToNode (set.map .default) i)
    q with heq | ⟨hnone, -⟩
  · rw [heq]
    exact hnode
  · exact absurd hnone hnode.ne

/-! The set-up. -/

/-- The contexts still without a node are those of which `R` holds. -/
def Without (m : Machine) (R : ℕ → Prop) (q : HwQueues) : Prop :=
  Each (fun i node => IsNode m node ∨ node = NUMA_NO_NODE ∧ R i) q

theorem Without.imp {R R' : ℕ → Prop} (h : Without m R q) (himp : ∀ i, R i → R' i) :
    Without m R' q := by
  intro i node hi
  rcases h i node hi with hnode | ⟨hnone, hR⟩
  · exact .inl hnode
  · exact .inr ⟨hnone, himp i hR⟩

theorem Without.setLocalNode {R : ℕ → Prop} {cpu : ℕ} (hcpu : cpu < m.nrCpuIds)
    (hn : 1 < set.nrHwQueues) (j : HctxType) (h : Without m R q) :
    Without m (fun i => R i ∧ (set.map j).mqMap cpu ≠ i) (setLocalNode m set q cpu j) := by
  intro i node hi
  unfold Blk.setLocalNode at hi
  dsimp only at hi
  by_cases hij : (set.map j).mqMap cpu = i
  · rw [hij] at hi
    by_cases hset : 1 < set.nrHwQueues ∧ q.queueHwCtx i = some NUMA_NO_NODE
    · rw [if_pos hset] at hi
      dsimp only at hi
      rw [Function.update_self, Option.some.injEq] at hi
      exact .inl ⟨cpu, hcpu, hi.symm⟩
    · rw [if_neg hset] at hi
      rcases h i node hi with hnode | ⟨rfl, -⟩
      · exact .inl hnode
      · exact absurd ⟨hn, hi⟩ hset
  · have hkeep : q.queueHwCtx i = some node := by
      rw [apply_ite HwQueues.queueHwCtx] at hi
      dsimp only at hi
      rw [apply_ite (fun f : ℕ → Option ℤ => f i), Function.update_of_ne (Ne.symm hij),
        ite_self] at hi
      exact hi
    rcases h i node hkeep with hnode | ⟨hnone, hR⟩
    · exact .inl hnode
    · exact .inr ⟨hnone, hR, hij⟩

/-- Behind `blk_mq_init_cpu_queues` a queue without a node is no queue of any CPU. -/
theorem Without.initCpuQueues {R : ℕ → Prop} (hn : 1 < set.nrHwQueues) (h : Without m R q) :
    Without m (fun i => R i ∧ ∀ cpu < m.nrCpuIds, ∀ j ∈ set.types, (set.map j).mqMap cpu ≠ i)
      (blkMqInitCpuQueues m set q) := by
  have hmaps : ∀ (cpu : ℕ) (R : ℕ → Prop) (q : HwQueues), cpu < m.nrCpuIds → Without m R q →
      Without m (fun i => R i ∧ ∀ j ∈ set.types, (set.map j).mqMap cpu ≠ i)
        (set.types.foldl (fun q j => Blk.setLocalNode m set q cpu j) q) := by
    intro cpu R q hcpu h
    refine Loops.foldl_past
      (I := fun past q => Without m (fun i => R i ∧ ∀ j ∈ past, (set.map j).mqMap cpu ≠ i) q)
      (h.imp fun i hR => ⟨hR, by simp⟩) (fun past j q h => ?_) set.types
    refine (h.setLocalNode hcpu hn j).imp fun i hi => ⟨hi.1.1, fun k hk => ?_⟩
    rcases List.mem_append.1 hk with hk | hk
    · exact hi.1.2 k hk
    · rw [List.mem_singleton.1 hk]
      exact hi.2
  have hcpus := Loops.foldl_past
    (I := fun past q => (∀ cpu ∈ past, cpu < m.nrCpuIds) →
      Without m (fun i => R i ∧ ∀ cpu ∈ past, ∀ j ∈ set.types, (set.map j).mqMap cpu ≠ i) q)
    (f := fun q cpu => set.types.foldl (fun q j => Blk.setLocalNode m set q cpu j) q) (b := q)
    (fun _ => h.imp fun i hR => ⟨hR, by simp⟩)
    (fun past cpu q ih hall => by
      have hpast := ih fun k hk => hall k (List.mem_append_left _ hk)
      refine (hmaps cpu _ q (hall cpu (by simp)) hpast).imp fun i hi => ⟨hi.1.1, fun k hk => ?_⟩
      rcases List.mem_append.1 hk with hk | hk
      · exact hi.1.2 k hk
      · rw [List.mem_singleton.1 hk]
        exact hi.2)
    (List.range m.nrCpuIds)
  refine (hcpus fun cpu hcpu => List.mem_range.1 hcpu).imp fun i hi => ⟨hi.1, fun cpu hcpu => ?_⟩
  exact hi.2 cpu (List.mem_range.2 hcpu)

theorem initCpuQueues_one (hn : ¬ 1 < set.nrHwQueues) : blkMqInitCpuQueues m set q = q := by
  simp [blkMqInitCpuQueues, setLocalNode, hn]

/-- A queue that is some CPU's, in whatever map, has a node from the start. -/
theorem hasNodes_init (hmaps : m.MapsNodes) (hset : set.numaNode = NUMA_NO_NODE) (alloc : ℕ → Bool)
    (h : Covered m set ∨ 1 < set.nrHwQueues ∧ Served m set) :
    HasNodes m (blkMqInitAllocatedQueue m set alloc) := by
  unfold blkMqInitAllocatedQueue
  rcases h with hcov | ⟨hn, hserved⟩
  · have hnodes : HasNodes m (blkMqReallocHwCtxs m set alloc ⟨0, fun _ => none, []⟩) :=
      HasNodes.realloc (fun _ _ hi => by cases hi) hmaps hcov alloc
    by_cases hn : 1 < set.nrHwQueues
    · have hwithout : Without m (fun _ => False)
          (blkMqReallocHwCtxs m set alloc ⟨0, fun _ => none, []⟩) :=
        fun i node hi => .inl (hnodes i node hi)
      intro i node hi
      rcases hwithout.initCpuQueues hn i node hi with hnode | ⟨-, hfalse, -⟩
      · exact hnode
      · exact hfalse.elim
    · rw [initCpuQueues_one hn]
      exact hnodes
  · have hwithout : Without m (fun i => i < set.nrHwQueues)
        (blkMqReallocHwCtxs m set alloc ⟨0, fun _ => none, []⟩) := by
      refine Each.realloc (fun q i hi => ?_) (fun _ _ hi => by cases hi)
      rcases hmaps.cases (set.map .default) i with hnode | hnone
      · rcases allocAndInitHctx_fst set (m.blkMqHwQueueToNode (set.map .default) i)
          q with heq | ⟨hnone, -⟩
        · exact .inl (by rw [heq]; exact hnode)
        · exact absurd hnone hnode.ne
      · refine .inr ⟨?_, hi⟩
        rcases allocAndInitHctx_fst set (m.blkMqHwQueueToNode (set.map .default) i)
          q with heq | ⟨-, heq⟩
        · rw [heq, hnone]
        · rw [heq, hset]
    intro i node hi
    rcases hwithout.initCpuQueues hn i node hi with hnode | ⟨-, hlt, hno⟩
    · exact hnode
    · obtain ⟨cpu, hcpu, j, hj, heq⟩ := hserved i hlt
      exact absurd heq (hno cpu hcpu j hj)

/-! The numbers of a call. -/

theorem nrCpus_le (p : Params) : nrCpus p ≤ p.numOnlineCpus := by
  unfold nrCpus
  split_ifs with h
  · exact le_rfl
  · omega

theorem Uses.InRange.append {u v : Uses} (hu : u.InRange m) (hv : v.InRange m) :
    (u.append v).InRange m :=
  ⟨List.forall_mem_append.2 ⟨hu.1, hv.1⟩, List.forall_mem_append.2 ⟨hu.2.1, hv.2.1⟩,
    List.forall_mem_append.2 ⟨hu.2.2, hv.2.2⟩⟩

theorem noUses_inRange : Call.noUses.InRange m := by
  simp [Uses.InRange, Call.noUses]

theorem IsCpu.subscript (hm : m.nrCpuIds ≤ BLK_SWITCH_NR_CPUS) {x : ℤ} (h : IsCpu m x) :
    0 ≤ x ∧ x < BLK_SWITCH_NR_CPUS :=
  ⟨h.1, lt_of_lt_of_le h.2 (by exact_mod_cast hm)⟩

theorem isCpu_natCast {i : ℕ} (h : i < m.nrCpuIds) : IsCpu m i := ⟨by omega, by exact_mod_cast h⟩

theorem forall_mem_ite {b : Prop} [Decidable b] {l : List ℤ} {P : ℤ → Prop} (h : b → ∀ x ∈ l, P x) :
    ∀ x ∈ if b then l else [], P x := by
  split_ifs with hb
  · exact h hb
  · simp

section Call

variable {c : Call} {node : ℤ}

theorem Call.Possible.nodeCpu (h : c.Possible m) (hnode : 0 ≤ node ∧ node < c.params.numOnlineNodes)
    {i : ℕ} (hi : i < c.count) : IsCpu m (c.nodeCpu node i) := by
  have hle : (i + 1) * c.params.numOnlineNodes ≤ m.nrCpuIds := by
    calc (i + 1) * c.params.numOnlineNodes
        ≤ c.count * c.params.numOnlineNodes := Nat.mul_le_mul_right _ hi
      _ ≤ nrCpus c.params := Nat.div_mul_le_self _ _
      _ ≤ c.params.numOnlineCpus := nrCpus_le c.params
      _ ≤ m.nrCpuIds := h.online
  have hle' : ((i : ℤ) + 1) * c.params.numOnlineNodes ≤ m.nrCpuIds := by exact_mod_cast hle
  have hpos : (0 : ℤ) ≤ (i : ℤ) * c.params.numOnlineNodes := by positivity
  unfold Call.nodeCpu
  constructor <;> linarith

theorem Call.Possible.nodeCpus (h : c.Possible m)
    (hnode : 0 ≤ node ∧ node < c.params.numOnlineNodes) {n : ℕ} (hn : n ≤ c.count) :
    ∀ x ∈ c.nodeCpus node n, IsCpu m x := by
  intro x hx
  obtain ⟨i, hi, rfl⟩ := List.mem_map.1 hx
  exact h.nodeCpu hnode ((List.mem_range.1 hi).trans_le hn)

theorem Call.Possible.allCpus (h : c.Possible m) : ∀ x ∈ c.allCpus, IsCpu m x := by
  intro x hx
  obtain ⟨i, hi, rfl⟩ := List.mem_map.1 hx
  have hlt := List.mem_range.1 hi
  have hle := nrCpus_le c.params
  have honline := h.online
  exact isCpu_natCast (by omega)

theorem Call.Possible.resetUses (h : c.Possible m) (hm : m.nrCpuIds ≤ BLK_SWITCH_NR_CPUS) :
    c.resetUses.InRange m := by
  refine ⟨List.forall_mem_append.2
    ⟨forall_mem_ite fun _ x hx => ?_, forall_mem_ite fun _ => ?_⟩, by simp [Call.resetUses],
    by simp [Call.resetUses]⟩
  · exact (h.allCpus x hx).subscript hm
  · exact List.forall_mem_singleton.2 ((isCpu_natCast h.current).subscript hm)

theorem Call.Possible.appUses (h : c.Possible m) (hm : m.nrCpuIds ≤ BLK_SWITCH_NR_CPUS)
    (hnode : 0 ≤ node ∧ node < c.params.numOnlineNodes) : (c.appUses node).InRange m := by
  refine ⟨?_, forall_mem_ite fun _ => List.forall_mem_singleton.2 (isCpu_natCast h.moved), ?_⟩
  · refine List.forall_mem_append.2
      ⟨List.forall_mem_append.2 ⟨List.forall_mem_cons.2 ⟨?_, ?_⟩, ?_⟩, ?_⟩
    · exact (isCpu_natCast h.ctx).subscript hm
    · refine forall_mem_ite fun _ => List.forall_mem_append.2
        ⟨fun x hx => (h.allCpus x hx).subscript hm, ?_⟩
      exact forall_mem_ite fun _ => by decide
    · exact fun x hx => (h.nodeCpus hnode h.turns x hx).subscript hm
    · cases hpick : c.appPick with
      | none => simp
      | some i =>
        have hi := (h.app i hpick).trans_le h.turns
        exact forall_mem_ite fun _ => List.forall_mem_singleton.2
          ((h.nodeCpu hnode hi).subscript hm)
  · exact List.forall_mem_singleton.2 hnode

theorem Call.reqOn_count {blkSwitch : Bool} (h : c.Possible m) (hon : c.reqOn blkSwitch = true) :
    0 < c.count := by
  simp only [Call.reqOn, Bool.and_eq_true, decide_eq_true_eq] at hon
  exact Nat.div_pos (by omega) h.nodes

theorem Call.Possible.twoCpu (h : c.Possible m) (hnode : 0 ≤ node ∧ node < c.params.numOnlineNodes)
    (hpos : 0 < c.count) : IsCpu m (c.twoCpu node).1 ∧ IsCpu m (c.twoCpu node).2 :=
  ⟨h.nodeCpu hnode (Nat.mod_lt _ hpos), h.nodeCpu hnode (Nat.mod_lt _ hpos)⟩

theorem Call.Possible.reqTarget (h : c.Possible m)
    (hnode : 0 ≤ node ∧ node < c.params.numOnlineNodes) (hpos : 0 < c.count) :
    IsCpu m (c.reqTarget node) := by
  obtain ⟨hfirst, hsecond⟩ := h.twoCpu hnode hpos
  have hrandom : IsCpu m (if c.second then (c.twoCpu node).2 else (c.twoCpu node).1) := by
    split_ifs
    · exact hsecond
    · exact hfirst
  unfold Call.reqTarget
  dsimp only
  by_cases hbusy : c.busy = true
  · rw [if_pos hbusy]
    cases hpick : c.reqPick with
    | none => exact hrandom
    | some i =>
      have hi := h.nodeCpu hnode (h.req i hpick)
      dsimp only
      rw [if_pos hi.1]
      exact hi
  · rw [if_neg hbusy]
    exact isCpu_natCast h.ctx

theorem Call.Possible.reqUses (h : c.Possible m) (hm : m.nrCpuIds ≤ BLK_SWITCH_NR_CPUS)
    (hnode : 0 ≤ node ∧ node < c.params.numOnlineNodes) (hpos : 0 < c.count) :
    (c.reqUses node).InRange m := by
  have htarget := h.reqTarget hnode hpos
  obtain ⟨hfirst, hsecond⟩ := h.twoCpu hnode hpos
  have hcpus := h.nodeCpus hnode le_rfl
  refine ⟨?_, ?_, List.forall_mem_singleton.2 hnode⟩
  · refine List.forall_mem_append.2 ⟨List.forall_mem_cons.2 ⟨?_, ?_⟩, ?_⟩
    · exact (isCpu_natCast h.ctx).subscript hm
    · exact forall_mem_ite fun _ x hx => (hcpus x hx).subscript hm
    · exact forall_mem_ite fun _ => List.forall_mem_singleton.2 (htarget.subscript hm)
  · refine List.forall_mem_append.2
      ⟨List.forall_mem_append.2 ⟨forall_mem_ite fun _ => hcpus, ?_⟩, ?_⟩
    · exact forall_mem_ite fun _ => List.forall_mem_cons.2
        ⟨hfirst, List.forall_mem_singleton.2 hsecond⟩
    · exact forall_mem_ite fun _ => List.forall_mem_singleton.2 htarget

theorem Call.Possible.cpu (h : c.Possible m) (hnode : 0 ≤ node ∧ node < c.params.numOnlineNodes)
    (blkSwitch : Bool) :
    IsCpu m (c.cpu blkSwitch node) := by
  unfold Call.cpu
  split_ifs with happ hreq
  · exact isCpu_natCast h.moved
  · exact h.reqTarget hnode (Call.reqOn_count h hreq)
  · exact isCpu_natCast h.ctx

theorem Call.Possible.uses (h : c.Possible m) (hm : m.nrCpuIds ≤ BLK_SWITCH_NR_CPUS)
    (hnode : 0 ≤ node ∧ node < c.params.numOnlineNodes) (blkSwitch : Bool) :
    (c.uses blkSwitch node).InRange m := by
  refine .append (.append (.append ?_ ?_) ?_) ?_
  · split_ifs
    · exact h.resetUses hm
    · exact noUses_inRange
  · split_ifs
    · exact h.appUses hm hnode
    · exact noUses_inRange
  · split_ifs with hreq
    · exact h.reqUses hm hnode (Call.reqOn_count h hreq)
    · exact noUses_inRange
  · refine ⟨forall_mem_ite fun _ => ?_, by simp [Call.chargeUses], by simp [Call.chargeUses]⟩
    exact List.forall_mem_singleton.2 ((h.cpu hnode blkSwitch).subscript hm)

end Call

/-! Every history. -/

structure NodesOk (m : Machine) (s : NodeState) : Prop where
  nodes : HasNodes m s.q
  live : ∀ x ∈ s.live, IsCpu m x
  uses : s.uses.InRange m

theorem Covered.of_le {n k : ℕ} {map : HctxType → QueueMap} (h : Covered m (set.resized n map))
    (hk : k ≤ n) :
    Covered m (set.resized k map) :=
  fun i hi => h i (lt_of_lt_of_le hi hk)

theorem NodesOk.update {s s' : NodeState} {n : ℕ} {map : HctxType → QueueMap} {alloc : ℕ → Bool}
    {fallback : Option (QueueMap × (ℕ → Bool))} {noTags : ℕ → Bool} (h : NodesOk m s)
    (hmaps : m.MapsNodes) (hok : KeepsNodes m s (.updateNrHwQueues n map alloc fallback noTags))
    (hstep : blkMqUpdateNrHwQueues m s n map alloc fallback noTags = some s') : NodesOk m s' := by
  obtain ⟨hcov, hback⟩ := hok
  unfold blkMqUpdateNrHwQueues at hstep
  dsimp only at hstep
  set k := if s.set.nrMaps = 1 ∧ m.nrCpuIds < n then m.nrCpuIds else n with hk
  have hkn : k ≤ n := by
    rw [hk]
    split_ifs with hcap
    · exact hcap.2.le
    · exact le_rfl
  by_cases hsame : k < 1 ∨ k = s.set.nrHwQueues
  · rw [if_pos hsame] at hstep
    cases hstep
    exact h
  · rw [if_neg hsame] at hstep
    have hq := h.nodes.realloc hmaps (hcov.of_le hkn) alloc
    cases hf : fallback with
    | none =>
      rw [hf] at hstep
      dsimp only at hstep
      split_ifs at hstep
      cases hstep
      exact ⟨hq, h.live, h.uses⟩
    | some f =>
      rw [hf] at hstep
      dsimp only at hstep
      split_ifs at hstep
      cases hstep
      exact ⟨hq.realloc hmaps (hback f hf) f.2, h.live, h.uses⟩

theorem NodesOk.step (hm : m.nrCpuIds ≤ BLK_SWITCH_NR_CPUS) (hmaps : m.MapsNodes) {blkSwitch : Bool}
    {s s' : NodeState} {e : NodeEvent} (h : NodesOk m s) (hok : KeepsNodes m s e)
    (hstep : nodeStep m blkSwitch s e = some s') : NodesOk m s' := by
  cases e with
  | updateNrHwQueues n map alloc fallback noTags => exact h.update hmaps hok hstep
  | getRequest c =>
    simp only [nodeStep] at hstep
    by_cases hposs : c.Possible m
    swap
    · rw [if_neg hposs] at hstep
      cases hstep
    rw [if_pos hposs] at hstep
    obtain ⟨node, hq, rfl⟩ := Option.map_eq_some_iff.1 hstep
    obtain ⟨cpu, hcpu, rfl⟩ := h.nodes _ _ hq
    have hnode : (0 : ℤ) ≤ m.node cpu ∧ (m.node cpu : ℤ) < c.params.numOnlineNodes :=
      ⟨by omega, by exact_mod_cast hok cpu hcpu⟩
    refine ⟨h.nodes, ?_, h.uses.append (hposs.uses hm hnode blkSwitch)⟩
    dsimp only
    split_ifs
    · exact List.forall_mem_append.2
        ⟨h.live, List.forall_mem_singleton.2 (hposs.cpu hnode blkSwitch)⟩
    · exact h.live
  | endRequest i counted =>
    obtain ⟨cpu, hi, rfl⟩ := Option.map_eq_some_iff.1 hstep
    have hcpu := h.live cpu (List.mem_of_getElem? hi)
    refine ⟨h.nodes, fun x hx => h.live x (List.mem_of_mem_eraseIdx hx),
      h.uses.append ⟨?_, by simp, by simp⟩⟩
    exact forall_mem_ite fun _ => List.forall_mem_singleton.2 (hcpu.subscript hm)

/-- On a machine with at most 64 CPUs whose nodes are numbered without gaps, as long as no update
leaves a hardware queue outside the default map. -/
theorem steering_numbers_in_range (hm : m.nrCpuIds ≤ BLK_SWITCH_NR_CPUS) (hmaps : m.MapsNodes)
    (hset : set.numaNode = NUMA_NO_NODE) (hinit : Covered m set ∨ 1 < set.nrHwQueues ∧ Served m set)
    {blkSwitch : Bool} {alloc noTags : ℕ → Bool} {es : List NodeEvent} {s : NodeState}
    (hrun : (nodeSystem m blkSwitch set alloc noTags).RunIn (KeepsNodes m) es s) :
    s.uses.InRange m := by
  have hok : NodesOk m s := by
    refine hrun.invariant
      ⟨hasNodes_init hmaps hset alloc hinit, by simp [nodeSystem], noUses_inRange⟩ ?_
    intro s e s' h hkeep hstep
    exact h.step hm hmaps hkeep hstep
  exact hok.uses

/-! Four CPUs on two nodes. -/

def firstNode (nrCpuIds : ℕ) (node : ℕ → ℕ) (qmap : QueueMap) (i : ℕ) : ℤ :=
  match (List.range nrCpuIds).find? fun cpu => qmap.mqMap cpu == i with
  | some cpu => node cpu
  | none => NUMA_NO_NODE

theorem firstNode_mapsNodes (n : ℕ) (node : ℕ → ℕ) :
    (Machine.mk n node (firstNode n node)).MapsNodes := by
  constructor
  · rintro qmap i ⟨cpu, hcpu, heq⟩
    cases hfind : (List.range n).find? fun cpu => qmap.mqMap cpu == i with
    | some first =>
      refine ⟨first, List.mem_range.1 (List.mem_of_find?_eq_some hfind), ?_, ?_⟩
      · simpa using List.find?_some hfind
      · simp only [firstNode, hfind]
    | none =>
      have hnone := List.find?_eq_none.1 hfind cpu (List.mem_range.2 hcpu)
      simp [heq] at hnone
  · intro qmap i hno
    have hfind : ((List.range n).find? fun cpu => qmap.mqMap cpu == i) = none :=
      List.find?_eq_none.2 fun cpu hcpu => by simpa using hno cpu (List.mem_range.1 hcpu)
    simp only [firstNode, hfind]

def fourCpus : Machine := ⟨4, fun cpu => cpu % 2, firstNode 4 fun cpu => cpu % 2⟩

/-- Queues of their own for latency requests, `n` of them behind two default queues. -/
def splitMaps (n : ℕ) : HctxType → QueueMap
  | .default => ⟨2, fun cpu => cpu % 2⟩
  | .read => ⟨n, fun cpu => 2 + cpu % n⟩
  | .poll => ⟨0, fun _ => 0⟩

def sharedMaps : HctxType → QueueMap
  | .poll => ⟨0, fun _ => 0⟩
  | _ => ⟨2, fun cpu => cpu % 2⟩

def splitSet : TagSet := ⟨4, 2, splitMaps 2, NUMA_NO_NODE⟩

def twoNodeParams : Params := ⟨2, 8, 0, 4, 2, 1000, by decide⟩

def latencyCall (p : Params) (cpu : ℕ) : Call where
  params := p
  blkSwitchDebug := 0
  bio := some ⟨ REQ_PRIO, BLK_SWITCH_L_APP <<< IOPRIO_CLASS_SHIFT, 4096⟩
  cmdFlags := REQ_PRIO
  ctxCpu := cpu
  currentCpu := cpu
  movedCpu := cpu
  reset := true
  snapshot := false
  appTurns := nrCpus p / p.numOnlineNodes
  appPick := none
  busy := false
  reqPick := none
  twoRand := (0, 1)
  second := false
  hasTag := true

/-- Requests before and after an update that shares the queues. -/
theorem steering_numbers_in_range_sample :
    ∃ s, (nodeSystem fourCpus true splitSet (fun _ => true) (fun _ => false)).RunIn
      (KeepsNodes fourCpus)
        [.getRequest (latencyCall twoNodeParams 0),
          .updateNrHwQueues 2 sharedMaps (fun _ => true) none (fun _ => false),
          .getRequest (latencyCall twoNodeParams 0), .endRequest 0 true] s ∧
      s.uses.subscripts ≠ [] ∧ s.uses.InRange fourCpus := by
  obtain ⟨s, hrun, hs⟩ : ∃ s,
    (nodeSystem fourCpus true splitSet (fun _ => true) (fun _ => false)).RunIn
      (KeepsNodes fourCpus)
      [.getRequest (latencyCall twoNodeParams 0),
        .updateNrHwQueues 2 sharedMaps (fun _ => true) none (fun _ => false),
        .getRequest (latencyCall twoNodeParams 0), .endRequest 0 true] s ∧ s.uses.subscripts ≠ [] :=
    Runs.System.exists_runIn_of_execIn (fun s : NodeState => s.uses.subscripts ≠ [])
      (by decide +kernel)
  have hserved : Served fourCpus splitSet := by
    intro i hi
    have hi' : i < 4 := hi
    interval_cases i
    · exact ⟨0, by decide, .default, by decide, rfl⟩
    · exact ⟨1, by decide, .default, by decide, rfl⟩
    · exact ⟨0, by decide, .read, by decide, rfl⟩
    · exact ⟨1, by decide, .read, by decide, rfl⟩
  exact ⟨s, hrun, hs, steering_numbers_in_range (by decide) (firstNode_mapsNodes 4 _) rfl
    (.inr ⟨by decide, hserved⟩) hrun⟩

def manyCpus (n : ℕ) : Machine := ⟨n, fun _ => 0, firstNode n fun _ => 0⟩

def oneQueueSet : TagSet := ⟨1, 1, fun _ => ⟨1, fun _ => 0⟩, NUMA_NO_NODE⟩

/-- After a reconnect with one queue less for latency requests, their queue is on node -1, and the
first core that application steering looks at has the number -1. And CPU 64 has no place in the
arrays. -/
theorem steering_numbers_out_of_range :
    (∃ s, (nodeSystem fourCpus true splitSet (fun _ => true) (fun _ => false)).Run
        [.getRequest (latencyCall twoNodeParams 0),
          .updateNrHwQueues 3 (splitMaps 1) (fun _ => true) none (fun _ => false),
          .getRequest (latencyCall twoNodeParams 0)] s ∧
      (-1, 2) ∈ s.uses.nodes ∧ -1 ∈ s.uses.subscripts ∧ ¬ s.uses.InRange fourCpus) ∧
    ∃ s, (nodeSystem (manyCpus 65) true oneQueueSet (fun _ => true) (fun _ => false)).Run
        [.getRequest (latencyCall ⟨0, 8, 0, 65, 1, 1000, by decide⟩ 64)] s ∧
      64 ∈ s.uses.subscripts ∧ ¬ s.uses.InRange (manyCpus 65) := by
  constructor
  · exact Runs.System.exists_runIn_of_execIn (fun s : NodeState =>
      (-1, 2) ∈ s.uses.nodes ∧ -1 ∈ s.uses.subscripts ∧ ¬ s.uses.InRange fourCpus)
        (by decide +kernel)
  · exact Runs.System.exists_runIn_of_execIn (fun s : NodeState =>
      64 ∈ s.uses.subscripts ∧ ¬ s.uses.InRange (manyCpus 65)) (by decide +kernel)

end BlkSwitch.Blk
