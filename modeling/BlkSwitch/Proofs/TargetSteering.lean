import BlkSwitch.Lib.Loops
import BlkSwitch.Spec.TargetSteering

/-! Where the target puts its queues. A queue stays on its node whatever is measured. The arrays of
a call are used inside their bounds on machines with at most six CPUs to a node and no CPU past the
last whole slot, and there the search of a latency queue finds the least loaded slot. -/

namespace BlkSwitch.Target

open Loops

section Spec

variable (m : Machine)

/-- On its node, by its current and by its first CPU. -/
def SteerQueue.Placed (q : SteerQueue) : Prop :=
  (q.cpu < m.nrCpus ∧ q.cpu % m.nrNodes = q.numaNode) ∧ q.origCpu < m.nrCpus ∧
    q.origCpu % m.nrNodes = q.numaNode

/-- Inside the arrays, and to an element that has been initialised. -/
def Access.Good (xs : List Access) : Access → Prop
  | .init i => i < 6
  | .use i => i < 6 ∧ .init i ∈ xs

instance (xs : List Access) : DecidablePred (Access.Good xs)
  | .init _ => inferInstanceAs (Decidable (_ < _))
  | .use _ => inferInstanceAs (Decidable (_ ∧ _))

def InBounds (xs : List Access) : Prop := ∀ x ∈ xs, x.Good xs

instance (xs : List Access) : Decidable (InBounds xs) :=
  inferInstanceAs (Decidable (∀ x ∈ xs, x.Good xs))

def slotLoad (node : ℕ) (lat : Bool) (queues : List SteerQueue) (i : ℕ) : ℕ :=
  ((queues.filter fun q => q.counted node && q.isLat m == lat && q.slot m == i).map
    fun q => q.metric.toNat).sum

def bothLoads (node : ℕ) (queues : List SteerQueue) (i : ℕ) : ℕ :=
  slotLoad m node true queues i + slotLoad m node false queues i

def nodeLoad (node : ℕ) (queues : List SteerQueue) : ℕ :=
  ((queues.filter (SteerQueue.counted node)).map fun q => q.metric.toNat).sum

/-- A slot that latency queues use already, with less load than `home` and no more than any other
such slot. -/
structure LessLoaded (node : ℕ) (queues : List SteerQueue) (home i : ℕ) : Prop where
  used : slotLoad m node true queues i ≠ 0
  less : bothLoads m node queues i < bothLoads m node queues home
  small : bothLoads m node queues i < 1000000
  least : ∀ k < m.slots, slotLoad m node true queues k ≠ 0 →
    bothLoads m node queues k < bothLoads m node queues home →
    bothLoads m node queues i ≤ bothLoads m node queues k

/-- The CPU that a call for `q` finds the queue on once it has reset the queues or not. -/
def cpuFound (call : Call) (q : SteerQueue) (s : SteerState) : ℕ :=
  if resets call q s then q.origCpu else q.cpu

/-- The accesses of a call for queue `q` are good, and it moves `q`, if it is a latency queue, to a
slot with less load than the one it is on. -/
def CallOk (call : Call) (q : SteerQueue) (s : SteerState) (cpu : ℕ) : Prop :=
  InBounds (accesses m call q s) ∧
    (q.prioClass = 1 → cpu = cpuFound call q s ∨ ∃ i < m.slots, cpu = i * m.nrNodes + q.numaNode ∧
      LessLoaded m q.numaNode (measured call q s) (cpuFound call q s / m.nrNodes) i)

/-- A new queue gets a CPU of a slot that the loops reach. A call meets at most six slots, and
loads that an `int` can hold; if it starts everything anew, a latency queue is on its first slot. -/
def SlotsFit (s : SteerState) : SteerEvent → Prop
  | .allocQueue port idx next =>
    (allocQueueCpu m port idx (nextCpu idx next (s.ports port))).slot m < m.slots
  | .dataReady j call =>
    m.slots ≤ 6 ∧ ∀ q ∈ s.queues[j]?, nodeLoad q.numaNode (measured call q s) < 2 ^ 31 ∧
      (q.prioClass = 1 → resets call q s → q.origCpu / m.nrNodes = q.slot m)
  | _ => True

instance (s : SteerState) : (e : SteerEvent) → Decidable (SlotsFit m s e)
  | .allocQueue _ _ _ => inferInstanceAs (Decidable (_ < _))
  | .dataReady j _ => inferInstanceAs (Decidable (_ ∧ ∀ q ∈ s.queues[j]?, _))
  | .setQid _ _ => .isTrue trivial
  | .release _ => .isTrue trivial

end Spec

variable {m : Machine}

section Placement

variable {P : ℕ → ℕ → Prop}

/-- A property of CPUs and nodes that a queue has by its current and by its first CPU. -/
def SteerQueue.Both (P : ℕ → ℕ → Prop) (q : SteerQueue) : Prop :=
  P q.cpu q.numaNode ∧ P q.origCpu q.numaNode

theorem reset_both {q : SteerQueue} (h : q.Both P) : q.reset.Both P := by
  unfold SteerQueue.reset
  split_ifs
  · exact ⟨h.2, h.2⟩
  · exact h

theorem measure_both {node : ℕ} {sample : Int32} {q : SteerQueue} (h : q.Both P) :
    (q.measure node sample).Both P := by
  unfold SteerQueue.measure
  split_ifs
  · exact h
  · exact h

theorem measured_both {call : Call} {q : SteerQueue} {s : SteerState}
    (h : ∀ q ∈ s.queues, q.Both P) :
    ∀ q' ∈ measured call q s, q'.Both P := by
  intro q' hq'
  obtain ⟨i, hi, rfl⟩ := List.mem_mapIdx.1 hq'
  refine measure_both ?_
  split_ifs
  · rw [List.getElem_map]
    exact reset_both (h _ (List.getElem_mem _))
  · exact h _ (List.getElem_mem _)

theorem forall_mem_modify {α : Type*} {R : α → Prop} {f : α → α} (hf : ∀ a, R a → R (f a))
    {l : List α} (h : ∀ a ∈ l, R a) (j : ℕ) : ∀ a ∈ l.modify j f, R a := by
  intro a ha
  obtain ⟨i, hi, rfl⟩ := List.mem_iff_getElem.1 ha
  rw [List.getElem_modify]
  split_ifs
  · exact hf _ (h _ (List.getElem_mem _))
  · exact h _ (List.getElem_mem _)

theorem latTurn_target (a : Slots) (home : ℕ) (c : Choice) (i : ℕ) :
    latTurn a home c i = c ∨ (latTurn a home c i).target = some i := by
  unfold latTurn
  split_ifs
  · exact .inr rfl
  · exact .inl rfl

theorem thruTurn_target (a : Slots) (home : ℕ) (c : Choice) (i : ℕ) :
    thruTurn a home c i = c ∨ (thruTurn a home c i).target = some i := by
  unfold thruTurn
  split_ifs
  · exact .inr rfl
  · exact .inl rfl

theorem chooseSlot_lt {lat : Bool} {a : Slots} {home i : ℕ} (h : chooseSlot m lat a home = some i) :
    i < m.slots := by
  have hturn : ∀ (c : Choice) k, (if lat then latTurn a home else thruTurn a home) c k = c ∨
      ((if lat then latTurn a home else thruTurn a home) c k).target = some k := by
    intro c k
    cases lat
    · exact thruTurn_target a home c k
    · exact latTurn_target a home c k
  have hmem : ∀ i, chooseSlot m lat a home = some i → i ∈ List.range m.slots := by
    refine foldl_past (I := fun past (c : Choice) => ∀ i, c.target = some i → i ∈ past)
      (by simp) ?_ _
    intro past k c hc i hi
    rw [List.mem_append]
    rcases hturn c k with heq | heq
    · rw [heq] at hi
      exact .inl (hc i hi)
    · rw [heq] at hi
      exact .inr (List.mem_singleton.2 (Option.some.inj hi).symm)
  exact List.mem_range.1 (hmem i h)

theorem steerStep_both {s s' : SteerState} {e : SteerEvent}
    (hnew : ∀ port idx next, e = .allocQueue port idx next →
      (allocQueueCpu m port idx (nextCpu idx next (s.ports port))).Both P)
    (hmove : ∀ cpu node i, P cpu node → i < m.slots → P (i * m.nrNodes + node) node)
    (h : ∀ q ∈ s.queues, q.Both P) (hstep : steerStep m s e = some s') : ∀ q ∈ s'.queues,
      q.Both P := by
  cases e with
  | allocQueue port idx next =>
    obtain rfl := Option.some.inj hstep
    exact List.forall_mem_append.2 ⟨h, List.forall_mem_singleton.2 (hnew port idx next rfl)⟩
  | setQid j qid =>
    obtain rfl := Option.some.inj hstep
    exact forall_mem_modify (R := SteerQueue.Both P) (f := fun q => { q with qid := qid })
      (fun q hq => hq) h j
  | release j =>
    obtain rfl := Option.some.inj hstep
    exact fun q hq => h q (List.mem_of_mem_eraseIdx hq)
  | dataReady j call =>
    obtain ⟨q, hq, rfl⟩ := Option.map_eq_some_iff.1 hstep
    dsimp only
    cases ht : targetSlot m call q s with
    | none => exact measured_both h
    | some i =>
      refine forall_mem_modify (fun q' hq' => ?_) (measured_both h) j
      exact ⟨hmove _ _ i hq'.1 (chooseSlot_lt ht), hq'.2⟩

theorem slot_lt_cpus {i node : ℕ} (hi : i < m.slots) (hnode : node < m.nrNodes) :
    i * m.nrNodes + node < m.nrCpus := by
  have hmul : (i + 1) * m.nrNodes ≤ m.slots * m.nrNodes := Nat.mul_le_mul_right _ hi
  have hall : m.slots * m.nrNodes ≤ m.nrCpus := Nat.div_mul_le_self _ _
  rw [Nat.add_mul, Nat.one_mul] at hmul
  omega

theorem allocQueueCpu_placed (hc : 1 ≤ m.nrCpus) (port idx : ℕ) (lastCpu : ℤ) :
    (allocQueueCpu m port idx lastCpu).Placed m := by
  have hcpu : (allocQueueCpu m port idx lastCpu).cpu < m.nrCpus := by
    simp only [allocQueueCpu]
    split_ifs <;> omega
  exact ⟨⟨hcpu, rfl⟩, hcpu, rfl⟩

/-- Every queue stays on its node, in every run. -/
theorem steered_placed (hc : 1 ≤ m.nrCpus) (hn : 1 ≤ m.nrNodes) {tr : List SteerEvent}
    {s : SteerState} (h : (steerSystem m).Run tr s) : ∀ q ∈ s.queues, q.Placed m := by
  refine Runs.System.RunIn.invariant (I := fun s => ∀ q ∈ s.queues, q.Placed m) ?_ ?_ h
  · exact fun q hq => absurd hq (List.not_mem_nil)
  · intro s e s' hs _ hstep
    refine steerStep_both (P := fun cpu node => cpu < m.nrCpus ∧ cpu % m.nrNodes = node) ?_ ?_ hs
      hstep
    · exact fun port idx next _ => allocQueueCpu_placed hc port idx _
    · rintro cpu node i ⟨-, rfl⟩ hi
      have hnode : cpu % m.nrNodes < m.nrNodes := Nat.mod_lt _ hn
      exact ⟨slot_lt_cpus hi hnode, by rw [Nat.mul_add_mod', Nat.mod_eq_of_lt hnode]⟩

end Placement

section Bounds

def Reached (m : Machine) (cpu node : ℕ) : Prop := cpu / m.nrNodes < m.slots ∧ node < m.nrNodes

theorem steered_reached (hn : 1 ≤ m.nrNodes) {tr : List SteerEvent} {s : SteerState}
    (h : (steerSystem m).RunIn (SlotsFit m) tr s) : ∀ q ∈ s.queues, q.Both (Reached m) := by
  refine h.invariant (I := fun s => ∀ q ∈ s.queues, q.Both (Reached m)) ?_ ?_
  · exact fun q hq => absurd hq (List.not_mem_nil)
  · intro s e s' hs hok hstep
    refine steerStep_both ?_ ?_ hs hstep
    · rintro port idx next rfl
      have hnode := Nat.mod_lt (allocQueueCpu m port idx (nextCpu idx next (s.ports port))).cpu hn
      exact ⟨⟨hok, hnode⟩, hok, hnode⟩
    · rintro cpu node i ⟨-, hnode⟩ hi
      refine ⟨?_, hnode⟩
      rwa [Nat.add_comm, Nat.add_mul_div_right _ _ hn, Nat.div_eq_of_lt hnode, Nat.zero_add]

theorem turnReads_sub {lat : Bool} {a : Slots} {home i k : ℕ} (h : k ∈ turnReads lat a home i) :
    k = i ∨ k = home := by
  unfold turnReads at h
  split_ifs at h <;> simp at h <;> tauto

theorem accesses_inBounds {call : Call} {q : SteerQueue} {s : SteerState} (hsix : m.slots ≤ 6)
    (hq : q.slot m < m.slots) (hall : ∀ q' ∈ measured call q s, q'.slot m < m.slots) :
    InBounds (accesses m call q s) := by
  have hinit : ∀ i, .init i ∈ accesses m call q s ↔ i < m.slots := by
    intro i
    simp [accesses]
  have huse : ∀ i, .use i ∈ accesses m call q s → i < m.slots := by
    intro i hi
    simp only [accesses, List.mem_append, List.mem_map, List.mem_flatMap, List.mem_filter,
      List.mem_range, Access.use.injEq, reduceCtorEq, and_false, exists_false, false_or] at hi
    rcases hi with ⟨q', ⟨hmem, -⟩, rfl⟩ | ⟨k, ⟨j, hj, hk⟩, rfl⟩
    · exact hall q' hmem
    · rcases turnReads_sub hk with rfl | rfl
      · exact hj
      · exact hq
  intro x hx
  cases x with
  | init i => exact ((hinit i).1 hx).trans_le hsix
  | use i => exact ⟨(huse i hx).trans_le hsix, (hinit i).2 (huse i hx)⟩

end Bounds

section Loads

variable {node : ℕ}

theorem slotLoad_concat (lat : Bool) (past : List SteerQueue) (q : SteerQueue) (i : ℕ) :
    slotLoad m node lat (past ++ [q]) i = slotLoad m node lat past i +
      if q.counted node && q.isLat m == lat && q.slot m == i then q.metric.toNat else 0 := by
  unfold slotLoad
  rw [List.filter_append, List.map_append, List.sum_append]
  split_ifs with h <;> simp [h]

theorem nodeLoad_concat (past : List SteerQueue) (q : SteerQueue) :
    nodeLoad node (past ++ [q]) = nodeLoad node past +
      if q.counted node then q.metric.toNat else 0 := by
  unfold nodeLoad
  rw [List.filter_append, List.map_append, List.sum_append]
  split_ifs with h <;> simp [h]

theorem bothLoads_le (queues : List SteerQueue) (i : ℕ) :
    bothLoads m node queues i ≤ nodeLoad node queues := by
  induction queues using List.reverseRecOn with
  | nil => exact le_rfl
  | append_singleton past q ih =>
    unfold bothLoads at ih ⊢
    rw [slotLoad_concat, slotLoad_concat, nodeLoad_concat]
    -- a queue is of one class only
    cases q.counted node <;> cases q.isLat m <;> cases q.slot m == i <;> simp <;> omega

theorem addMetrics_eq (call : Call) (queues : List SteerQueue) {i : ℕ} (hi : i < m.slots) :
    (addMetrics m call node queues).lat i = Int32.ofNat (slotLoad m node true queues i) ∧
      (addMetrics m call node queues).thru i = Int32.ofNat (slotLoad m node false queues i) := by
  refine foldl_past (I := fun past (a : Slots) => a.lat i =
    Int32.ofNat (slotLoad m node true past i) ∧
    a.thru i = Int32.ofNat (slotLoad m node false past i)) ?_ ?_ queues
  · simp [clearSlots, hi, slotLoad]
  · rintro past q a ⟨hlat, hthru⟩
    have hadd : ∀ n, Int32.ofNat n + q.metric.toInt32 = Int32.ofNat (n + q.metric.toNat) := by
      intro n
      rw [Int32.ofNat_add]
      congr 1
      exact (UInt32.toInt32_ofNatLT q.metric.toNat_lt)
    rw [slotLoad_concat, slotLoad_concat, addMetric]
    by_cases hcount : q.counted node <;> by_cases hclass : q.isLat m <;> by_cases hslot :
      q.slot m = i <;>
      simp [hcount, hclass, hslot, Function.update, hlat, hthru, hadd, Ne.symm]

theorem addMetrics_both (call : Call) (queues : List SteerQueue) {i : ℕ} (hi : i < m.slots) :
    (addMetrics m call node queues).lat i + (addMetrics m call node queues).thru i =
      Int32.ofNat (bothLoads m node queues i) := by
  rw [(addMetrics_eq call queues hi).1, (addMetrics_eq call queues hi).2, bothLoads,
    Int32.ofNat_add]

end Loads

section Search

variable {node : ℕ} {queues : List SteerQueue} {home : ℕ}

/-- A slot that the search of a latency queue takes if nothing better is known. -/
def LatFits (m : Machine) (node : ℕ) (queues : List SteerQueue) (home i : ℕ) : Prop :=
  slotLoad m node true queues i ≠ 0 ∧ slotLoad m node false queues home ≠ 0 ∧
    bothLoads m node queues i < bothLoads m node queues home

instance (m : Machine) (node : ℕ) (queues : List SteerQueue) (home : ℕ) :
    DecidablePred (LatFits m node queues home) := fun i => by
  unfold LatFits
  infer_instance

theorem latTurn_eq (call : Call) (hload : nodeLoad node queues < 2 ^ 31) (hhome : home < m.slots)
    {c : Choice} {least : ℕ} (hc : c.minMetric = Int32.ofNat least) (hleast : least < 2 ^ 31)
    {i : ℕ} (hi : i < m.slots) :
    latTurn (addMetrics m call node queues) home c i =
      if LatFits m node queues home i ∧ bothLoads m node queues i < least then
        ⟨some i, Int32.ofNat (bothLoads m node queues i)⟩
      else c := by
  have hboth : ∀ k, bothLoads m node queues k < 2 ^ 31 :=
    fun k => (bothLoads_le queues k).trans_lt hload
  have hzero : ∀ lat k, Int32.ofNat (slotLoad m node lat queues k) ≠ 0 ↔
      slotLoad m node lat queues k ≠ 0 := by
    intro lat k
    have hlt : slotLoad m node lat queues k < 2 ^ 31 := by
      have := hboth k
      unfold bothLoads at this
      cases lat <;> omega
    rw [Ne, ← Int32.toInt_inj, Int32.toInt_ofNat_of_lt hlt]
    simp
  unfold latTurn
  rw [addMetrics_both call queues hi, addMetrics_both call queues hhome,
    (addMetrics_eq call queues hi).1,
    (addMetrics_eq call queues hhome).2, hc]
  refine if_congr ?_ rfl rfl
  rw [hzero, hzero, Int32.ofNat_lt_iff_lt (hboth i) (hboth home),
    Int32.ofNat_lt_iff_lt (hboth i) hleast]
  unfold LatFits
  constructor
  · rintro ⟨-, hlat, hthru, hless, hbelow⟩
    exact ⟨⟨hlat, hthru, hless⟩, hbelow⟩
  · rintro ⟨⟨hlat, hthru, hless⟩, hbelow⟩
    exact ⟨fun heq => absurd (heq ▸ hless) (lt_irrefl _), hlat, hthru, hless, hbelow⟩

theorem latTurns_scan (call : Call) (hload : nodeLoad node queues < 2 ^ 31) (hhome : home < m.slots)
    (l : List ℕ) (hl : ∀ i ∈ l, i < m.slots) (c : Choice) (least : ℕ)
    (hc : c.minMetric = Int32.ofNat least) (hleast : least < 2 ^ 31) :
    (l.foldl (latTurn (addMetrics m call node queues) home) c).target =
      scanLeast (LatFits m node queues home) (bothLoads m node queues) l c.target least := by
  induction l generalizing c least with
  | nil => rfl
  | cons i l ih =>
    obtain ⟨hi, hl⟩ := List.forall_mem_cons.1 hl
    rw [List.foldl_cons, latTurn_eq call hload hhome hc hleast hi, scanLeast]
    split_ifs with htake
    · exact ih hl _ _ rfl (htake.2.trans hleast)
    · exact ih hl c least hc hleast

/-- What the search of a latency queue finds. -/
theorem chooseSlot_lessLoaded {call : Call} (hload : nodeLoad node queues < 2 ^ 31)
    (hhome : home < m.slots) {i : ℕ}
    (h : chooseSlot m true (addMetrics m call node queues) home = some i) :
    LessLoaded m node queues home i := by
  have hscan := latTurns_scan call hload hhome (List.range m.slots) (fun k => List.mem_range.1)
    ⟨none, 1000000⟩ 1000000 rfl (by norm_num)
  rw [chooseSlot, if_pos rfl, hscan] at h
  rcases @scanLeast_split ℕ (LatFits m node queues home) _ (bothLoads m node queues)
    (List.range m.slots) none
      1000000 with ⟨hnone, -⟩ | ⟨pre, k, post, hsplit, hsome, hfits, hbelow, hpre, hpost⟩
  · rw [hnone] at h
    exact absurd h (by simp)
  · obtain rfl : k = i := Option.some.inj (hsome.symm.trans h)
    refine ⟨hfits.1, hfits.2.2, hbelow, fun j hj hlat hless => ?_⟩
    have hmem : j ∈ pre ++ k :: post := hsplit ▸ List.mem_range.2 hj
    have hj : LatFits m node queues home j := ⟨hlat, hfits.2.1, hless⟩
    rcases List.mem_append.1 hmem with hmem | hmem
    · exact (hpre j hmem hj).le
    · rcases List.mem_cons.1 hmem with rfl | hmem
      · exact le_rfl
      · exact hpost j hmem hj

end Search

section Call

variable {call : Call} {q : SteerQueue} {s : SteerState} {j : ℕ}

theorem measure_cpu (node : ℕ) (sample : Int32) (q : SteerQueue) :
    (q.measure node sample).cpu = q.cpu := by
  unfold SteerQueue.measure
  split_ifs <;> rfl

theorem measure_numaNode (node : ℕ) (sample : Int32) (q : SteerQueue) :
    (q.measure node sample).numaNode = q.numaNode := by
  unfold SteerQueue.measure
  split_ifs <;> rfl

theorem measured_self (hq : s.queues[j]? = some q) :
    ∃ x, (measured call q s)[j]? = some x ∧ x.cpu = cpuFound call q s ∧
      x.numaNode = q.numaNode := by
  refine ⟨(if resets call q s then q.reset else q).measure q.numaNode (call.rmem j), ?_, ?_⟩
  · unfold measured
    split_ifs <;> simp [hq]
  · rw [measure_cpu, measure_numaNode, cpuFound]
    split_ifs with hreset
    · rw [SteerQueue.reset, if_pos hreset.1]
      exact ⟨rfl, rfl⟩
    · exact ⟨rfl, rfl⟩

theorem nvmetTcpDataReady_cpu {s' : SteerState} {q' : SteerQueue} (hq : s.queues[j]? = some q)
    (hstep : nvmetTcpDataReady m call j s = some s') (hq' : s'.queues[j]? = some q') :
    q'.cpu = cpuFound call q s ∨ ∃ i, targetSlot m call q s = some i ∧
      q'.cpu = i * m.nrNodes + q.numaNode := by
  obtain ⟨x, hx, hcpu, hnode⟩ := @measured_self call q s j hq
  rw [nvmetTcpDataReady, hq, Option.map_some, Option.some_inj] at hstep
  subst hstep
  dsimp only at hq'
  cases ht : targetSlot m call q s with
  | none =>
    rw [ht] at hq'
    obtain rfl : x = q' := Option.some.inj (hx.symm.trans hq')
    exact .inl hcpu
  | some i =>
    rw [ht] at hq'
    simp only [List.getElem?_modify_eq, hx, Option.map_eq_map, Option.map_some,
      Option.some_inj] at hq'
    subst hq'
    exact .inr ⟨i, rfl, by rw [hnode]⟩

theorem callOk_dataReady {s' : SteerState} {q' : SteerQueue} (hsix : m.slots ≤ 6)
    (hload : nodeLoad q.numaNode (measured call q s) < 2 ^ 31)
    (hstays : q.prioClass = 1 → resets call q s → q.origCpu / m.nrNodes = q.slot m)
    (hall : ∀ q ∈ s.queues, q.Both (Reached m)) (hq : s.queues[j]? = some q)
    (hstep : nvmetTcpDataReady m call j s = some s') (hq' : s'.queues[j]? = some q') :
    CallOk m call q s q'.cpu := by
  have hhome : q.slot m < m.slots := (hall q (List.mem_of_getElem? hq)).1.1
  refine ⟨accesses_inBounds hsix hhome fun q' hq' => (measured_both hall q' hq').1.1,
    fun hprio => ?_⟩
  refine (nvmetTcpDataReady_cpu hq hstep hq').imp_right ?_
  rintro ⟨i, hi, hcpu⟩
  -- `local` is taken before the reset
  have hlocal : cpuFound call q s / m.nrNodes = q.slot m := by
    unfold cpuFound
    split_ifs with hreset
    · exact hstays hprio hreset
    · rfl
  refine ⟨i, chooseSlot_lt hi, hcpu, ?_⟩
  rw [targetSlot, hprio] at hi
  rw [hlocal]
  exact chooseSlot_lessLoaded hload hhome hi

end Call

/-- Queues stay on their nodes in every run. In a run whose steps all fit the slots, a call that
fits them uses its arrays well and chooses well. -/
theorem target_steering_ok (m : Machine) (hc : 1 ≤ m.nrCpus) (hn : 1 ≤ m.nrNodes) :
    (∀ tr s, (steerSystem m).Run tr s → ∀ q ∈ s.queues, q.Placed m) ∧
      ∀ tr s j call s' q q', (steerSystem m).RunIn (SlotsFit m) tr s →
      SlotsFit m s (.dataReady j call) →
        steerStep m s (.dataReady j call) = some s' → s.queues[j]? = some q →
          s'.queues[j]? = some q' →
          CallOk m call q s q'.cpu := by
  refine ⟨fun tr s h => steered_placed hc hn h, ?_⟩
  intro tr s j call s' q q' h hok hstep hq hq'
  exact callOk_dataReady hok.1 (hok.2 q hq).1 (hok.2 q hq).2 (steered_reached hn h) hq hstep hq'

section Samples

/-- Queues come in with what `cpumask_next_wrap` finds for each, and all but the first become I/O
queues. -/
def connects (next : List ℤ) : List SteerEvent :=
  next.mapIdx (fun idx cpu => .allocQueue 0 idx cpu) ++ (List.range next.length).map fun idx =>
    .setQid idx idx

def sampleCall (jiffies : ℕ) (rmem : List Int32) : Call :=
  ⟨jiffies, fun i => rmem.getD i 0, fun _ => 0, fun _ => 0⟩

/-- Four CPUs on one node: queues 1 to 4 for throughput on CPUs 0 to 3, queues 5 to 8 for latency on
CPUs 1, 2, 3 and 0. -/
def fourCpus : List SteerEvent := connects [0, 0, 1, 2, 3, 0, 1, 2, 3]

/-- Queue 6 shares CPU 2 with much throughput traffic. -/
def busyCall : Call := sampleCall 1000 [0, 0, 0, 1000, 0, 20, 100, 0, 50]

theorem target_steering_ok_busy : ∃ s s' q q',
    (steerSystem ⟨4, 1, 250⟩).RunIn (SlotsFit ⟨4, 1, 250⟩) fourCpus s ∧
      steerStep ⟨4, 1, 250⟩ s (.dataReady 6 busyCall) = some s' ∧ s.queues[6]? = some q ∧
      s'.queues[6]? = some q' ∧ q.prioClass = 1 ∧ q.cpu = 2 ∧ q'.cpu = 1 ∧
      CallOk ⟨4, 1, 250⟩ busyCall q s 1 := by
  have hrun : ∃ s, (steerSystem ⟨4, 1, 250⟩).RunIn (SlotsFit ⟨4, 1, 250⟩) fourCpus s ∧
      SlotsFit ⟨4, 1, 250⟩ s (.dataReady 6 busyCall) ∧
        ∃ s' ∈ steerStep ⟨4, 1, 250⟩ s (.dataReady 6 busyCall), ∃ q ∈ s.queues[6]?,
        ∃ q' ∈ s'.queues[6]?,
          q.prioClass = 1 ∧ q.cpu = 2 ∧ q'.cpu = 1 := by
    exact @Runs.System.exists_runIn_of_execIn _ _ (steerSystem ⟨4, 1, 250⟩) (SlotsFit ⟨4, 1, 250⟩) _
        (fun s =>
      SlotsFit ⟨4, 1, 250⟩ s (.dataReady 6 busyCall) ∧
        ∃ s' ∈ steerStep ⟨4, 1, 250⟩ s (.dataReady 6 busyCall), ∃ q ∈ s.queues[6]?,
        ∃ q' ∈ s'.queues[6]?,
          q.prioClass = 1 ∧ q.cpu = 2 ∧ q'.cpu = 1) _ fourCpus (by decide +kernel)
  obtain ⟨s, hs, hok, s', hs', q, hq, q', hq', hprio, hcpu, hcpu'⟩ := hrun
  have hcall := (target_steering_ok ⟨4, 1, 250⟩ (by decide) (by decide)).2 _ s 6 busyCall s' q q' hs
    hok hs' hq hq'
  exact ⟨s, s', q, q', hs, hs', hq, hq', hprio, hcpu, hcpu', hcpu' ▸ hcall⟩

/-- After a pause queue 6 is back on CPU 2, and CPU 1, where it was, has much throughput traffic. -/
def pauseCall : Call := sampleCall 2000 [0, 0, 5000, 0, 0, 20, 100, 0, 100]

/-- Eight CPUs on one node run over the arrays. Five CPUs on two nodes have a CPU in a slot that is
not initialised. After a reset a latency queue goes to a slot with the load of its own. -/
theorem steering_strays :
    (∃ s, (steerSystem ⟨8, 1, 250⟩).Run (connects [0]) s ∧ ∃ q ∈ s.queues[0]?,
      ¬ InBounds (accesses ⟨8, 1, 250⟩ (sampleCall 1000 []) q s)) ∧
    (∃ s, (steerSystem ⟨5, 2, 250⟩).Run (connects [0, 0, 1, 2, 3, 4]) s ∧ ∃ q ∈ s.queues[5]?,
      ¬ InBounds (accesses ⟨5, 2, 250⟩ (sampleCall 1000 []) q s)) ∧
    ∃ s, (steerSystem ⟨4, 1, 250⟩).Run (fourCpus ++ [.dataReady 6 busyCall]) s ∧
      ∃ s' ∈ steerStep ⟨4, 1, 250⟩ s (.dataReady 6 pauseCall), ∃ q ∈ s.queues[6]?,
      ∃ q' ∈ s'.queues[6]?,
        q.prioClass = 1 ∧ cpuFound pauseCall q s = 2 ∧ q'.cpu = 0 ∧
          bothLoads ⟨4, 1, 250⟩ 0 (measured pauseCall q s) 0 = bothLoads ⟨4, 1, 250⟩ 0
          (measured pauseCall q s) 2 := by
  refine ⟨?_, ?_, ?_⟩
  · exact Runs.System.exists_runIn_of_execIn (fun s : SteerState => ∃ q ∈ s.queues[0]?,
      ¬ InBounds (accesses ⟨8, 1, 250⟩ (sampleCall 1000 []) q s)) (by decide +kernel)
  · exact Runs.System.exists_runIn_of_execIn (fun s : SteerState => ∃ q ∈ s.queues[5]?,
      ¬ InBounds (accesses ⟨5, 2, 250⟩ (sampleCall 1000 []) q s)) (by decide +kernel)
  · exact @Runs.System.exists_runIn_of_execIn _ _ (steerSystem ⟨4, 1, 250⟩) (fun _ _ => True) _
        (fun s =>
      ∃ s' ∈ steerStep ⟨4, 1, 250⟩ s (.dataReady 6 pauseCall), ∃ q ∈ s.queues[6]?,
        ∃ q' ∈ s'.queues[6]?, q.prioClass = 1 ∧ cpuFound pauseCall q s = 2 ∧ q'.cpu = 0 ∧
          bothLoads ⟨4, 1, 250⟩ 0 (measured pauseCall q s) 0 = bothLoads ⟨4, 1, 250⟩ 0
          (measured pauseCall q s) 2)
      _ (fourCpus ++ [.dataReady 6 busyCall]) (by decide +kernel)

end Samples

end BlkSwitch.Target
