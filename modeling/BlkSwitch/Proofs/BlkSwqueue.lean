import BlkSwitch.Lib.Loops
import BlkSwitch.Spec.BlkSwqueue

/-! Whether the hardware queue of a request finds the software queue it is on. The tables that
`blk_mq_map_swqueue` builds are read off its loops first: a hardware queue has the CPUs that some
map sends to it, in their order, and its type is the one by which the last of them came. All is well
where every CPU comes to a hardware queue by the same type. -/

namespace BlkSwitch.Blk

open Loops

section Spec

/-- The software queue of `cpu` stands at the place of hardware queue `hctx` that its bit names. -/
def Finds (q : SwQueues) (hctx cpu : ℕ) : Prop :=
  (q.hctx hctx).ctxs[(q.ctx cpu).indexHw (q.hctx hctx).type]? = some cpu

instance (q : SwQueues) (hctx cpu : ℕ) : Decidable (Finds q hctx cpu) :=
  inferInstanceAs (Decidable (_ = _))

/-- A request put on a software queue for `hctx` is found there, by the flush and by the dispatch of
its bit. -/
def Found (q : SwQueues) (hctx cpu : ℕ) : Prop :=
  ∀ (s : SwLists) (rq : ℕ),
    rq ∈ (blkMqFlushBusyCtxs q hctx (blkMqInsertRequest q hctx cpu rq s)).1 ∧
      (dispatchRqFromCtx q hctx ((q.ctx cpu).indexHw (q.hctx hctx).type)
        (blkMqInsertRequest q hctx cpu rq s)).isSome

end Spec

section Lists

variable {q : SwQueues} {hctx cpu rq : ℕ} {s : SwLists}

theorem insert_rqLists :
    rq ∈ (blkMqInsertRequest q hctx cpu rq s).rqLists cpu (q.hctx hctx).type := by
  simp [blkMqInsertRequest]

theorem insert_ctxMap :
    (q.ctx cpu).indexHw (q.hctx hctx).type ∈ (blkMqInsertRequest q hctx cpu rq s).ctxMap hctx := by
  simp only [blkMqInsertRequest]
  split_ifs with h
  · exact h
  · simp

theorem flushBits_keeps {r : List ℕ × SwLists} {bit : ℕ}
    (h : rq ∈ r.1 ∨ rq ∈ r.2.rqLists cpu (q.hctx hctx).type) :
    rq ∈ (flushBits q hctx r bit).1 ∨
      rq ∈ (flushBits q hctx r bit).2.rqLists cpu (q.hctx hctx).type := by
  unfold flushBits flushBusyCtx
  cases hc : (q.hctx hctx).ctxs[bit]? with
  | none => simpa using h
  | some cpu' =>
    rcases h with h | h
    · exact .inl (List.mem_append_left _ h)
    · by_cases hcpu : cpu = cpu'
      · subst hcpu
        exact .inl (List.mem_append_right _ h)
      · exact .inr (by simpa [hcpu] using h)

theorem flushBits_takes (hfind : Finds q hctx cpu) {r : List ℕ × SwLists}
    (h : rq ∈ r.1 ∨ rq ∈ r.2.rqLists cpu (q.hctx hctx).type) :
    rq ∈ (flushBits q hctx r ((q.ctx cpu).indexHw (q.hctx hctx).type)).1 := by
  unfold flushBits flushBusyCtx
  rw [hfind]
  rcases h with h | h
  · exact List.mem_append_left _ h
  · exact List.mem_append_right _ h

theorem flushBits_mem {bits : List ℕ} {r : List ℕ × SwLists} (h : rq ∈ r.1) :
    rq ∈ (bits.foldl (flushBits q hctx) r).1 := by
  induction bits generalizing r with
  | nil => exact h
  | cons bit bits ih => exact ih (List.mem_append_left _ h)

/-- The flush comes by the bit sooner or later. -/
theorem flush_finds (hfind : Finds q hctx cpu) {bits : List ℕ}
    (hbit : (q.ctx cpu).indexHw (q.hctx hctx).type ∈ bits) {r : List ℕ × SwLists}
    (h : rq ∈ r.1 ∨ rq ∈ r.2.rqLists cpu (q.hctx hctx).type) :
    rq ∈ (bits.foldl (flushBits q hctx) r).1 := by
  induction bits generalizing r with
  | nil => exact absurd hbit List.not_mem_nil
  | cons bit bits ih =>
    rw [List.foldl_cons]
    rcases List.mem_cons.1 hbit with rfl | hbit
    · exact flushBits_mem (flushBits_takes hfind h)
    · exact ih hbit (flushBits_keeps h)

def idleLists : SwLists := ⟨fun _ _ => [], fun _ => []⟩

theorem found_iff : Found q hctx cpu ↔ Finds q hctx cpu := by
  constructor
  · intro h
    -- on idle queues the dispatch can only take what was just put in
    have hsome := (h idleLists 0).2
    unfold dispatchRqFromCtx at hsome
    unfold Finds
    cases hc : (q.hctx hctx).ctxs[(q.ctx cpu).indexHw (q.hctx hctx).type]? with
    | none => simp [hc] at hsome
    | some cpu' =>
      by_contra hne
      have hcpu : cpu' ≠ cpu := fun heq => hne (by rw [heq])
      simp [hc, blkMqInsertRequest, idleLists, hcpu] at hsome
  · intro h s rq
    refine ⟨flush_finds h insert_ctxMap (.inr insert_rqLists), ?_⟩
    unfold dispatchRqFromCtx
    rw [h, Option.bind_some, List.isSome_head?]
    exact List.ne_nil_of_mem insert_rqLists

end Lists

section Tables

variable {set : QueueMaps}

/-- The type by which a CPU comes to a hardware queue, among some of the types. -/
def firstIn (set : QueueMaps) (cpu : ℕ) (types : List HctxType) (h : ℕ) : Option HctxType :=
  types.find? fun t => set.nrQueues t != 0 && set.mqMap t cpu == h

def firstType (set : QueueMaps) (cpu h : ℕ) : Option HctxType :=
  firstIn set cpu (HctxType.all.take set.nrMaps) h

def hctxOf (set : QueueMaps) (cpu : ℕ) (t : HctxType) : ℕ :=
  if t ∈ HctxType.all.take set.nrMaps ∧ set.nrQueues t ≠ 0 then set.mqMap t cpu
  else set.mqMap .default cpu

theorem firstIn_concat (cpu : ℕ) (past : List HctxType) (t : HctxType) (h : ℕ) :
    firstIn set cpu (past ++ [t]) h = (firstIn set cpu past h).or
      (if set.nrQueues t ≠ 0 ∧ set.mqMap t cpu = h then some t else none) := by
  unfold firstIn
  rw [List.find?_append]
  congr 1
  by_cases hn : set.nrQueues t = 0
  · simp [hn]
  · by_cases hm : set.mqMap t cpu = h
    · simp [hn, hm]
    · simp [hn, hm]

def joined (cpu : ℕ) (h : SwHctx) : Option HctxType → SwHctx
  | none => h
  | some t => ⟨cpu :: h.cpumask, t, h.ctxs ++ [cpu]⟩

/-- What the maps of the types `past` have done for a CPU. -/
structure CpuMapped (set : QueueMaps) (cpu : ℕ) (s : SwQueues) (past : List HctxType)
    (s' : SwQueues) : Prop where
  hctx : ∀ h, s'.hctx h = joined cpu (s.hctx h) (firstIn set cpu past h)
  index : ∀ t, (s'.ctx cpu).indexHw t =
    if firstIn set cpu past (set.mqMap t cpu) = some t then (s.hctx (set.mqMap t cpu)).ctxs.length
    else (s.ctx cpu).indexHw t
  hctxs : ∀ t ∈ past, (s'.ctx cpu).hctxs t =
    if set.nrQueues t ≠ 0 then set.mqMap t cpu else set.mqMap .default cpu
  other : ∀ j, j ≠ cpu → s'.ctx j = s.ctx j

theorem CpuMapped.assign {cpu : ℕ} {s s' : SwQueues} {past : List HctxType}
    (h : CpuMapped set cpu s past s') (t : HctxType) (x : ℕ)
    (hx : x = if set.nrQueues t ≠ 0 then set.mqMap t cpu else set.mqMap .default cpu)
    (hfirst : ∀ y, firstIn set cpu (past ++ [t]) y = firstIn set cpu past y) :
    CpuMapped set cpu s (past ++ [t]) (setHctx cpu s' t x) where
  hctx := by
    intro y
    rw [hfirst]
    exact h.hctx y
  index := by
    intro t'
    rw [hfirst, ← h.index]
    simp [setHctx]
  hctxs := by
    intro t' ht'
    by_cases heq : t' = t
    · subst heq
      simpa [setHctx] using hx
    · rw [List.mem_append, List.mem_singleton, or_iff_left heq] at ht'
      simpa [setHctx, heq] using h.hctxs t' ht'
  other := by
    intro j hj
    simpa [setHctx, hj] using h.other j hj

theorem firstIn_concat_other {cpu : ℕ} {past : List HctxType} {t t' : HctxType} (hne : t' ≠ t)
    (h : ℕ) :
    firstIn set cpu (past ++ [t]) h = some t' ↔ firstIn set cpu past h = some t' := by
  rw [firstIn_concat]
  cases firstIn set cpu past h with
  | some t0 => simp
  | none =>
    split_ifs
    · simp [hne.symm]
    · simp

theorem CpuMapped.join {cpu : ℕ} {s s' : SwQueues} {past : List HctxType}
    (h : CpuMapped set cpu s past s') {t : HctxType} (hn : set.nrQueues t ≠ 0)
    (hfirst : firstIn set cpu past (set.mqMap t cpu) = none) :
    CpuMapped set cpu s (past ++ [t])
      (attach cpu (setHctx cpu s' t (set.mqMap t cpu)) t (set.mqMap t cpu)) where
  hctx := by
    intro y
    rw [firstIn_concat]
    by_cases hy : set.mqMap t cpu = y
    · subst hy
      have hold := h.hctx (set.mqMap t cpu)
      rw [hfirst] at hold
      simp [attach, setHctx, hold, hfirst, hn, joined]
    · simp [attach, setHctx, hy, Ne.symm hy, h.hctx y]
  index := by
    intro t'
    by_cases ht : t' = t
    · subst ht
      have hold := h.hctx (set.mqMap t' cpu)
      rw [hfirst] at hold
      rw [firstIn_concat, hfirst]
      simp [attach, setHctx, hold, hn, joined]
    · simp only [firstIn_concat_other ht, ← h.index]
      simp [attach, setHctx, ht]
  hctxs := by
    intro t' ht'
    by_cases heq : t' = t
    · subst heq
      simp [attach, setHctx, hn]
    · rw [List.mem_append, List.mem_singleton, or_iff_left heq] at ht'
      simpa [attach, setHctx, heq] using h.hctxs t' ht'
  other := by
    intro j hj
    simpa [attach, setHctx, hj] using h.other j hj

theorem CpuMapped.turn {cpu : ℕ} {s s' : SwQueues} {past : List HctxType}
    (h : CpuMapped set cpu s past s') (hnew : ∀ y, cpu ∉ (s.hctx y).cpumask) (t : HctxType) :
    CpuMapped set cpu s (past ++ [t]) (mapType set cpu s' t) := by
  unfold mapType
  by_cases hn : set.nrQueues t = 0
  · rw [if_pos hn]
    refine h.assign t _ (by simp [hn]) fun y => ?_
    rw [firstIn_concat, if_neg fun hc => hc.1 hn, Option.or_none]
  · rw [if_neg hn]
    dsimp only
    have hmask : cpu ∈ ((setHctx cpu s' t (set.mqMap t cpu)).hctx (set.mqMap t cpu)).cpumask ↔
        firstIn set cpu past (set.mqMap t cpu) ≠ none := by
      change cpu ∈ (s'.hctx (set.mqMap t cpu)).cpumask ↔ _
      rw [h.hctx]
      cases firstIn set cpu past (set.mqMap t cpu) with
      | none => simpa [joined] using hnew _
      | some t0 => simp [joined]
    by_cases hfirst : firstIn set cpu past (set.mqMap t cpu) = none
    · rw [if_neg fun hin => hmask.1 hin hfirst]
      exact h.join hn hfirst
    · rw [if_pos (hmask.2 hfirst)]
      refine h.assign t _ (by simp [hn]) fun y => ?_
      obtain ⟨t0, ht0⟩ := Option.ne_none_iff_exists'.1 hfirst
      rw [firstIn_concat]
      split_ifs with hy
      · rw [← hy.2, ht0, Option.some_or]
      · rw [Option.or_none]

theorem mapRest_rest (set : QueueMaps) (cpu : ℕ) (s : SwQueues) (types : List HctxType) :
    (types.foldl (mapRest set cpu) s).hctx = s.hctx ∧
    (∀ t, ((types.foldl (mapRest set cpu) s).ctx cpu).indexHw t = (s.ctx cpu).indexHw t) ∧
    (∀ t, ((types.foldl (mapRest set cpu) s).ctx cpu).hctxs t =
      if t ∈ types then set.mqMap .default cpu else (s.ctx cpu).hctxs t) ∧
    ∀ j, j ≠ cpu → (types.foldl (mapRest set cpu) s).ctx j = s.ctx j := by
  refine foldl_past (I := fun past (s' : SwQueues) => s'.hctx = s.hctx ∧
    (∀ t, (s'.ctx cpu).indexHw t = (s.ctx cpu).indexHw t) ∧
    (∀ t, (s'.ctx cpu).hctxs t = if t ∈ past then set.mqMap .default cpu else (s.ctx cpu).hctxs t) ∧
    ∀ j, j ≠ cpu → s'.ctx j = s.ctx j) ?_ ?_ types
  · exact ⟨rfl, fun _ => rfl, fun _ => by simp, fun _ _ => rfl⟩
  · rintro past t s' ⟨hhctx, hindex, hhctxs, hother⟩
    refine ⟨hhctx, fun t' => ?_, fun t' => ?_, fun j hj => ?_⟩
    · simpa [mapRest, setHctx] using hindex t'
    · by_cases heq : t' = t
      · subst heq
        simp [mapRest, setHctx]
      · simpa [mapRest, setHctx, heq] using hhctxs t'
    · simpa [mapRest, setHctx, hj] using hother j hj

theorem mapCpu_mapped {cpu : ℕ} {s : SwQueues} (hnew : ∀ y, cpu ∉ (s.hctx y).cpumask) :
    (∀ h, (mapCpu set cpu s).hctx h = joined cpu (s.hctx h) (firstType set cpu h)) ∧
    (∀ t, ((mapCpu set cpu s).ctx cpu).indexHw t =
      if firstType set cpu (set.mqMap t cpu) = some t then (s.hctx (set.mqMap t cpu)).ctxs.length
      else (s.ctx cpu).indexHw t) ∧
    (∀ t, ((mapCpu set cpu s).ctx cpu).hctxs t = hctxOf set cpu t) ∧
    ∀ j, j ≠ cpu → (mapCpu set cpu s).ctx j = s.ctx j := by
  have hmaps : CpuMapped set cpu s (HctxType.all.take set.nrMaps)
      ((HctxType.all.take set.nrMaps).foldl (mapType set cpu) s) := by
    refine foldl_past (I := fun past s' => CpuMapped set cpu s past s') ?_ ?_ _
    · exact ⟨fun _ => rfl,
        fun _ => by simp [firstIn], fun _ ht => absurd ht List.not_mem_nil, fun _ _ => rfl⟩
    · exact fun past t s' h => h.turn hnew t
  unfold mapCpu
  generalize (HctxType.all.take set.nrMaps).foldl (mapType set cpu) s = s1 at hmaps ⊢
  obtain ⟨hhctx, hindex, hhctxs, hother⟩ := mapRest_rest set cpu s1 (HctxType.all.drop set.nrMaps)
  refine ⟨fun h => ?_, fun t => ?_, fun t => ?_, fun j hj => ?_⟩
  · rw [hhctx]
    exact hmaps.hctx h
  · rw [hindex]
    exact hmaps.index t
  · rw [hhctxs, hctxOf]
    have hnodup : (HctxType.all.take set.nrMaps ++ HctxType.all.drop set.nrMaps).Nodup := by
      rw [List.take_append_drop]
      decide
    by_cases htake : t ∈ HctxType.all.take set.nrMaps
    · rw [if_neg fun hdrop => (List.nodup_append.1 hnodup).2.2 t htake t hdrop rfl,
        hmaps.hctxs t htake]
      simp [htake]
    · have hall : t ∈ HctxType.all.take set.nrMaps ++ HctxType.all.drop set.nrMaps := by
        rw [List.take_append_drop]
        cases t <;> decide
      rw [if_pos ((List.mem_append.1 hall).resolve_left htake), if_neg fun h => htake h.1]
  · rw [hother j hj]
    exact hmaps.other j hj

end Tables

section Filled

variable {set : QueueMaps} {n cpu h : ℕ} {q : SwQueues}

def reached (set : QueueMaps) (h cpu : ℕ) : Bool := (firstType set cpu h).isSome

def place (set : QueueMaps) (cpu h : ℕ) : ℕ := ((List.range cpu).filter (reached set h)).length

/-- The type of hardware queue `h` is the one by which the last CPU came. -/
def typeAfter (set : QueueMaps) (h : ℕ) : ℕ → HctxType
  | 0 => .default
  | n + 1 => (firstType set n h).getD (typeAfter set h n)

/-- What the tables hold behind the loop over `n` CPUs. -/
structure Filled (set : QueueMaps) (n : ℕ) (q : SwQueues) : Prop where
  ctxs : ∀ h, (q.hctx h).ctxs = (List.range n).filter (reached set h)
  cpumask : ∀ h cpu, cpu ∈ (q.hctx h).cpumask ↔ cpu ∈ (q.hctx h).ctxs
  type : ∀ h, (q.hctx h).type = typeAfter set h n
  index : ∀ cpu < n, ∀ t, (q.ctx cpu).indexHw t =
    if firstType set cpu (set.mqMap t cpu) = some t then place set cpu (set.mqMap t cpu) else 0
  hctxs : ∀ cpu < n, ∀ t, (q.ctx cpu).hctxs t = hctxOf set cpu t
  blank : ∀ cpu, n ≤ cpu → ∀ t, (q.ctx cpu).indexHw t = 0

theorem Filled.next (hq : Filled set n q) : Filled set (n + 1) (mapCpu set n q) := by
  have hnew : ∀ y, n ∉ (q.hctx y).cpumask := by
    intro y
    rw [hq.cpumask, hq.ctxs]
    simp
  obtain ⟨hhctx, hindex, hhctxs, hother⟩ := @mapCpu_mapped set n q hnew
  refine ⟨fun y => ?_, fun y cpu => ?_, fun y => ?_, fun cpu hcpu t => ?_, fun cpu hcpu t => ?_,
    fun cpu hcpu t => ?_⟩
  · rw [hhctx, List.range_succ, List.filter_append, ← hq.ctxs]
    cases hf : firstType set n y <;> simp [joined, reached, hf]
  · rw [hhctx]
    have hold := hq.cpumask y cpu
    cases firstType set n y with
    | none => exact hold
    | some t => simp [joined, hold, or_comm]
  · rw [hhctx, typeAfter]
    cases firstType set n y with
    | none => exact hq.type y
    | some t => rfl
  · rcases Nat.lt_succ_iff_lt_or_eq.1 hcpu with hlt | rfl
    · rw [hother cpu hlt.ne]
      exact hq.index cpu hlt t
    · rw [hindex, hq.ctxs, hq.blank cpu le_rfl t]
      rfl
  · rcases Nat.lt_succ_iff_lt_or_eq.1 hcpu with hlt | rfl
    · rw [hother cpu hlt.ne]
      exact hq.hctxs cpu hlt t
    · exact hhctxs t
  · rw [hother cpu (by omega)]
    exact hq.blank cpu (by omega) t

theorem mapSwqueue_filled (set : QueueMaps) (n : ℕ) : Filled set n (mapSwqueue set n) := by
  induction n with
  | zero =>
    exact ⟨fun _ => rfl, fun _ _ => Iff.rfl, fun _ => rfl, fun _ h => absurd h (Nat.not_lt_zero _),
      fun _ h => absurd h (Nat.not_lt_zero _), fun _ _ _ => rfl⟩
  | succ n ih =>
    unfold mapSwqueue at ih ⊢
    rw [List.range_succ, List.foldl_append]
    exact ih.next

theorem getElem?_filter_range {p : ℕ → Bool} {n k : ℕ} (hk : k < n) (hp : p k = true) :
    ((List.range n).filter p)[((List.range k).filter p).length]? = some k := by
  induction n with
  | zero => exact absurd hk (Nat.not_lt_zero _)
  | succ n ih =>
    rw [List.range_succ, List.filter_append]
    rcases Nat.lt_succ_iff_lt_or_eq.1 hk with hlt | rfl
    · rw [List.getElem?_append_left (List.getElem?_eq_some_iff.1 (ih hlt)).1]
      exact ih hlt
    · simp [hp]

theorem typeAfter_eq {t : HctxType}
    (hsame : ∀ cpu < n, reached set h cpu = true → firstType set cpu h = some t) (hcpu : cpu < n)
    (hr : reached set h cpu = true) : typeAfter set h n = t := by
  induction n with
  | zero => exact absurd hcpu (Nat.not_lt_zero _)
  | succ n ih =>
    rw [typeAfter]
    cases hlast : firstType set n h with
    | some t' =>
      have := hsame n (Nat.lt_succ_self n) (by simp [reached, hlast])
      exact Option.some.inj (hlast.symm.trans this)
    | none =>
      refine ih (fun cpu hlt => hsame cpu (hlt.trans (Nat.lt_succ_self n))) ?_
      rcases Nat.lt_succ_iff_lt_or_eq.1 hcpu with hlt | rfl
      · exact hlt
      · simp [reached, hlast] at hr

theorem mqMap_firstType {t : HctxType} (hfirst : firstType set cpu h = some t) :
    set.mqMap t cpu = h := by
  have := List.find?_some hfirst
  simp only [Bool.and_eq_true, beq_iff_eq] at this
  exact this.2

/-- A hardware queue that all its CPUs come to by one type finds their software queues. -/
theorem Filled.finds (hq : Filled set n q) {t : HctxType}
    (hsame : ∀ cpu < n, reached set h cpu = true → firstType set cpu h = some t) (hcpu : cpu < n)
    (hr : reached set h cpu = true) : Finds q h cpu := by
  have hfirst := hsame cpu hcpu hr
  have hmap := mqMap_firstType hfirst
  unfold Finds
  rw [hq.type, typeAfter_eq hsame hcpu hr, hq.ctxs, hq.index cpu hcpu, hmap, if_pos hfirst]
  exact getElem?_filter_range hcpu hr

end Filled

section Layout

variable {set : QueueMaps} {n d e cpu h : ℕ} {q : SwQueues}

/-- Default queues below `d`, and queues for reads between `d` and `e` unless they are the default
ones. -/
structure Layout (set : QueueMaps) (n d e : ℕ) : Prop where
  nrDefault : set.nrQueues .default ≠ 0
  nrRead : set.nrQueues .read ≠ 0
  nrMaps : set.nrMaps = 2 ∨ set.nrMaps = 3 ∧ set.nrQueues .poll ≠ 0
  default_lt : ∀ cpu < n, set.mqMap .default cpu < d
  read : (∀ cpu < n, set.mqMap .read cpu = set.mqMap .default cpu) ∨
    ∀ cpu < n, d ≤ set.mqMap .read cpu ∧ set.mqMap .read cpu < e

theorem Layout.firstType_eq (hl : Layout set n d e) : firstType set cpu h =
    if set.mqMap .default cpu = h then some .default
    else if set.mqMap .read cpu = h then some .read
    else if set.nrMaps = 3 ∧ set.mqMap .poll cpu = h then some .poll else none := by
  have hd := hl.nrDefault
  have hr := hl.nrRead
  unfold firstType firstIn HctxType.all
  rcases hl.nrMaps with hm | ⟨hm, hp⟩ <;> rw [hm] <;>
    by_cases h1 : set.mqMap .default cpu = h <;> by_cases h2 : set.mqMap .read cpu = h <;>
    by_cases h3 : set.mqMap .poll cpu = h <;> simp [*]

theorem reached_hctxOf (hl : Layout set n d e) (cpu : ℕ) (t : HctxType) :
    reached set (hctxOf set cpu t) cpu = true := by
  have hfind : ∀ t ∈ HctxType.all.take set.nrMaps, set.nrQueues t ≠ 0 →
      reached set (set.mqMap t cpu) cpu = true := by
    intro t ht hn
    refine List.find?_isSome.2 ⟨t, ht, ?_⟩
    simp [hn]
  unfold hctxOf
  split_ifs with hown
  · exact hfind t hown.1 hown.2
  · refine hfind .default ?_ hl.nrDefault
    rcases hl.nrMaps with hm | ⟨hm, -⟩ <;> rw [hm] <;> decide

/-- No two CPUs come to hardware queue `h` by different types. -/
def Agree (set : QueueMaps) (n h : ℕ) : Prop :=
  ∀ cpu < n, ∀ cpu' < n, ∀ t t', firstType set cpu h = some t → firstType set cpu' h = some t' →
    t = t'

theorem Filled.finds_of_agree (hq : Filled set n q) (hagree : Agree set n h) (hcpu : cpu < n)
    (hr : reached set h cpu = true) : Finds q h cpu := by
  obtain ⟨t, ht⟩ := Option.isSome_iff_exists.1 hr
  have hsame : ∀ cpu' < n, reached set h cpu' = true → firstType set cpu' h = some t := by
    intro cpu' hcpu' hr'
    obtain ⟨t', ht'⟩ := Option.isSome_iff_exists.1 hr'
    rw [ht', hagree cpu hcpu cpu' hcpu' t t' ht ht']
  exact hq.finds hsame hcpu hr

/-- Where polling has queues of its own, or none, a hardware queue has one type. -/
theorem Layout.agree (hl : Layout set n d e)
    (hpoll : set.nrMaps = 3 → ∀ cpu < n, set.mqMap .poll cpu ≠ h ∨ d ≤ h ∧ e ≤ h) :
    Agree set n h := by
  -- a type says in which range the hardware queue is
  have hclass : ∀ cpu < n, ∀ t, firstType set cpu h = some t →
      t = .default ∧ h < d ∨ t = .read ∧ d ≤ h ∧ h < e ∨ t = .poll ∧ d ≤ h ∧ e ≤ h := by
    intro cpu hcpu t ht
    rw [hl.firstType_eq] at ht
    split_ifs at ht with h1 h2 h3
    · exact .inl ⟨(Option.some.inj ht).symm, h1 ▸ hl.default_lt cpu hcpu⟩
    · rcases hl.read with hshared | hown
      · exact absurd ((hshared cpu hcpu).symm.trans h2) h1
      · exact .inr (.inl ⟨(Option.some.inj ht).symm, h2 ▸ hown cpu hcpu⟩)
    · exact .inr (.inr ⟨(Option.some.inj ht).symm,
        (hpoll h3.1 cpu hcpu).resolve_left (not_not.2 h3.2)⟩)
  intro cpu hcpu cpu' hcpu' t t' ht ht'
  rcases hclass cpu hcpu t ht with ⟨rfl, h1⟩ | ⟨rfl, h1⟩ | ⟨rfl, h1⟩ <;>
    rcases hclass cpu' hcpu' t' ht' with ⟨rfl, h2⟩ | ⟨rfl, h2⟩ | ⟨rfl, h2⟩ <;> first | rfl | omega

def Consistent (n : ℕ) (q : SwQueues) : Prop := ∀ cpu < n, ∀ t, Finds q ((q.ctx cpu).hctxs t) cpu

theorem Layout.consistent (hl : Layout set n d e) (hq : Filled set n q)
    (hpoll : set.nrMaps = 3 → ∀ cpu < n, d ≤ set.mqMap .poll cpu ∧ e ≤ set.mqMap .poll cpu) :
    Consistent n q := by
  intro cpu hcpu t
  rw [hq.hctxs cpu hcpu]
  refine hq.finds_of_agree (hl.agree fun hm cpu' hcpu' => ?_) hcpu (reached_hctxOf hl cpu t)
  by_cases heq : set.mqMap .poll cpu' = hctxOf set cpu t
  · exact .inr (heq ▸ hpoll hm cpu' hcpu')
  · exact .inl heq

/-- The CPUs that the default map sends to hardware queue 0 come to it by another type than the
rest. Whether the tables agree all the same depends on the last CPU, whose type the hardware queue
has. -/
def ZeroTable (n : ℕ) (mqMap : ℕ → ℕ) : Prop :=
  if mqMap (n - 1) = 0 then ∀ cpu < n, mqMap cpu ≠ 0 → ∀ j < cpu, mqMap j = mqMap cpu
  else ∀ cpu < n, mqMap cpu = 0 → cpu = 0

section Zero

variable (hl : Layout set n d e) (hm : set.nrMaps = 3) (hzero : ∀ cpu < n, set.mqMap .poll cpu = 0)

include hl hm hzero

theorem Layout.firstType_zero (hcpu : cpu < n) :
    firstType set cpu 0 = some (if set.mqMap .default cpu = 0 then .default else .poll) := by
  have hlt := hl.default_lt cpu hcpu
  rw [hl.firstType_eq]
  split_ifs with h1 h2 h3
  · rfl
  · rcases hl.read with hshared | hown
    · exact absurd ((hshared cpu hcpu).symm.trans h2) h1
    · have := (hown cpu hcpu).1
      omega
  · rfl
  · exact absurd ⟨hm, hzero cpu hcpu⟩ h3

theorem Layout.reached_default (hcpu : cpu < n) {j : ℕ} (hj : j < n) :
    reached set (set.mqMap .default cpu) j = true ↔
      (set.mqMap .default cpu ≠ 0 → set.mqMap .default j = set.mqMap .default cpu) := by
  have hlt := hl.default_lt cpu hcpu
  by_cases h0 : set.mqMap .default cpu = 0
  · rw [h0, reached, hl.firstType_zero hm hzero hj]
    simp
  · rw [reached, hl.firstType_eq]
    split_ifs with h1 h2 h3
    · simp [h1]
    · rcases hl.read with hshared | hown
      · exact absurd ((hshared j hj).symm.trans h2) h1
      · have := (hown j hj).1
        omega
    · exact absurd (h3.2.symm.trans (hzero j hj)) h0
    · simp [h0, h1]

theorem Layout.finds_zero (hq : Filled set n q) (hcpu : cpu < n) :
    Finds q 0 cpu ↔ (q.ctx cpu).indexHw
      (if set.mqMap .default (n - 1) = 0 then .default else .poll) = cpu := by
  have hctxs : (q.hctx 0).ctxs = List.range n := by
    rw [hq.ctxs, List.filter_eq_self]
    intro j hj
    rw [reached, hl.firstType_zero hm hzero (List.mem_range.1 hj)]
    rfl
  have htype : (q.hctx 0).type = if set.mqMap .default (n - 1) = 0 then .default else .poll := by
    obtain ⟨k, rfl⟩ : ∃ k, n = k + 1 := ⟨n - 1, by omega⟩
    rw [hq.type, typeAfter, hl.firstType_zero hm hzero (Nat.lt_succ_self k)]
    rfl
  unfold Finds
  rw [hctxs, htype, List.getElem?_eq_some_iff]
  simp only [List.length_range, List.getElem_range, exists_prop]
  constructor
  · exact And.right
  · exact fun heq => ⟨heq.trans_lt hcpu, heq⟩

theorem Layout.consistent_iff_zero (hq : Filled set n q) : Consistent n q ↔
    ∀ cpu < n, Finds q 0 cpu := by
  constructor
  · intro h cpu hcpu
    have hpoll := h cpu hcpu .poll
    have hown : HctxType.poll ∈ HctxType.all.take set.nrMaps ∧ set.nrQueues .poll ≠ 0 := by
      rcases hl.nrMaps with hm' | ⟨-, hp⟩
      · omega
      · exact ⟨by rw [hm]; decide, hp⟩
    rwa [hq.hctxs cpu hcpu, hctxOf, if_pos hown, hzero cpu hcpu] at hpoll
  · intro h cpu hcpu t
    rw [hq.hctxs cpu hcpu]
    by_cases h0 : hctxOf set cpu t = 0
    · rw [h0]
      exact h cpu hcpu
    · refine hq.finds_of_agree (hl.agree fun _ cpu' hcpu' => .inl ?_) hcpu (reached_hctxOf hl cpu t)
      rw [hzero cpu' hcpu']
      exact Ne.symm h0

/-- Polling without queues of its own is sent to hardware queue 0. -/
theorem Layout.consistent_zero_iff (hq : Filled set n q) : Consistent n q ↔
    ZeroTable n (set.mqMap .default) := by
  rw [hl.consistent_iff_zero hm hzero hq, ZeroTable]
  have hplace : ∀ cpu < n, (q.ctx cpu).indexHw .default = cpu ↔
      (set.mqMap .default cpu ≠ 0 → ∀ j < cpu, set.mqMap .default j = set.mqMap .default cpu) := by
    intro cpu hcpu
    have hfirst : firstType set cpu (set.mqMap .default cpu) = some .default := by
      rw [hl.firstType_eq, if_pos rfl]
    rw [hq.index cpu hcpu, if_pos hfirst, place]
    have hlen : ((List.range cpu).filter (reached set (set.mqMap .default cpu))).length = cpu ↔
        ∀ j < cpu, reached set (set.mqMap .default cpu) j = true := by
      conv_lhs => rhs; rw [← @List.length_range cpu]
      rw [List.length_filter_eq_length_iff]
      simp
    rw [hlen]
    constructor
    · exact fun h h0 j hj => (hl.reached_default hm hzero hcpu (hj.trans hcpu)).1 (h j hj) h0
    · exact fun h j hj => (hl.reached_default hm hzero hcpu (hj.trans hcpu)).2 fun h0 => h h0 j hj
  have hpoll : ∀ cpu < n, (q.ctx cpu).indexHw .poll = cpu ↔
      (set.mqMap .default cpu = 0 → cpu = 0) := by
    intro cpu hcpu
    have hall : place set cpu 0 = cpu := by
      unfold place
      rw [List.filter_eq_self.2, List.length_range]
      intro j hj
      rw [reached, hl.firstType_zero hm hzero ((List.mem_range.1 hj).trans hcpu)]
      rfl
    rw [hq.index cpu hcpu, hzero cpu hcpu, hl.firstType_zero hm hzero hcpu, hall]
    by_cases h0 : set.mqMap .default cpu = 0
    · simp [h0, eq_comm]
    · simp [h0]
  split_ifs with hlast
  · refine forall₂_congr fun cpu hcpu => ?_
    rw [hl.finds_zero hm hzero hq hcpu, if_pos hlast]
    exact hplace cpu hcpu
  · refine forall₂_congr fun cpu hcpu => ?_
    rw [hl.finds_zero hm hzero hq hcpu, if_neg hlast]
    exact hpoll cpu hcpu

end Zero

end Layout

end BlkSwitch.Blk

namespace BlkSwitch.Host

open Blk

section FirstConnect

variable {o : CtrlOptions} {s : Ctrl} {granted n : ℕ} {map : ℕ → ℕ → ℕ → ℕ}

/-- `blk_mq_map_queues` maps each CPU into the range of the map, wherever it is called. -/
def MapsInto (map : ℕ → ℕ → ℕ → ℕ) (n : ℕ) (o : CtrlOptions) (s : Ctrl) : Prop :=
  ∀ t, (t = .poll → dedicated o s.ioQueues .poll = true) → ∀ cpu < n,
    (s.map t).queueOffset ≤ map (s.map t).nrQueues (s.map t).queueOffset cpu ∧
      map (s.map t).nrQueues (s.map t).queueOffset cpu < (s.map t).queueOffset + (s.map t).nrQueues

theorem firstConnect_eq (hstep : (connectSystem o).step (connectSystem o).init granted = some s) :
    1 ≤ granted ∧ s.map = nvmeTcpMapQueues o s.ioQueues (allocTagSet o granted) := by
  simp only [connectSystem, connectStep] at hstep
  split_ifs at hstep with hgrant
  cases hstep
  exact ⟨hgrant.1, rfl⟩

theorem tagSet_mqMap {t : HctxType} (ht : t = .poll → dedicated o s.ioQueues .poll = true)
    (cpu : ℕ) :
    (tagSet o s map).mqMap t cpu = map (s.map t).nrQueues (s.map t).queueOffset cpu :=
  if_neg fun h => by simp [ht h.1] at h

/-- The maps of a first connect lie side by side. -/
theorem firstConnect_layout (hstep : (connectSystem o).step (connectSystem o).init granted = some s)
    (hmap : MapsInto map n o s) (hn : 0 < n) :
    Layout (tagSet o s map) n (s.ioQueues .default) (s.ioQueues .default + s.ioQueues .read) := by
  obtain ⟨hgranted, hmaps⟩ := firstConnect_eq hstep
  have hnr : ∀ t, (t = .poll → dedicated o s.ioQueues .poll = true) →
      (tagSet o s map).nrQueues t ≠ 0 := by
    intro t ht
    have := hmap t ht 0 hn
    change (s.map t).nrQueues ≠ 0
    omega
  refine ⟨hnr _ (by simp), hnr _ (by simp), ?_, fun cpu hcpu => ?_, ?_⟩
  · by_cases hpoll : o.nrPollQueues = 0
    · exact .inl (by simp [tagSet, hpoll])
    · refine .inr ⟨by simp [tagSet, hpoll], ?_⟩
      cases hded : dedicated o s.ioQueues .poll with
      | true => exact hnr .poll fun _ => hded
      | false =>
        change (s.map .poll).nrQueues ≠ 0
        rw [hmaps]
        simp only [nvmeTcpMapQueues, hded, allocTagSet, hpoll, Bool.false_eq_true, ↓reduceIte,
          ne_eq, not_false_eq_true]
        omega
  · have hin := hmap .default (by simp) cpu hcpu
    rw [tagSet_mqMap (by simp)]
    have hdef : s.map .default = ⟨s.ioQueues .default, 0⟩ := by rw [hmaps]; rfl
    rw [hdef] at hin ⊢
    simpa using hin.2
  · cases hded : dedicated o s.ioQueues .read with
    | true =>
      refine .inr fun cpu hcpu => ?_
      have hin := hmap .read (by simp) cpu hcpu
      have hread : s.map .read = ⟨s.ioQueues .read, s.ioQueues .default⟩ := by
        rw [hmaps]
        simp [nvmeTcpMapQueues, hded]
      rw [tagSet_mqMap (by simp)]
      rw [hread] at hin ⊢
      exact hin
    | false =>
      refine .inl fun cpu _ => ?_
      have hsame : s.map .read = s.map .default := by
        rw [hmaps]
        simp [nvmeTcpMapQueues, hded]
      rw [tagSet_mqMap (by simp), tagSet_mqMap (by simp), hsame]

theorem firstConnect_consistent
    (hstep : (connectSystem o).step (connectSystem o).init granted = some s)
    (hmap : MapsInto map n o s) :
    Consistent n (mapSwqueue (tagSet o s map) n) ↔
      o.nrPollQueues = 0 ∨ dedicated o s.ioQueues .poll = true ∨
        ZeroTable n ((tagSet o s map).mqMap .default) := by
  rcases Nat.eq_zero_or_pos n with rfl | hn
  · refine iff_of_true (fun cpu hcpu => absurd hcpu (Nat.not_lt_zero cpu)) (.inr (.inr ?_))
    unfold ZeroTable
    split_ifs <;> exact fun cpu hcpu => absurd hcpu (Nat.not_lt_zero cpu)
  have hl := firstConnect_layout hstep hmap hn
  have hq := mapSwqueue_filled (tagSet o s map) n
  by_cases hpoll : o.nrPollQueues = 0
  · refine iff_of_true (hl.consistent hq fun hm => ?_) (.inl hpoll)
    simp [tagSet, hpoll] at hm
  cases hded : dedicated o s.ioQueues .poll with
  | true =>
    refine iff_of_true (hl.consistent hq fun _ cpu hcpu => ?_) (.inr (.inl rfl))
    have hin := (hmap .poll (fun _ => hded) cpu hcpu).1
    rw [tagSet_mqMap fun _ => hded]
    have hoff : (s.map .poll).queueOffset = s.ioQueues .default + s.ioQueues .read := by
      rw [(firstConnect_eq hstep).2]
      simp [nvmeTcpMapQueues, hded]
    rw [hoff] at hin ⊢
    exact ⟨(Nat.le_add_right _ _).trans hin, hin⟩
  | false =>
    have hm : (tagSet o s map).nrMaps = 3 := by simp [tagSet, hpoll]
    have hzero : ∀ cpu < n, (tagSet o s map).mqMap .poll cpu = 0 := fun cpu _ => if_pos ⟨rfl, hded⟩
    rw [hl.consistent_zero_iff hm hzero hq]
    simp [hpoll]

end FirstConnect

/-- A request is on the hardware queue that its software queue maps to, unless the caller named
another one and nothing moved the request. -/
theorem getRequestQueues_mapped {q : SwQueues} {flags : UInt32} {hctx : Option ℕ} {cpu : ℕ}
    {app req tag : Option ℕ} :
    (getRequestQueues q flags hctx cpu app req tag).mqHctx =
        mapQueue q flags (getRequestQueues q flags hctx cpu app req tag).mqCtx ↔
      (app = none → req = none → tag = none → ∀ h ∈ hctx, h = mapQueue q flags cpu) := by
  cases tag with
  | some _ => simp [getRequestQueues, remap]
  | none =>
    cases req with
    | some _ => simp [getRequestQueues, remap]
    | none =>
      cases app with
      | some _ => simp [getRequestQueues, remap]
      | none => cases hctx <;> simp [getRequestQueues, remap]

/-- On a first connect every hardware queue finds its software queues, and so the requests put on
them, exactly when polling is not asked for, has queues of its own, or has a table by which hardware
queue 0 is right by chance. A request is on the mapped hardware queue exactly unless it was asked
for on another. -/
theorem steered_requests_found_iff (o : CtrlOptions) (granted n : ℕ) (map : ℕ → ℕ → ℕ → ℕ)
    (s : Ctrl) (hstep : (connectSystem o).step (connectSystem o).init granted = some s)
    (hmap : MapsInto map n o s) :
    (Consistent n (mapSwqueue (tagSet o s map) n) ↔
      o.nrPollQueues = 0 ∨ dedicated o s.ioQueues .poll = true ∨
        ZeroTable n ((tagSet o s map).mqMap .default)) ∧
    (∀ cpu < n, ∀ t, Found (mapSwqueue (tagSet o s map) n)
        (((mapSwqueue (tagSet o s map) n).ctx cpu).hctxs t) cpu ↔
      Finds (mapSwqueue (tagSet o s map) n)
        (((mapSwqueue (tagSet o s map) n).ctx cpu).hctxs t) cpu) ∧
    ∀ q flags hctx cpu app req tag, (getRequestQueues q flags hctx cpu app req tag).mqHctx =
        mapQueue q flags (getRequestQueues q flags hctx cpu app req tag).mqCtx ↔
      (app = none → req = none → tag = none → ∀ h ∈ hctx, h = mapQueue q flags cpu) :=
  ⟨firstConnect_consistent hstep hmap, fun _ _ _ => found_iff,
    fun _ _ _ _ _ _ _ => getRequestQueues_mapped⟩

section Samples

def spread (nr off cpu : ℕ) : ℕ := off + cpu % nr

def firstCtrl (o : CtrlOptions) (granted : ℕ) : Ctrl :=
  nvmeTcpConfigureIoQueues o granted (connectSystem o).init

/-- Two queues for reads, two for the rest and one for polling. -/
def pollOptions : CtrlOptions := ⟨2, 2, 1, 4⟩

theorem pollOptions_mapsInto : MapsInto spread 4 pollOptions (firstCtrl pollOptions 5) := by
  intro t _ cpu hcpu
  cases t <;> interval_cases cpu <;> decide

theorem steered_requests_found_iff_poll :
    (connectSystem pollOptions).step (connectSystem pollOptions).init 5 = some
      (firstCtrl pollOptions 5) ∧
      dedicated pollOptions (firstCtrl pollOptions 5).ioQueues .poll = true ∧
      Consistent 4 (mapSwqueue (tagSet pollOptions (firstCtrl pollOptions 5) spread) 4) := by
  have hded : dedicated pollOptions (firstCtrl pollOptions 5).ioQueues .poll = true := by decide
  refine ⟨rfl, hded, ?_⟩
  exact (steered_requests_found_iff pollOptions 5 4 spread _ rfl pollOptions_mapsInto).1.2
    (.inr (.inl hded))

/-- Two queues for everything, and one for polling that is not granted. -/
def deniedOptions : CtrlOptions := ⟨2, 0, 1, 4⟩

def deniedQueues : SwQueues :=
  mapSwqueue (tagSet deniedOptions (firstCtrl deniedOptions 2) spread) 4

def pollQueues : SwQueues := mapSwqueue (tagSet pollOptions (firstCtrl pollOptions 5) spread) 4

/-- The default map sends CPU 2 to hardware queue 0, which has the type of polling and looks for it
at the place of CPU 0: its requests are stranded. A request for hardware queue 2 of its own is not
on the queue that its flags map to. -/
theorem requests_stranded :
    (connectSystem deniedOptions).step (connectSystem deniedOptions).init 2 = some
      (firstCtrl deniedOptions 2) ∧
    MapsInto spread 4 deniedOptions (firstCtrl deniedOptions 2) ∧
    mapQueue deniedQueues 0 2 = 0 ∧
    (deniedQueues.hctx 0).type = .poll ∧
    ¬ Finds deniedQueues 0 2 ∧
    (blkMqFlushBusyCtxs deniedQueues 0 (blkMqInsertRequest deniedQueues 0 2 7 idleLists)).1 = [] ∧
    (getRequestQueues pollQueues 0 (some 2) 0 none none none).mqHctx ≠ mapQueue pollQueues 0 0 := by
  refine ⟨rfl, ?_, by decide, by decide, by decide, by decide, by decide⟩
  intro t ht cpu hcpu
  cases t with
  | poll => exact absurd (ht rfl) (by decide)
  | default => interval_cases cpu <;> decide
  | read => interval_cases cpu <;> decide

end Samples

end BlkSwitch.Host
