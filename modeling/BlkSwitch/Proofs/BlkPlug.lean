import BlkSwitch.Lib.Batches
import BlkSwitch.Spec.BlkPlug
import Mathlib.Data.Prod.Lex

/-! The flush of a plug cuts its list into batches of neighbours with the same pair of contexts. The
sort brings all requests of a pair together, the lower sector first. -/

namespace BlkSwitch.Blk

open Batches

def pairOf (rq : PlugRequest) : ℕ ×ₗ ℕ := toLex (rq.mqCtx, rq.mqHctx)

def Batch.pair (b : Batch) : ℕ ×ₗ ℕ := toLex (b.ctx, b.hctx)

section Loop

def asPair (b : Batch) : (ℕ ×ₗ ℕ) × List PlugRequest := (b.pair, b.rqs)

/-- Between two turns: the calls made and the list in hand are the batches of what has been looked
at. -/
def Flushing (l : List PlugRequest) (st : FlushState) : Prop :=
  (st.thisHctx = none ∧ st.thisCtx = none ∧ st.rqList = [] ∧ st.inserted = [] ∧ l = []) ∨
    ∃ hctx ctx, st.thisHctx = some hctx ∧ st.thisCtx = some ctx ∧
      Batched pairOf l (st.inserted.map asPair ++ [(toLex (ctx, hctx), st.rqList)])

theorem flushTurn_same {st : FlushState} {rq : PlugRequest} (hh : st.thisHctx = some rq.mqHctx)
    (hc : st.thisCtx = some rq.mqCtx) : flushTurn st rq =
      { st with rqList := st.rqList ++ [rq] } := by
  simp [flushTurn, hh, hc]

theorem flushTurn_other {st : FlushState} {rq : PlugRequest} {hctx ctx : ℕ}
    (hh : st.thisHctx = some hctx) (hc : st.thisCtx = some ctx)
    (hne : ¬ (rq.mqHctx = hctx ∧ rq.mqCtx = ctx)) :
    flushTurn st rq =
      ⟨some rq.mqHctx, some rq.mqCtx, [rq], st.inserted ++ [⟨hctx, ctx, st.rqList⟩]⟩ := by
  have hcond : some rq.mqHctx ≠ st.thisHctx ∨ some rq.mqCtx ≠ st.thisCtx := by
    rw [hh, hc]
    by_contra hno
    simp only [ne_eq, Option.some.injEq, not_or, not_not] at hno
    exact hne hno
  unfold flushTurn
  rw [if_pos hcond]
  simp [FlushState.insert, hh, hc]

theorem Flushing.turn {l : List PlugRequest} {st : FlushState} (h : Flushing l st)
    (rq : PlugRequest) :
    Flushing (l ++ [rq]) (flushTurn st rq) := by
  obtain ⟨hh, hc, hlist, hins, rfl⟩ | ⟨hctx, ctx, hh, hc, hb⟩ := h
  · -- the first request
    refine .inr ⟨rq.mqHctx, rq.mqCtx, ?_⟩
    have hstart : Batched pairOf ([] ++ [rq]) ([] ++ [(pairOf rq, [rq])]) :=
      batched_nil.start (by simp)
    simpa [flushTurn, FlushState.insert, hh, hc, hlist, hins, pairOf] using hstart
  · by_cases hsame : rq.mqHctx = hctx ∧ rq.mqCtx = ctx
    · obtain ⟨rfl, rfl⟩ := hsame
      rw [flushTurn_same hh hc]
      exact .inr ⟨rq.mqHctx, rq.mqCtx, hh, hc, Batched.add hb⟩
    · have hpair : toLex (ctx, hctx) ≠ pairOf rq := by
        intro heq
        have hprod : (ctx, hctx) = (rq.mqCtx, rq.mqHctx) := heq
        simp only [Prod.mk.injEq] at hprod
        exact hsame ⟨hprod.2.symm, hprod.1.symm⟩
      rw [flushTurn_other hh hc hsame]
      refine .inr ⟨rq.mqHctx, rq.mqCtx, rfl, rfl, ?_⟩
      have hstart := hb.start (a := rq) (by simpa using hpair)
      simpa [asPair, Batch.pair, pairOf] using hstart

theorem Flushing.run {l : List PlugRequest} {st : FlushState} (h : Flushing l st)
    (list : List PlugRequest) :
    Flushing (l ++ list) (list.foldl flushTurn st) := by
  induction list generalizing l st with
  | nil => simpa using h
  | cons rq list ih =>
    have hrun := ih (h.turn rq)
    rwa [List.append_assoc, List.singleton_append] at hrun

/-- The call behind the loop makes up for the last batch. -/
theorem Flushing.batched {l : List PlugRequest} {st : FlushState} (h : Flushing l st) :
    Batched pairOf l (st.insert.inserted.map asPair) := by
  obtain ⟨hh, hc, hlist, hins, rfl⟩ | ⟨hctx, ctx, hh, hc, hb⟩ := h
  · simpa [FlushState.insert, hh, hins] using batched_nil
  · simpa [FlushState.insert, hh, hc, asPair, Batch.pair] using hb

end Loop

section Sorting

variable {a b : PlugRequest}

theorem plugRqCmp_le_zero :
    plugRqCmp a b ≤ 0 ↔ pairOf a < pairOf b ∨ pairOf a = pairOf b ∧ a.pos ≤ b.pos := by
  have hlt : pairOf a < pairOf b ↔ a.mqCtx < b.mqCtx ∨ a.mqCtx = b.mqCtx ∧ a.mqHctx < b.mqHctx :=
    Prod.Lex.toLex_lt_toLex
  have heq : pairOf a = pairOf b ↔ a.mqCtx = b.mqCtx ∧ a.mqHctx = b.mqHctx := by
    unfold pairOf
    rw [toLex_inj, Prod.mk.injEq]
  rw [hlt, heq]
  unfold plugRqCmp
  split_ifs <;> omega

instance : Std.Total fun a b : PlugRequest => plugRqCmp a b ≤ 0 where
  total a b := by
    simp only [plugRqCmp_le_zero]
    rcases lt_trichotomy (pairOf a) (pairOf b) with h | h | h
    · exact .inl (.inl h)
    · rcases Nat.le_total a.pos b.pos with hp | hp
      · exact .inl (.inr ⟨h, hp⟩)
      · exact .inr (.inr ⟨h.symm, hp⟩)
    · exact .inr (.inl h)

instance : IsTrans PlugRequest fun a b => plugRqCmp a b ≤ 0 where
  trans a b c := by
    simp only [plugRqCmp_le_zero]
    rintro (hab | ⟨hab, hp⟩) (hbc | ⟨hbc, hp'⟩)
    · exact .inl (hab.trans hbc)
    · exact .inl (hbc ▸ hab)
    · exact .inl (hab ▸ hbc)
    · exact .inr ⟨hab.trans hbc, hp.trans hp'⟩

theorem listSort_perm (l : List PlugRequest) : (listSort l).Perm l := List.perm_insertionSort _ l

theorem listSort_sorted (l : List PlugRequest) :
    (listSort l).Pairwise fun a b => plugRqCmp a b ≤ 0 :=
  List.pairwise_insertionSort _ l

end Sorting

def Plug.flushed (plug : Plug) : List PlugRequest :=
  if plug.sorts then listSort plug.mqList else plug.mqList

theorem flush_batched (plug : Plug) :
    Batched pairOf plug.flushed ((blkMqFlushPlugList plug).1.map asPair) := by
  have hstart : Flushing [] ⟨none, none, [], []⟩ := .inl ⟨rfl, rfl, rfl, rfl, rfl⟩
  simpa [blkMqFlushPlugList, Plug.flushed] using (hstart.run plug.flushed).batched

theorem blkAddRqToPlug_mqList (rqs : List PlugRequest) (plug : Plug) :
    (rqs.foldl (fun plug rq => blkAddRqToPlug rq plug) plug).mqList = plug.mqList ++ rqs := by
  induction rqs generalizing plug with
  | nil => simp
  | cons rq rqs ih =>
    rw [List.foldl_cons, ih]
    simp [blkAddRqToPlug]

/-- Whatever is on a plug, its flush hands every request over once, to its own pair of contexts and
with requests of that pair only; in plug order, which is that of adding them, or sorted with one
batch for each pair. -/
theorem plug_flush_routes (plug : Plug) :
    (∀ rqs : List PlugRequest,
      (rqs.foldl (fun plug rq => blkAddRqToPlug rq plug) plug).mqList = plug.mqList ++ rqs) ∧
    ((blkMqFlushPlugList plug).1.flatMap Batch.rqs).Perm plug.mqList ∧
    (∀ b ∈ (blkMqFlushPlugList plug).1, b.rqs ≠ [] ∧
      (∀ rq ∈ b.rqs, rq.mqHctx = b.hctx ∧ rq.mqCtx = b.ctx) ∧ insertBug b = false) ∧
    (plug.sorts = false → (blkMqFlushPlugList plug).1.flatMap Batch.rqs = plug.mqList) ∧
    (plug.sorts = true → ((blkMqFlushPlugList plug).1.map fun b => (b.ctx, b.hctx)).Nodup ∧
      ∀ b ∈ (blkMqFlushPlugList plug).1, b.rqs.Pairwise fun rqa rqb => rqa.pos ≤ rqb.pos) ∧
    (blkMqFlushPlugList plug).2.mqList = [] ∧ (blkMqFlushPlugList plug).2.rqCount = 0 := by
  have hb := flush_batched plug
  have hflat : (blkMqFlushPlugList plug).1.flatMap Batch.rqs = plug.flushed := by
    rw [← hb.flat, List.flatMap_map]
    rfl
  have hown : ∀ b ∈ (blkMqFlushPlugList plug).1,
      b.rqs ≠ [] ∧ ∀ rq ∈ b.rqs, rq.mqHctx = b.hctx ∧ rq.mqCtx = b.ctx := by
    intro b hmem
    obtain ⟨hne, hpair⟩ := hb.own (asPair b) (List.mem_map_of_mem hmem)
    refine ⟨hne, fun rq hrq => ?_⟩
    have heq : (rq.mqCtx, rq.mqHctx) = (b.ctx, b.hctx) := hpair rq hrq
    simp only [Prod.mk.injEq] at heq
    exact ⟨heq.2, heq.1⟩
  refine ⟨fun rqs => blkAddRqToPlug_mqList rqs plug, ?_, fun b hmem => ?_, fun hs => ?_,
    fun hs => ?_, rfl, rfl⟩
  · rw [hflat, Plug.flushed]
    split_ifs
    · exact listSort_perm _
    · exact .refl _
  · obtain ⟨hne, hpair⟩ := hown b hmem
    refine ⟨hne, hpair, ?_⟩
    simp only [insertBug, List.any_eq_false, bne_iff_ne, ne_eq, not_not]
    exact fun rq hrq => (hpair rq hrq).2
  · rw [hflat, Plug.flushed, hs]
    rfl
  · have hsorted : plug.flushed.Pairwise fun a b => plugRqCmp a b ≤ 0 := by
      rw [Plug.flushed, hs]
      exact listSort_sorted _
    have hkeys : plug.flushed.Pairwise fun a b => pairOf a ≤ pairOf b :=
      hsorted.imp fun hab => (plugRqCmp_le_zero.1 hab).elim le_of_lt fun h => h.1.le
    constructor
    · have hnodup := (hb.increasing hkeys).imp fun h => ne_of_lt h
      rw [List.map_map] at hnodup
      exact hnodup
    · intro b hmem
      have hsub : b.rqs.Sublist plug.flushed := by
        rw [← hflat]
        exact List.sublist_flatten_of_mem (List.mem_map_of_mem hmem)
      refine (hsorted.sublist hsub).imp_of_mem fun {rqa rqb} ha hb' hab => ?_
      obtain ⟨hha, hca⟩ := (hown b hmem).2 rqa ha
      obtain ⟨hhb, hcb⟩ := (hown b hmem).2 rqb hb'
      have heq : pairOf rqa = pairOf rqb := by rw [pairOf, pairOf, hha, hca, hhb, hcb]
      rcases plugRqCmp_le_zero.1 hab with hlt | ⟨-, hpos⟩
      · exact absurd heq (ne_of_lt hlt)
      · exact hpos

/-- Three requests of two pairs that are interleaved, on a plug of one queue and on one of
several. -/
example : (blkMqFlushPlugList ⟨[⟨1, 5, 2, 9, 0⟩, ⟨1, 4, 2, 8, 1⟩, ⟨1, 5, 2, 3, 2⟩], 3, false⟩).1.map
    Batch.rqs =
    [[⟨1, 5, 2, 9, 0⟩], [⟨1, 4, 2, 8, 1⟩], [⟨1, 5, 2, 3, 2⟩]] := by decide

example : (blkMqFlushPlugList ⟨[⟨1, 5, 2, 9, 0⟩, ⟨1, 4, 2, 8, 1⟩, ⟨1, 5, 2, 3, 2⟩], 3, true⟩).1.map
    Batch.rqs =
    [[⟨1, 4, 2, 8, 1⟩], [⟨1, 5, 2, 3, 2⟩, ⟨1, 5, 2, 9, 0⟩]] := by decide

end BlkSwitch.Blk
