import BlkSwitch.Spec.BlkTags
import Mathlib.Data.List.Perm.Basic

/-! `nr_active` of a hardware queue is the number of its requests that are marked as counted. The
mark and the counter change together, and a request is only counted when it gets a driver tag that
it did not have: without one it is never marked. -/

namespace BlkSwitch.Blk

def counts (h : ℕ) (rq : TagRequest) : Bool := !rq.freed && rq.mqInflight && rq.mqHctx == h

def weight (h : ℕ) (rq : TagRequest) : ℤ := if counts h rq then 1 else 0

def activeOf (h : ℕ) (rqs : List TagRequest) : ℤ := rqs.countP (counts h)

/-- A request without a driver tag is not marked. -/
def Marked (rq : TagRequest) : Prop := rq.tag = none → rq.mqInflight = false

structure TagsOk (s : TagState) : Prop where
  active : ∀ h, s.nrActive h = activeOf h s.rqs
  marked : ∀ rq ∈ s.rqs, Marked rq

section Count

variable {l : List TagRequest} {i : ℕ} {rq : TagRequest} {h : ℕ}

theorem activeOf_append (rq : TagRequest) :
    activeOf h (l ++ [rq]) = activeOf h l + weight h rq := by
  unfold activeOf weight
  rw [List.countP_append, List.countP_singleton]
  push_cast
  rfl

theorem activeOf_eraseIdx (hi : l[i]? = some rq) :
    activeOf h (l.eraseIdx i) = activeOf h l - weight h rq := by
  obtain ⟨hlt, rfl⟩ := List.getElem?_eq_some_iff.1 hi
  have hperm := (List.getElem_cons_eraseIdx_perm hlt).countP_eq (counts h)
  rw [List.countP_cons] at hperm
  unfold activeOf weight
  rw [← hperm]
  split_ifs <;> push_cast <;> ring

theorem activeOf_set (hi : l[i]? = some rq) (rq' : TagRequest) :
    activeOf h (l.set i rq') = activeOf h l - weight h rq + weight h rq' := by
  rw [← activeOf_eraseIdx hi]
  obtain ⟨hlt, -⟩ := List.getElem?_eq_some_iff.1 hi
  have hperm := (List.set_perm_cons_eraseIdx hlt rq').countP_eq (counts h)
  unfold activeOf weight
  rw [hperm, List.countP_cons]
  split_ifs <;> push_cast <;> ring

end Count

section Steps

variable {s s' : TagState} {i : ℕ} {rq rq' : TagRequest}

theorem addActive_nrActive (s : TagState) (hctx : ℕ) (n : ℤ) (h : ℕ) :
    (s.addActive hctx n).nrActive h = s.nrActive h + if hctx = h then n else 0 := by
  unfold TagState.addActive
  by_cases hh : h = hctx
  · subst hh
    simp
  · simp [hh, Ne.symm hh]

/-- What a function of a request has to do: the counters move as the request does. -/
structure Balanced (rq : TagRequest) (s : TagState) (p : TagRequest × TagState) : Prop where
  active : ∀ h, p.2.nrActive h = s.nrActive h - weight h rq + weight h p.1
  marked : Marked p.1

theorem balanced_same (hm : Marked rq) : Balanced rq s (rq, s) := ⟨fun h => by ring, hm⟩

theorem balanced_getDriverTag (got : Option ℕ) (hm : Marked rq) (hlive : rq.freed = false) :
    Balanced rq s (blkMqGetDriverTag got rq s) := by
  unfold blkMqGetDriverTag
  by_cases htag : rq.tag.isSome = true
  · rw [if_pos htag]
    exact balanced_same hm
  · rw [if_neg htag]
    have hnone : rq.mqInflight = false := hm (by simpa using htag)
    cases got with
    | none => exact balanced_same hm
    | some tag =>
      dsimp only
      split_ifs with hshared
      · refine ⟨fun h => ?_, by simp [Marked]⟩
        rw [addActive_nrActive]
        simp [weight, counts, hnone, hlive]
      · exact ⟨fun h => by simp [weight, counts, hnone], by simp [Marked]⟩

theorem balanced_putDriverTag (hlive : rq.freed = false) : Balanced rq s (putDriverTag rq s) := by
  unfold putDriverTag
  split_ifs with hin
  · refine ⟨fun h => ?_, fun _ => rfl⟩
    rw [addActive_nrActive]
    simp only [weight, counts, hin, hlive]
    by_cases hh : rq.mqHctx = h <;> simp [hh]
    ring
  · have hnone : rq.mqInflight = false := by simpa using hin
    exact ⟨fun h => by simp [weight, counts, hnone], fun _ => hnone⟩

theorem balanced_blkMqPutDriverTag (hm : Marked rq) (hlive : rq.freed = false) :
    Balanced rq s (blkMqPutDriverTag rq s) := by
  unfold blkMqPutDriverTag
  split_ifs
  · exact balanced_same hm
  · exact balanced_putDriverTag hlive

theorem balanced_freeRequest (hm : Marked rq) (hlive : rq.freed = false) :
    Balanced rq s (blkMqFreeRequest rq s) := by
  refine ⟨fun h => ?_, hm⟩
  unfold blkMqFreeRequest
  cases hin : rq.mqInflight with
  | true =>
    simp only [if_true, addActive_nrActive, weight, counts, hin, hlive]
    by_cases hh : rq.mqHctx = h <;> simp [hh]
    ring
  | false => simp [weight, counts, hin]

/-- A balanced function keeps the counters exact. -/
theorem TagsOk.onLive {f : TagRequest → TagState → TagRequest × TagState} (h : TagsOk s)
    (hf : ∀ rq, Marked rq → rq.freed = false → Balanced rq s (f rq s))
    (hs : onLive f i s = some s') : TagsOk s' := by
  obtain ⟨rq, hi, hs⟩ := Option.bind_eq_some_iff.1 hs
  split_ifs at hs with hfreed
  cases hs
  have hb := hf rq (h.marked rq (List.mem_of_getElem? hi)) (by simpa using hfreed)
  refine ⟨fun k => ?_, fun rq' hmem => ?_⟩
  · dsimp only
    rw [hb.active, h.active, activeOf_set hi]
  · rcases List.mem_or_eq_of_mem_set hmem with hmem | rfl
    · exact h.marked rq' hmem
    · exact hb.marked

/-- References do not matter as long as the last one is not that of a live request. -/
theorem TagsOk.putRef (h : TagsOk s) (hi : s.rqs[i]? = some rq)
    (hlast : rq.ref ≤ 1 → rq.freed = true) :
    TagsOk (s.putRef i rq) := by
  unfold TagState.putRef
  split_ifs with href
  · refine ⟨fun k => ?_, fun rq' hmem => h.marked rq' (List.mem_of_mem_eraseIdx hmem)⟩
    dsimp only
    rw [h.active, activeOf_eraseIdx hi]
    simp [weight, counts, hlast href]
  · refine ⟨fun k => ?_, fun rq' hmem => ?_⟩
    · dsimp only
      rw [h.active, activeOf_set hi]
      simp [weight, counts]
    · rcases List.mem_or_eq_of_mem_set hmem with hmem | rfl
      · exact h.marked rq' hmem
      · exact h.marked rq (List.mem_of_getElem? hi)

theorem TagsOk.getRequest (h : TagsOk s) (data : AllocData) (tag : ℕ) :
    TagsOk
      { (blkMqRqCtxInit data tag s).2 with rqs := s.rqs ++ [(blkMqRqCtxInit data tag s).1] } := by
  unfold blkMqRqCtxInit
  split_ifs with hint hshared
  all_goals
    refine ⟨fun k => ?_, fun rq hmem => ?_⟩
    rotate_left
    · rcases List.mem_append.1 hmem with hmem | hmem
      · exact h.marked rq hmem
      · rw [List.mem_singleton.1 hmem]
        simp [Marked]
  · simp [activeOf_append, h.active, weight, counts]
  · rw [activeOf_append, ← h.active]
    dsimp only
    rw [addActive_nrActive]
    simp [weight, counts]
  · simp [activeOf_append, h.active, weight, counts]

theorem TagsOk.step {e : TagEvent} (h : TagsOk s) (hs : tagStep s e = some s') : TagsOk s' := by
  cases e with
  | getRequest data tag =>
    cases tag with
    | none =>
      cases hs
      exact h
    | some tag =>
      cases hs
      exact h.getRequest data tag
  | getDriverTag i got => exact h.onLive (fun rq hm hlive => balanced_getDriverTag got hm hlive) hs
  | putDriverTag i => exact h.onLive (fun rq hm hlive => balanced_blkMqPutDriverTag hm hlive) hs
  | putDriverTagAnyway i => exact h.onLive (fun rq _ hlive => balanced_putDriverTag hlive) hs
  | freeRequest i =>
    obtain ⟨s₁, hs₁, hs⟩ := Option.bind_eq_some_iff.1 hs
    have h₁ := h.onLive (fun rq hm hlive => balanced_freeRequest hm hlive) hs₁
    obtain ⟨rq, hi, rfl⟩ := Option.map_eq_some_iff.1 hs
    refine h₁.putRef hi fun _ => ?_
    obtain ⟨rq₀, hi₀, hs₁⟩ := Option.bind_eq_some_iff.1 hs₁
    split_ifs at hs₁
    cases hs₁
    obtain ⟨hlt, -⟩ := List.getElem?_eq_some_iff.1 hi₀
    rw [List.getElem?_set_self hlt] at hi
    cases hi
    rfl
  | getRef i =>
    obtain ⟨rq, hi, rfl⟩ := Option.map_eq_some_iff.1 hs
    refine ⟨fun k => ?_, fun rq' hmem => ?_⟩
    · dsimp only
      rw [h.active, activeOf_set hi]
      simp [weight, counts]
    · rcases List.mem_or_eq_of_mem_set hmem with hmem | rfl
      · exact h.marked rq' hmem
      · exact h.marked rq (List.mem_of_getElem? hi)
  | putRef i =>
    obtain ⟨rq, hi, hs⟩ := Option.bind_eq_some_iff.1 hs
    split_ifs at hs with href
    cases hs
    refine h.putRef hi fun hle => ?_
    by_contra hfreed
    simp only [TagRequest.extraRefs, hfreed, if_false] at href
    omega
  | setShared hctx shared =>
    cases hs
    exact ⟨h.active, h.marked⟩

end Steps

/-- Whatever allocations, dispatches, requeues and completions there were, on whatever hardware
queues steering put the requests, `nr_active` counts the live requests that are marked, and is not
negative. -/
theorem nr_active_exact (tagShared : ℕ → Bool) (es : List TagEvent) (s : TagState)
    (h : (tagSystem tagShared).Run es s) (hctx : ℕ) :
    s.nrActive hctx = s.rqs.countP (fun rq => !rq.freed && rq.mqInflight && rq.mqHctx == hctx) ∧
      0 ≤ s.nrActive hctx := by
  have hok : TagsOk s :=
    h.invariant ⟨fun _ => rfl, by simp [tagSystem]⟩ fun s e s' hI _ hstep => hI.step hstep
  have hactive : s.nrActive hctx = s.rqs.countP (counts hctx) := hok.active hctx
  exact ⟨hactive, by omega⟩

/-- Two requests on shared hardware queue 1, one of them through an elevator, which is dispatched,
requeued and dispatched again; the other one is freed while the timeout handler looks at it. -/
def sampleTags : List TagEvent :=
  [.getRequest ⟨1, false⟩ (some 0), .getRequest ⟨1, true⟩ (some 0), .getDriverTag 1 (some 3),
    .putDriverTag 1, .getDriverTag 1 none, .getDriverTag 1 (some 2), .getRef 0, .freeRequest 0]

theorem nr_active_exact_sample : ∃ s, (tagSystem fun _ => true).Run sampleTags s ∧
    s.rqs.length = 2 ∧ s.nrActive 1 = 1 ∧
      s.nrActive 1 = s.rqs.countP (fun rq => !rq.freed && rq.mqInflight && rq.mqHctx == 1) := by
  obtain ⟨s, hrun, hlen, hone⟩ : ∃ s, (tagSystem fun _ => true).Run sampleTags s ∧
      s.rqs.length = 2 ∧ s.nrActive 1 = 1 :=
    Runs.System.exists_runIn_of_execIn (fun s : TagState => s.rqs.length = 2 ∧ s.nrActive 1 = 1)
      (by decide +kernel)
  exact ⟨s, hrun, hlen, hone, (nr_active_exact _ _ s hrun 1).1⟩

end BlkSwitch.Blk
