import Mathlib.Data.List.Perm.Subperm
import Mathlib.Tactic

/-! Custody of a fixed pool of items. Every item is free, held or retired; an item that is held
may own a resource, and every resource ever handed out has been released once or has one owner.
The two laws are fields, so a ledger that breaks them cannot be built; each operation below
says what it needs to keep them. -/

namespace Custody

structure Ledger (α : Type*) (pool : List α) where
  free : List α
  held : List α
  retired : List α
  owns : α → Option ℕ
  /-- resources are numbered in the order they are handed out -/
  next : ℕ
  released : List ℕ
  nodup : pool.Nodup
  items : (free ++ held ++ retired).Perm pool
  ids : (released ++ held.filterMap owns).Perm (List.range next)

variable {α : Type*} {pool : List α}

theorem filterMap_cons_eq {β : Type*} (f : α → Option β) (a : α) (l : List α) :
    (a :: l).filterMap f = (f a).toList ++ l.filterMap f := by
  cases h : f a <;> simp [h]

namespace Ledger

variable (L : Ledger α pool)

theorem nodup_all : (L.free ++ L.held ++ L.retired).Nodup := L.items.nodup_iff.2 L.nodup

theorem held_nodup : L.held.Nodup := (List.nodup_append.1 (List.nodup_append.1 L.nodup_all).1).2.1

theorem not_free_of_held {i : α} (h : i ∈ L.held) : i ∉ L.free := by
  intro hf
  exact (List.nodup_append.1 (List.nodup_append.1 L.nodup_all).1).2.2 i hf i h rfl

theorem not_released_of_owned {i : α} {g : ℕ} (h : i ∈ L.held) (hg : L.owns i = some g) :
    g ∉ L.released := by
  intro hr
  have hnd : (L.released ++ L.held.filterMap L.owns).Nodup := L.ids.nodup_iff.2 List.nodup_range
  exact (List.nodup_append.1 hnd).2.2 g hr g (List.mem_filterMap.2 ⟨i, h, hg⟩) rfl

/-- Another order of the held items, another way to say what they own. -/
def rearrange (held : List α) (owns : α → Option ℕ) (hh : held.Perm L.held)
    (ho : ∀ i ∈ L.held, owns i = L.owns i) :
    Ledger α pool :=
  { L with
    held := held
    owns := owns
    items := by
      refine List.Perm.trans ?_ L.items
      exact (hh.append_left _).append_right _
    ids := by
      refine List.Perm.trans (List.Perm.append_left _ ?_) L.ids
      have hsame : held.filterMap owns = held.filterMap L.owns :=
        List.filterMap_congr fun i hi => ho i (hh.subset hi)
      rw [hsame]
      exact hh.filterMap _ }

/-- The first free item is taken; it owns nothing yet. -/
def take (i : α) (rest : List α) (owns : α → Option ℕ) (hf : L.free = i :: rest)
    (hi : owns i = none) (ho : ∀ j ∈ L.held, owns j = L.owns j) : Ledger α pool :=
  { L with
    free := rest
    held := i :: L.held
    owns := owns
    items := by
      refine List.Perm.trans ?_ L.items
      rw [hf]
      exact List.perm_middle.append_right _
    ids := by
      rw [filterMap_cons_eq, hi, List.filterMap_congr ho]
      exact L.ids }

/-- A held item gives up what it owns and goes back to the end of the free ones. -/
def putBack (i : α) (held : List α) (hh : L.held.Perm (i :: held)) : Ledger α pool :=
  { L with
    free := L.free ++ [i]
    held := held
    released := L.released ++ (L.owns i).toList
    items := by
      refine List.Perm.trans (List.Perm.append_right _ ?_) L.items
      rw [List.append_assoc]
      exact hh.symm.append_left _
    ids := by
      refine List.Perm.trans ?_ L.ids
      rw [List.append_assoc, ← filterMap_cons_eq]
      exact (hh.symm.filterMap _).append_left _ }

/-- A held item gives up what it owns and leaves for good. -/
def retire (i : α) (held : List α) (hh : L.held.Perm (i :: held)) : Ledger α pool :=
  { L with
    held := held
    retired := i :: L.retired
    released := L.released ++ (L.owns i).toList
    items := by
      refine List.Perm.trans ?_ L.items
      refine List.perm_middle.trans ?_
      rw [← List.cons_append]
      refine List.Perm.append_right _ ?_
      exact List.perm_middle.symm.trans (hh.symm.append_left _)
    ids := by
      refine List.Perm.trans ?_ L.ids
      rw [List.append_assoc, ← filterMap_cons_eq]
      exact (hh.symm.filterMap _).append_left _ }

/-- A held item gives up what it owns and is still held. -/
def release (i : α) (owns : α → Option ℕ) (hi : i ∈ L.held) (hn : owns i = none)
    (ho : ∀ j ∈ L.held, j ≠ i → owns j = L.owns j) : Ledger α pool :=
  { L with
    owns := owns
    released := L.released ++ (L.owns i).toList
    ids := by
      obtain ⟨s, t, hst⟩ := List.append_of_mem hi
      have hnd := L.held_nodup
      have hperm : L.held.Perm (i :: (s ++ t)) := by
        rw [hst]
        exact List.perm_middle
      have hnot : i ∉ s ++ t := (List.nodup_cons.1 (hperm.nodup_iff.1 hnd)).1
      have hother : (s ++ t).filterMap owns = (s ++ t).filterMap L.owns := by
        refine List.filterMap_congr fun j hj =>
          ho j (hperm.symm.subset (List.mem_cons_of_mem _ hj)) ?_
        rintro rfl
        exact hnot hj
      refine List.Perm.trans ?_ L.ids
      rw [List.append_assoc]
      refine List.Perm.append_left _ ?_
      have hkeep : (L.owns i).toList ++ (i :: (s ++ t)).filterMap owns =
          (i :: (s ++ t)).filterMap L.owns := by
        rw [filterMap_cons_eq, filterMap_cons_eq, hn, hother]
        rfl
      refine ((hperm.filterMap owns).append_left _).trans ?_
      rw [hkeep]
      exact hperm.symm.filterMap _ }

/-- A held item that owns nothing is handed the next resource. -/
def acquire (i : α) (owns : α → Option ℕ) (hi : i ∈ L.held) (hn : L.owns i = none)
    (hs : owns i = some L.next) (ho : ∀ j ∈ L.held, j ≠ i → owns j = L.owns j) : Ledger α pool :=
  { L with
    owns := owns
    next := L.next + 1
    ids := by
      obtain ⟨s, t, hst⟩ := List.append_of_mem hi
      have hperm : L.held.Perm (i :: (s ++ t)) := by
        rw [hst]
        exact List.perm_middle
      have hnot : i ∉ s ++ t := (List.nodup_cons.1 (hperm.nodup_iff.1 L.held_nodup)).1
      have hother : (s ++ t).filterMap owns = (s ++ t).filterMap L.owns := by
        refine List.filterMap_congr fun j hj =>
          ho j (hperm.symm.subset (List.mem_cons_of_mem _ hj)) ?_
        rintro rfl
        exact hnot hj
      have hids := ((hperm.filterMap L.owns).append_left L.released).symm.trans L.ids
      rw [filterMap_cons_eq, hn, ← hother] at hids
      rw [List.range_succ]
      refine List.Perm.trans ((hperm.filterMap owns).append_left L.released) ?_
      rw [filterMap_cons_eq, hs]
      exact List.perm_middle.trans
        ((List.Perm.cons _ hids).trans (List.perm_append_singleton _ _).symm) }

/-- What can happen to a ledger. -/
inductive Step : Ledger α pool → Ledger α pool → Prop
  | rearrange (L : Ledger α pool) (held owns hh ho) : Step L (L.rearrange held owns hh ho)
  | take (L : Ledger α pool) (i rest owns hf hi ho) : Step L (L.take i rest owns hf hi ho)
  | putBack (L : Ledger α pool) (i held hh) : Step L (L.putBack i held hh)
  | retire (L : Ledger α pool) (i held hh) : Step L (L.retire i held hh)
  | release (L : Ledger α pool) (i owns hi hn ho) : Step L (L.release i owns hi hn ho)
  | acquire (L : Ledger α pool) (i owns hi hn hs ho) : Step L (L.acquire i owns hi hn hs ho)

theorem count_eq_one [DecidableEq α] {i : α} (hi : i ∈ pool) (hr : i ∉ L.retired) :
    (L.free ++ L.held).count i = 1 := by
  have hall : (L.free ++ L.held ++ L.retired).count i = 1 := by
    rw [L.items.count_eq]
    exact List.count_eq_one_of_mem L.nodup hi
  rw [List.count_append, List.count_eq_zero_of_not_mem hr] at hall
  exact hall

/-- A resource handed out is counted once over the released ones and the owned ones. -/
theorem count_id_eq_one {g : ℕ} (hg : g < L.next) :
    (L.released ++ L.held.filterMap L.owns).count g = 1 := by
  rw [L.ids.count_eq]
  exact List.count_eq_one_of_mem List.nodup_range (List.mem_range.2 hg)

end Ledger
end Custody
