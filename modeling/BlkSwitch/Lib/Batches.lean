import Mathlib.Data.List.Chain
import Mathlib.Order.Basic
import Mathlib.Tactic

/-! A list cut into batches of neighbours with one key. A loop that compares each element with the
batch it is filling cuts the list so; when the list is sorted by key, no key has two batches. -/

namespace Batches

variable {α κ : Type*} {key : α → κ} {l : List α} {bs : List (κ × List α)} {a : α}

/-- Each batch has its key and at least one element, and neighbours have different keys. -/
structure Batched (key : α → κ) (l : List α) (bs : List (κ × List α)) : Prop where
  flat : bs.flatMap Prod.snd = l
  own : ∀ b ∈ bs, b.2 ≠ [] ∧ ∀ a ∈ b.2, key a = b.1
  apart : (bs.map Prod.fst).IsChain (· ≠ ·)

theorem batched_nil : Batched key [] [] := ⟨rfl, by simp, by simp⟩

theorem Batched.add {b : List α} (h : Batched key l (bs ++ [(key a, b)])) :
    Batched key (l ++ [a]) (bs ++ [(key a, b ++ [a])]) := by
  refine ⟨?_, ?_, ?_⟩
  · rw [← h.flat]
    simp
  · intro b' hb'
    rcases List.mem_append.1 hb' with hb' | hb'
    · exact h.own b' (List.mem_append_left _ hb')
    · rw [List.mem_singleton.1 hb']
      refine ⟨by simp, fun a' ha' => ?_⟩
      rcases List.mem_append.1 ha' with ha' | ha'
      · exact (h.own (key a, b) (by simp)).2 a' ha'
      · rw [List.mem_singleton.1 ha']
  · simpa using h.apart

theorem Batched.start (h : Batched key l bs) (hne : ∀ b ∈ bs.getLast?, b.1 ≠ key a) :
    Batched key (l ++ [a]) (bs ++ [(key a, [a])]) := by
  refine ⟨?_, ?_, ?_⟩
  · rw [← h.flat]
    simp
  · intro b' hb'
    rcases List.mem_append.1 hb' with hb' | hb'
    · exact h.own b' hb'
    · rw [List.mem_singleton.1 hb']
      exact ⟨by simp, by simp⟩
  · rw [List.map_append, List.map_singleton]
    refine h.apart.append (by simp) ?_
    intro k hk k' hk'
    rw [List.getLast?_map] at hk
    obtain ⟨b, hb, rfl⟩ := Option.map_eq_some_iff.1 hk
    obtain rfl : key a = k' := by simpa using hk'
    exact hne b hb

/-- In a list sorted by key the batches go up strictly. -/
theorem Batched.increasing [LinearOrder κ] (h : Batched key l bs)
    (hsorted : l.Pairwise fun a b => key a ≤ key b) :
    (bs.map Prod.fst).Pairwise (· < ·) := by
  rw [← List.isChain_iff_pairwise]
  have hle : (bs.map Prod.fst).IsChain (· ≤ ·) := by
    have hflat := h.flat
    have hown := h.own
    clear h
    induction bs generalizing l with
    | nil => simp
    | cons b bs ih =>
      subst hflat
      rw [List.flatMap_cons, List.pairwise_append] at hsorted
      have hrest := ih hsorted.2.1 rfl fun b' hb' => hown b' (List.mem_cons_of_mem b hb')
      rw [List.map_cons, List.isChain_cons]
      refine ⟨fun k hk => ?_, hrest⟩
      cases bs with
      | nil => simp at hk
      | cons b' bs =>
        -- the first of either batch
        obtain rfl : b'.1 = k := by simpa using hk
        obtain ⟨a, ha⟩ := List.exists_mem_of_ne_nil _ (hown b (by simp)).1
        obtain ⟨a', ha'⟩ := List.exists_mem_of_ne_nil _ (hown b' (by simp)).1
        rw [← (hown b (by simp)).2 a ha, ← (hown b' (by simp)).2 a' ha']
        exact hsorted.2.2 a ha a' (by simp [ha'])
  have hne := h.apart
  rw [List.isChain_iff_getElem] at hle hne ⊢
  exact fun i hi => lt_of_le_of_ne (hle i hi) (hne i hi)

end Batches
