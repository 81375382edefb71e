import Mathlib.Data.List.Perm.Basic
import Mathlib.Logic.Relation
import Mathlib.Tactic

/-! Items that are kept on lists, one list for each place. Every item is on one list, once; moving
some of them from one place to another keeps that, whatever the order on the lists becomes. -/

namespace Places

variable {P α : Type*} {items : α → Prop} {f g : P → List α}

structure Exact (items : α → Prop) (f : P → List α) : Prop where
  nodup : ∀ p, (f p).Nodup
  once : ∀ {p p' : P} {a : α}, a ∈ f p → a ∈ f p' → p = p'
  all : ∀ a, items a ↔ ∃ p, a ∈ f p

/-- The items of `l` go from one place to another, and all others stay where they are. -/
structure Moves (src dst : P) (l : List α) (f g : P → List α) : Prop where
  ne : src ≠ dst
  out : (f src).Perm (l ++ g src)
  into : (g dst).Perm (l ++ f dst)
  rest : ∀ p, p ≠ src → p ≠ dst → g p = f p

section Moves

variable {src dst : P} {l : List α}

theorem Moves.mem_src (h : Moves src dst l f g) {a : α} (ha : a ∈ l) : a ∈ f src :=
  h.out.symm.subset (List.mem_append_left _ ha)

/-- Where an item is after a move. -/
theorem Moves.mem_iff (h : Moves src dst l f g) (hf : Exact items f) {p : P} {a : α} :
    a ∈ g p ↔ a ∈ l ∧ p = dst ∨ a ∉ l ∧ a ∈ f p := by
  by_cases hsrc : p = src
  · subst hsrc
    have hnd := h.out.nodup_iff.1 (hf.nodup p)
    rw [h.out.mem_iff, List.mem_append]
    constructor
    · intro ha
      have hnot : a ∉ l := fun hl => (List.nodup_append.1 hnd).2.2 a hl a ha rfl
      exact .inr ⟨hnot, .inr ha⟩
    · rintro (⟨-, heq⟩ | ⟨hnot, hl | hg⟩)
      · exact absurd heq h.ne
      · exact absurd hl hnot
      · exact hg
  · by_cases hdst : p = dst
    · subst hdst
      rw [h.into.mem_iff, List.mem_append]
      constructor
      · rintro (hl | hp)
        · exact .inl ⟨hl, rfl⟩
        · refine .inr ⟨fun hl => ?_, hp⟩
          exact hsrc (hf.once hp (h.mem_src hl))
      · rintro (⟨hl, -⟩ | ⟨-, hp⟩)
        · exact .inl hl
        · exact .inr hp
    · rw [h.rest p hsrc hdst]
      constructor
      · intro hp
        exact .inr ⟨fun hl => hsrc (hf.once hp (h.mem_src hl)), hp⟩
      · rintro (⟨-, heq⟩ | ⟨-, hp⟩)
        · exact absurd heq hdst
        · exact hp

theorem Exact.moves (hf : Exact items f) (h : Moves src dst l f g) : Exact items g where
  nodup := by
    intro p
    by_cases hsrc : p = src
    · subst hsrc
      exact (List.nodup_append.1 (h.out.nodup_iff.1 (hf.nodup p))).2.1
    · by_cases hdst : p = dst
      · subst hdst
        have hl := (List.nodup_append.1 (h.out.nodup_iff.1 (hf.nodup src))).1
        refine h.into.nodup_iff.2 (List.nodup_append.2 ⟨hl, hf.nodup p, ?_⟩)
        rintro a ha b hb rfl
        exact hsrc (hf.once hb (h.mem_src ha))
      · rw [h.rest p hsrc hdst]
        exact hf.nodup p
  once := by
    intro p p' a ha ha'
    rw [h.mem_iff hf] at ha ha'
    rcases ha with ⟨hl, rfl⟩ | ⟨hl, ha⟩ <;> rcases ha' with ⟨hl', rfl⟩ | ⟨hl', ha'⟩
    · rfl
    · exact absurd hl hl'
    · exact absurd hl' hl
    · exact hf.once ha ha'
  all := by
    intro a
    rw [hf.all]
    constructor
    · rintro ⟨p, hp⟩
      by_cases hl : a ∈ l
      · exact ⟨dst, (h.mem_iff hf).2 (.inl ⟨hl, rfl⟩)⟩
      · exact ⟨p, (h.mem_iff hf).2 (.inr ⟨hl, hp⟩)⟩
    · rintro ⟨p, hp⟩
      rcases (h.mem_iff hf).1 hp with ⟨hl, -⟩ | ⟨-, hp⟩
      · exact ⟨src, h.mem_src hl⟩
      · exact ⟨p, hp⟩

end Moves

theorem Exact.enters (hf : Exact items f) {a : α} (hnew : ¬ items a) (dst : P)
    (hinto : (g dst).Perm (a :: f dst)) (hrest : ∀ p, p ≠ dst → g p = f p) :
    Exact (fun b => b = a ∨ items b) g := by
  have hnot : ∀ p, a ∉ f p := fun p hp => hnew ((hf.all a).2 ⟨p, hp⟩)
  have hmem : ∀ p b, b ∈ g p ↔ b = a ∧ p = dst ∨ b ∈ f p := by
    intro p b
    by_cases hp : p = dst
    · subst hp
      rw [hinto.mem_iff, List.mem_cons]
      simp
    · rw [hrest p hp]
      simp [hp]
  refine ⟨fun p => ?_, ?_, fun b => ?_⟩
  · by_cases hp : p = dst
    · subst hp
      exact hinto.nodup_iff.2 (List.nodup_cons.2 ⟨hnot p, hf.nodup p⟩)
    · rw [hrest p hp]
      exact hf.nodup p
  · intro p p' b hb hb'
    rw [hmem] at hb hb'
    rcases hb with ⟨rfl, rfl⟩ | hb <;> rcases hb' with ⟨heq, rfl⟩ | hb'
    · rfl
    · exact absurd hb' (hnot p')
    · exact absurd (heq ▸ hb) (hnot p)
    · exact hf.once hb hb'
  · constructor
    · rintro (rfl | hb)
      · exact ⟨dst, (hmem dst b).2 (.inl ⟨rfl, rfl⟩)⟩
      · obtain ⟨p, hp⟩ := (hf.all b).1 hb
        exact ⟨p, (hmem p b).2 (.inr hp)⟩
    · rintro ⟨p, hp⟩
      rcases (hmem p b).1 hp with ⟨rfl, -⟩ | hp
      · exact .inl rfl
      · exact .inr ((hf.all b).2 ⟨p, hp⟩)

/-- Some moves, one after the other. -/
def Shifts (f g : P → List α) : Prop :=
  Relation.ReflTransGen (fun f g => ∃ src dst l, Moves src dst l f g) f g

theorem Moves.shifts {src dst : P} {l : List α} (h : Moves src dst l f g) : Shifts f g :=
  .single ⟨src, dst, l, h⟩

theorem Exact.shifts (hf : Exact items f) (h : Shifts f g) : Exact items g := by
  induction h with
  | refl => exact hf
  | tail _ hmove ih =>
    obtain ⟨src, dst, l, hmove⟩ := hmove
    exact ih.moves hmove

end Places
