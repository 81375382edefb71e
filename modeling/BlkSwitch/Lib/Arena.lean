import Mathlib.Tactic

/-! Memory that is handed out and taken back. Blocks are numbered in the order they are handed out,
so a new block is none that was live before. Who owns what is left to a relation: every live block
has one owner, or some block has leaked. -/

namespace Blocks

structure Arena where
  next : ℕ
  live : List ℕ
  /-- what is live has been handed out -/
  fresh : ∀ b ∈ live, b < next

namespace Arena

variable {a a' : Arena} {ι : Type*} {own own' : ι → ℕ → Prop}

def empty : Arena := ⟨0, [], by simp⟩

/-- The new block is `a.next`. -/
def alloc (a : Arena) : Arena where
  next := a.next + 1
  live := a.next :: a.live
  fresh := List.forall_mem_cons.2
    ⟨Nat.lt_succ_self _, fun b hb => (a.fresh b hb).trans (Nat.lt_succ_self _)⟩

/-- Freeing no block frees nothing. -/
def free (b : Option ℕ) (a : Arena) : Arena where
  next := a.next
  live := a.live.filter fun x => some x ≠ b
  fresh := fun x hx => a.fresh x (List.mem_filter.1 hx).1

@[simp] theorem next_alloc : a.alloc.next = a.next + 1 := rfl

@[simp] theorem mem_alloc {x : ℕ} : x ∈ a.alloc.live ↔ x = a.next ∨ x ∈ a.live := List.mem_cons

@[simp] theorem mem_free {b : Option ℕ} {x : ℕ} : x ∈ (a.free b).live ↔ x ∈ a.live ∧
    some x ≠ b := by
  simp [free]

/-- The live blocks stay and new ones come. -/
structure Grows (a a' : Arena) : Prop where
  next_le : a.next ≤ a'.next
  mem_iff : ∀ b, b ∈ a'.live ↔ b ∈ a.live ∨ a.next ≤ b ∧ b < a'.next

theorem Grows.refl (a : Arena) : Grows a a := ⟨le_rfl, fun b => by simp⟩

theorem Grows.trans {a'' : Arena} (h : Grows a a') (h' : Grows a' a'') : Grows a a'' where
  next_le := h.next_le.trans h'.next_le
  mem_iff := by
    intro b
    have hle := h.next_le
    have hle' := h'.next_le
    rw [h'.mem_iff, h.mem_iff, or_assoc]
    exact or_congr_right (by omega)

theorem grows_alloc (a : Arena) : Grows a a.alloc where
  next_le := Nat.le_succ _
  mem_iff := by
    intro b
    rw [mem_alloc, next_alloc, or_comm]
    exact or_congr_right (by omega)

/-- Every live block has one owner. -/
structure Owned (a : Arena) (own : ι → ℕ → Prop) : Prop where
  mem_iff : ∀ b, b ∈ a.live ↔ ∃ i, own i b
  unique : ∀ i j b, own i b → own j b → i = j

/-- Some live block has none. -/
def Leaks (a : Arena) (own : ι → ℕ → Prop) : Prop := ∃ b ∈ a.live, ∀ i, ¬ own i b

theorem Leaks.not_exact (h : a.Leaks own) : ¬ ∀ b, b ∈ a.live ↔ ∃ i, own i b := by
  obtain ⟨b, hb, hnone⟩ := h
  intro hall
  obtain ⟨i, hi⟩ := (hall b).1 hb
  exact hnone i hi

theorem Owned.lt (h : a.Owned own) {i : ι} {b : ℕ} (hi : own i b) : b < a.next :=
  a.fresh b ((h.mem_iff b).2 ⟨i, hi⟩)

/-- An owner of nothing takes all that is new. -/
theorem Owned.take (h : a.Owned own) (hg : Grows a a') {i : ι} (hi : ∀ b, ¬ own i b)
    (hown : ∀ j b, own' j b ↔ own j b ∨ j = i ∧ a.next ≤ b ∧ b < a'.next) : a'.Owned own' where
  mem_iff := by
    intro b
    rw [hg.mem_iff, h.mem_iff]
    constructor
    · rintro (⟨j, hj⟩ | hb)
      · exact ⟨j, (hown j b).2 (.inl hj)⟩
      · exact ⟨i, (hown i b).2 (.inr ⟨rfl, hb⟩)⟩
    · rintro ⟨j, hj⟩
      rcases (hown j b).1 hj with hj | ⟨rfl, hb⟩
      · exact .inl ⟨j, hj⟩
      · exact .inr hb
  unique := by
    intro j k b hj hk
    rcases (hown j b).1 hj with hj | ⟨rfl, hb, -⟩
    · rcases (hown k b).1 hk with hk | ⟨rfl, hb, -⟩
      · exact h.unique j k b hj hk
      · exact absurd (h.lt hj) (not_lt.2 hb)
    · rcases (hown k b).1 hk with hk | ⟨rfl, -⟩
      · exact absurd (h.lt hk) (not_lt.2 hb)
      · rfl

theorem Owned.drop (h : a.Owned own) {i : ι} (hmem : ∀ b, b ∈ a'.live ↔ b ∈ a.live ∧ ¬ own i b)
    (hown : ∀ j b, own' j b ↔ own j b ∧ j ≠ i) : a'.Owned own' where
  mem_iff := by
    intro b
    rw [hmem, h.mem_iff]
    constructor
    · rintro ⟨⟨j, hj⟩, hi⟩
      exact ⟨j, (hown j b).2 ⟨hj, fun heq => hi (heq ▸ hj)⟩⟩
    · rintro ⟨j, hj⟩
      obtain ⟨hj, hne⟩ := (hown j b).1 hj
      exact ⟨⟨j, hj⟩, fun hi => hne (h.unique j i b hj hi)⟩
  unique := fun j k b hj hk => h.unique j k b ((hown j b).1 hj).1 ((hown k b).1 hk).1

theorem Owned.leaks (h : a.Owned own) (hg : Grows a a') (hlt : a.next < a'.next)
    (hown : ∀ j b, own' j b → own j b) : a'.Leaks own' :=
  ⟨a.next, (hg.mem_iff _).2 (.inr ⟨le_rfl, hlt⟩), fun i hi => lt_irrefl _ (h.lt (hown i _ hi))⟩

/-- A leak is there to stay: new owners only get new blocks. -/
theorem Leaks.grow (h : a.Leaks own) (hg : Grows a a')
    (hown : ∀ j b, own' j b → own j b ∨ a.next ≤ b) :
    a'.Leaks own' := by
  obtain ⟨b, hb, hnone⟩ := h
  refine ⟨b, (hg.mem_iff b).2 (.inl hb), fun i hi => ?_⟩
  rcases hown i b hi with hi | hle
  · exact hnone i hi
  · exact absurd (a.fresh b hb) (not_lt.2 hle)

theorem Leaks.drop (h : a.Leaks own) {i : ι} (hmem : ∀ b, b ∈ a.live → ¬ own i b → b ∈ a'.live)
    (hown : ∀ j b, own' j b → own j b) : a'.Leaks own' := by
  obtain ⟨b, hb, hnone⟩ := h
  exact ⟨b, hmem b hb (hnone i), fun j hj => hnone j (hown j b hj)⟩

end Arena
end Blocks
