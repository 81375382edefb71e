import Mathlib.Data.List.Basic
import Mathlib.Logic.Relation
import Mathlib.Tactic

/-! A buffer that is filled entry by entry and emptied as a whole. An entry may take a page along,
and may close an item; the buffer is full as soon as its bytes, its entries, its pages or its items
reach a limit. The test comes before the append, so every append is inside the arrays, and only the
byte count can go over its limit, by less than the last entry. -/

namespace Packing

variable {α : Type*}

structure Limits (α : Type*) where
  size : α → ℕ
  isPage : α → Bool
  bytes : ℕ
  entries : ℕ
  pages : ℕ
  items : ℕ

/-- The entries, and the counters kept beside them. -/
structure Buffer (α : Type*) where
  entries : List α
  len : ℕ
  pages : ℕ
  items : ℕ

namespace Buffer

def empty : Buffer α := ⟨[], 0, 0, 0⟩

def put (L : Limits α) (a : α) (closes : Bool) (b : Buffer α) : Buffer α where
  entries := b.entries ++ [a]
  len := b.len + L.size a
  pages := if L.isPage a then b.pages + 1 else b.pages
  items := if closes then b.items + 1 else b.items

end Buffer

/-- No limit has been reached. -/
structure Room (L : Limits α) (b : Buffer α) : Prop where
  bytes : b.len < L.bytes
  entries : b.entries.length < L.entries
  pages : b.pages < L.pages
  items : b.items < L.items

inductive Step (L : Limits α) : Buffer α → Buffer α → Prop
  | put {b : Buffer α} (a : α) (closes : Bool) (hroom : Room L b) : Step L b (b.put L a closes)
  | clear (b : Buffer α) : Step L b .empty

/-- The counters count the entries, and the arrays hold them. -/
structure Rep (L : Limits α) (b : Buffer α) : Prop where
  len_eq : b.len = (b.entries.map L.size).sum
  entries_le : b.entries.length ≤ L.entries
  pages_eq : b.pages = b.entries.countP L.isPage
  pages_le : b.pages ≤ L.pages
  items_le : b.items ≤ L.items
  last_lt : ∀ a ∈ b.entries.getLast?, b.len < L.bytes + L.size a

variable {L : Limits α} {b b' : Buffer α}

theorem rep_empty : Rep L .empty :=
  ⟨rfl, Nat.zero_le _, rfl, Nat.zero_le _, Nat.zero_le _, by simp [Buffer.empty]⟩

theorem Rep.put (h : Rep L b) (hroom : Room L b) (a : α) (closes : Bool) :
    Rep L (b.put L a closes) := by
  have hbytes := hroom.bytes
  have hentries := hroom.entries
  have hpages := hroom.pages
  have hitems := hroom.items
  refine ⟨?_, ?_, ?_, ?_, ?_, ?_⟩
  · simp [Buffer.put, h.len_eq]
  · simp only [Buffer.put, List.length_append, List.length_singleton]
    omega
  · simp only [Buffer.put, List.countP_append, List.countP_singleton, h.pages_eq]
    split_ifs <;> rfl
  · simp only [Buffer.put]
    split_ifs <;> omega
  · simp only [Buffer.put]
    split_ifs <;> omega
  · simp only [Buffer.put, List.getLast?_append, List.getLast?_singleton, Option.some_or,
      Option.mem_some_iff]
    rintro a' rfl
    omega

theorem Rep.step (h : Rep L b) (hs : Step L b b') : Rep L b' := by
  cases hs with
  | put a closes hroom => exact h.put hroom a closes
  | clear => exact rep_empty

theorem Rep.steps (h : Rep L b) (hs : Relation.ReflTransGen (Step L) b b') : Rep L b' := by
  induction hs with
  | refl => exact h
  | tail _ hs ih => exact ih.step hs

end Packing
