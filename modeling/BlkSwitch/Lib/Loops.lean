import Mathlib.Order.WellFounded
import Mathlib.Tactic

/-! Three kinds of loop: a pass over a list with an accumulator, a scan for the least element of
some kind, and a partial function applied again and again until it gives nothing. -/

namespace Loops

variable {α β : Type*}

/-- What holds of the accumulator and the part of the list behind it. -/
theorem foldl_past {f : β → α → β} {b : β} {I : List α → β → Prop} (h0 : I [] b)
    (hs : ∀ past a b, I past b → I (past ++ [a]) (f b a)) (l : List α) : I l (l.foldl f b) := by
  induction l using List.reverseRecOn with
  | nil => exact h0
  | append_singleton past a ih =>
    rw [List.foldl_append]
    exact hs past a _ ih

section Scan

variable (P : α → Prop) [DecidablePred P] (key : α → ℕ)

/-- Take whatever is less than everything taken before. -/
def scanLeast : List α → Option α → ℕ → Option α
  | [], best, _ => best
  | a :: l, best, least =>
    if P a ∧ key a < least then scanLeast l (some a) (key a)
    else scanLeast l best least

variable {P key}

/-- The first of the least elements below the bound, if there is one. -/
theorem scanLeast_split (l : List α) (best : Option α) (least : ℕ) :
    (scanLeast P key l best least = best ∧ ∀ a ∈ l, P a → least ≤ key a) ∨
      ∃ pre a post, l = pre ++ a :: post ∧ scanLeast P key l best least = some a ∧ P a ∧
        key a < least ∧ (∀ x ∈ pre, P x → key a < key x) ∧ ∀ x ∈ post, P x → key a ≤ key x := by
  induction l generalizing best least with
  | nil => exact .inl ⟨rfl, by simp⟩
  | cons b l ih =>
    rw [scanLeast]
    split_ifs with hb
    · refine .inr ?_
      rcases ih (some b) (key b) with ⟨heq, hall⟩ | ⟨pre, a, post, rfl, heq, ha, hlt, hpre, hpost⟩
      · exact ⟨[], b, l, rfl, heq, hb.1, hb.2, by simp, hall⟩
      · refine ⟨b :: pre, a, post, rfl, heq, ha, hlt.trans hb.2, ?_, hpost⟩
        exact List.forall_mem_cons.2 ⟨fun _ => hlt, hpre⟩
    · have hle : P b → least ≤ key b := fun hP => not_lt.1 fun hlt => hb ⟨hP, hlt⟩
      rcases ih best least with ⟨heq, hall⟩ | ⟨pre, a, post, rfl, heq, ha, hlt, hpre, hpost⟩
      · exact .inl ⟨heq, List.forall_mem_cons.2 ⟨hle, hall⟩⟩
      · refine .inr ⟨b :: pre, a, post, rfl, heq, ha, hlt, ?_, hpost⟩
        exact List.forall_mem_cons.2 ⟨fun hP => hlt.trans_le (hle hP), hpre⟩

end Scan

/-- Where `n` moves lead, if they can be made. -/
def follow (f : α → Option α) : ℕ → α → Option α
  | 0, a => some a
  | n + 1, a => (f a).bind (follow f n)

variable {f : α → Option α} {r : α → ℕ}

theorem follow_add (m n : ℕ) (a : α) : follow f (m + n) a = (follow f m a).bind (follow f n) := by
  induction m generalizing a with
  | zero => simp [follow]
  | succ m ih =>
    rw [Nat.succ_add]
    simp only [follow, Option.bind_assoc]
    congr 1
    funext b
    exact ih b

theorem follow_decreases (hf : ∀ a b, f a = some b → r b < r a) (n : ℕ) {a b : α}
    (h : follow f (n + 1) a = some b) : r b < r a := by
  induction n generalizing a with
  | zero =>
    obtain ⟨c, hc, hb⟩ := Option.bind_eq_some_iff.1 h
    obtain rfl : c = b := by simpa [follow] using hb
    exact hf a c hc
  | succ n ih =>
    obtain ⟨c, hc, hb⟩ := Option.bind_eq_some_iff.1 h
    exact (ih hb).trans (hf a c hc)

/-- Moves that get smaller never come back. -/
theorem follow_ne (hf : ∀ a b, f a = some b → r b < r a) {i j : ℕ} (hij : i < j) {a x y : α}
    (hx : follow f i a = some x) (hy : follow f j a = some y) : x ≠ y := by
  obtain ⟨k, rfl⟩ : ∃ k, j = i + (k + 1) := ⟨j - i - 1, by omega⟩
  rw [follow_add, hx, Option.bind_some] at hy
  have hlt := follow_decreases hf k hy
  rintro rfl
  omega

theorem exists_follow_none (hf : ∀ a b, f a = some b → r b < r a) (a : α) :
    ∃ n, follow f n a = none := by
  induction hn : r a using Nat.strong_induction_on generalizing a with
  | _ n ih =>
    cases hb : f a with
    | none => exact ⟨1, by simp [follow, hb]⟩
    | some b =>
      obtain ⟨k, hk⟩ := ih (r b) (hn ▸ hf a b hb) b rfl
      exact ⟨k + 1, by simp [follow, hb, hk]⟩

end Loops
