import BlkSwitch.Spec.TargetRecv

/-! Where the bytes of a data PDU go. From the start of a page on, the pieces of the iovec follow
one another; from anywhere else, they start a page too far on. -/

namespace BlkSwitch.Target

open Bytes

/-- The pieces lie one behind the other from `k` on, and hold `count` bytes. -/
def Adjacent : ℕ → List (ℕ × ℕ) → ℕ → Prop
  | _, [], count => count = 0
  | k, e :: iov, count => e.1 = k ∧ e.2 ≤ count ∧ Adjacent (k + e.2) iov (count - e.2)

theorem Adjacent.sum {k : ℕ} {iov : List (ℕ × ℕ)} {count : ℕ} (h : Adjacent k iov count) :
    (iov.map Prod.snd).sum = count := by
  induction iov generalizing k count with
  | nil => exact h.symm
  | cons e iov ih =>
    obtain ⟨-, hle, hrest⟩ := h
    rw [List.map_cons, List.sum_cons, ih hrest]
    omega

/-- No piece starts at `p` or in front of it. -/
def PastByte (p : ℕ) (iov : List (ℕ × ℕ)) : Prop := ∀ e ∈ iov, p < e.1

section Write

variable {iov : List (ℕ × ℕ)} {mem b : List Byte} {k count p : ℕ} {x : Byte}

theorem Adjacent.write (mem b : List Byte) (h : Adjacent k iov count)
    (hmem : k + count ≤ mem.length) (hb : b.length ≤ count) :
    (iovWrite mem iov b).1 = writeAt mem k b ∧
      Adjacent (k + b.length) (iovWrite mem iov b).2 (count - b.length) := by
  induction iov generalizing mem b k count with
  | nil =>
    obtain rfl : count = 0 := h
    obtain rfl : b = [] := List.length_eq_zero_iff.1 (by omega)
    exact ⟨(writeAt_nil _ _).symm, rfl⟩
  | cons e iov ih =>
    obtain ⟨off, len⟩ := e
    obtain ⟨rfl, hlen, hrest⟩ := h
    rw [iovWrite]
    by_cases hlt : b.length < len
    · rw [if_pos hlt]
      refine ⟨rfl, rfl, by dsimp only; omega, ?_⟩
      convert hrest using 1 <;> (dsimp only; omega)
    · -- the piece is full, and the rest of the bytes go into the next ones
      rw [if_neg hlt]
      have htake : (b.take len).length = len := by simp; omega
      have hdrop : (b.drop len).length = b.length - len := List.length_drop
      have hlong : (writeAt mem off (b.take len)).length = mem.length := writeAt_length (by omega)
      have hih := ih (writeAt mem off (b.take len)) (b.drop len) hrest
        (by rw [hlong]; dsimp only at hlen ⊢; omega) (by rw [hdrop]; dsimp only; omega)
      dsimp only at hih hlen ⊢
      refine ⟨?_, ?_⟩
      · have happ := writeAt_append (show off ≤ mem.length by omega) (b.take len) (b.drop len)
        rw [htake, List.take_append_drop] at happ
        rw [hih.1, happ]
      · convert hih.2 using 1 <;> omega

theorem PastByte.write (b : List Byte) (h : PastByte p iov) (hx : mem[p]? = some x) :
    (iovWrite mem iov b).1[p]? = some x ∧ PastByte p (iovWrite mem iov b).2 := by
  induction iov generalizing mem b with
  | nil => exact ⟨hx, h⟩
  | cons e iov ih =>
    obtain ⟨off, len⟩ := e
    have hoff : p < off := h (off, len) List.mem_cons_self
    have hrest : PastByte p iov := fun e he => h e (List.mem_cons_of_mem _ he)
    have hp : p < mem.length := (List.getElem?_eq_some_iff.1 hx).1
    rw [iovWrite]
    split_ifs
    · refine ⟨(getElem?_writeAt_of_lt hoff hp).trans hx, ?_⟩
      intro e he
      rcases List.mem_cons.1 he with rfl | he
      · exact Nat.lt_add_right _ hoff
      · exact hrest e he
    · exact ih _ hrest ((getElem?_writeAt_of_lt hoff hp).trans hx)

end Write

section Map

variable {sg : SgList}

theorem mapIovec_zero (r fuel j : ℕ) : mapIovec sg r fuel j 0 = [] := by
  cases fuel <;> rfl

theorem mapIovec_pastByte (r fuel j len : ℕ) : ∀ e ∈ mapIovec sg r fuel j len,
    PAGE_SIZE * j + r ≤ e.1 := by
  induction fuel generalizing j len with
  | zero => simp [mapIovec]
  | succ fuel ih =>
    rw [mapIovec]
    split_ifs with h0
    · simp
    · intro e he
      rcases List.mem_cons.1 he with rfl | he
      · exact le_rfl
      · have := ih (j + 1) _ e he
        rw [Nat.mul_add] at this
        omega

/-- From the start of an entry on, an entry is taken whole unless it is the last one. -/
theorem mapIovec_adjacent (fuel j len : ℕ) (hlen : PAGE_SIZE * j + len ≤ sg.data.length)
    (hfuel : sg.nents ≤ j + fuel) :
    Adjacent (PAGE_SIZE * j) (mapIovec sg 0 fuel j len) len ∧
      (mapIovec sg 0 fuel j len).length = divRoundUp len PAGE_SIZE := by
  induction fuel generalizing j len with
  | zero =>
    obtain rfl : len = 0 := by
      simp only [SgList.nents, PAGE_SIZE] at hfuel hlen
      omega
    exact ⟨rfl, rfl⟩
  | succ fuel ih =>
    by_cases h0 : len = 0
    · subst h0
      exact ⟨rfl, rfl⟩
    · have hentry : (2 ^ 32 + sg.entryLen j - 0) % 2 ^ 32 = min PAGE_SIZE
          (sg.data.length - PAGE_SIZE * j) := by
        simp only [SgList.entryLen, PAGE_SIZE]
        omega
      rw [mapIovec, if_neg h0, hentry, Nat.add_zero]
      by_cases hle : len ≤ PAGE_SIZE
      · have hmin : min len (min PAGE_SIZE (sg.data.length - PAGE_SIZE * j)) = len := by omega
        rw [hmin]
        dsimp only
        rw [Nat.sub_self, mapIovec_zero]
        refine ⟨⟨rfl, le_rfl, Nat.sub_self _⟩, ?_⟩
        simp only [List.length_singleton, divRoundUp, PAGE_SIZE] at hle ⊢
        omega
      · have hmin : min len (min PAGE_SIZE (sg.data.length - PAGE_SIZE * j)) = PAGE_SIZE := by omega
        obtain ⟨hadj, hcount⟩ :=
          ih (j + 1) (len - PAGE_SIZE) (by rw [Nat.mul_add]; omega) (by omega)
        rw [hmin]
        refine ⟨⟨rfl, by dsimp only; omega, by rw [Nat.mul_add, Nat.mul_one] at hadj; exact hadj⟩,
          ?_⟩
        rw [List.length_cons, hcount]
        simp only [divRoundUp, PAGE_SIZE] at hle ⊢
        omega

theorem pduIovec_adjacent (sg : SgList) (o len : ℕ) (hpage : o % PAGE_SIZE = 0)
    (hlen : o + len ≤ sg.data.length) :
    Adjacent o (pduIovec (some sg) o len) len ∧
      (pduIovec (some sg) o len).length = divRoundUp len PAGE_SIZE := by
  have hidx : PAGE_SIZE * divRoundUp o PAGE_SIZE = o := by
    simp only [divRoundUp, PAGE_SIZE] at hpage ⊢
    omega
  have h := mapIovec_adjacent (sg.nents - divRoundUp o PAGE_SIZE) (divRoundUp o PAGE_SIZE) len
    (show _ ≤ sg.data.length by omega) (by omega)
  rw [hidx] at h
  rw [pduIovec, hpage]
  exact h

/-- A PDU that starts behind `p`, or at `p` in the middle of a page. -/
theorem pduIovec_pastByte {p o len : ℕ} (h : p < o ∨ p = o ∧ o % PAGE_SIZE ≠ 0) :
    PastByte p (pduIovec (some sg) o len) := by
  intro e he
  have hge := mapIovec_pastByte _ _ _ _ e he
  have hup : p < PAGE_SIZE * divRoundUp o PAGE_SIZE + o % PAGE_SIZE := by
    simp only [divRoundUp, PAGE_SIZE] at h ⊢
    omega
  omega

end Map

end BlkSwitch.Target
