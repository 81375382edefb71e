import Mathlib.Tactic

/-! Byte strings: little-endian words, writing into a buffer, and walking a list of chunks.
Words are read back modulo their width, so a field that fits its width survives. -/

namespace Bytes

/-- The `k` low bytes of `n`, least significant first. -/
def le : ℕ → ℕ → List UInt8
  | 0, _ => []
  | k + 1, n => UInt8.ofNat n :: le k (n / 256)

def readLe : List UInt8 → ℕ
  | [] => 0
  | b :: bs => b.toNat + 256 * readLe bs

@[simp] theorem le_length (k n : ℕ) : (le k n).length = k := by
  induction k generalizing n with
  | zero => rfl
  | succ k ih => simp [le, ih]

theorem readLe_le (k n : ℕ) : readLe (le k n) = n % 256 ^ k := by
  induction k generalizing n with
  | zero => simp [le, readLe, Nat.mod_one]
  | succ k ih =>
    have hb : (UInt8.ofNat n).toNat = n % 256 := by simp
    rw [le, readLe, ih, hb, pow_succ', Nat.mod_mul]

theorem readLe_le_of_lt {k n : ℕ} (h : n < 256 ^ k) : readLe (le k n) = n := by
  rw [readLe_le, Nat.mod_eq_of_lt h]

/-- A word in front of a buffer: skipping past it, and reading it. -/
theorem drop_le_append {k n i : ℕ} {r : List UInt8} (h : k ≤ i) :
    (le k n ++ r).drop i = r.drop (i - k) := by
  rw [List.drop_append, List.drop_eq_nil_of_le (by simpa using h), le_length, List.nil_append]

theorem take_le_append {k n : ℕ} {r : List UInt8} : (le k n ++ r).take k = le k n :=
  List.take_left' (le_length k n)

/-- Overwrite `buf` with `bs` from byte `off` on. -/
def writeAt (buf : List UInt8) (off : ℕ) (bs : List UInt8) : List UInt8 :=
  buf.take off ++ bs ++ buf.drop (off + bs.length)

theorem writeAt_length {buf bs : List UInt8} {off : ℕ} (h : off + bs.length ≤ buf.length) :
    (writeAt buf off bs).length = buf.length := by
  simp [writeAt]; omega

/-- The bytes before a write are untouched, and the written ones follow them. -/
theorem take_writeAt {buf bs : List UInt8} {off : ℕ} (h : off ≤ buf.length) :
    (writeAt buf off bs).take (off + bs.length) = buf.take off ++ bs := by
  have hl : (buf.take off ++ bs).length = off + bs.length := by simp; omega
  rw [writeAt, ← hl, List.take_left]

theorem take_writeAt_zero (buf bs : List UInt8) : (writeAt buf 0 bs).take bs.length = bs := by
  simp [writeAt]

@[simp] theorem writeAt_nil (buf : List UInt8) (off : ℕ) :
    writeAt buf off [] = buf := by simp [writeAt]

theorem writeAt_append {buf : List UInt8} {off : ℕ} (h : off ≤ buf.length) (a b : List UInt8) :
    writeAt (writeAt buf off a) (off + a.length) b = writeAt buf off (a ++ b) := by
  have hl : (buf.take off ++ a).length = off + a.length := by simp; omega
  have hrest : (writeAt buf off a).drop (off + a.length + b.length) = buf.drop
      (off + (a ++ b).length) := by
    rw [writeAt, ← List.drop_drop, List.drop_left' hl, List.drop_drop, List.length_append,
      Nat.add_assoc]
  rw [writeAt, hrest, take_writeAt h, writeAt, List.append_assoc (buf.take off)]

theorem writeAt_filled {w r b : List UInt8} {k : ℕ} (hk : k ≤ w.length) (hb : b <+: w.drop k) :
    writeAt (w.take k ++ r.drop k) k b = w.take (k + b.length) ++ r.drop (k + b.length) := by
  have hlen : (w.take k).length = k := by simp [hk]
  have hpast : (w.take k).drop (k + b.length) = [] := List.drop_eq_nil_of_le (by omega)
  rw [writeAt, List.take_left' hlen, List.take_add, ← List.prefix_iff_eq_take.1 hb,
    List.drop_append, hlen, hpast, List.nil_append, List.drop_drop, Nat.add_sub_cancel_left]

theorem getElem?_writeAt_of_lt {buf bs : List UInt8} {off p : ℕ} (h : p < off)
    (hp : p < buf.length) :
    (writeAt buf off bs)[p]? = buf[p]? := by
  rw [writeAt, List.append_assoc, List.getElem?_append_left (by simp; omega),
    List.getElem?_take_of_lt h]

theorem getElem?_writeAt_of_ge {buf bs : List UInt8} {off p : ℕ} (h : off + bs.length ≤ p)
    (hoff : off ≤ buf.length) :
    (writeAt buf off bs)[p]? = buf[p]? := by
  have hlen : (buf.take off ++ bs).length = off + bs.length := by simp; omega
  rw [writeAt, List.getElem?_append_right (by omega), hlen, List.getElem?_drop,
    Nat.add_sub_cancel' h]

theorem drop_take_append_drop {α : Type*} (l : List α) (m n : ℕ) :
    (l.drop m).take n ++ l.drop (m + n) = l.drop m := by
  rw [← List.drop_drop, List.take_append_drop]

end Bytes
