import Mathlib.Data.List.Basic

/-! Copying one block of cells over another, as `memcpy` does. -/

namespace Tapip.Foundation.Bytes

variable {α : Type*}

def memcpy (dst : List α) (off : ℕ) (src : List α) : List α :=
  dst.take off ++ src ++ dst.drop (off + src.length)

def slice (xs : List α) (off len : ℕ) : List α := (xs.drop off).take len

lemma memcpy_length (dst src : List α) (off : ℕ) (h : off + src.length ≤ dst.length) :
    (memcpy dst off src).length = dst.length := by
  simp only [memcpy, List.length_append, List.length_take, List.length_drop]
  omega

lemma le_memcpy_length (dst src : List α) (off : ℕ) : dst.length ≤ (memcpy dst off src).length := by
  simp only [memcpy, List.length_append, List.length_take, List.length_drop]
  omega

lemma memcpy_getElem? (dst src : List α) (off i : ℕ) (h : off + src.length ≤ dst.length) :
    (memcpy dst off src)[i]? = if off ≤ i ∧ i < off + src.length then src[i - off]? else dst[i]? := by
  have ht : (dst.take off).length = off := by
    rw [List.length_take]
    omega
  rw [memcpy, List.append_assoc]
  rcases Nat.lt_or_ge i off with hi | hi
  · rw [List.getElem?_append_left (by omega), List.getElem?_take_of_lt hi, if_neg (by omega)]
  · rw [List.getElem?_append_right (by omega), ht]
    rcases Nat.lt_or_ge (i - off) src.length with hj | hj
    · rw [List.getElem?_append_left hj, if_pos (by omega)]
    · rw [List.getElem?_append_right hj, List.getElem?_drop, if_neg (by omega)]
      congr 1
      omega

lemma memcpy_getElem?_of_not_mem (dst src : List α) (off i : ℕ) (h : off + src.length ≤ dst.length)
    (hi : i < off ∨ off + src.length ≤ i) : (memcpy dst off src)[i]? = dst[i]? := by
  rw [memcpy_getElem? dst src off i h, if_neg (by omega)]

lemma memcpy_append (hd d src : List α) : memcpy (hd ++ d) hd.length src = hd ++ src ++ d.drop src.length := by
  rw [memcpy, List.take_left, List.drop_append]
  simp

@[simp] lemma slice_length (xs : List α) (off len : ℕ) : (slice xs off len).length = min len (xs.length - off) := by
  simp [slice]

lemma slice_getElem? (xs : List α) (off len i : ℕ) :
    (slice xs off len)[i]? = if i < len then xs[off + i]? else none := by
  rw [slice, List.getElem?_take, List.getElem?_drop]

lemma slice_congr {xs ys : List α} {off len : ℕ} (h : ∀ i, i < len → xs[off + i]? = ys[off + i]?) :
    slice xs off len = slice ys off len := by
  apply List.ext_getElem?
  intro i
  rw [slice_getElem?, slice_getElem?]
  split_ifs with hi
  · exact h i hi
  · rfl

lemma slice_append (xs : List α) (off m n : ℕ) : slice xs off m ++ slice xs (off + m) n = slice xs off (m + n) := by
  rw [slice, slice, slice, List.take_add, List.drop_drop]

lemma slice_memcpy_self (dst src : List α) {off : ℕ} (h : off ≤ dst.length) :
    slice (memcpy dst off src) off src.length = src := by
  have ht : (dst.take off).length = off := by
    rw [List.length_take]
    omega
  rw [slice, memcpy, List.append_assoc, List.drop_append_of_le_length (by omega), List.drop_of_length_le (by omega),
    List.nil_append, List.take_left]

lemma slice_memcpy_of_disjoint {dst src : List α} {off i n : ℕ} (h : off + src.length ≤ dst.length)
    (hd : i + n ≤ off ∨ off + src.length ≤ i) : slice (memcpy dst off src) i n = slice dst i n := by
  apply slice_congr
  intro j hj
  exact memcpy_getElem?_of_not_mem dst src off (i + j) h (by omega)

lemma slice_memcpy (dst src : List α) {off i n : ℕ} (h : off + n ≤ dst.length) (hi : i + src.length ≤ n) :
    slice (memcpy dst (off + i) src) off n = memcpy (slice dst off n) i src := by
  have hl : (slice dst off n).length = n := by
    rw [slice_length]
    omega
  apply List.ext_getElem?
  intro j
  rw [slice_getElem?, memcpy_getElem? _ _ _ _ (by omega), memcpy_getElem? _ _ _ _ (by omega), slice_getElem?]
  by_cases hj : i ≤ j ∧ j < i + src.length
  · rw [if_pos (by omega), if_pos (by omega), if_pos hj]
    congr 1
    omega
  · have hb : ¬(off + i ≤ off + j ∧ off + j < off + i + src.length) := by omega
    rw [if_neg hb, if_neg hj]

lemma memcpy_zero (dst src : List α) : memcpy dst 0 src = src ++ dst.drop src.length := by
  rw [memcpy, List.take_zero, List.nil_append, Nat.zero_add]

lemma memcpy_memcpy_zero (dst a b : List α) : memcpy (memcpy dst 0 a) a.length b = memcpy dst 0 (a ++ b) := by
  rw [memcpy_zero, memcpy_append, memcpy_zero, List.drop_drop, List.length_append]

end Tapip.Foundation.Bytes
