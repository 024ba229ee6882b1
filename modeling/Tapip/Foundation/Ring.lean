import Tapip.Foundation.Bytes

/-! Cells read round a buffer: position `p` is cell `p % buf.length`. -/

namespace Tapip.Foundation.Ring

open Bytes

variable {α : Type*} [Inhabited α]

def cell (buf : List α) (p : ℕ) : α := buf.getD (p % buf.length) default

def window (buf : List α) (start n : ℕ) : List α := (List.range n).map (fun i => cell buf (start + i))

@[simp] lemma window_length (buf : List α) (start n : ℕ) : (window buf start n).length = n := by
  simp [window]

@[simp] lemma window_zero (buf : List α) (start : ℕ) : window buf start 0 = [] := rfl

lemma window_add (buf : List α) (start m n : ℕ) :
    window buf start (m + n) = window buf start m ++ window buf (start + m) n := by
  simp [window, List.range_add, Function.comp_def, Nat.add_assoc]

lemma window_take (buf : List α) (start : ℕ) {m n : ℕ} (h : m ≤ n) :
    (window buf start n).take m = window buf start m := by
  obtain ⟨k, rfl⟩ := Nat.exists_eq_add_of_le h
  rw [window_add, List.take_left' (by simp)]

lemma window_drop (buf : List α) (start : ℕ) {m n : ℕ} (h : m ≤ n) :
    (window buf start n).drop m = window buf (start + m) (n - m) := by
  obtain ⟨k, rfl⟩ := Nat.exists_eq_add_of_le h
  rw [window_add, List.drop_left' (by simp), Nat.add_sub_cancel_left]

lemma window_add_length (buf : List α) (start n : ℕ) : window buf (start + buf.length) n = window buf start n := by
  simp only [window, cell]
  refine List.map_congr_left ?_
  intro i _
  rw [Nat.add_right_comm, Nat.add_mod_right]

lemma window_congr {buf buf' : List α} {start n : ℕ} (h : ∀ i < n, cell buf (start + i) = cell buf' (start + i)) :
    window buf start n = window buf' start n := by
  refine List.map_congr_left ?_
  intro i hi
  exact h i (List.mem_range.mp hi)

lemma window_eq_slice {buf : List α} {start n : ℕ} (h : start % buf.length + n ≤ buf.length) :
    window buf start n = slice buf (start % buf.length) n := by
  apply List.ext_getElem?
  intro i
  rcases Nat.lt_or_ge i n with hi | hi
  · have hmod : (start + i) % buf.length = start % buf.length + i := by
      rw [Nat.add_mod, Nat.mod_eq_of_lt (show i < buf.length by omega),
        Nat.mod_eq_of_lt (show start % buf.length + i < buf.length by omega)]
    have hlt : start % buf.length + i < buf.length := by omega
    rw [slice_getElem?, if_pos hi, List.getElem?_eq_getElem hlt]
    simp [window, cell, hi, hmod, List.getD_eq_getElem?_getD, hlt]
  · rw [List.getElem?_eq_none (by simpa using hi), slice_getElem?, if_neg (by omega)]

lemma slice_eq_window {buf : List α} {idx pos n : ℕ} (hmod : idx % buf.length = pos % buf.length)
    (h : idx + n ≤ buf.length) : slice buf idx n = window buf pos n := by
  cases n with
  | zero => simp [slice]
  | succ n =>
    have hidx : idx = pos % buf.length := by
      rw [← hmod, Nat.mod_eq_of_lt (by omega)]
    rw [window_eq_slice (by omega), ← hidx]

section Write

variable {buf src : List α} {start used : ℕ}
  (hfree : used + src.length ≤ buf.length)
  (hroom : (start + used) % buf.length + src.length ≤ buf.length)

include hroom in
lemma window_memcpy_self : window (memcpy buf ((start + used) % buf.length) src) (start + used) src.length = src := by
  have hlen := memcpy_length buf src _ hroom
  rw [window_eq_slice (by rw [hlen]; exact hroom), hlen]
  apply List.ext_getElem?
  intro i
  rw [slice_getElem?]
  split
  · rw [memcpy_getElem? _ _ _ _ hroom, if_pos (by omega), Nat.add_sub_cancel_left]
  · rw [List.getElem?_eq_none (by omega)]

include hfree hroom in
lemma window_memcpy_used :
    window (memcpy buf ((start + used) % buf.length) src) start used = window buf start used := by
  have hlen := memcpy_length buf src _ hroom
  refine window_congr ?_
  intro i hi
  have hpos : 0 < buf.length := by omega
  have hmod := Nat.mod_lt (start + i) hpos
  have hdiff : (start + used) % buf.length = ((start + i) % buf.length + (used - i)) % buf.length := by
    rw [Nat.mod_add_mod]
    congr 1
    omega
  have hout : (start + i) % buf.length < (start + used) % buf.length ∨
      (start + used) % buf.length + src.length ≤ (start + i) % buf.length := by
    generalize (start + i) % buf.length = a at hdiff hmod ⊢
    generalize (start + used) % buf.length = b at hdiff ⊢
    rcases Nat.lt_or_ge (a + (used - i)) buf.length with hlt | hge
    · rw [Nat.mod_eq_of_lt hlt] at hdiff
      omega
    · rw [Nat.mod_eq_sub_mod hge, Nat.mod_eq_of_lt (by omega)] at hdiff
      omega
  simp only [cell, hlen, List.getD_eq_getElem?_getD]
  rw [memcpy_getElem?_of_not_mem _ _ _ _ hroom hout]

include hfree hroom in
lemma window_memcpy : window (memcpy buf ((start + used) % buf.length) src) start (used + src.length) =
      window buf start used ++ src := by
  rw [window_add, window_memcpy_self hroom, window_memcpy_used hfree hroom]

end Write

lemma window_memcpy_at {buf : List α} (src : List α) {idx start used : ℕ}
    (hmod : idx % buf.length = (start + used) % buf.length) (hfree : used + src.length ≤ buf.length)
    (h : idx + src.length ≤ buf.length) :
    window (memcpy buf idx src) start (used + src.length) = window buf start used ++ src := by
  cases src with
  | nil => simp [memcpy]
  | cons x src =>
    rw [List.length_cons] at h hfree
    have hidx : idx = (start + used) % buf.length := by
      rw [← hmod, Nat.mod_eq_of_lt (by omega)]
    rw [hidx]
    exact window_memcpy (by rw [List.length_cons]; omega) (by rw [List.length_cons]; omega)

end Tapip.Foundation.Ring
