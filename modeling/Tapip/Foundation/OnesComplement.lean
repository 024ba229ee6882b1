import Mathlib.Data.Nat.ModEq
import Mathlib.Algebra.Order.BigOperators.Group.List
import Mathlib.Tactic.Linarith
import Mathlib.Tactic.Positivity
import Mathlib.Tactic.Ring

/-! One's complement addition of words below a base, and what becomes of a sum
when the two bytes of every word change places. -/

namespace Tapip.Foundation.OnesComplement

variable {n m : ℕ}

def endAround (B a b : ℕ) : ℕ := if a + b < B then a + b else a + b - B + 1

def onesSum (B : ℕ) (ws : List ℕ) : ℕ := ws.foldl (endAround B) 0

def canon (B n : ℕ) : ℕ := if n = 0 then 0 else (n - 1) % (B - 1) + 1

def fold (B n : ℕ) : ℕ := n % B + n / B

def swap (b n : ℕ) : ℕ := n / b + n % b * b

variable {B b : ℕ}

@[simp] lemma canon_zero : canon B 0 = 0 := by simp [canon]

lemma canon_lt (hB : 2 ≤ B) (n : ℕ) : canon B n < B := by
  unfold canon
  split
  · omega
  · have := Nat.mod_lt (n - 1) (by omega : B - 1 > 0)
    omega

lemma canon_pos (hn : 0 < n) : 0 < canon B n := by
  simp [canon, Nat.ne_of_gt hn]

lemma canon_modEq (n : ℕ) : canon B n ≡ n [MOD B - 1] := by
  unfold canon
  split
  · next h => rw [h]
  · next h =>
    have hh : (n - 1) % (B - 1) + 1 ≡ n - 1 + 1 [MOD B - 1] := (Nat.mod_modEq _ _).add_right 1
    rwa [Nat.sub_add_cancel (Nat.pos_of_ne_zero h)] at hh

lemma canon_of_lt (hn : n < B) : canon B n = n := by
  unfold canon
  split
  · omega
  · rw [Nat.mod_eq_of_lt (by omega)]
    omega

lemma canon_congr (hm : 0 < m) (hn : 0 < n) (h : m ≡ n [MOD B - 1]) : canon B m = canon B n := by
  have hp : m - 1 ≡ n - 1 [MOD B - 1] := by
    apply Nat.ModEq.add_right_cancel' 1
    rwa [Nat.sub_add_cancel hm, Nat.sub_add_cancel hn]
  simp only [canon, Nat.ne_of_gt hm, Nat.ne_of_gt hn, if_false]
  rw [hp]

lemma canon_eq_iff (hm : 0 < m) (hn : 0 < n) : canon B m = canon B n ↔ m ≡ n [MOD B - 1] := by
  refine ⟨fun h => ?_, canon_congr hm hn⟩
  exact (canon_modEq m).symm.trans (h ▸ canon_modEq n)

lemma canon_eq_pred_iff (hB : 2 ≤ B) : canon B n = B - 1 ↔ 0 < n ∧ B - 1 ∣ n := by
  have htop : canon B (B - 1) = B - 1 := canon_of_lt (by omega)
  have hself : B - 1 ≡ 0 [MOD B - 1] := Nat.modEq_zero_iff_dvd.mpr dvd_rfl
  constructor
  · intro h
    have hn : 0 < n := by
      rcases Nat.eq_zero_or_pos n with rfl | hn
      · rw [canon_zero] at h
        omega
      · exact hn
    rw [← htop, canon_eq_iff hn (by omega)] at h
    exact ⟨hn, Nat.modEq_zero_iff_dvd.mp (h.trans hself)⟩
  · rintro ⟨hn, hd⟩
    rw [← htop]
    exact canon_congr hn (by omega) ((Nat.modEq_zero_iff_dvd.mpr hd).trans hself.symm)

lemma canon_complement (hB : 2 ≤ B) (hn : n < B * B) : n + (B - 1 - canon B n) < B * B ∧
    0 < n + (B - 1 - canon B n) ∧ B - 1 ∣ n + (B - 1 - canon B n) := by
  have hc := canon_lt hB n
  have hdvd : B - 1 ∣ n + (B - 1 - canon B n) := by
    apply Nat.modEq_zero_iff_dvd.mp
    have hm := (canon_modEq (B := B) n).symm.add_right (B - 1 - canon B n)
    rw [Nat.add_sub_cancel' (by omega)] at hm
    exact hm.trans (Nat.modEq_zero_iff_dvd.mpr dvd_rfl)
  have hpos : 0 < n + (B - 1 - canon B n) := by
    rcases Nat.eq_zero_or_pos n with rfl | hp
    · rw [canon_zero]
      omega
    · omega
  refine ⟨?_, hpos, hdvd⟩
  rcases Nat.eq_zero_or_pos n with rfl | hp
  · rw [canon_zero]
    have hle := Nat.le_mul_self B
    omega
  have hone := canon_pos (B := B) hp
  obtain ⟨k, hk⟩ := hdvd
  obtain ⟨c, rfl⟩ := Nat.exists_eq_add_of_le' hB
  have hsq : (c + 2) * (c + 2) = c * c + 4 * c + 4 := by ring
  simp only [Nat.add_succ_sub_one] at hk hc ⊢
  have hle : k ≤ c + 3 := by
    by_contra hgt
    have hm : (c + 1) * (c + 4) ≤ (c + 1) * k := Nat.mul_le_mul_left (c + 1) (by omega)
    have hr : (c + 1) * (c + 4) = c * c + 5 * c + 4 := by ring
    omega
  have hm := Nat.mul_le_mul_left (c + 1) hle
  have hr : (c + 1) * (c + 3) = c * c + 4 * c + 3 := by ring
  omega

lemma endAround_modEq (hB : 2 ≤ B) (x y : ℕ) : endAround B x y ≡ x + y [MOD B - 1] := by
  unfold endAround
  split
  · rfl
  · next h =>
    have hs : x + y = x + y - B + 1 + (B - 1) := by omega
    conv_rhs => rw [hs]
    exact (Nat.add_modEq_right).symm

lemma endAround_canon (hB : 2 ≤ B) (n w : ℕ) (hw : w < B) : endAround B (canon B n) w = canon B (n + w) := by
  have hc := canon_lt hB n
  have hlt : endAround B (canon B n) w < B := by
    unfold endAround
    split <;> omega
  rcases Nat.eq_zero_or_pos (n + w) with h | h
  · obtain ⟨rfl, rfl⟩ : n = 0 ∧ w = 0 := by omega
    simp [endAround, canon, show B ≠ 0 by omega]
  · have hp : 0 < endAround B (canon B n) w := by
      unfold endAround
      split
      · rcases Nat.eq_zero_or_pos n with hn | hn
        · omega
        · have := canon_pos (B := B) hn
          omega
      · omega
    rw [← canon_of_lt hlt]
    exact canon_congr hp h ((endAround_modEq hB _ w).trans ((canon_modEq n).add_right w))

lemma foldl_endAround (hB : 2 ≤ B) (ws : List ℕ) (hw : ∀ w ∈ ws, w < B) (n : ℕ) :
    ws.foldl (endAround B) (canon B n) = canon B (n + ws.sum) := by
  induction ws generalizing n with
  | nil => simp
  | cons w ws ih =>
    rw [List.foldl_cons, endAround_canon hB n w (hw w (by simp)),
      ih (fun v hv => hw v (by simp [hv])), List.sum_cons, Nat.add_assoc]

lemma onesSum_eq (hB : 2 ≤ B) (ws : List ℕ) (hw : ∀ w ∈ ws, w < B) : onesSum B ws = canon B ws.sum := by
  simpa [onesSum] using foldl_endAround hB ws hw 0

lemma fold_modEq (hB : 2 ≤ B) (n : ℕ) : fold B n ≡ n [MOD B - 1] := by
  have hb : B ≡ 1 [MOD B - 1] := by
    have := (Nat.add_modEq_left (n := B - 1) (a := 1))
    rwa [Nat.sub_add_cancel (by omega)] at this
  have hh : n % B + B * (n / B) ≡ n % B + 1 * (n / B) [MOD B - 1] :=
    (Nat.ModEq.refl _).add (hb.mul_right _)
  rw [Nat.mod_add_div, Nat.one_mul] at hh
  exact hh.symm

lemma fold_pos (hn : 0 < n) : 0 < fold B n := by
  unfold fold
  rcases Nat.eq_zero_or_pos (n % B) with h | h
  · have hd := Nat.mod_add_div n B
    rcases Nat.eq_zero_or_pos (n / B) with h' | h'
    · simp [h, h'] at hd
      omega
    · omega
  · exact Nat.add_pos_left h _

lemma fold_fold_lt (hB : 2 ≤ B) (hn : n < B * B) : fold B (fold B n) < B := by
  have hd : n / B < B := Nat.div_lt_of_lt_mul hn
  have hm : n % B < B := Nat.mod_lt n (by omega)
  have hs : fold B n = n % B + n / B := rfl
  rcases Nat.lt_or_ge (fold B n) B with h | h
  · rw [fold, Nat.mod_eq_of_lt h, Nat.div_eq_of_lt h]
    omega
  · have hq : fold B n / B = 1 := Nat.div_eq_of_lt_le (by omega) (by omega)
    have hr : fold B n % B = fold B n - B := by
      rw [Nat.mod_eq_sub_mod h, Nat.mod_eq_of_lt (by omega)]
    rw [fold, hq, hr]
    omega

lemma fold_fold (hB : 2 ≤ B) (hn : n < B * B) : fold B (fold B n) = canon B n := by
  rcases Nat.eq_zero_or_pos n with rfl | hp
  · simp [fold]
  · rw [← canon_of_lt (fold_fold_lt hB hn)]
    exact canon_congr (fold_pos (fold_pos hp)) hp ((fold_modEq hB _).trans (fold_modEq hB n))

lemma swap_lt (hb : 0 < b) (hn : n < b * b) : swap b n < b * b := by
  have hd : n / b < b := Nat.div_lt_of_lt_mul hn
  have hm : n % b < b := Nat.mod_lt n hb
  have : n % b * b + b ≤ b * b := by
    rw [← Nat.succ_mul]
    exact Nat.mul_le_mul_right b hm
  unfold swap
  omega

lemma swap_modEq (hb : 2 ≤ b) (n : ℕ) : swap b n ≡ b * n [MOD b * b - 1] := by
  have hB : b * b ≡ 1 [MOD b * b - 1] := by
    have hp : 0 < b * b := by positivity
    have := (Nat.add_modEq_left (n := b * b - 1) (a := 1))
    rwa [Nat.sub_add_cancel hp] at this
  have hh : b * n = n % b * b + b * b * (n / b) := by
    conv_lhs => rw [← Nat.mod_add_div n b]
    ring
  rw [hh]
  have := (Nat.ModEq.refl (n := b * b - 1) (n % b * b)).add (hB.mul_right (n / b))
  rw [Nat.one_mul] at this
  exact (this.trans (by rw [swap, Nat.add_comm])).symm

lemma swap_pos (hb : 0 < b) (hn : 0 < n) : 0 < swap b n := by
  unfold swap
  rcases Nat.eq_zero_or_pos (n % b) with h | h
  · have hd := Nat.mod_add_div n b
    rcases Nat.eq_zero_or_pos (n / b) with h' | h'
    · simp [h, h'] at hd
      omega
    · omega
  · exact Nat.add_pos_right _ (Nat.mul_pos h hb)

lemma swap_canon (hb : 2 ≤ b) (n : ℕ) : swap b (canon (b * b) n) = canon (b * b) (b * n) := by
  have hB : 2 ≤ b * b := by nlinarith
  rcases Nat.eq_zero_or_pos n with rfl | hn
  · simp [swap]
  · have hc := canon_pos (B := b * b) hn
    rw [← canon_of_lt (swap_lt (by omega) (canon_lt hB n))]
    apply canon_congr (swap_pos (by omega) hc) (by positivity)
    exact (swap_modEq hb _).trans ((canon_modEq n).mul_left b)

lemma sum_swap_modEq (hb : 2 ≤ b) (ws : List ℕ) : (ws.map (swap b)).sum ≡ b * ws.sum [MOD b * b - 1] := by
  induction ws with
  | nil => simp [Nat.ModEq.refl]
  | cons w ws ih =>
    rw [List.map_cons, List.sum_cons, List.sum_cons, Nat.mul_add]
    exact (swap_modEq hb w).add ih

lemma canon_sum_swap (hb : 2 ≤ b) (ws : List ℕ) :
    canon (b * b) (ws.map (swap b)).sum = swap b (canon (b * b) ws.sum) := by
  rw [swap_canon hb]
  rcases Nat.eq_zero_or_pos ws.sum with h | h
  · have hz : ∀ w ∈ ws, w = 0 := List.sum_eq_zero_iff_forall_eq_nat.mp h
    have hs : (ws.map (swap b)).sum = 0 := by
      apply List.sum_eq_zero
      intro x hx
      obtain ⟨w, hw, rfl⟩ := List.mem_map.mp hx
      simp [hz w hw, swap]
    simp [h, hs]
  · obtain ⟨w, hw, hp⟩ : ∃ w ∈ ws, 0 < w := by
      by_contra hh
      push Not at hh
      have : ws.sum = 0 := List.sum_eq_zero (fun w hw => Nat.le_zero.mp (hh w hw))
      omega
    have hs : 0 < (ws.map (swap b)).sum := by
      have := List.single_le_sum (fun x _ => Nat.zero_le x) (swap b w) (List.mem_map_of_mem hw)
      have := swap_pos (b := b) (by omega) hp
      omega
    exact canon_congr hs (by positivity) (sum_swap_modEq hb ws)

lemma swap_complement (hb : 2 ≤ b) (hn : n < b * b) : swap b (b * b - 1 - n) = b * b - 1 - swap b n := by
  have hd : n / b < b := Nat.div_lt_of_lt_mul hn
  have hm : n % b < b := Nat.mod_lt n (by omega)
  obtain ⟨d, hd'⟩ := Nat.exists_eq_add_of_lt hd
  obtain ⟨m, hm'⟩ := Nat.exists_eq_add_of_lt hm
  have hN := Nat.mod_add_div n b
  have hc : b * b - 1 - n = m + b * d := by
    have h1 : b * b = b * (n / b + d + 1) := by rw [← hd']
    have h2 : b * (n / b + d + 1) = b * (n / b) + b * d + b := by ring
    omega
  have hmb : m < b := by omega
  have hdiv : (m + b * d) / b = d := by
    rw [Nat.add_mul_div_left _ _ (by omega), Nat.div_eq_of_lt hmb, Nat.zero_add]
  have hmod : (m + b * d) % b = m := by
    rw [Nat.add_mul_mod_self_left, Nat.mod_eq_of_lt hmb]
  rw [hc, swap, hdiv, hmod, swap]
  have h1 : b * b = (n % b + m + 1) * b := by rw [← hm']
  have h2 : (n % b + m + 1) * b = n % b * b + m * b + b := by ring
  omega

end Tapip.Foundation.OnesComplement
