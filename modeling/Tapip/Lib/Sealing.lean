import Tapip.Lib.Checksum
import Tapip.Net.Pkb

/-! A checksum field that is filled from the bytes around it. -/

namespace Tapip.Lib.Sealing

open Foundation.Bytes Foundation.OnesComplement Net.ByteOrder Net.Pkb Checksum

variable {d : List UInt8} {i : ℕ}

section Words

lemma drop_eq_cons (h : i < d.length) : d.drop i = d.getD i 0 :: d.drop (i + 1) := by
  rw [List.drop_eq_getElem_cons h, List.getD_eq_getElem?_getD, List.getElem?_eq_getElem h]
  rfl

lemma words_split (h : i + 2 ≤ d.length) (he : i % 2 = 0) :
    (words d).sum = (words (d.take i)).sum + (loadShortAt d i).toNat + (words (d.drop (i + 2))).sum := by
  have hlen : (d.take i).length % 2 = 0 := by
    rw [List.length_take]
    omega
  have hd : d.drop i = d.getD i 0 :: d.getD (i + 1) 0 :: d.drop (i + 2) := by
    rw [drop_eq_cons (by omega), drop_eq_cons (by omega)]
  conv_lhs => rw [← List.take_append_drop i d, words_append _ _ hlen, hd, words, List.sum_append, List.sum_cons]
  rw [loadShortAt, loadShort_toNat]
  omega

lemma words_storeShortAt (h : i + 2 ≤ d.length) (he : i % 2 = 0) (v : UInt16) :
    (words (storeShortAt d i v)).sum + (loadShortAt d i).toNat = (words d).sum + v.toNat := by
  have hs : i + 2 ≤ (storeShortAt d i v).length := by rwa [storeShortAt_length h]
  rw [words_split hs he, words_split h he, storeShortAt_take _ _ _ _ h le_rfl, storeShortAt_drop _ _ _ _ h le_rfl,
    loadShortAt_storeShortAt h]
  omega

lemma slice_storeShortAt {base len : ℕ} (h : base + len ≤ d.length) (hi : i + 2 ≤ len) (v : UInt16) :
    slice (storeShortAt d (base + i) v) base len = storeShortAt (slice d base len) i v :=
  slice_memcpy d _ h hi

lemma words_sum_eq_zero (d : List UInt8) : (words d).sum = 0 ↔ ∀ b ∈ d, b = 0 := by
  induction d using words.induct with
  | case1 b0 b1 data ih =>
    have h0 : b0.toNat = 0 ↔ b0 = 0 := UInt8.toNat_inj (b := 0)
    have h1 : b1.toNat = 0 ↔ b1 = 0 := UInt8.toNat_inj (b := 0)
    simp only [words, List.sum_cons, List.mem_cons, forall_eq_or_imp, ← ih, ← h0, ← h1]
    omega
  | case2 b =>
    have h : b.toNat = 0 ↔ b = 0 := UInt8.toNat_inj (b := 0)
    simp [words, h]
  | case3 => simp [words]

end Words

section Verify

variable {origsum : UInt32}

lemma checksum_eq_zero_iff (d : List UInt8) (origsum : UInt32) : checksum d origsum = 0 ↔
    0 < (origsum.toNat + (words d).sum) % 2 ^ 32 ∧ 0xffff ∣ (origsum.toNat + (words d).sum) % 2 ^ 32 := by
  have hc := canon_lt (B := 0x10000) (by norm_num) ((origsum.toNat + (words d).sum) % 2 ^ 32)
  rw [← UInt16.toNat_inj, checksum_toNat, ← canon_eq_pred_iff (B := 0x10000) (by norm_num)]
  simp only [UInt16.toNat_zero]
  omega

lemma checksum_sealed (h : i + 2 ≤ d.length) (he : i % 2 = 0) (hz : loadShortAt d i = 0) :
    checksum (storeShortAt d i (checksum d origsum)) origsum = 0 := by
  have hw := words_storeShortAt h he (checksum d origsum)
  rw [hz, UInt16.toNat_zero, Nat.add_zero, checksum_toNat] at hw
  have hlt : (origsum.toNat + (words d).sum) % 2 ^ 32 < 0x10000 * 0x10000 := Nat.mod_lt _ (by norm_num)
  obtain ⟨hfit, hpos, hdvd⟩ := canon_complement (B := 0x10000) (by norm_num) hlt
  have hsum : (origsum.toNat + (words (storeShortAt d i (checksum d origsum))).sum) % 2 ^ 32 =
      (origsum.toNat + (words d).sum) % 2 ^ 32 +
        (0x10000 - 1 - canon 0x10000 ((origsum.toNat + (words d).sum) % 2 ^ 32)) := by
    rw [hw]
    omega
  rw [checksum_eq_zero_iff, hsum]
  exact ⟨hpos, hdvd⟩

lemma sum_wraps_iff {n : ℕ} (hn : n < 2 ^ 32) (hpos : 0 < n) (hdvd : 0xffff ∣ n) :
    (0 < (n + 0xffff) % 2 ^ 32 ∧ 0xffff ∣ (n + 0xffff) % 2 ^ 32) ↔ n ≠ 2 ^ 32 - 1 := by
  obtain ⟨k, rfl⟩ := hdvd
  constructor
  · rintro ⟨-, hd⟩ he
    rw [he] at hd
    revert hd
    decide
  · intro hne
    have hk : k < 65537 := by omega
    have hsum : (0xffff * k + 0xffff) % 2 ^ 32 = 0xffff * (k + 1) := by omega
    rw [hsum]
    exact ⟨by omega, Nat.dvd_mul_right _ _⟩

lemma checksum_sealed_iff (h : i + 2 ≤ d.length) (he : i % 2 = 0) (hz : loadShortAt d i = 0) :
    checksum (storeShortAt d i (if checksum d origsum = 0 then 0xffff else checksum d origsum)) origsum = 0 ↔
      (origsum.toNat + (words d).sum) % 2 ^ 32 ≠ 2 ^ 32 - 1 := by
  by_cases hc : checksum d origsum = 0
  · rw [if_pos hc, checksum_eq_zero_iff]
    have hw := words_storeShortAt h he 0xffff
    rw [hz, UInt16.toNat_zero, Nat.add_zero] at hw
    obtain ⟨hpos, hdvd⟩ := (checksum_eq_zero_iff _ _).mp hc
    have hsum : (origsum.toNat + (words (storeShortAt d i 0xffff)).sum) % 2 ^ 32 =
        ((origsum.toNat + (words d).sum) % 2 ^ 32 + 0xffff) % 2 ^ 32 := by
      rw [hw, show (0xffff : UInt16).toNat = 0xffff from rfl]
      omega
    rw [hsum]
    exact sum_wraps_iff (Nat.mod_lt _ (by norm_num)) hpos hdvd
  · rw [if_neg hc]
    refine iff_of_true (checksum_sealed h he hz) ?_
    intro hall
    apply hc
    rw [checksum_eq_zero_iff, hall]
    decide

end Verify

end Tapip.Lib.Sealing
