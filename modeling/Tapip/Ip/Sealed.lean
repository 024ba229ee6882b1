import Tapip.Ip.Emit
import Tapip.Lib.Sealing

/-! The header checksum that `ip_set_checksum` writes, and the fragments that carry it. -/

namespace Tapip.Ip.Sealed

open Foundation.Bytes Foundation.OnesComplement Net.ByteOrder Net.Pkb Lib.Checksum Lib.Sealing Header Frag
open FragQueue ReassemblySound Emit

section Header

variable {pkb : Pkbuf}

lemma iphlen_setShort {i : ℕ} {v : UInt16} (h : i + 2 ≤ pkb.pkData.length) (hi : 15 ≤ i) :
    iphlen (setShort i pkb v) = iphlen pkb :=
  iphlen_congr (setShort_getElem? h (by omega))

lemma iphlen_ipSetChecksum (h : 26 ≤ pkb.pkData.length) : iphlen (ipSetChecksum pkb) = iphlen pkb := by
  have h' : 26 ≤ (setShort 24 pkb 0).pkData.length := le_setShort h
  simp only [ipSetChecksum, setIpCksum]
  rw [iphlen_setShort h' (by omega), iphlen_setShort h (by omega)]

lemma ipSetChecksum_verifies (hh : IP_HRD_SZ ≤ iphlen pkb) (hl : ETH_HRD_SZ + iphlen pkb ≤ pkb.pkData.length) :
    ipChksum (slice (ipSetChecksum pkb).pkData ETH_HRD_SZ (iphlen pkb)) = 0 := by
  obtain ⟨he, hi⟩ := header_sizes
  have hlen : (setIpCksum pkb 0).pkData.length = pkb.pkData.length := setShort_length (by omega)
  have hhlen : iphlen (setIpCksum pkb 0) = iphlen pkb := iphlen_setShort (by omega) (by omega)
  have hcut : slice (setIpCksum pkb 0).pkData ETH_HRD_SZ (iphlen pkb) =
      storeShortAt (slice pkb.pkData ETH_HRD_SZ (iphlen pkb)) 10 0 :=
    slice_storeShortAt (i := 10) hl (by omega) 0
  have hslice : (slice pkb.pkData ETH_HRD_SZ (iphlen pkb)).length = iphlen pkb := by
    rw [slice_length]
    omega
  have hseal : slice (ipSetChecksum pkb).pkData ETH_HRD_SZ (iphlen pkb) =
      storeShortAt (slice (setIpCksum pkb 0).pkData ETH_HRD_SZ (iphlen pkb)) 10
        (checksum (slice (setIpCksum pkb 0).pkData ETH_HRD_SZ (iphlen pkb)) 0) := by
    rw [ipSetChecksum, hhlen]
    exact slice_storeShortAt (i := 10) (by omega) (by omega) _
  rw [ipChksum, hseal]
  apply checksum_sealed
  · rw [hcut, storeShortAt_length (by omega)]
    omega
  · rfl
  · rw [hcut]
    exact loadShortAt_storeShortAt (by omega)

end Header

section Rfc

/-- What RFC 1071 makes of the words of `data` as they lie in memory. -/
def memoryChecksum (data : List UInt8) : ℕ := 0xffff - onesSum 0x10000 (words data)

lemma checksum_memory {data : List UInt8} (h : data.length ≤ 0xffff) :
    (checksum data 0).toNat = memoryChecksum data := by
  have hle := words_sum_le data
  have hlt : (words data).sum < 2 ^ 32 := by omega
  rw [memoryChecksum, onesSum_eq (by norm_num) _ (words_lt data), checksum_toNat, UInt32.toNat_zero, Nat.zero_add,
    Nat.mod_eq_of_lt hlt]

lemma checksum_append (xs ys : List UInt8) (origsum : UInt32) (h : xs.length % 2 = 0) :
    checksum (xs ++ ys) origsum = checksum ys (sum xs origsum) := by
  rw [← UInt16.toNat_inj, checksum_toNat, checksum_toNat, sum_toNat, words_append _ _ h, List.sum_append]
  congr 2
  omega

theorem checksum_correct : (∀ data : List UInt8, data.length ≤ 0xffff →
      (ipChksum data).toNat = memoryChecksum data ∧ (icmpChksum data).toNat = memoryChecksum data) ∧
    (∀ (xs ys : List UInt8) (origsum : UInt32), xs.length % 2 = 0 →
      checksum (xs ++ ys) origsum = checksum ys (sum xs origsum)) ∧
    ∀ pkb : Pkbuf, 20 ≤ iphlen pkb → iphlen pkb ≤ 60 → ETH_HRD_SZ + iphlen pkb ≤ pkb.pkData.length →
      ipChksum (slice (ipSetChecksum pkb).pkData ETH_HRD_SZ (iphlen (ipSetChecksum pkb))) = 0 := by
  refine ⟨fun data h => ⟨checksum_memory h, checksum_memory h⟩, checksum_append, fun pkb hge hle hl => ?_⟩
  have he : ETH_HRD_SZ = 14 := rfl
  rw [iphlen_ipSetChecksum (by omega)]
  exact ipSetChecksum_verifies hge hl

def bareHeader : Pkbuf :=
  { allocPkb 0 34 with pkData := List.replicate 14 0 ++ 0x45 :: List.replicate 19 0 }

theorem checksum_correct_bare : (ipChksum [1, 2, 3]).toNat = memoryChecksum [1, 2, 3] ∧
    checksum ([1, 2] ++ [3]) 0 = checksum [3] (sum [1, 2] 0) ∧
    ipChksum (slice (ipSetChecksum bareHeader).pkData ETH_HRD_SZ (iphlen (ipSetChecksum bareHeader))) = 0 :=
  ⟨(checksum_correct.1 [1, 2, 3] (by decide)).1, checksum_correct.2.1 [1, 2] [3] 0 rfl,
    checksum_correct.2.2 bareHeader (by decide) (by decide) (by decide)⟩

end Rfc

section Shape

structure Shape (mtu : ℤ) (off : ℕ) (last : Bool) (f : Pkbuf) : Prop where
  pkLen : f.pkLen = ETH_HRD_SZ + (ntohs (ipLen f)).toNat
  fits : ((ntohs (ipLen f)).toNat : ℤ) ≤ mtu
  total : (ntohs (ipLen f)).toNat = iphlen f + (payload f).length
  pos : 0 < (payload f).length
  eight : last = false → 8 ∣ (payload f).length
  fragoff : (ntohs (ipFragoff f)).toNat = (if last then 0 else 0x2000) + off / 8
  off_eight : 8 ∣ off
  off_lt : off / 8 < 0x2000
  cksum : ipChksum (slice f.pkData ETH_HRD_SZ (iphlen f)) = 0

variable {pkb : Pkbuf} {addr dlen off : ℕ} {mtu : ℤ} {mfBit : UInt16} {last : Bool}

section Fit

variable (hfit : ETH_HRD_SZ + iphlen pkb + off + dlen ≤ pkb.pkData.length) (hge : IP_HRD_SZ ≤ iphlen pkb)

include hfit hge

lemma iphlen_ipFrag : iphlen (ipFrag addr pkb (iphlen pkb) dlen off mfBit) = iphlen pkb := by
  obtain ⟨he, hi⟩ := header_sizes
  refine iphlen_congr ?_
  rw [(ipFrag_bytes hfit hge).2 14 (by simp [Adjusted]), cut_getElem?_header hfit (by omega) (by omega)]

lemma ipFrag_seals : ∃ g, ipFrag addr pkb (iphlen pkb) dlen off mfBit = ipSetChecksum g ∧
    g.pkData.length = ETH_HRD_SZ + iphlen pkb + dlen := by
  obtain ⟨he, hi⟩ := header_sizes
  have hl := cut_length hfit
  refine ⟨_, rfl, ?_⟩
  simp only [allocPkb, setIpFragoff, setIpLen, setShort, memcpy_cut hfit]
  rw [storeShortAt_length, storeShortAt_length, hl]
  · omega
  · rw [storeShortAt_length (by omega)]
    omega

lemma ipFrag_verifies :
    ipChksum (slice (ipFrag addr pkb (iphlen pkb) dlen off mfBit).pkData ETH_HRD_SZ (iphlen pkb)) = 0 := by
  obtain ⟨he, hi⟩ := header_sizes
  have hhlen := @iphlen_ipFrag _ addr _ _ mfBit hfit hge
  obtain ⟨g, heq, hg⟩ := @ipFrag_seals _ addr _ _ mfBit hfit hge
  rw [heq] at hhlen ⊢
  rw [iphlen_ipSetChecksum (by omega)] at hhlen
  rw [← hhlen]
  exact ipSetChecksum_verifies (by omega) (by omega)

lemma payload_ipFrag : (payload (ipFrag addr pkb (iphlen pkb) dlen off mfBit)).length = dlen := by
  rw [payload, iphlen_ipFrag hfit hge, List.length_drop, (ipFrag_bytes hfit hge).1]
  omega

lemma shape_ipFrag (hpos : 0 < dlen) (height : last = false → 8 ∣ dlen) (hoff : 8 ∣ off)
    (hlt : iphlen pkb + off + dlen < 2 ^ 16) (hm : ((iphlen pkb + dlen : ℕ) : ℤ) ≤ mtu)
    (hmf : mfBit = if !last then IP_FRAG_MF else 0) :
    Shape mtu off last (ipFrag addr pkb (iphlen pkb) dlen off mfBit) := by
  have hhlen := @iphlen_ipFrag _ addr _ _ mfBit hfit hge
  have hpay := @payload_ipFrag _ addr _ _ mfBit hfit hge
  obtain ⟨htotal, hfrag⟩ := @ipFrag_fields _ _ _ addr mfBit _ hfit hge
  have hshift : off >>> 3 = off / 8 := Nat.shiftRight_eq_div_pow off 3
  have hn : (ntohs (ipLen (ipFrag addr pkb (iphlen pkb) dlen off mfBit))).toNat = iphlen pkb + dlen := by
    rw [htotal, ntohs_htons, UInt16.toNat_ofNat', Nat.mod_eq_of_lt (by omega)]
  refine ⟨?_, ?_, ?_, ?_, ?_, ?_, hoff, by omega, ?_⟩
  · rw [hn, ← Nat.add_assoc]
    rfl
  · rwa [hn]
  · rw [hn, hhlen, hpay]
  · rwa [hpay]
  · rwa [hpay]
  · rw [hfrag, ntohs_htons, hmf, fragoff_toNat (by omega), hshift]
    cases last <;> rfl
  · rw [hhlen]
    exact ipFrag_verifies hfit hge

end Fit

lemma sum_take {α : Type} {g : ℕ → α} {l : α → ℕ} {q m i : ℕ} {rest : List α} (hg : ∀ j < q, l (g j) = m)
    (hi : i ≤ q) : ((((List.range q).map g ++ rest).take i).map l).sum = i * m := by
  have htake : ((List.range q).map g ++ rest).take i = (List.range i).map g := by
    rw [List.take_append_of_le_length (by simpa using hi), ← List.map_take, List.take_range, Nat.min_eq_left hi]
  have hmap : ((List.range i).map g).map l = (List.range i).map fun _ => m := by
    rw [List.map_map]
    apply List.map_congr_left
    intro j hj
    exact hg j (lt_of_lt_of_le (List.mem_range.mp hj) hi)
  rw [htake, hmap]
  simp

lemma ipSendFrag_nil (addr : ℕ) (hm : iphlen pkb + 8 ≤ mtu) (hz : (ntohs (ipLen pkb)).toNat = iphlen pkb) :
    ipSendFrag addr mtu pkb = some [] := by
  have hlen : ((ntohs (ipLen pkb)).toNat : ℤ) - iphlen pkb = 0 := by omega
  have hneg : ¬(0 : ℤ) > (mtu - iphlen pkb) / 8 * 8 := by omega
  simp [ipSendFrag, hlen, ipSendFragLoop, hneg]

theorem ipSendFrag_shape (addr : ℕ) (hge : 20 ≤ iphlen pkb) (hle : iphlen pkb ≤ 60) (hfrag : ipFragoff pkb = 0)
    (htotal : iphlen pkb ≤ (ntohs (ipLen pkb)).toNat)
    (hlen : ETH_HRD_SZ + (ntohs (ipLen pkb)).toNat ≤ pkb.pkData.length) (hm : iphlen pkb + 8 ≤ mtu) :
    ∃ frags, ipSendFrag addr mtu pkb = some frags ∧ ∀ i f, frags[i]? = some f →
      Shape mtu ((frags.take i).map fun g => (payload g).length).sum (i + 1 == frags.length) f := by
  obtain ⟨dlen, hd⟩ := Nat.exists_eq_add_of_le htotal
  rcases Nat.eq_zero_or_pos dlen with rfl | hpos
  · exact ⟨[], ipSendFrag_nil addr hm (by omega), by simp⟩
  obtain ⟨n, rfl⟩ : ∃ n : ℕ, mtu = n := ⟨mtu.toNat, by omega⟩
  obtain ⟨q, h1, h2, hq⟩ := ipSendFrag_list addr (show iphlen pkb + 8 ≤ n by omega) hd hpos
  have hle' : maxLen pkb n ≤ n - iphlen pkb := Nat.div_mul_le_self _ _
  have hmax : 8 ≤ maxLen pkb n := by
    simp only [maxLen]
    omega
  have height : 8 ∣ maxLen pkb n := Nat.dvd_mul_left 8 _
  have h16 := (ntohs (ipLen pkb)).toNat_lt
  generalize maxLen pkb n = m at *
  have hin : ∀ i < q, i * m + m ≤ q * m := by
    intro i hi
    rw [← Nat.succ_mul]
    exact Nat.mul_le_mul_right m hi
  have hmf : ipFragoff pkb &&& IP_FRAG_MF = 0 := by
    rw [hfrag]
    rfl
  rw [hmf] at hq
  refine ⟨_, hq, fun i f hf => ?_⟩
  have hpay : ∀ j < q, (payload (ipFrag (addr + j) pkb (iphlen pkb) m (j * m) IP_FRAG_MF)).length = m := by
    intro j hj
    have := hin j hj
    exact payload_ipFrag (by omega) hge
  have hi : i ≤ q := by
    have := (List.getElem?_eq_some_iff.mp hf).1
    simp at this
    omega
  rw [sum_take (l := fun g => (payload g).length) hpay hi]
  simp only [List.length_append, List.length_map, List.length_range, List.length_singleton]
  rcases Nat.lt_or_eq_of_le hi with hlt | rfl
  · rw [List.getElem?_append_left (by simpa using hlt)] at hf
    simp only [List.getElem?_map, List.getElem?_range hlt, Option.map_some, Option.some.injEq] at hf
    subst hf
    have := hin i hlt
    have hne : (i + 1 == q + 1) = false := by simp; omega
    rw [hne]
    exact shape_ipFrag (by omega) hge (by omega) (fun _ => height) (height.mul_left i) (by omega) (by omega) rfl
  · rw [List.getElem?_append_right (by simp)] at hf
    simp only [List.length_map, List.length_range, Nat.sub_self, List.getElem?_cons_zero, Option.some.injEq] at hf
    subst hf
    rw [beq_self_eq_true]
    exact shape_ipFrag (by omega) hge (by omega) (by simp) (height.mul_left i) (by omega) (by omega) rfl

def twenty : Pkbuf :=
  { allocPkb 0 54 with
    pkData := List.replicate 14 0 ++ [0x45, 0, 0, 40, 0, 7, 0, 0] ++ List.replicate 12 0 ++ List.replicate 20 1 }

theorem ipSendFrag_shape_three : (ipSendFrag 1 28 twenty).map List.length = some 3 ∧
    ∃ frags, ipSendFrag 1 28 twenty = some frags ∧ ∀ i f, frags[i]? = some f →
      Shape 28 ((frags.take i).map fun g => (payload g).length).sum (i + 1 == frags.length) f :=
  ⟨by decide +kernel, ipSendFrag_shape 1 (by decide) (by decide) (by decide) (by decide) (by decide) (by decide)⟩

end Shape

end Tapip.Ip.Sealed
