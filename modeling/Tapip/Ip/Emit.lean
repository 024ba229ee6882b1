import Mathlib.Data.Nat.Bitwise
import Tapip.Ip.ReassemblySound

/-! The fragments `ipSendFrag` cuts a packet into. -/

namespace Tapip.Ip.Emit

open Foundation.Bytes Net.ByteOrder Net.Pkb Header Frag FragQueue
open ReassemblySound

def Adjusted (i : ℕ) : Prop := (16 ≤ i ∧ i < 18) ∨ (20 ≤ i ∧ i < 22) ∨ (24 ≤ i ∧ i < 26)

structure IsPiece (orig : Pkbuf) (m : ℕ) (x : Pkbuf) : Prop where
  checked : Checked x
  dvd : m ∣ ipoff x
  off_lt : ipoff x < plen (ipNtoh orig)
  plen_eq : plen x = min m (plen (ipNtoh orig) - ipoff x)
  mf : ipMF x = decide (ipoff x + m < plen (ipNtoh orig))
  payload_eq : payload x = slice (payload orig) (ipoff x) (plen x)
  header : ∀ i, ETH_HRD_SZ ≤ i → i < ETH_HRD_SZ + iphlen orig → ¬ Adjusted i →
    x.pkData[i]? = (ipNtoh orig).pkData[i]?

variable {pkb : Pkbuf} {dlen off addr : ℕ} {mfBit : UInt16}

section Bytes

variable {hlen : ℕ}

def cut (pkb : Pkbuf) (hlen dlen off : ℕ) : List UInt8 :=
  List.replicate ETH_HRD_SZ 0 ++ slice pkb.pkData ETH_HRD_SZ hlen ++
    slice pkb.pkData (ETH_HRD_SZ + hlen + off) dlen

section Cut

variable (h : ETH_HRD_SZ + hlen + off + dlen ≤ pkb.pkData.length)

include h

lemma cut_length : (cut pkb hlen dlen off).length = ETH_HRD_SZ + hlen + dlen := by
  simp only [cut, List.length_append, List.length_replicate, slice_length]
  omega

lemma cut_getElem?_header {i : ℕ} (hi : ETH_HRD_SZ ≤ i) (hi' : i < ETH_HRD_SZ + hlen) :
    (cut pkb hlen dlen off)[i]? = pkb.pkData[i]? := by
  rw [cut, List.getElem?_append_left, List.getElem?_append_right, slice_getElem?, if_pos]
  · simp only [List.length_replicate]
    congr 1
    omega
  · simp only [List.length_replicate]
    omega
  · simpa using hi
  · simp only [List.length_append, List.length_replicate, slice_length]
    omega

lemma cut_drop :
    (cut pkb hlen dlen off).drop (ETH_HRD_SZ + hlen) = slice pkb.pkData (ETH_HRD_SZ + hlen + off) dlen := by
  rw [cut, List.drop_left']
  simp only [List.length_append, List.length_replicate, slice_length]
  omega

lemma memcpy_cut : memcpy (memcpy (List.replicate (ETH_HRD_SZ + hlen + dlen) 0) ETH_HRD_SZ
      (slice pkb.pkData ETH_HRD_SZ hlen)) (ETH_HRD_SZ + hlen)
      (slice pkb.pkData (ETH_HRD_SZ + hlen + off) dlen) = cut pkb hlen dlen off := by
  have h1 : (slice pkb.pkData ETH_HRD_SZ hlen).length = hlen := by
    rw [slice_length]
    omega
  have h2 : (slice pkb.pkData (ETH_HRD_SZ + hlen + off) dlen).length = dlen := by
    rw [slice_length]
    omega
  have hr : List.replicate (ETH_HRD_SZ + hlen + dlen) (0 : UInt8) =
      List.replicate ETH_HRD_SZ 0 ++ List.replicate (hlen + dlen) 0 := by
    rw [← List.replicate_add, Nat.add_assoc]
  have hc := memcpy_append (List.replicate ETH_HRD_SZ 0) (List.replicate (hlen + dlen) 0)
    (slice pkb.pkData ETH_HRD_SZ hlen)
  rw [List.length_replicate, List.drop_replicate, h1, Nat.add_sub_cancel_left] at hc
  have hd := memcpy_append (List.replicate ETH_HRD_SZ 0 ++ slice pkb.pkData ETH_HRD_SZ hlen)
    (List.replicate dlen 0) (slice pkb.pkData (ETH_HRD_SZ + hlen + off) dlen)
  rw [List.length_append, List.length_replicate, h1, List.drop_replicate, h2, Nat.sub_self,
    List.replicate_zero, List.append_nil] at hd
  rw [hr, hc, hd, cut]

lemma ipFrag_pkData : ∃ ck, (ipFrag addr pkb hlen dlen off mfBit).pkData =
      storeShortAt (storeShortAt (storeShortAt (storeShortAt (cut pkb hlen dlen off) 16
        (htons (UInt16.ofNat (hlen + dlen)))) 20 (htons (mfBit ||| UInt16.ofNat (off >>> 3))))
        24 0) 24 ck := by
  simp only [ipFrag, allocPkb, ipSetChecksum, setIpCksum, setIpFragoff, setIpLen, setShort, memcpy_cut h]
  exact ⟨_, rfl⟩

end Cut

variable (h : ETH_HRD_SZ + hlen + off + dlen ≤ pkb.pkData.length) (hh : IP_HRD_SZ ≤ hlen)

include h hh in
lemma ipFrag_bytes : (ipFrag addr pkb hlen dlen off mfBit).pkData.length = ETH_HRD_SZ + hlen + dlen ∧
      ∀ i, ¬ Adjusted i → (ipFrag addr pkb hlen dlen off mfBit).pkData[i]? = (cut pkb hlen dlen off)[i]? := by
  obtain ⟨he, hi⟩ := header_sizes
  have hl := cut_length h
  obtain ⟨ck, hp⟩ := @ipFrag_pkData _ _ _ addr mfBit _ h
  have hs {d : List UInt8} {i : ℕ} {v : UInt16} (hd : d.length = ETH_HRD_SZ + hlen + dlen)
      (hi : i ≤ 24) : (storeShortAt d i v).length = ETH_HRD_SZ + hlen + dlen := by
    rw [storeShortAt_length (by omega), hd]
  have h1 := @hs _ 16 (htons (UInt16.ofNat (hlen + dlen))) hl (by omega)
  have h2 := @hs _ 20 (htons (mfBit ||| UInt16.ofNat (off >>> 3))) h1 (by omega)
  have h3 := @hs _ 24 0 h2 (by omega)
  rw [hp]
  refine ⟨hs h3 (by omega), ?_⟩
  intro i hi
  simp only [Adjusted] at hi
  rw [storeShortAt_getElem? _ _ _ _ (by omega) (by omega), storeShortAt_getElem? _ _ _ _ (by omega) (by omega),
    storeShortAt_getElem? _ _ _ _ (by omega) (by omega),
    storeShortAt_getElem? _ _ _ _ (by omega) (by omega)]

include h hh in
lemma ipFrag_fields : ipLen (ipFrag addr pkb hlen dlen off mfBit) = htons (UInt16.ofNat (hlen + dlen)) ∧
      ipFragoff (ipFrag addr pkb hlen dlen off mfBit) = htons (mfBit ||| UInt16.ofNat (off >>> 3)) := by
  obtain ⟨he, hi⟩ := header_sizes
  have hl := cut_length h
  obtain ⟨ck, hp⟩ := @ipFrag_pkData _ _ _ addr mfBit _ h
  have hs {d : List UInt8} {i : ℕ} {v : UInt16} (hd : 26 ≤ d.length) :
      26 ≤ (storeShortAt d i v).length := hd.trans (le_memcpy_length _ _ _)
  have h0 : 26 ≤ (cut pkb hlen dlen off).length := by omega
  simp only [ipLen, ipFragoff, hp]
  constructor
  · rw [loadShortAt_storeShortAt_ne (hs (hs (hs h0))) (by omega),
      loadShortAt_storeShortAt_ne (hs (hs h0)) (by omega),
      loadShortAt_storeShortAt_ne (le_trans (by omega) (hs h0)) (by omega),
      loadShortAt_storeShortAt (by omega)]
  · rw [loadShortAt_storeShortAt_ne (hs (hs (hs h0))) (by omega),
      loadShortAt_storeShortAt_ne (hs (hs h0)) (by omega),
      loadShortAt_storeShortAt (le_trans (by omega) (hs h0))]

end Bytes

section Fragoff

variable {n : ℕ}

lemma fragoff_toNat (hn : n < 2 ^ 13) (b : Bool) :
    ((if b then IP_FRAG_MF else 0) ||| UInt16.ofNat n).toNat = (if b then 2 ^ 13 else 0) + n := by
  have hm : n % 2 ^ 16 = n := Nat.mod_eq_of_lt (by omega)
  rw [UInt16.toNat_or, UInt16.toNat_ofNat', hm]
  cases b with
  | true => exact (Nat.two_pow_add_eq_or_of_lt hn 1).symm
  | false => simp

lemma off_of_fragoff (hn : n < 2 ^ 13) (b : Bool) :
    (((if b then IP_FRAG_MF else 0) ||| UInt16.ofNat n) &&& IP_FRAG_OFF).toNat = n := by
  rw [UInt16.toNat_and, fragoff_toNat hn]
  refine (Nat.and_two_pow_sub_one_eq_mod _ 13).trans ?_
  cases b with
  | true => exact (Nat.add_mod_left _ _).trans (Nat.mod_eq_of_lt hn)
  | false => exact (congrArg (· % 2 ^ 13) (Nat.zero_add n)).trans (Nat.mod_eq_of_lt hn)

lemma mf_of_fragoff (hn : n < 2 ^ 13) (b : Bool) :
    (((if b then IP_FRAG_MF else 0) ||| UInt16.ofNat n) &&& IP_FRAG_MF != 0) = b := by
  have hz : (((if b then IP_FRAG_MF else 0) ||| UInt16.ofNat n) &&& IP_FRAG_MF).toNat =
      if b then 2 ^ 13 else 0 := by
    rw [UInt16.toNat_and, fragoff_toNat hn]
    refine (Nat.and_two_pow _ 13).trans ?_
    rw [Nat.testBit_eq_decide_div_mod_eq]
    cases b with
    | true =>
      have : (8192 + n) / 8192 % 2 = 1 := by omega
      simp only [if_true, Nat.reducePow, this, decide_true, Bool.toNat_true, Nat.one_mul]
    | false =>
      have : n / 8192 % 2 = 0 := by omega
      simp [this]
  cases b with
  | true =>
    rw [bne_iff_ne, Ne, ← UInt16.toNat_inj, hz]
    decide
  | false =>
    rw [bne_eq_false_iff_eq, ← UInt16.toNat_inj, hz]
    rfl

end Fragoff

structure Sendable (pkb : Pkbuf) (mtu : ℕ) : Prop where
  hlen_ge : IP_HRD_SZ ≤ iphlen pkb
  length_eq : pkb.pkData.length = ETH_HRD_SZ + (ntohs (ipLen pkb)).toNat
  fragoff : ipFragoff pkb = 0
  mtu_ge : iphlen pkb + 8 ≤ mtu
  mtu_lt : mtu < (ntohs (ipLen pkb)).toNat

def maxLen (pkb : Pkbuf) (mtu : ℕ) : ℕ := (mtu - iphlen pkb) / 8 * 8

section Sendable

variable {mtu : ℕ} (hs : Sendable pkb mtu)

include hs

lemma Sendable.length_ge : 34 ≤ pkb.pkData.length := by
  have h1 : 20 ≤ iphlen pkb := hs.hlen_ge
  have h2 := hs.mtu_ge
  have h3 := hs.mtu_lt
  have h4 : ETH_HRD_SZ = 14 := rfl
  rw [hs.length_eq]
  omega

lemma Sendable.iphlen_ntoh : iphlen (ipNtoh pkb) = iphlen pkb :=
  iphlen_congr (ipNtoh_getElem? (le_trans (by omega) hs.length_ge) (by omega))

lemma Sendable.plen_ntoh : plen (ipNtoh pkb) = (ntohs (ipLen pkb)).toNat - iphlen pkb := by
  rw [plen, hs.iphlen_ntoh, ipNtoh_ipLen (le_trans (by omega) hs.length_ge)]

lemma Sendable.maxLen_pos : 8 ≤ maxLen pkb mtu := by
  have := hs.mtu_ge
  simp only [maxLen]
  omega

lemma Sendable.maxLen_lt : maxLen pkb mtu < plen (ipNtoh pkb) := by
  have := hs.mtu_ge
  have := hs.mtu_lt
  rw [hs.plen_ntoh]
  simp only [maxLen]
  omega

lemma Sendable.plen_lt : iphlen pkb + plen (ipNtoh pkb) < 2 ^ 16 := by
  have h := (ntohs (ipLen pkb)).toNat_lt
  have := hs.mtu_ge
  have := hs.mtu_lt
  rw [hs.plen_ntoh]
  omega

lemma Sendable.data_length : pkb.pkData.length = ETH_HRD_SZ + iphlen pkb + plen (ipNtoh pkb) := by
  have := hs.mtu_ge
  have := hs.mtu_lt
  rw [hs.length_eq, hs.plen_ntoh]
  omega

end Sendable

lemma getElem?_of_drop_eq {x y : List UInt8} {n i : ℕ} (h : x.drop n = y.drop n) (hi : n ≤ i) : x[i]? = y[i]? := by
  obtain ⟨j, rfl⟩ := Nat.exists_eq_add_of_le hi
  rw [← List.getElem?_drop, h, List.getElem?_drop]

section Arrived

variable {x : Pkbuf} (hfit : ETH_HRD_SZ + iphlen pkb + off + dlen ≤ pkb.pkData.length)
  (hge : IP_HRD_SZ ≤ iphlen pkb)
  (hx : x.pkData.drop ETH_HRD_SZ =
    (ipFrag addr pkb (iphlen pkb) dlen off mfBit).pkData.drop ETH_HRD_SZ)

include hfit hge hx

lemma arrived_length : x.pkData.length = ETH_HRD_SZ + iphlen pkb + dlen := by
  obtain ⟨he, hi⟩ := header_sizes
  have h := congrArg List.length hx
  rw [List.length_drop, List.length_drop, (ipFrag_bytes hfit hge).1] at h
  omega

lemma arrived_getElem? {i : ℕ} (hi : ETH_HRD_SZ ≤ i) (ha : ¬ Adjusted i) :
    x.pkData[i]? = (cut pkb (iphlen pkb) dlen off)[i]? := by
  rw [getElem?_of_drop_eq hx hi, (ipFrag_bytes hfit hge).2 i ha]

lemma arrived_fields : ipLen x = htons (UInt16.ofNat (iphlen pkb + dlen)) ∧
    ipFragoff x = htons (mfBit ||| UInt16.ofNat (off >>> 3)) := by
  have he : ETH_HRD_SZ = 14 := rfl
  obtain ⟨hl, hf⟩ := @ipFrag_fields _ _ _ addr mfBit _ hfit hge
  rw [← hl, ← hf]
  exact ⟨loadShortAt_congr (getElem?_of_drop_eq hx (by omega)) (getElem?_of_drop_eq hx (by omega)),
    loadShortAt_congr (getElem?_of_drop_eq hx (by omega)) (getElem?_of_drop_eq hx (by omega))⟩

lemma arrived_iphlen : iphlen (ipNtoh x) = iphlen pkb := by
  obtain ⟨he, hi⟩ := header_sizes
  have hlen := arrived_length hfit hge hx
  refine iphlen_congr ?_
  rw [ipNtoh_getElem? (by omega) (by omega), arrived_getElem? hfit hge hx (by omega) (by simp [Adjusted]),
    cut_getElem?_header hfit (by omega) (by omega)]

lemma arrived_payload : payload (ipNtoh x) = slice (payload pkb) off dlen := by
  obtain ⟨he, hi⟩ := header_sizes
  have hlen := arrived_length hfit hge hx
  have hdrop : (ipNtoh x).pkData.drop (ETH_HRD_SZ + iphlen pkb) =
      (cut pkb (iphlen pkb) dlen off).drop (ETH_HRD_SZ + iphlen pkb) := by
    apply List.ext_getElem?
    intro i
    rw [List.getElem?_drop, List.getElem?_drop, ipNtoh_getElem? (by omega) (by omega),
      arrived_getElem? hfit hge hx (by omega) (by simp only [Adjusted]; omega)]
  rw [payload, arrived_iphlen hfit hge hx, hdrop, cut_drop hfit]
  simp only [slice, payload, List.drop_drop]

lemma arrived_header {i : ℕ} (hi : ETH_HRD_SZ ≤ i) (hi' : i < ETH_HRD_SZ + iphlen pkb)
    (ha : ¬ Adjusted i) : (ipNtoh x).pkData[i]? = (ipNtoh pkb).pkData[i]? := by
  obtain ⟨he, hh⟩ := header_sizes
  have hlen := arrived_length hfit hge hx
  have hget {j : ℕ} (hj : ETH_HRD_SZ ≤ j) (hj' : j < ETH_HRD_SZ + iphlen pkb) (ha : ¬ Adjusted j) :
      x.pkData[j]? = pkb.pkData[j]? := by
    rw [arrived_getElem? hfit hge hx hj ha, cut_getElem?_header hfit hj hj']
  by_cases hout : i < 16 ∨ 22 ≤ i
  · rw [ipNtoh_getElem? (by omega) hout, hget hi hi' ha, ipNtoh_getElem? (by omega) hout]
  · have hid : ipId x = ipId pkb :=
      loadShortAt_congr (hget (by omega) (by omega) (by simp [Adjusted]))
        (hget (by omega) (by omega) (by simp [Adjusted]))
    obtain ⟨h1, h2⟩ := @ipNtoh_getElem?_id x (by omega)
    obtain ⟨h3, h4⟩ := @ipNtoh_getElem?_id pkb (by omega)
    have : i = 18 ∨ i = 19 := by
      simp only [Adjusted] at ha
      omega
    rcases this with rfl | rfl
    · rw [h1, h3, hid]
    · rw [h2, h4, hid]

lemma arrived_ipLen (hsum : iphlen pkb + dlen < 2 ^ 16) : (ipLen (ipNtoh x)).toNat = iphlen pkb + dlen := by
  obtain ⟨he, hi⟩ := header_sizes
  have hlen := arrived_length hfit hge hx
  rw [ipNtoh_ipLen (by omega), (arrived_fields hfit hge hx).1, ntohs_htons, UInt16.toNat_ofNat',
    Nat.mod_eq_of_lt hsum]

lemma arrived_plen (hsum : iphlen pkb + dlen < 2 ^ 16) : plen (ipNtoh x) = dlen := by
  rw [plen, arrived_ipLen hfit hge hx hsum, arrived_iphlen hfit hge hx]
  omega

lemma arrived_fragoff {b : Bool} (hmf : mfBit = if b then IP_FRAG_MF else 0) (hoff : 8 ∣ off)
    (hlt : off < 2 ^ 16) : ipoff (ipNtoh x) = off ∧ ipMF (ipNtoh x) = b := by
  obtain ⟨he, hi⟩ := header_sizes
  have hlen := arrived_length hfit hge hx
  have h13 : off >>> 3 < 2 ^ 13 := by
    rw [Nat.shiftRight_eq_div_pow]
    omega
  have hfrag : ipFragoff (ipNtoh x) = (if b then IP_FRAG_MF else 0) ||| UInt16.ofNat (off >>> 3) := by
    rw [ipNtoh_ipFragoff (by omega), (arrived_fields hfit hge hx).2, ntohs_htons, hmf]
  constructor
  · rw [ipoff, hfrag, off_of_fragoff h13, Nat.shiftRight_eq_div_pow]
    omega
  · rw [ipMF, hfrag, mf_of_fragoff h13]

end Arrived

lemma isPiece_ntoh {pkb x : Pkbuf} {mtu addr off : ℕ} (hs : Sendable pkb mtu)
    (hoff : maxLen pkb mtu ∣ off) (hlt : off < plen (ipNtoh pkb))
    (hx : x.pkData.drop ETH_HRD_SZ = (ipFrag addr pkb (iphlen pkb)
      (min (maxLen pkb mtu) (plen (ipNtoh pkb) - off)) off
      (if off + maxLen pkb mtu < plen (ipNtoh pkb) then IP_FRAG_MF else 0)).pkData.drop ETH_HRD_SZ) :
    IsPiece pkb (maxLen pkb mtu) (ipNtoh x) ∧ ipoff (ipNtoh x) = off := by
  generalize hdl : min (maxLen pkb mtu) (plen (ipNtoh pkb) - off) = dlen at hx
  obtain ⟨he, hi⟩ := header_sizes
  have hge := hs.hlen_ge
  have hfit : ETH_HRD_SZ + iphlen pkb + off + dlen ≤ pkb.pkData.length := by
    rw [hs.data_length]
    omega
  have hsum : iphlen pkb + dlen < 2 ^ 16 := lt_of_le_of_lt (by omega) hs.plen_lt
  have hdvd : 8 ∣ off := dvd_trans (Nat.dvd_mul_left 8 ((mtu - iphlen pkb) / 8)) hoff
  have hlen := arrived_length hfit hge hx
  have h22 : 22 ≤ x.pkData.length := by omega
  have hhlen := arrived_iphlen hfit hge hx
  have hiplen := arrived_ipLen hfit hge hx hsum
  have hplen := arrived_plen hfit hge hx hsum
  have hplt := hs.plen_lt
  obtain ⟨hipoff, hmf⟩ := arrived_fragoff (b := decide (off + maxLen pkb mtu < plen (ipNtoh pkb)))
    hfit hge hx (by simp only [decide_eq_true_eq]) hdvd (by omega)
  refine ⟨⟨⟨?_, ?_, ?_⟩, ?_, ?_, ?_, ?_, ?_, ?_⟩, hipoff⟩
  · rwa [hhlen]
  · omega
  · rw [ipNtoh_length h22, hlen, hiplen]
    omega
  · rwa [hipoff]
  · rwa [hipoff]
  · rw [hplen, hipoff, hdl]
  · rw [hmf, hipoff]
  · rw [hplen, hipoff, arrived_payload hfit hge hx]
  · exact fun i hi hi' ha => arrived_header hfit hge hx hi hi' ha

lemma ipSendFragLoop_eq (pkb : Pkbuf) (hlen : ℕ) {m : ℕ} (hm : 0 < m) (fuel addr dlen
    off : ℕ) (hd : 0 < dlen) (hf : dlen ≤ fuel) :
    ∃ q, q * m < dlen ∧ dlen ≤ q * m + m ∧ ipSendFragLoop pkb hlen m fuel addr dlen off = some ((List.range q).map
        (fun i => ipFrag (addr + i) pkb hlen m (off + i * m) IP_FRAG_MF),
        ((dlen - q * m : ℕ) : ℤ), off + q * m) := by
  induction fuel generalizing addr dlen off with
  | zero => omega
  | succ fuel ih =>
    by_cases hlt : m < dlen
    · obtain ⟨q, h1, h2, hq⟩ := ih (addr + 1) (dlen - m) (off + m) (by omega) (by omega)
      refine ⟨q + 1, by rw [Nat.succ_mul]; omega, by rw [Nat.succ_mul]; omega, ?_⟩
      have hc : ((dlen : ℤ) - m) = ((dlen - m : ℕ) : ℤ) := by omega
      rw [ipSendFragLoop, if_pos (by omega), hc, Int.toNat_natCast, hq, List.range_succ_eq_map]
      have hrest : dlen - m - q * m = dlen - (q + 1) * m := by
        rw [Nat.succ_mul]
        omega
      have hoff (i : ℕ) : off + m + i * m = off + (i + 1) * m := by
        rw [Nat.succ_mul]
        omega
      have haddr (i : ℕ) : addr + 1 + i = addr + (i + 1) := by omega
      simp [hrest, hoff, haddr, Function.comp_def]
    · refine ⟨0, by omega, by omega, ?_⟩
      rw [ipSendFragLoop, if_neg (by omega)]
      simp

lemma ipSendFrag_list {pkb : Pkbuf} {mtu dlen : ℕ} (addr : ℕ) (hm : iphlen pkb + 8 ≤ mtu)
    (hd : (ntohs (ipLen pkb)).toNat = iphlen pkb + dlen) (hpos : 0 < dlen) :
    ∃ q, q * maxLen pkb mtu < dlen ∧ dlen ≤ q * maxLen pkb mtu + maxLen pkb mtu ∧
      ipSendFrag addr mtu pkb = some ((List.range q).map (fun i =>
          ipFrag (addr + i) pkb (iphlen pkb) (maxLen pkb mtu) (i * maxLen pkb mtu) IP_FRAG_MF) ++
        [ipFrag (addr + q) pkb (iphlen pkb) (dlen - q * maxLen pkb mtu) (q * maxLen pkb mtu)
          (ipFragoff pkb &&& IP_FRAG_MF)]) := by
  have hd' : ((ntohs (ipLen pkb)).toNat : ℤ) - iphlen pkb = dlen := by omega
  have hm' : ((mtu : ℤ) - iphlen pkb) / 8 * 8 = maxLen pkb mtu := by
    simp only [maxLen]
    omega
  obtain ⟨q, h1, h2, hq⟩ := ipSendFragLoop_eq pkb (iphlen pkb) (m := maxLen pkb mtu)
    (by simp only [maxLen]; omega) dlen addr dlen 0 hpos le_rfl
  have hne : dlen - q * maxLen pkb mtu ≠ 0 := by omega
  refine ⟨q, h1, h2, ?_⟩
  simp only [Nat.zero_add] at hq
  simp [ipSendFrag, hd', hm', hq, hne]

def Piece (pkb : Pkbuf) (mtu off : ℕ) (f : Pkbuf) : Prop :=
  ∃ addr, f = ipFrag addr pkb (iphlen pkb) (min (maxLen pkb mtu) (plen (ipNtoh pkb) - off)) off
    (if off + maxLen pkb mtu < plen (ipNtoh pkb) then IP_FRAG_MF else 0)

lemma ipSendFrag_eq {pkb : Pkbuf} {mtu : ℕ} (addr : ℕ) (hs : Sendable pkb mtu) :
    ∃ frags, ipSendFrag addr mtu pkb = some frags ∧
      (∀ f ∈ frags, ∃ off, maxLen pkb mtu ∣ off ∧ off < plen (ipNtoh pkb) ∧ Piece pkb mtu off f) ∧
      ∀ off, maxLen pkb mtu ∣ off → off < plen (ipNtoh pkb) → ∃ f ∈ frags, Piece pkb mtu off f := by
  have hpos := hs.maxLen_pos
  have hlt := hs.maxLen_lt
  have hpl := hs.plen_ntoh
  obtain ⟨q, h1, h2, hq⟩ := ipSendFrag_list addr hs.mtu_ge
    (show _ = iphlen pkb + plen (ipNtoh pkb) by omega) (by omega)
  have hmf : ipFragoff pkb &&& IP_FRAG_MF = 0 := by
    rw [hs.fragoff]
    rfl
  have hin {i : ℕ} (hi : i < q) : i * maxLen pkb mtu + maxLen pkb mtu ≤ q * maxLen pkb mtu := by
    rw [← Nat.succ_mul]
    exact Nat.mul_le_mul_right _ hi
  have hloop {i : ℕ} (hi : i < q) : Piece pkb mtu (i * maxLen pkb mtu)
      (ipFrag (addr + i) pkb (iphlen pkb) (maxLen pkb mtu) (i * maxLen pkb mtu) IP_FRAG_MF) := by
    have := hin hi
    exact ⟨addr + i, by rw [if_pos (by omega), Nat.min_eq_left (by omega)]⟩
  have hlast : Piece pkb mtu (q * maxLen pkb mtu) (ipFrag (addr + q) pkb (iphlen pkb)
      (plen (ipNtoh pkb) - q * maxLen pkb mtu) (q * maxLen pkb mtu) 0) :=
    ⟨addr + q, by rw [if_neg (by omega), Nat.min_eq_right (by omega)]⟩
  rw [hmf] at hq
  refine ⟨_, hq, ?_, ?_⟩
  · intro f hf
    rcases List.mem_append.mp hf with hf | hf
    · obtain ⟨i, hi, rfl⟩ := List.mem_map.mp hf
      have hi := List.mem_range.mp hi
      have := hin hi
      exact ⟨_, Nat.dvd_mul_left _ _, by omega, hloop hi⟩
    · rw [List.mem_singleton.mp hf]
      exact ⟨_, Nat.dvd_mul_left _ _, h1, hlast⟩
  · rintro off ⟨i, rfl⟩ hi
    rw [Nat.mul_comm (maxLen pkb mtu) i] at hi ⊢
    rcases lt_trichotomy i q with hiq | rfl | hiq
    · exact ⟨_, List.mem_append_left _ (List.mem_map.mpr ⟨i, List.mem_range.mpr hiq, rfl⟩), hloop hiq⟩
    · exact ⟨_, List.mem_append_right _ (List.mem_singleton.mpr rfl), hlast⟩
    · have : q * maxLen pkb mtu + maxLen pkb mtu ≤ i * maxLen pkb mtu := by
        rw [← Nat.succ_mul]
        exact Nat.mul_le_mul_right _ hiq
      omega

end Tapip.Ip.Emit
