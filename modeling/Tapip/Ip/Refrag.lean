import Tapip.Ip.Emit

/-! A packet that is cut on its way, and may have been cut before. -/

namespace Tapip.Ip.Refrag

open Foundation.Bytes Foundation.Tiling Net.ByteOrder Net.Pkb Header Frag FragQueue ReassemblySound Emit

structure Handed (mtu : ℤ) (pkb : Pkbuf) : Prop where
  hlen_ge : IP_HRD_SZ ≤ iphlen pkb
  hlen_le : iphlen pkb ≤ (ntohs (ipLen pkb)).toNat
  length_ge : ETH_HRD_SZ + (ntohs (ipLen pkb)).toNat ≤ pkb.pkData.length
  mtu_lt : mtu < (ntohs (ipLen pkb)).toNat

structure Transparent (pkb : Pkbuf) (frags : List Pkbuf) : Prop where
  tiles : ∀ p, (frags.map ipNtoh).countP (fun f => Covers ipoff plen f p) =
    if ipoff (ipNtoh pkb) ≤ p ∧ p < ipoff (ipNtoh pkb) + plen (ipNtoh pkb) then 1 else 0
  bytes : ∀ f ∈ frags.map ipNtoh, ∀ p, Covers ipoff plen f p →
    (payload f)[p - ipoff f]? = (payload pkb)[p - ipoff (ipNtoh pkb)]?
  mf : ∀ f ∈ frags.dropLast, ipMF (ipNtoh f) = true
  last : ∀ f ∈ frags.getLast?, ipMF (ipNtoh f) = ipMF (ipNtoh pkb)

lemma ipSendFragLoop_none (pkb : Pkbuf) (hlen : ℕ) {mlen dlen : ℤ} (hm : mlen ≤ 0) (hd : mlen < dlen)
    (fuel addr off : ℕ) : ipSendFragLoop pkb hlen mlen fuel addr dlen off = none := by
  induction fuel generalizing dlen addr off with
  | zero => rw [ipSendFragLoop, if_pos hd]
  | succ fuel ih =>
    rw [ipSendFragLoop, if_pos hd, ih (by omega)]
    rfl

section Cut

variable {mtu : ℕ} {pkb : Pkbuf} {addr : ℕ}

lemma Handed.length_ge' {mtu : ℤ} (h : Handed mtu pkb) : 34 ≤ pkb.pkData.length := by
  have h1 := h.hlen_ge
  have h2 := h.hlen_le
  have h3 := h.length_ge
  obtain ⟨h4, h5⟩ := header_sizes
  omega

lemma Handed.total {mtu : ℤ} (h : Handed mtu pkb) : (ntohs (ipLen pkb)).toNat = iphlen pkb + plen (ipNtoh pkb) := by
  have hl := h.length_ge'
  have hh : iphlen (ipNtoh pkb) = iphlen pkb :=
    iphlen_congr (ipNtoh_getElem? (by omega) (by omega))
  have := h.hlen_le
  rw [plen, hh, ipNtoh_ipLen (by omega)]
  omega

lemma and_IP_FRAG_MF (v : UInt16) : v &&& IP_FRAG_MF = if v &&& IP_FRAG_MF != 0 then IP_FRAG_MF else 0 := by
  have hbit : (v &&& IP_FRAG_MF).toNat = (v.toNat.testBit 13).toNat * 2 ^ 13 := by
    rw [UInt16.toNat_and]
    exact Nat.and_two_pow _ 13
  cases hb : v.toNat.testBit 13 with
  | true =>
    have heq : v &&& IP_FRAG_MF = IP_FRAG_MF := by
      apply UInt16.toNat_inj.mp
      rw [hbit, hb]
      rfl
    rw [heq]
    rfl
  | false =>
    have heq : v &&& IP_FRAG_MF = 0 := by
      apply UInt16.toNat_inj.mp
      rw [hbit, hb]
      rfl
    rw [heq]
    rfl

lemma ipMF_of_ipoff (hl : 22 ≤ pkb.pkData.length) (h : ipoff (ipNtoh pkb) = 0) : ipMF pkb = false := by
  have hoff : (ipFragoff (ipNtoh pkb) &&& IP_FRAG_OFF).toNat = 0 := by
    simp only [ipoff] at h
    omega
  rw [ipNtoh_ipFragoff hl, UInt16.toNat_and] at hoff
  have hmod : (ntohs (ipFragoff pkb)).toNat % 2 ^ 13 = 0 :=
    (Nat.and_two_pow_sub_one_eq_mod _ 13).symm.trans hoff
  have hlt := (ntohs (ipFragoff pkb)).toNat_lt
  have hflags : ∀ k : Fin 8, htons (UInt16.ofNat (8192 * k)) &&& IP_FRAG_MF = 0 := by decide
  have heq : ntohs (ipFragoff pkb) = UInt16.ofNat (8192 * ((ntohs (ipFragoff pkb)).toNat / 8192)) := by
    apply UInt16.toNat_inj.mp
    rw [UInt16.toNat_ofNat']
    omega
  have hk := hflags ⟨(ntohs (ipFragoff pkb)).toNat / 8192, by omega⟩
  rw [← heq, htons_htons] at hk
  simp [ipMF, hk]

structure Cut (pkb : Pkbuf) (dlen off : ℕ) (b : Bool) (f : Pkbuf) : Prop where
  ipoff_eq : ipoff (ipNtoh f) = off
  plen_eq : plen (ipNtoh f) = dlen
  payload_eq : payload (ipNtoh f) = slice (payload pkb) off dlen
  ipMF_eq : ipMF (ipNtoh f) = b

lemma Handed.cut {mtu : ℤ} (h : Handed mtu pkb) {dlen off : ℕ} {mfBit : UInt16} {b : Bool}
    (hle : off + dlen ≤ plen (ipNtoh pkb)) (hoff : 8 ∣ off)
    (hmf : mfBit = if b then IP_FRAG_MF else 0) :
    Cut pkb dlen off b (ipFrag addr pkb (iphlen pkb) dlen off mfBit) := by
  have h1 := h.length_ge
  have h2 := h.total
  have h3 := (ntohs (ipLen pkb)).toNat_lt
  have hfit : ETH_HRD_SZ + iphlen pkb + off + dlen ≤ pkb.pkData.length := by omega
  obtain ⟨ho, hm⟩ := arrived_fragoff hfit h.hlen_ge rfl hmf hoff (by omega)
  exact ⟨ho, arrived_plen hfit h.hlen_ge rfl (by omega), arrived_payload hfit h.hlen_ge rfl, hm⟩

end Cut

section Transparent

variable {mtu : ℤ} {pkb : Pkbuf}

lemma Handed.emits (addr : ℕ) (h : Handed mtu pkb) (hm : iphlen pkb + 8 ≤ mtu) :
    ∃ m q g last, 0 < m ∧ q * m < plen (ipNtoh pkb) ∧
      ipSendFrag addr mtu pkb = some ((List.range q).map g ++ [last]) ∧
      (∀ i < q, Cut pkb m (i * m) true (g i)) ∧
      Cut pkb (plen (ipNtoh pkb) - q * m) (q * m) (ipMF pkb) last := by
  obtain ⟨n, rfl⟩ : ∃ n : ℕ, mtu = n := ⟨mtu.toNat, by omega⟩
  have htotal := h.total
  have hlt := h.mtu_lt
  obtain ⟨q, h1, h2, hq⟩ := ipSendFrag_list addr (show iphlen pkb + 8 ≤ n by omega) htotal (by omega)
  have hdvd (i : ℕ) : 8 ∣ i * maxLen pkb n :=
    (Nat.dvd_mul_left 8 ((n - iphlen pkb) / 8)).mul_left i
  refine ⟨maxLen pkb n, q, _, _, by simp only [maxLen]; omega, h1, hq, fun i hi => ?_, ?_⟩
  · have hle : i * maxLen pkb n + maxLen pkb n ≤ q * maxLen pkb n := by
      rw [← Nat.succ_mul]
      exact Nat.mul_le_mul_right _ hi
    exact h.cut (by omega) (hdvd i) rfl
  · exact h.cut (by omega) (hdvd q) (and_IP_FRAG_MF _)

theorem ipSendFrag_transparent_iff (addr : ℕ) (h : Handed mtu pkb) :
    (∃ frags, ipSendFrag addr mtu pkb = some frags ∧ Transparent pkb frags) ↔
      ipoff (ipNtoh pkb) = 0 ∧ ipMF (ipNtoh pkb) = false ∧ iphlen pkb + 8 ≤ mtu := by
  have hl := h.length_ge'
  by_cases hm : iphlen pkb + 8 ≤ mtu
  swap
  · -- the loop does not end
    have hnone : ipSendFrag addr mtu pkb = none := by
      have h1 := h.mtu_lt
      have h2 := h.hlen_le
      simp only [ipSendFrag]
      rw [ipSendFragLoop_none _ _ (by omega) (by omega)]
      rfl
    simp [hnone, hm]
  obtain ⟨m, q, g, last, hpos, hq, hrun, hg, hlast⟩ := h.emits addr hm
  have hmap : ((List.range q).map g ++ [last]).map ipNtoh =
      (List.range q).map (fun i => ipNtoh (g i)) ++ [ipNtoh last] := by
    simp
  obtain ⟨hc, ht⟩ := @contiguous_range _ ipoff plen m 0 q (fun i => ipNtoh (g i)) (ipNtoh last)
    (fun i hi => by rw [(hg i hi).ipoff_eq, Nat.zero_add]) (fun i hi => (hg i hi).plen_eq)
    (by rw [hlast.ipoff_eq, Nat.zero_add])
  rw [hlast.plen_eq, Nat.add_sub_cancel' hq.le] at ht
  simp only [hm, and_true]
  constructor
  · rintro ⟨frags, hrun', hT⟩
    cases Option.mem_unique hrun' hrun
    have hzero := hT.tiles 0
    rw [hmap, hc.countP, ht, if_pos (by omega)] at hzero
    have ho : ipoff (ipNtoh pkb) = 0 := by
      split_ifs at hzero
      omega
    refine ⟨ho, ?_⟩
    rw [← hT.last last (by simp), hlast.ipMF_eq, ipMF_of_ipoff (by omega) ho]
  · rintro ⟨ho, hmf⟩
    refine ⟨_, hrun, fun p => ?_, fun f hf p hp => ?_, fun f hf => ?_, fun f hf => ?_⟩
    · rw [hmap, hc.countP, ht, ho]
    · have hcut : ∃ dlen off b f0, f = ipNtoh f0 ∧ Cut pkb dlen off b f0 := by
        rw [hmap] at hf
        rcases List.mem_append.mp hf with hf | hf
        · obtain ⟨i, hi, rfl⟩ := List.mem_map.mp hf
          exact ⟨_, _, _, _, rfl, hg i (List.mem_range.mp hi)⟩
        · exact ⟨_, _, _, _, List.mem_singleton.mp hf, hlast⟩
      obtain ⟨dlen, off, b, f0, rfl, hcut⟩ := hcut
      obtain ⟨hp1, hp2⟩ := hp
      rw [hcut.ipoff_eq] at hp1 hp2 ⊢
      rw [hcut.plen_eq] at hp2
      rw [hcut.payload_eq, slice_getElem?, if_pos (by omega), ho]
      congr 1
      omega
    · rw [List.dropLast_concat] at hf
      obtain ⟨i, hi, rfl⟩ := List.mem_map.mp hf
      exact (hg i (List.mem_range.mp hi)).ipMF_eq
    · obtain rfl : last = f := by simpa using hf
      rw [hlast.ipMF_eq, ipMF_of_ipoff (by omega) ho, hmf]

end Transparent

def shortHeader (fragoff : UInt16) : List UInt8 :=
  [0x45, 0, 0, 36, 0, 0, (fragoff >>> 8).toUInt8, fragoff.toUInt8, 64, 0, 0, 0, 10, 0, 0, 1, 10, 0, 0, 2]

def sixteen (fragoff : UInt16) : Pkbuf :=
  { allocPkb 0 50 with
    pkData := List.replicate ETH_HRD_SZ 0 ++ shortHeader fragoff ++ (List.range 16).map UInt8.ofNat }

theorem ipSendFrag_transparent_whole : ∃ frags, ipSendFrag 1 28 (sixteen 0) = some frags ∧
    Transparent (sixteen 0) frags :=
  (ipSendFrag_transparent_iff 1 ⟨by decide, by decide, by decide, by decide⟩).mpr ⟨by decide, by decide, by decide⟩

-- Offset 8 and more fragments to come: the first piece goes to the start of the datagram, and the
-- second one ends it.
theorem ipSendFrag_loses_place : Handed 28 (sixteen 0x2001) ∧
    ipoff (ipNtoh (sixteen 0x2001)) = 8 ∧ ipMF (ipNtoh (sixteen 0x2001)) = true ∧
    (ipSendFrag 1 28 (sixteen 0x2001)).map (List.map fun f => (ipoff (ipNtoh f), ipMF (ipNtoh f))) =
      some [(0, true), (8, false)] ∧
    ∀ frags, ipSendFrag 1 28 (sixteen 0x2001) = some frags → ¬Transparent (sixteen 0x2001) frags := by
  refine ⟨⟨by decide, by decide, by decide, by decide⟩, by decide, by decide, by decide +kernel, ?_⟩
  intro frags hrun hT
  have hzero := hT.tiles 0
  obtain rfl : (ipSendFrag 1 28 (sixteen 0x2001)).getD [] = frags := by rw [hrun]; rfl
  revert hzero
  decide +kernel

end Tapip.Ip.Refrag
