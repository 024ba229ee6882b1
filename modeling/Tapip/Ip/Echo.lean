import Tapip.Ip.Upper
import Tapip.Lib.Sealing

/-! The echo reply that `icmp_echo_request` makes of a request in place (ip/icmp.c). -/

namespace Tapip.Ip.Echo

open Foundation.Bytes Foundation.Program Net Net.ByteOrder Net.Pkb Header Out In Lib.Checksum Lib.Sealing
open Upper FragTable
open Tcp (ipdlen)

section Update

variable {m : List UInt8}

def echoCksum (cksum : UInt16) : UInt16 :=
  let echo : UInt16 := ICMP_T_ECHOREQ.toUInt16
  if cksum ≥ 0xffff - echo then cksum + (echo + 1) else cksum + echo

lemma echoCksum_toNat (cksum : UInt16) :
    (echoCksum cksum).toNat = if 65527 ≤ cksum.toNat then cksum.toNat + 9 - 65536 else cksum.toNat + 8 := by
  have hlt := cksum.toNat_lt
  have hge : cksum ≥ 0xffff - ICMP_T_ECHOREQ.toUInt16 ↔ 65527 ≤ cksum.toNat := UInt16.le_iff_toNat_le
  simp only [echoCksum, hge]
  split_ifs with h
  · rw [UInt16.toNat_add, show (ICMP_T_ECHOREQ.toUInt16 + 1).toNat = 9 from rfl]
    omega
  · rw [UInt16.toNat_add, show ICMP_T_ECHOREQ.toUInt16.toNat = 8 from rfl]
    omega

def echoReply (m : List UInt8) : List UInt8 := storeShortAt (storeShortAt m 0 0) 2 (echoCksum (loadShortAt m 2))

lemma words_message (h : 8 ≤ m.length) :
    (words m).sum = (loadShortAt m 0).toNat + (loadShortAt m 2).toNat + (words (m.drop 4)).sum := by
  have h0 := words_split (d := m) (i := 2) (by omega) rfl
  have h1 := words_split (d := m.take 2) (i := 0) (by rw [List.length_take]; omega) rfl
  have hload : loadShortAt (m.take 2) 0 = loadShortAt m 0 :=
    loadShortAt_congr (List.getElem?_take_of_lt (by omega)) (List.getElem?_take_of_lt (by omega))
  rw [h0, h1, hload]
  simp [words]

lemma words_echoReply (h : 8 ≤ m.length) (ht : loadShortAt m 0 = 8) :
    (words (echoReply m)).sum = (echoCksum (loadShortAt m 2)).toNat + (words (m.drop 4)).sum := by
  have hl : (storeShortAt m 0 0).length = m.length := storeShortAt_length (by omega)
  have h1 := words_storeShortAt (d := m) (i := 0) (by omega) rfl 0
  have h2 := words_storeShortAt (d := storeShortAt m 0 0) (i := 2) (by omega) rfl (echoCksum (loadShortAt m 2))
  rw [loadShortAt_storeShortAt_ne (by omega) (by omega)] at h2
  rw [words_message h, ht, show (8 : UInt16).toNat = 8 from rfl, UInt16.toNat_zero] at h1
  rw [echoReply]
  omega

lemma echoReply_verifies_iff (h : 8 ≤ m.length) (hle : m.length ≤ 0xffff) (ht : loadShortAt m 0 = 8)
    (hv : icmpChksum m = 0) : icmpChksum (echoReply m) = 0 ↔ ∃ b ∈ m.drop 4, b ≠ 0 := by
  have hm := words_sum_le m
  have hw := words_message h
  have hlt := (loadShortAt m 2).toNat_lt
  rw [ht, show (8 : UInt16).toNat = 8 from rfl] at hw
  rw [icmpChksum, checksum_eq_zero_iff] at hv ⊢
  rw [UInt32.toNat_zero, Nat.zero_add, Nat.mod_eq_of_lt (by omega)] at hv
  have hr := words_echoReply h ht
  rw [echoCksum_toNat] at hr
  have hz : (∃ b ∈ m.drop 4, b ≠ 0) ↔ (words (m.drop 4)).sum ≠ 0 := by
    rw [ne_eq, words_sum_eq_zero]
    push Not
    rfl
  rw [hz, hr, UInt32.toNat_zero, Nat.zero_add]
  generalize (words (List.drop 4 m)).sum = rest at *
  split_ifs
  · rw [Nat.mod_eq_of_lt (by omega)]
    omega
  · rw [Nat.mod_eq_of_lt (by omega)]
    omega

end Update

section Echo

variable {netIn : NetIn} {pkb : Pkbuf}

def icmpCode (pkb : Pkbuf) : UInt8 := pkb.pkData.getD (ip2icmp pkb + 1) 0

def icmpMessage (pkb : Pkbuf) : List UInt8 := slice pkb.pkData (ip2icmp pkb) (ipdlen pkb).toNat

lemma icmpIn_echo (hlen : ICMP_HRD_SZ ≤ ipdlen pkb) (hv : icmpChksum (icmpMessage pkb) = 0)
    (ht : icmpType pkb = ICMP_T_ECHOREQ) (hc : icmpCode pkb = 0) :
    icmpIn netIn pkb = ipSendOut netIn (icmpEcho pkb) := by
  have hsize : (decide (0 ≤ ipdlen pkb) && decide (ipdlen pkb < ICMP_HRD_SZ)) = false := by
    rw [decide_eq_false (not_lt.mpr hlen), Bool.and_false]
  have hmax : ¬ ICMP_T_ECHOREQ > ICMP_T_MAXNUM := by decide
  rw [icmpMessage] at hv
  rw [icmpCode] at hc
  simp only [icmpIn, hsize, hv, ht, bne_self_eq_false, Bool.false_eq_true, if_false, if_neg hmax, icmpHandler,
    if_true, icmpEchoRequest, hc, ne_eq, not_true]

def echoed (pkb : Pkbuf) : Pkbuf :=
  setShort (ip2icmp pkb + 2) (setByte (ip2icmp pkb) pkb ICMP_T_ECHORLY)
    (echoCksum (loadShortAt pkb.pkData (ip2icmp pkb + 2)))

lemma icmpEcho_pkData (pkb : Pkbuf) :
    (icmpEcho pkb).pkData = (ipNtoh (setIpDst (echoed pkb) (ipSrc (echoed pkb)))).pkData := by
  simp only [icmpEcho, echoed, echoCksum]

lemma memcpy_zero_byte {m : List UInt8} (h : 2 ≤ m.length) (hc : m.getD 1 0 = 0) :
    memcpy m 0 [0] = storeShortAt m 0 0 := by
  cases m with
  | nil => simp at h
  | cons _ m =>
    cases m with
    | nil => simp at h
    | cons b m =>
      have hb : b = 0 := hc
      rw [hb]
      rfl

lemma icmpEcho_message (hw : Whole pkb) (hlen : ICMP_HRD_SZ ≤ ipdlen pkb) (hc : icmpCode pkb = 0) :
    slice (icmpEcho pkb).pkData (ip2icmp pkb) (ipdlen pkb).toNat = echoReply (icmpMessage pkb) := by
  have hge := hw.hlen_ge
  have hfit := hw.length_ge
  rw [hw.pkLen_eq] at hfit
  simp only [IP_HRD_SZ, ICMP_HRD_SZ, ETH_HRD_SZ] at hge hlen hfit
  have hn : ip2icmp pkb + (ipdlen pkb).toNat ≤ pkb.pkData.length := by
    simp only [ip2icmp, ipdlen, ETH_HRD_SZ] at hlen ⊢
    omega
  have hbase : 34 ≤ ip2icmp pkb := by
    simp only [ip2icmp, ETH_HRD_SZ]
    omega
  have hsize : 8 ≤ (ipdlen pkb).toNat := by omega
  have hl : (icmpMessage pkb).length = (ipdlen pkb).toNat := by
    rw [icmpMessage, slice_length]
    omega
  have hcode : (icmpMessage pkb).getD 1 0 = 0 := by
    rw [icmpCode, List.getD_eq_getElem?_getD] at hc
    rw [icmpMessage, List.getD_eq_getElem?_getD, slice_getElem?, if_pos (by omega), hc]
  have hload : loadShortAt pkb.pkData (ip2icmp pkb + 2) = loadShortAt (icmpMessage pkb) 2 := by
    rw [icmpMessage, loadShortAt_slice _ _ _ (by omega)]
  have h1 : (setByte (ip2icmp pkb) pkb ICMP_T_ECHORLY).pkData.length = pkb.pkData.length :=
    memcpy_length _ _ _ (by simp only [List.length_singleton]; omega)
  have h2 : (echoed pkb).pkData.length = pkb.pkData.length := by
    rw [echoed, setShort_length (by omega), h1]
  have hbyte : slice (setByte (ip2icmp pkb) pkb ICMP_T_ECHORLY).pkData (ip2icmp pkb) (ipdlen pkb).toNat =
      storeShortAt (icmpMessage pkb) 0 0 := by
    rw [← memcpy_zero_byte (by omega) hcode]
    exact slice_memcpy (i := 0) _ _ hn (by simp only [List.length_singleton]; omega)
  rw [icmpEcho_pkData, slice_ipNtoh (le_trans (by omega) (le_memcpy_length _ _ _)) (by omega), setIpDst, setInt,
    slice_memcpy_of_disjoint (by rw [h2]; simp [storeInt]; omega) (by simp [storeInt]; omega), echoed, setShort,
    slice_storeShortAt (by omega) (by omega), hbyte, hload, echoReply]

theorem echo_reply_iff (h : Passed netIn pkb) (hlen : ICMP_HRD_SZ ≤ ipdlen pkb)
    (hv : icmpChksum (icmpMessage pkb) = 0) (ht : icmpType pkb = ICMP_T_ECHOREQ) (hc : icmpCode pkb = 0) :
    icmpIn netIn pkb = ipSendOut netIn (icmpEcho pkb) ∧
    (icmpChksum (slice (icmpEcho pkb).pkData (ip2icmp pkb) (ipdlen pkb).toNat) = 0 ↔
      ∃ b ∈ (icmpMessage pkb).drop 4, b ≠ 0) := by
  refine ⟨icmpIn_echo hlen hv ht hc, ?_⟩
  have hw := h.whole
  have hfit := hw.length_ge
  have hlt := ipdlen_lt pkb
  have hl : (icmpMessage pkb).length = (ipdlen pkb).toNat := by
    rw [hw.pkLen_eq] at hfit
    rw [icmpMessage, slice_length]
    simp only [ip2icmp, ipdlen] at hlen ⊢
    omega
  simp only [ICMP_HRD_SZ] at hlen
  have hfirst : loadShortAt (icmpMessage pkb) 0 = 8 := by
    rw [icmpMessage, loadShortAt_slice _ _ _ (by omega), loadShortAt, Nat.add_zero]
    rw [icmpType] at ht
    rw [icmpCode] at hc
    rw [ht, hc]
    rfl
  rw [icmpEcho_message hw (by simp only [ICMP_HRD_SZ]; omega) hc]
  exact echoReply_verifies_iff (by omega) (by omega) hfirst hv

theorem echo_reply_first : icmpIn dropAll ping = ipSendOut dropAll (icmpEcho ping) ∧
    icmpChksum (slice (icmpEcho ping).pkData (ip2icmp ping) (ipdlen ping).toNat) = 0 :=
  have h : Passed dropAll ping := passed_handed (by decide +kernel) (by decide +kernel)
  have hiff := echo_reply_iff h (by decide +kernel) (by decide +kernel) (by decide +kernel) (by decide +kernel)
  ⟨hiff.1, hiff.2.mpr ⟨1, by decide +kernel, by decide⟩⟩

def zeroPing : Pkbuf := handed (datagram 1 [8, 0, 0xf7, 0xff, 0, 0, 0, 0])

theorem echo_reply_zero : Passed dropAll zeroPing ∧ isFragment zeroPing = false ∧
    icmpIn dropAll zeroPing = ipSendOut dropAll (icmpEcho zeroPing) ∧
    slice (icmpEcho zeroPing).pkData (ip2icmp zeroPing) (ipdlen zeroPing).toNat = [0, 0, 0, 0, 0, 0, 0, 0] ∧
    icmpChksum (slice (icmpEcho zeroPing).pkData (ip2icmp zeroPing) (ipdlen zeroPing).toNat) = 0xffff :=
  ⟨passed_handed (by decide +kernel) (by decide +kernel), by decide +kernel,
    icmpIn_echo (by decide +kernel) (by decide +kernel) (by decide +kernel) (by decide +kernel),
    by decide +kernel, by decide +kernel⟩

end Echo

end Tapip.Ip.Echo
