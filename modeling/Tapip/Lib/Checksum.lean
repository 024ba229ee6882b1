import Tapip.Net.ByteOrder

/-! The Internet checksum (lib/checksum.c) against RFC 1071. -/

namespace Tapip.Lib.Checksum

open Foundation.OnesComplement Net.ByteOrder

def sum : List UInt8 → UInt32 → UInt32
  | b0 :: b1 :: data, origsum => sum data (origsum + (loadShort b0 b1).toUInt32)
  | [b], origsum => origsum + (ntohs ((b.toUInt16 &&& 0xff) <<< 8)).toUInt32
  | [], origsum => origsum

def checksum (data : List UInt8) (origsum : UInt32) : UInt16 :=
  let origsum := sum data origsum
  let origsum := (origsum &&& (0xffff : UInt32)) + (origsum >>> (16 : UInt32))
  let origsum := (origsum &&& (0xffff : UInt32)) + (origsum >>> (16 : UInt32))
  (~~~origsum &&& 0xffff).toUInt16

def ipChksum (data : List UInt8) : UInt16 := checksum data 0

def icmpChksum (data : List UInt8) : UInt16 := checksum data 0

def tcpUdpChksum (src dst : UInt32) (proto len : UInt16) (data : List UInt8) : UInt16 :=
  let sum := (htons proto).toUInt32 + (htons len).toUInt32
  let sum := sum + src
  let sum := sum + dst
  checksum data sum

def IP_P_TCP : UInt16 := 6
def IP_P_UDP : UInt16 := 17

def tcpChksum (src dst : UInt32) (len : UInt16) (data : List UInt8) : UInt16 :=
  tcpUdpChksum src dst IP_P_TCP len data

def udpChksum (src dst : UInt32) (len : UInt16) (data : List UInt8) : UInt16 :=
  tcpUdpChksum src dst IP_P_UDP len data

/-- The 16-bit words of a byte string in memory order, the last byte padded. -/
def words : List UInt8 → List ℕ
  | b0 :: b1 :: data => (b0.toNat + 256 * b1.toNat) :: words data
  | [b] => [b.toNat]
  | [] => []

/-- The same words as RFC 1071 reads them: the first byte is the high one. -/
def netWords : List UInt8 → List ℕ
  | b0 :: b1 :: data => (256 * b0.toNat + b1.toNat) :: netWords data
  | [b] => [256 * b.toNat]
  | [] => []

def internetChecksum (data : List UInt8) : ℕ := 0xffff - onesSum 0x10000 (netWords data)

def pseudoHeader (src dst : UInt32) (proto len : UInt16) : List UInt8 :=
  storeInt src ++ storeInt dst ++ [0, proto.toUInt8, (len >>> 8).toUInt8, len.toUInt8]

def wideSum (src dst : UInt32) (proto len : UInt16) (data : List UInt8) : ℕ :=
  (htons proto).toNat + (htons len).toNat + src.toNat + dst.toNat + (words data).sum

lemma words_lt (data : List UInt8) : ∀ w ∈ words data, w < 0x10000 := by
  induction data using words.induct with
  | case1 b0 b1 data ih =>
    have h0 := b0.toNat_lt
    have h1 := b1.toNat_lt
    simp only [words, List.mem_cons, forall_eq_or_imp]
    exact ⟨by omega, ih⟩
  | case2 b =>
    have := b.toNat_lt
    simp only [words, List.mem_singleton, forall_eq]
    omega
  | case3 => simp [words]

lemma netWords_eq (data : List UInt8) : netWords data = (words data).map (swap 256) := by
  induction data using words.induct with
  | case1 b0 b1 data ih =>
    have h0 := b0.toNat_lt
    have h1 := b1.toNat_lt
    simp only [netWords, words, List.map_cons, ih, swap, List.cons.injEq, and_true]
    omega
  | case2 b =>
    have := b.toNat_lt
    simp only [netWords, words, List.map_cons, List.map_nil, swap, List.cons.injEq, and_true]
    omega
  | case3 => rfl

lemma netWords_lt (data : List UInt8) : ∀ w ∈ netWords data, w < 0x10000 := by
  intro w hw
  rw [netWords_eq, List.mem_map] at hw
  obtain ⟨v, hv, rfl⟩ := hw
  exact swap_lt (b := 256) (by omega) (words_lt data v hv)

lemma words_append (xs ys : List UInt8) (h : xs.length % 2 = 0) : words (xs ++ ys) = words xs ++ words ys := by
  induction xs using words.induct with
  | case1 b0 b1 data ih =>
    simp only [List.length_cons] at h
    simp [words, ih (by omega)]
  | case2 b => simp at h
  | case3 => rfl

lemma words_sum_le (data : List UInt8) : 2 * (words data).sum ≤ 0xffff * (data.length + 1) := by
  induction data using words.induct with
  | case1 b0 b1 data ih =>
    have h0 := b0.toNat_lt
    have h1 := b1.toNat_lt
    simp only [words, List.sum_cons, List.length_cons] at *
    omega
  | case2 b =>
    have := b.toNat_lt
    simp only [words, List.sum_cons, List.sum_nil, List.length_cons, List.length_nil] at *
    omega
  | case3 => simp [words]

lemma lastByte_toNat (b : UInt8) : (ntohs ((b.toUInt16 &&& 0xff) <<< 8)).toNat = b.toNat := by
  have hb := b.toNat_lt
  have hm : b.toNat &&& 255 = b.toNat := by
    rw [show (255 : ℕ) = 2 ^ 8 - 1 from rfl, Nat.and_two_pow_sub_one_eq_mod]
    omega
  rw [ntohs, htons_toNat]
  simp only [UInt16.toNat_shiftLeft, UInt16.toNat_and, UInt8.toNat_toUInt16, UInt16.reduceToNat,
    Nat.reduceMod, hm, Nat.shiftLeft_eq, swap]
  omega

lemma sum_toNat (data : List UInt8) (origsum : UInt32) :
    (sum data origsum).toNat = (origsum.toNat + (words data).sum) % 2 ^ 32 := by
  induction data, origsum using sum.induct with
  | case1 b0 b1 data origsum ih =>
    rw [sum, ih, words, List.sum_cons, UInt32.toNat_add, UInt16.toNat_toUInt32, loadShort_toNat]
    omega
  | case2 b origsum =>
    rw [sum, words, UInt32.toNat_add, UInt16.toNat_toUInt32, lastByte_toNat, List.sum_singleton]
  | case3 origsum =>
    have := origsum.toNat_lt
    simp only [sum, words, List.sum_nil]
    omega

lemma lowWord_toNat (s : UInt32) : (s &&& (0xffff : UInt32)).toNat = s.toNat % 0x10000 := by
  rw [UInt32.toNat_and, show (0xffff : UInt32).toNat = 2 ^ 16 - 1 from rfl, Nat.and_two_pow_sub_one_eq_mod]

lemma foldWord_toNat (s : UInt32) :
    ((s &&& (0xffff : UInt32)) + (s >>> (16 : UInt32))).toNat = fold 0x10000 s.toNat := by
  have hs := s.toNat_lt
  rw [UInt32.toNat_add, lowWord_toNat]
  simp only [UInt32.toNat_shiftRight, UInt32.reduceToNat, Nat.reduceMod, Nat.shiftRight_eq_div_pow, fold]
  omega

lemma complement_toNat (s : UInt32) (hs : s.toNat < 0x10000) :
    (~~~s &&& (0xffff : UInt32)).toUInt16.toNat = 0xffff - s.toNat := by
  rw [UInt32.toNat_toUInt16, lowWord_toNat, UInt32.toNat_not, UInt32.size]
  omega

lemma checksum_toNat (data : List UInt8) (origsum : UInt32) : (checksum data origsum).toNat =
      0xffff - canon 0x10000 ((origsum.toNat + (words data).sum) % 2 ^ 32) := by
  have hlt : (origsum.toNat + (words data).sum) % 2 ^ 32 < 0x10000 * 0x10000 :=
    Nat.mod_lt _ (by norm_num)
  have hf : fold 0x10000 (fold 0x10000 (sum data origsum).toNat) =
      canon 0x10000 ((origsum.toNat + (words data).sum) % 2 ^ 32) := by
    rw [sum_toNat, fold_fold (by norm_num) hlt]
  rw [checksum, complement_toNat, foldWord_toNat, foldWord_toNat, hf]
  rw [foldWord_toNat, foldWord_toNat, hf]
  exact canon_lt (by norm_num) _

lemma storeInt_words (n : UInt32) : (words (storeInt n)).sum = fold 0x10000 n.toNat := by
  have hn := n.toNat_lt
  simp only [storeInt, words, List.sum_cons, List.sum_nil, UInt32.toNat_toUInt8,
    UInt32.toNat_shiftRight, UInt32.reduceToNat, Nat.reduceMod, Nat.shiftRight_eq_div_pow, fold]
  omega

section Wide

variable (src dst : UInt32) (proto len : UInt16) (data : List UInt8)

lemma pseudoHeader_words (hp : proto.toNat < 256) :
    (words (pseudoHeader src dst proto len)).sum =
      fold 0x10000 src.toNat + fold 0x10000 dst.toNat + (htons proto).toNat + (htons len).toNat := by
  have hl := len.toNat_lt
  rw [pseudoHeader, words_append _ _ (by simp [storeInt]), words_append _ _ (by simp [storeInt]),
    List.sum_append, List.sum_append, storeInt_words, storeInt_words, htons_toNat, htons_toNat]
  simp only [words, List.sum_cons, List.sum_nil, UInt16.toNat_toUInt8, UInt8.reduceToNat,
    UInt16.toNat_shiftRight, UInt16.reduceToNat, Nat.reduceMod, Nat.shiftRight_eq_div_pow, swap]
  omega

lemma pseudoHeader_modEq (hp : proto.toNat < 256) :
    (words (pseudoHeader src dst proto len ++ data)).sum ≡ wideSum src dst proto len data [MOD 0xffff] := by
  have hs := fold_modEq (B := 0x10000) (by norm_num) src.toNat
  have hd := fold_modEq (B := 0x10000) (by norm_num) dst.toNat
  rw [words_append _ _ (by simp [pseudoHeader, storeInt]), List.sum_append, pseudoHeader_words src dst proto len hp]
  have h := ((hs.add hd).add_right ((htons proto).toNat + (htons len).toNat)).add_right (words data).sum
  have he : src.toNat + dst.toNat + ((htons proto).toNat + (htons len).toNat) + (words data).sum =
      wideSum src dst proto len data := by
    unfold wideSum
    omega
  rw [← he, Nat.add_assoc (fold _ _ + fold _ _)]
  exact h

lemma wideSum_mod :
    (((htons proto).toUInt32 + (htons len).toUInt32 + src + dst).toNat + (words data).sum) % 2 ^ 32 =
      wideSum src dst proto len data % 2 ^ 32 := by
  simp only [UInt32.toNat_add, UInt16.toNat_toUInt32, wideSum]
  omega

lemma tcpUdpChksum_net :
    (ntohs (tcpUdpChksum src dst proto len data)).toNat =
      0xffff - swap 256 (canon 0x10000 (wideSum src dst proto len data % 2 ^ 32)) := by
  have hc := canon_lt (B := 0x10000) (by norm_num) (wideSum src dst proto len data % 2 ^ 32)
  rw [ntohs, htons_toNat, tcpUdpChksum, checksum_toNat, wideSum_mod]
  exact swap_complement (b := 256) (by norm_num) hc

lemma internetChecksum_eq :
    internetChecksum data = 0xffff - swap 256 (canon 0x10000 (words data).sum) := by
  rw [internetChecksum, onesSum_eq (by norm_num) _ (netWords_lt data), netWords_eq]
  exact congrArg (0xffff - ·) (canon_sum_swap (b := 256) (by norm_num) (words data))

lemma swap_canon_inj (m n : ℕ) : 0xffff - swap 256 (canon 0x10000 m) = 0xffff - swap 256 (canon 0x10000 n) ↔
      canon 0x10000 m = canon 0x10000 n := by
  have hm := canon_lt (B := 0x10000) (by norm_num) m
  have hn := canon_lt (B := 0x10000) (by norm_num) n
  simp only [swap]
  omega

lemma wideSum_lt
    (hl : data.length ≤ 0xffff) : wideSum src dst proto len data < 3 * 2 ^ 32 := by
  have hs := src.toNat_lt
  have hd := dst.toNat_lt
  have hp := (htons proto).toNat_lt
  have hn := (htons len).toNat_lt
  have hw := words_sum_le data
  unfold wideSum
  omega

end Wide

def Conforms (src dst : UInt32) (proto : UInt16) (data : List UInt8) : Prop :=
  let len := UInt16.ofNat data.length
  (ntohs (tcpUdpChksum src dst proto len data)).toNat =
    internetChecksum (pseudoHeader src dst proto len ++ data)

instance (src dst : UInt32) (proto : UInt16) (data : List UInt8) :
    Decidable (Conforms src dst proto data) :=
  inferInstanceAs (Decidable (_ = _))

/-- A carry out of bit 31 is lost for good, so the checksum is right only when there is none. -/
theorem conforms_iff (src dst : UInt32) (proto : UInt16) (data : List UInt8)
    (hp : proto = IP_P_TCP ∨ proto = IP_P_UDP) (hl : data.length ≤ 0xffff) :
    Conforms src dst proto data ↔ wideSum src dst proto (UInt16.ofNat data.length) data < 2 ^ 32 := by
  have hp' : proto.toNat < 256 ∧ 0 < (htons proto).toNat := by
    rcases hp with rfl | rfl <;> decide
  let len := UInt16.ofNat data.length
  let T := wideSum src dst proto len data
  let W := (words (pseudoHeader src dst proto len ++ data)).sum
  have hT : 0 < T := by
    have : (htons proto).toNat ≤ T := by
      simp only [T, wideSum]
      omega
    omega
  have hW : 0 < W := by
    have hs := pseudoHeader_words src dst proto len hp'.1
    simp only [W]
    rw [words_append _ _ (by simp [pseudoHeader, storeInt]), List.sum_append]
    omega
  have hWT : W ≡ T [MOD 0xffff] := pseudoHeader_modEq src dst proto len data hp'.1
  have hlt : T < 3 * 2 ^ 32 := wideSum_lt src dst proto len data hl
  rw [Conforms, tcpUdpChksum_net, internetChecksum_eq, swap_canon_inj]
  constructor
  · intro h
    by_contra hge
    have hge' : 2 ^ 32 ≤ T := Nat.le_of_not_lt hge
    rcases Nat.eq_zero_or_pos (T % 2 ^ 32) with hz | hz
    · have hc := canon_pos (B := 0x10000) hW
      rw [← h, hz] at hc
      simp at hc
    · have hm := ((canon_eq_iff hz hW).mp h).trans hWT
      have hq : T % 2 ^ 32 % 0xffff = T % 0xffff := hm
      omega
  · intro h
    rw [Nat.mod_eq_of_lt h]
    exact canon_congr hT hW hWT.symm

theorem conforms_iff_lan : Conforms 0x0200000a 0x0100000a IP_P_UDP [0, 7, 0, 7, 0, 8, 0, 0] ∧
    wideSum 0x0200000a 0x0100000a IP_P_UDP 8 [0, 7, 0, 7, 0, 8, 0, 0] < 2 ^ 32 :=
  ⟨(conforms_iff 0x0200000a 0x0100000a IP_P_UDP [0, 7, 0, 7, 0, 8, 0, 0] (Or.inr rfl)
    (by decide)).mpr (by decide), by decide⟩

/-- From 10.0.0.200 to 10.0.0.100: the two last octets carry out of bit 31. -/
theorem tcpUdpChksum_loses_carry : ¬ Conforms 0xc800000a 0x6400000a IP_P_UDP [0, 7, 0, 7, 0, 8, 0, 0] := by
  decide

end Tapip.Lib.Checksum
