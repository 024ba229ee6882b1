import Tapip.Net.Pkb

/-! The IP header at its place in a packet buffer (include/ip.h). -/

namespace Tapip.Ip.Header

open Foundation.Bytes Net.ByteOrder Net.Pkb

def IP_HRD_SZ : ℕ := 20
def IP_FRAG_DF : UInt16 := 0x4000
def IP_FRAG_MF : UInt16 := 0x2000
def IP_FRAG_OFF : UInt16 := 0x1fff

lemma header_sizes : ETH_HRD_SZ = 14 ∧ IP_HRD_SZ = 20 := ⟨rfl, rfl⟩

def ipHlen (pkb : Pkbuf) : UInt8 := pkb.pkData.getD 14 0 &&& 0x0f
def ipVer (pkb : Pkbuf) : UInt8 := pkb.pkData.getD 14 0 >>> 4
def ipLen (pkb : Pkbuf) : UInt16 := loadShortAt pkb.pkData 16
def ipId (pkb : Pkbuf) : UInt16 := loadShortAt pkb.pkData 18
def ipFragoff (pkb : Pkbuf) : UInt16 := loadShortAt pkb.pkData 20
def ipTtl (pkb : Pkbuf) : UInt8 := pkb.pkData.getD 22 0
def ipPro (pkb : Pkbuf) : UInt8 := pkb.pkData.getD 23 0
def ipSrc (pkb : Pkbuf) : UInt32 := loadIntAt pkb.pkData 26
def ipDst (pkb : Pkbuf) : UInt32 := loadIntAt pkb.pkData 30

def setShort (i : ℕ) (pkb : Pkbuf) (v : UInt16) : Pkbuf :=
  { pkb with pkData := storeShortAt pkb.pkData i v }

def setIpLen (pkb : Pkbuf) (v : UInt16) : Pkbuf := setShort 16 pkb v
def setIpId (pkb : Pkbuf) (v : UInt16) : Pkbuf := setShort 18 pkb v
def setIpFragoff (pkb : Pkbuf) (v : UInt16) : Pkbuf := setShort 20 pkb v
def setIpCksum (pkb : Pkbuf) (v : UInt16) : Pkbuf := setShort 24 pkb v

def iphlen (pkb : Pkbuf) : ℕ := (ipHlen pkb).toNat <<< 2

def ipoff (pkb : Pkbuf) : ℕ := (ipFragoff pkb &&& IP_FRAG_OFF).toNat * 8

def ipMF (pkb : Pkbuf) : Bool := ipFragoff pkb &&& IP_FRAG_MF != 0

def ipNtoh (pkb : Pkbuf) : Pkbuf :=
  let pkb := setIpLen pkb (ntohs (ipLen pkb))
  let pkb := setIpId pkb (ntohs (ipId pkb))
  setIpFragoff pkb (ntohs (ipFragoff pkb))

abbrev ipHton := ipNtoh

section Set

variable {pkb : Pkbuf} {i j : ℕ} {v : UInt16}

variable (h : i + 2 ≤ pkb.pkData.length)

include h

lemma setShort_length : (setShort i pkb v).pkData.length = pkb.pkData.length :=
  storeShortAt_length h

lemma setShort_getElem? (hj : j < i ∨ i + 2 ≤ j) : (setShort i pkb v).pkData[j]? = pkb.pkData[j]? :=
  storeShortAt_getElem? _ _ _ _ h hj

lemma setShort_load : loadShortAt (setShort i pkb v).pkData i = v :=
  loadShortAt_storeShortAt h

lemma setShort_load_ne (hj : j + 2 ≤ i ∨ i + 2 ≤ j) :
    loadShortAt (setShort i pkb v).pkData j = loadShortAt pkb.pkData j :=
  loadShortAt_storeShortAt_ne h hj

end Set

section Ntoh

variable {pkb : Pkbuf}

lemma le_setShort {n i : ℕ} {v : UInt16} (h : n ≤ pkb.pkData.length) : n ≤ (setShort i pkb v).pkData.length :=
  h.trans (le_memcpy_length _ _ _)

section Long

variable (h : 22 ≤ pkb.pkData.length)

include h

lemma ipNtoh_length : (ipNtoh pkb).pkData.length = pkb.pkData.length := by
  simp only [ipNtoh, setIpLen, setIpId, setIpFragoff]
  rw [setShort_length (le_setShort (le_setShort h)),
    setShort_length (le_setShort (le_trans (by omega) h)), setShort_length (by omega)]

lemma ipNtoh_getElem? {i : ℕ} (hi : i < 16 ∨ 22 ≤ i) : (ipNtoh pkb).pkData[i]? = pkb.pkData[i]? := by
  simp only [ipNtoh, setIpLen, setIpId, setIpFragoff]
  rw [setShort_getElem? (le_setShort (le_setShort h)) (by omega),
    setShort_getElem? (le_setShort (le_trans (by omega) h)) (by omega),
    setShort_getElem? (by omega) (by omega)]

lemma slice_ipNtoh {off n : ℕ} (ho : 22 ≤ off) : slice (ipNtoh pkb).pkData off n = slice pkb.pkData off n := by
  apply slice_congr
  intro j _
  exact ipNtoh_getElem? h (by omega)

lemma ipNtoh_ipLen : ipLen (ipNtoh pkb) = ntohs (ipLen pkb) := by
  simp only [ipNtoh, setIpLen, setIpId, setIpFragoff, ipLen]
  rw [setShort_load_ne (le_setShort (le_setShort h)) (by omega),
    setShort_load_ne (le_setShort (le_trans (by omega) h)) (by omega), setShort_load (by omega)]

lemma ipNtoh_ipId : ipId (ipNtoh pkb) = ntohs (ipId pkb) := by
  simp only [ipNtoh, setIpLen, setIpId, setIpFragoff, ipId]
  rw [setShort_load_ne (le_setShort (le_setShort h)) (by omega),
    setShort_load (le_setShort (le_trans (by omega) h)), setShort_load_ne (by omega) (by omega)]

lemma ipNtoh_ipFragoff : ipFragoff (ipNtoh pkb) = ntohs (ipFragoff pkb) := by
  simp only [ipNtoh, setIpLen, setIpId, setIpFragoff, ipFragoff]
  rw [setShort_load (le_setShort (le_setShort h)),
    setShort_load_ne (le_setShort (le_trans (by omega) h)) (by omega),
    setShort_load_ne (by omega) (by omega)]

lemma ipNtoh_getElem?_id : (ipNtoh pkb).pkData[18]? = some (ntohs (ipId pkb)).toUInt8 ∧
      (ipNtoh pkb).pkData[19]? = some (ntohs (ipId pkb) >>> 8).toUInt8 :=
  ipNtoh_ipId h ▸ loadShortAt_getElem? (by rw [ipNtoh_length h]; omega)

lemma ipNtoh_getElem?_len : (ipNtoh pkb).pkData[16]? = some (ntohs (ipLen pkb)).toUInt8 ∧
      (ipNtoh pkb).pkData[17]? = some (ntohs (ipLen pkb) >>> 8).toUInt8 :=
  ipNtoh_ipLen h ▸ loadShortAt_getElem? (by rw [ipNtoh_length h]; omega)

lemma ipNtoh_getElem?_fragoff : (ipNtoh pkb).pkData[20]? = some (ntohs (ipFragoff pkb)).toUInt8 ∧
      (ipNtoh pkb).pkData[21]? = some (ntohs (ipFragoff pkb) >>> 8).toUInt8 :=
  ipNtoh_ipFragoff h ▸ loadShortAt_getElem? (by rw [ipNtoh_length h]; omega)

end Long

lemma ntohs_loadShortAt_bytes (d : List UInt8) (i : ℕ) (h : i + 2 ≤ d.length) :
    some (ntohs (loadShortAt d i)).toUInt8 = d[i + 1]? ∧ some (ntohs (loadShortAt d i) >>> 8).toUInt8 = d[i]? := by
  have hget {j : ℕ} (hj : j < d.length) : some (d.getD j 0) = d[j]? := by
    rw [List.getD_eq_getElem?_getD, List.getElem?_eq_getElem hj]
    rfl
  rw [loadShortAt, ntohs, htons_loadShort, loadShort_toUInt8, loadShort_shiftRight]
  exact ⟨hget (by omega), hget (by omega)⟩

def turned (i : ℕ) : ℕ := if 16 ≤ i ∧ i < 22 then if i % 2 = 0 then i + 1 else i - 1 else i

lemma turned_turned (i : ℕ) : turned (turned i) = i := by
  simp only [turned]
  split_ifs <;> omega

lemma ipNtoh_getElem?_turned (h : 22 ≤ pkb.pkData.length) (i : ℕ) :
    (ipNtoh pkb).pkData[i]? = pkb.pkData[turned i]? := by
  by_cases hi : 16 ≤ i ∧ i < 22
  · obtain ⟨l0, l1⟩ := ntohs_loadShortAt_bytes pkb.pkData 16 (by omega)
    obtain ⟨i0, i1⟩ := ntohs_loadShortAt_bytes pkb.pkData 18 (by omega)
    obtain ⟨f0, f1⟩ := ntohs_loadShortAt_bytes pkb.pkData 20 (by omega)
    have : i = 16 ∨ i = 17 ∨ i = 18 ∨ i = 19 ∨ i = 20 ∨ i = 21 := by omega
    rcases this with rfl | rfl | rfl | rfl | rfl | rfl
    · exact (ipNtoh_getElem?_len h).1.trans l0
    · exact (ipNtoh_getElem?_len h).2.trans l1
    · exact (ipNtoh_getElem?_id h).1.trans i0
    · exact (ipNtoh_getElem?_id h).2.trans i1
    · exact (ipNtoh_getElem?_fragoff h).1.trans f0
    · exact (ipNtoh_getElem?_fragoff h).2.trans f1
  · rw [ipNtoh_getElem? h (by omega), turned, if_neg hi]

end Ntoh

end Tapip.Ip.Header
