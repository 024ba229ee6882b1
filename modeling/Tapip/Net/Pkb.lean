import Tapip.Foundation.Bytes
import Tapip.Net.ByteOrder

/-! Packet buffers (net/pkb.c, include/netif.h) and the fields read from their bytes. -/

namespace Tapip.Net.Pkb

open Foundation.Bytes ByteOrder

def loadShortAt (d : List UInt8) (i : ℕ) : UInt16 := loadShort (d.getD i 0) (d.getD (i + 1) 0)

def storeShortAt (d : List UInt8) (i : ℕ) (v : UInt16) : List UInt8 :=
  memcpy d i [v.toUInt8, (v >>> 8).toUInt8]

def loadIntAt (d : List UInt8) (i : ℕ) : UInt32 :=
  UInt32.ofNat ((d.getD i 0).toNat + 2 ^ 8 * (d.getD (i + 1) 0).toNat +
    2 ^ 16 * (d.getD (i + 2) 0).toNat + 2 ^ 24 * (d.getD (i + 3) 0).toNat)

structure RtEntry where
  rtNet : UInt32
  rtNetmask : UInt32
  rtGw : UInt32
  rtFlags : UInt32
  rtMetric : ℤ
  rtDev : ℕ
deriving DecidableEq, Repr

inductive PktType
  | none
  | localhost
  | otherhost
  | multicast
  | broadcast
deriving DecidableEq, Repr

/-- `pkAddr` tells two buffers apart, as their addresses do. -/
structure Pkbuf where
  pkAddr : ℕ
  pkPro : UInt16
  pkType : PktType
  pkLen : ℕ
  pkIndev : Option ℕ
  pkRtdst : Option RtEntry
  pkData : List UInt8
deriving DecidableEq, Repr

def ETH_HRD_SZ : ℕ := 14
def ETH_P_IP : UInt16 := 0x0800
def ETH_P_ARP : UInt16 := 0x0806
def ETH_P_RARP : UInt16 := 0x8035

def allocPkb (addr size : ℕ) : Pkbuf where
  pkAddr := addr
  pkPro := 0xffff
  pkType := .none
  pkLen := size
  pkIndev := none
  pkRtdst := none
  pkData := List.replicate size 0

lemma storeShortAt_length {d : List UInt8} {i : ℕ} {v : UInt16} (h : i + 2 ≤ d.length) :
    (storeShortAt d i v).length = d.length :=
  memcpy_length d _ i (by simpa using h)

lemma storeShortAt_getElem? (d : List UInt8) (i j : ℕ) (v : UInt16) (h : i + 2 ≤ d.length)
    (hj : j < i ∨ i + 2 ≤ j) : (storeShortAt d i v)[j]? = d[j]? :=
  memcpy_getElem?_of_not_mem d _ i j (by simpa using h) (by simpa using hj)

lemma storeShortAt_take (d : List UInt8) (i n : ℕ) (v : UInt16) (h : i + 2 ≤ d.length)
    (hn : n ≤ i) : (storeShortAt d i v).take n = d.take n := by
  rw [storeShortAt, memcpy, List.append_assoc, List.take_append_of_le_length
    (by rw [List.length_take]; omega), List.take_take, Nat.min_eq_left hn]

lemma storeShortAt_drop (d : List UInt8) (i n : ℕ) (v : UInt16) (h : i + 2 ≤ d.length)
    (hn : i + 2 ≤ n) : (storeShortAt d i v).drop n = d.drop n := by
  apply List.ext_getElem?
  intro j
  rw [List.getElem?_drop, List.getElem?_drop, storeShortAt_getElem? d i _ v h (by omega)]

lemma storeShortAt_append (hd d : List UInt8) (i : ℕ) (v : UInt16) (h : i + 2 ≤ hd.length) :
    storeShortAt (hd ++ d) i v = storeShortAt hd i v ++ d := by
  simp only [storeShortAt, memcpy, List.length_cons, List.length_nil, List.append_assoc]
  rw [List.take_append_of_le_length (by omega), List.drop_append_of_le_length (by omega)]

lemma loadShort_bytes (v : UInt16) : loadShort v.toUInt8 (v >>> 8).toUInt8 = v := by
  have hv := v.toNat_lt
  apply UInt16.toNat_inj.mp
  rw [loadShort_toNat]
  simp only [UInt16.toNat_toUInt8, UInt16.toNat_shiftRight, UInt16.reduceToNat, Nat.reduceMod,
    Nat.shiftRight_eq_div_pow]
  omega

lemma storeShortAt_getElem?_self (d : List UInt8) (i : ℕ) (v : UInt16) (h : i + 2 ≤ d.length) :
    (storeShortAt d i v)[i]? = some v.toUInt8 ∧ (storeShortAt d i v)[i + 1]? = some (v >>> 8).toUInt8 := by
  constructor
  · rw [storeShortAt, memcpy_getElem? _ _ _ _ (by simpa using h), if_pos (by simp), Nat.sub_self]
    rfl
  · rw [storeShortAt, memcpy_getElem? _ _ _ _ (by simpa using h), if_pos (by simp), Nat.add_sub_cancel_left]
    rfl

lemma loadShortAt_storeShortAt {d : List UInt8} {i : ℕ} {v : UInt16} (h : i + 2 ≤ d.length) :
    loadShortAt (storeShortAt d i v) i = v := by
  obtain ⟨h0, h1⟩ := storeShortAt_getElem?_self d i v h
  simp only [loadShortAt, List.getD_eq_getElem?_getD, h0, h1, Option.getD_some, loadShort_bytes]

lemma loadShortAt_getElem? {d : List UInt8} {i : ℕ} (h : i + 2 ≤ d.length) :
    d[i]? = some (loadShortAt d i).toUInt8 ∧ d[i + 1]? = some (loadShortAt d i >>> 8).toUInt8 := by
  rw [loadShortAt, loadShort_toUInt8, loadShort_shiftRight]
  simp [List.getElem?_eq_getElem (show i < d.length by omega), List.getElem?_eq_getElem (show i + 1 < d.length by omega)]

lemma loadShortAt_congr {d e : List UInt8} {i : ℕ} (h0 : d[i]? = e[i]?)
    (h1 : d[i + 1]? = e[i + 1]?) : loadShortAt d i = loadShortAt e i := by
  simp only [loadShortAt, List.getD_eq_getElem?_getD, h0, h1]

lemma loadShortAt_slice (d : List UInt8) (off n : ℕ) {i : ℕ} (h : i + 2 ≤ n) :
    loadShortAt (slice d off n) i = loadShortAt d (off + i) := by
  simp only [loadShortAt, List.getD_eq_getElem?_getD, slice_getElem?]
  rw [if_pos (by omega), if_pos (by omega), Nat.add_assoc]

lemma loadIntAt_storeInt (n : UInt32) : loadIntAt (storeInt n) 0 = n := by
  apply UInt32.toNat_inj.mp
  have hlt := n.toNat_lt
  simp only [loadIntAt, storeInt, List.getD_cons_zero, List.getD_cons_succ, UInt32.toNat_ofNat',
    UInt32.toNat_toUInt8, UInt32.toNat_shiftRight, Nat.shiftRight_eq_div_pow, UInt32.reduceToNat,
    Nat.reduceMod, Nat.reducePow]
  omega

lemma loadIntAt_congr {d e : List UInt8} {i : ℕ} (h : ∀ j < 4, d[i + j]? = e[i + j]?) :
    loadIntAt d i = loadIntAt e i := by
  have h0 : d[i]? = e[i]? := h 0 (by omega)
  simp only [loadIntAt, List.getD_eq_getElem?_getD, h0, h 1 (by omega), h 2 (by omega), h 3 (by omega)]

lemma loadIntAt_slice (d : List UInt8) (i : ℕ) : loadIntAt (slice d i 4) 0 = loadIntAt d i := by
  simp only [loadIntAt, List.getD_eq_getElem?_getD, slice_getElem?]
  rfl

lemma loadIntAt_memcpy (d : List UInt8) {i : ℕ} (v : UInt32) (h : i ≤ d.length) :
    loadIntAt (memcpy d i (storeInt v)) i = v := by
  have hs : slice (memcpy d i (storeInt v)) i 4 = storeInt v := slice_memcpy_self d (storeInt v) h
  rw [← loadIntAt_slice, hs, loadIntAt_storeInt]

lemma loadShortAt_storeShortAt_ne {d : List UInt8} {i j : ℕ} {v : UInt16} (h : i + 2 ≤ d.length)
    (hj : j + 2 ≤ i ∨ i + 2 ≤ j) : loadShortAt (storeShortAt d i v) j = loadShortAt d j :=
  loadShortAt_congr (storeShortAt_getElem? d i j v h (by omega)) (storeShortAt_getElem? d i (j + 1) v h (by omega))

end Tapip.Net.Pkb
