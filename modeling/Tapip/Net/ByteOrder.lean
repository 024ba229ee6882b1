import Mathlib.Tactic.IntervalCases
import Tapip.Foundation.OnesComplement

/-! Byte order of a little-endian host (include/netif.h). -/

namespace Tapip.Net.ByteOrder

open Foundation.OnesComplement

def htons (host : UInt16) : UInt16 := (host >>> 8) ||| ((host <<< 8) &&& 0xff00)

abbrev ntohs := htons

def htonl (host : UInt32) : UInt32 :=
  ((host &&& 0x000000ff) <<< 24) ||| ((host &&& 0x0000ff00) <<< 8) |||
    ((host &&& 0x00ff0000) >>> 8) ||| ((host &&& 0xff000000) >>> 24)

abbrev ntohl := htonl

def loadShort (lo hi : UInt8) : UInt16 := UInt16.ofNat (lo.toNat + 256 * hi.toNat)

def storeInt (n : UInt32) : List UInt8 :=
  [n.toUInt8, (n >>> 8).toUInt8, (n >>> 16).toUInt8, (n >>> 24).toUInt8]

lemma htons_toNat (host : UInt16) : (htons host).toNat = swap 256 host.toNat := by
  have hx := host.toNat_lt
  have hl : host.toNat <<< 8 % 2 ^ 16 = (host.toNat % 256) <<< 8 := by
    simp only [Nat.shiftLeft_eq]
    omega
  have hm : (host.toNat % 256) <<< 8 &&& 0xff00 = (host.toNat % 256) <<< 8 := by
    rw [show (0xff00 : ℕ) = (2 ^ 8 - 1) <<< 8 from rfl, ← Nat.shiftLeft_and_distrib,
      Nat.and_two_pow_sub_one_eq_mod, Nat.mod_mod]
  have hd : host.toNat >>> 8 < 2 ^ 8 := by
    rw [Nat.shiftRight_eq_div_pow]
    omega
  have ho := Nat.shiftLeft_add_eq_or_of_lt hd (host.toNat % 256)
  simp only [htons, UInt16.toNat_or, UInt16.toNat_shiftRight, UInt16.toNat_and,
    UInt16.toNat_shiftLeft, UInt16.reduceToNat, Nat.reduceMod]
  rw [hl, hm, Nat.or_comm, ← ho]
  simp only [swap, Nat.shiftLeft_eq, Nat.shiftRight_eq_div_pow]
  omega

@[simp] lemma htons_htons (host : UInt16) : htons (htons host) = host := by
  apply UInt16.toNat_inj.mp
  have hx := host.toNat_lt
  rw [htons_toNat, htons_toNat]
  simp only [swap]
  omega

@[simp] lemma ntohs_htons (host : UInt16) : ntohs (htons host) = host := htons_htons host

@[simp] lemma ntohl_htonl (host : UInt32) : ntohl (htonl host) = host := by
  apply UInt32.toBitVec_inj.mp
  simp only [htonl, UInt32.toBitVec_or, UInt32.toBitVec_and, UInt32.toBitVec_shiftLeft, UInt32.toBitVec_shiftRight]
  generalize host.toBitVec = b
  apply BitVec.eq_of_getLsbD_eq
  intro i hi
  interval_cases i <;> simp

lemma loadShort_toNat (lo hi : UInt8) : (loadShort lo hi).toNat = lo.toNat + 256 * hi.toNat := by
  have hl := lo.toNat_lt
  have hh := hi.toNat_lt
  simp only [loadShort, UInt16.toNat_ofNat', Nat.reducePow] at *
  omega

lemma htons_loadShort (lo hi : UInt8) : htons (loadShort lo hi) = loadShort hi lo := by
  have hl := lo.toNat_lt
  have hh := hi.toNat_lt
  apply UInt16.toNat_inj.mp
  rw [htons_toNat, loadShort_toNat, loadShort_toNat]
  simp only [swap]
  omega

lemma loadShort_toUInt8 (lo hi : UInt8) : (loadShort lo hi).toUInt8 = lo := by
  have hl := lo.toNat_lt
  apply UInt8.toNat_inj.mp
  rw [UInt16.toNat_toUInt8, loadShort_toNat]
  omega

lemma loadShort_shiftRight (lo hi : UInt8) : (loadShort lo hi >>> 8).toUInt8 = hi := by
  have hl := lo.toNat_lt
  have hh := hi.toNat_lt
  apply UInt8.toNat_inj.mp
  simp only [UInt16.toNat_toUInt8, UInt16.toNat_shiftRight, UInt16.reduceToNat, Nat.reduceMod,
    Nat.shiftRight_eq_div_pow, loadShort_toNat]
  omega

end Tapip.Net.ByteOrder
