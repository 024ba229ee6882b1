import Mathlib.Algebra.Order.Group.Int
import Mathlib.Algebra.Order.Ring.Int
import Mathlib.Tactic.Push
import Tapip.Foundation.Program
import Tapip.Foundation.Ring

/-! The circular buffer (lib/cbuf.c, include/cbuf.h). -/

namespace Tapip.Lib

open Foundation.Bytes Foundation.Program Foundation.Ring

variable {size len : ℤ} {fuel k : ℕ} {src : List UInt8}

structure Cbuf where
  head : ℤ
  tail : ℤ
  size : ℤ
  buf : List UInt8
deriving DecidableEq, Repr

def cbufHead (c : Cbuf) : ℤ := c.head.tmod c.size
def cbufTail (c : Cbuf) : ℤ := c.tail.tmod c.size
def cbufUsed (c : Cbuf) : ℤ := c.head - c.tail
def cbufFree (c : Cbuf) : ℤ := c.size - cbufUsed c

def cbufHeadRight (c : Cbuf) : ℤ :=
  if cbufHead c ≥ cbufTail c then c.size - cbufHead c else cbufTail c - cbufHead c

def cbufTailRight (c : Cbuf) : ℤ :=
  if cbufHead c > cbufTail c then cbufUsed c else c.size - cbufTail c

-- `xzalloc` gets the three integers in front of the bytes too, as an `int`, and ends the process on
-- failure.
def allocCbuf (size : ℤ) : Except Fault Cbuf :=
  if 12 + size < 0 ∨ 2 ^ 31 ≤ 12 + size then .error .exit
  else .ok ⟨0, 0, size, List.replicate size.toNat 0⟩

def writeLoop : ℕ → List UInt8 → ℤ → Cbuf → Except Fault Cbuf
  | fuel, buf, len, c =>
    if len > 0 then
      match fuel with
      | 0 => .error .hang
      | fuel + 1 =>
        let onelen := min (cbufHeadRight c) len
        writeLoop fuel (buf.drop onelen.toNat) (len - onelen)
          { c with
            buf := memcpy c.buf (cbufHead c).toNat (buf.take onelen.toNat)
            head := c.head + onelen }
    else .ok c

def writeCbuf (c : Cbuf) (buf : List UInt8) (size : ℤ) : Except Fault (ℤ × Cbuf) := do
  let wlen := min (cbufFree c) size
  let c ← writeLoop wlen.toNat buf wlen c
  return (wlen, c)

def readLoop : ℕ → ℤ → Cbuf → Except Fault (List UInt8 × Cbuf)
  | fuel, len, c =>
    if len > 0 then
      match fuel with
      | 0 => .error .hang
      | fuel + 1 => do
        let onelen := min (cbufTailRight c) len
        let (buf, c') ← readLoop fuel (len - onelen) { c with tail := c.tail + onelen }
        return (slice c.buf (cbufTail c).toNat onelen.toNat ++ buf, c')
    else .ok ([], c)

def readCbuf (c : Option Cbuf) (size : ℤ) : Except Fault (List UInt8 × ℤ × Option Cbuf) :=
  match c with
  | none => .ok ([], 0, none)
  | some c => do
    let rlen := min (cbufUsed c) size
    let (buf, c) ← readLoop rlen.toNat rlen c
    if c.tail ≥ c.size then
      return (buf, rlen, some { c with head := c.head - c.size, tail := c.tail - c.size })
    else return (buf, rlen, some c)

structure Wf (c : Cbuf) : Prop where
  tail_nonneg : 0 ≤ c.tail
  tail_le : c.tail ≤ c.head
  used_le : c.head - c.tail ≤ max c.size 0
  length_eq : c.buf.length = c.size.toNat

def contents (c : Cbuf) : List UInt8 := window c.buf c.tail.toNat (cbufUsed c).toNat

lemma contents_length {c : Cbuf} (hw : Wf c) : ((contents c).length : ℤ) = cbufUsed c := by
  have := hw.tail_le
  simp only [contents, window_length, cbufUsed]
  omega

lemma allocCbuf_wf {c : Cbuf} (h : allocCbuf size = .ok c) : Wf c ∧ contents c = [] := by
  simp only [allocCbuf] at h
  split at h
  · simp at h
  · cases h
    exact ⟨⟨le_rfl, le_rfl, by simp, by simp⟩, rfl⟩

section Index

variable {c : Cbuf} (hw : Wf c)

include hw

lemma head_toNat : c.head.toNat = c.tail.toNat + (cbufUsed c).toNat := by
  have h1 := hw.tail_nonneg
  have h2 := hw.tail_le
  simp only [cbufUsed]
  omega

variable (hs : 0 < c.size)

include hs

lemma cbufHead_eq : cbufHead c = ((c.tail.toNat + (cbufUsed c).toNat) % c.buf.length : ℕ) := by
  have h1 := hw.tail_nonneg
  have h2 := hw.tail_le
  rw [cbufHead, Int.tmod_eq_emod_of_nonneg (by omega), ← head_toNat hw, Int.natCast_emod,
    hw.length_eq, Int.toNat_of_nonneg (by omega), Int.toNat_of_nonneg (by omega)]

lemma cbufTail_eq : cbufTail c = (c.tail.toNat % c.buf.length : ℕ) := by
  have h1 := hw.tail_nonneg
  rw [cbufTail, Int.tmod_eq_emod_of_nonneg (by omega), Int.natCast_emod,
    hw.length_eq, Int.toNat_of_nonneg (by omega), Int.toNat_of_nonneg (by omega)]

lemma cbufHeadRight_pos : 0 < cbufHeadRight c ∧ cbufHead c + cbufHeadRight c ≤ c.size := by
  have hlen := hw.length_eq
  have hh := Nat.mod_lt (c.tail.toNat + (cbufUsed c).toNat) (show 0 < c.buf.length by omega)
  have ht := Nat.mod_lt c.tail.toNat (show 0 < c.buf.length by omega)
  simp only [cbufHeadRight, cbufHead_eq hw hs, cbufTail_eq hw hs]
  split_ifs <;> omega

lemma cbufTailRight_pos (hu : 0 < cbufUsed c) : 0 < cbufTailRight c ∧ cbufTail c + cbufTailRight c ≤ c.size := by
  have hlen := hw.length_eq
  have hused := hw.used_le
  have hpos : 0 < c.buf.length := by omega
  have ht := Nat.mod_lt c.tail.toNat hpos
  have hmod : (c.tail.toNat + (cbufUsed c).toNat) % c.buf.length =
      (c.tail.toNat % c.buf.length + (cbufUsed c).toNat) % c.buf.length := by
    rw [Nat.mod_add_mod]
  simp only [cbufTailRight, cbufHead_eq hw hs, cbufTail_eq hw hs, hmod]
  generalize c.tail.toNat % c.buf.length = a at ht ⊢
  have hule : (cbufUsed c).toNat ≤ c.buf.length := by
    simp only [cbufUsed]
    omega
  split_ifs with hgt
  · refine ⟨hu, ?_⟩
    by_contra hle
    have hge : c.buf.length ≤ a + (cbufUsed c).toNat := by omega
    rw [Nat.mod_eq_sub_mod hge, Nat.mod_eq_of_lt (by omega)] at hgt
    omega
  · omega

end Index

lemma writeLoop_of_nonpos {c : Cbuf} (h : len ≤ 0) : writeLoop fuel src len c = .ok c := by
  cases fuel <;> simp [writeLoop, not_lt.mpr h]

lemma writeLoop_appends {c : Cbuf} (hw : Wf c) (hk : (k : ℤ) ≤ cbufFree c) (hf : k ≤ fuel) :
    ∃ c' new, writeLoop fuel src k c = .ok c' ∧ Wf c' ∧ c'.tail = c.tail ∧ c'.size = c.size ∧
      contents c' = contents c ++ new ∧ new.length = k ∧ src.take k <+: new := by
  induction fuel generalizing k src c with
  | zero =>
    obtain rfl : k = 0 := by omega
    exact ⟨c, [], by simp [writeLoop], hw, rfl, rfl, by simp, rfl, by simp⟩
  | succ fuel ih =>
    rcases Nat.eq_zero_or_pos k with rfl | hpos
    · exact ⟨c, [], by simp [writeLoop], hw, rfl, rfl, by simp, rfl, by simp⟩
    have h0 := hw.tail_nonneg
    have h1 := hw.tail_le
    have h2 := hw.used_le
    have hlen := hw.length_eq
    simp only [cbufFree, cbufUsed] at hk
    have hsize : 0 < c.size := by omega
    obtain ⟨hr1, hr2⟩ := cbufHeadRight_pos hw hsize
    obtain ⟨n, hn⟩ : ∃ n : ℕ, min (cbufHeadRight c) (k : ℤ) = n := ⟨_, (Int.toNat_of_nonneg (by omega)).symm⟩
    have hhead := cbufHead_eq hw hsize
    have htake : (src.take n).length ≤ n := List.length_take_le ..
    have hfree : (cbufUsed c).toNat + (src.take n).length ≤ c.buf.length := by
      simp only [cbufUsed]
      omega
    have hroom : (c.tail.toNat + (cbufUsed c).toNat) % c.buf.length + (src.take n).length ≤ c.buf.length := by omega
    let d : Cbuf := { c with
      buf := memcpy c.buf (cbufHead c).toNat (src.take n)
      head := c.head + n }
    have hdlen : d.buf.length = c.buf.length := by
      refine memcpy_length _ _ _ ?_
      rw [hhead, Int.toNat_natCast]
      exact hroom
    have hdw : Wf d := ⟨h0, by simp only [d]; omega, by simp only [d]; omega, hdlen.trans hlen⟩
    obtain ⟨stale, hstale, hdc⟩ : ∃ stale : List UInt8, stale.length = n - (src.take n).length ∧
        contents d = contents c ++ (src.take n ++ stale) := by
      have hused : (cbufUsed d).toNat = (cbufUsed c).toNat + (src.take n).length + (n - (src.take n).length) := by
        simp only [cbufUsed, d]
        omega
      refine ⟨window d.buf (d.tail.toNat + ((cbufUsed c).toNat + (src.take n).length))
        (n - (src.take n).length), window_length .., ?_⟩
      rw [contents, hused, window_add, ← List.append_assoc]
      congr 1
      simp only [d, hhead, Int.toNat_natCast]
      exact window_memcpy hfree hroom
    obtain ⟨c', new, hl, hw', ht', hs', hc', hnew, hpre⟩ := @ih (k - n) (src.drop n) d hdw
      (by simp only [cbufFree, cbufUsed, d]; omega) (by omega)
    refine ⟨c', src.take n ++ stale ++ new, ?_, hw', ht', hs', by rw [hc', hdc, List.append_assoc], ?_, ?_⟩
    · rw [writeLoop, if_pos (by omega)]
      simp only [hn, Int.toNat_natCast]
      rw [show (k : ℤ) - n = ((k - n : ℕ) : ℤ) by omega]
      exact hl
    · simp only [List.length_append, hstale, hnew]
      omega
    · have hsrc : src.take k = src.take n ++ (src.drop n).take (k - n) := by
        rw [← List.take_add, Nat.add_sub_cancel' (by omega)]
      rw [hsrc, List.append_assoc]
      refine (List.prefix_append_right_inj _).mpr ?_
      rcases Nat.lt_or_ge src.length n with hshort | hlong
      · rw [List.drop_eq_nil_of_le hshort.le]
        simp
      · have hnil : stale = [] := by
          rw [List.length_take, Nat.min_eq_left hlong, Nat.sub_self] at hstale
          exact List.length_eq_zero_iff.mp hstale
        rw [hnil, List.nil_append]
        exact hpre

lemma writeCbuf_appends {c : Cbuf} (src : List UInt8) (size : ℤ) (hw : Wf c) :
    ∃ c' new, writeCbuf c src size = .ok (min (cbufFree c) size, c') ∧ Wf c' ∧ c'.tail = c.tail ∧ c'.size = c.size ∧
      contents c' = contents c ++ new ∧ new.length = (min (cbufFree c) size).toNat ∧
      src.take (min (cbufFree c) size).toNat <+: new := by
  rcases le_or_gt (min (cbufFree c) size) 0 with hle | hgt
  · refine ⟨c, [], ?_, hw, rfl, rfl, by simp, by simp [Int.toNat_of_nonpos hle], by simp [Int.toNat_of_nonpos hle]⟩
    rw [writeCbuf, writeLoop_of_nonpos hle]
    rfl
  · obtain ⟨k, hk⟩ : ∃ k : ℕ, min (cbufFree c) size = k := ⟨_, (Int.toNat_of_nonneg hgt.le).symm⟩
    obtain ⟨c', new, hl, h⟩ := @writeLoop_appends k k src c hw (by omega) le_rfl
    refine ⟨c', new, ?_, ?_⟩
    · simp only [writeCbuf, hk, Int.toNat_natCast, hl]
      rfl
    · rw [hk, Int.toNat_natCast]
      exact h

lemma writeCbuf_spec {c : Cbuf} (hw : Wf c) (hs : size ≤ src.length) :
    ∃ c', writeCbuf c src size = .ok (min (cbufFree c) size, c') ∧ Wf c' ∧ c'.tail = c.tail ∧
      c'.size = c.size ∧ contents c' = contents c ++ src.take (min (cbufFree c) size).toNat := by
  obtain ⟨c', new, hrun, hw', ht', hs', hc', hnew, hpre⟩ := writeCbuf_appends src size hw
  have htake : (src.take (min (cbufFree c) size).toNat).length = new.length := by
    rw [List.length_take, hnew]
    omega
  exact ⟨c', hrun, hw', ht', hs', by rw [hc', hpre.eq_of_length htake]⟩

lemma readLoop_of_nonpos {c : Cbuf} (h : len ≤ 0) : readLoop fuel len c = .ok ([], c) := by
  cases fuel <;> simp [readLoop, not_lt.mpr h]

lemma readLoop_spec {c : Cbuf} (hw : Wf c) (hk : (k : ℤ) ≤ cbufUsed c) (hf : k ≤ fuel) :
    readLoop fuel k c = .ok ((contents c).take k, { c with tail := c.tail + k }) := by
  induction fuel generalizing k c with
  | zero =>
    obtain rfl : k = 0 := by omega
    simp [readLoop]
  | succ fuel ih =>
    rcases Nat.eq_zero_or_pos k with rfl | hpos
    · simp [readLoop]
    have h0 := hw.tail_nonneg
    have h1 := hw.tail_le
    have h2 := hw.used_le
    have hlen := hw.length_eq
    have hu := hk
    simp only [cbufUsed] at hu
    have hsize : 0 < c.size := by omega
    obtain ⟨hr1, hr2⟩ := cbufTailRight_pos hw hsize (by omega)
    obtain ⟨n, hn⟩ : ∃ n : ℕ, min (cbufTailRight c) (k : ℤ) = n :=
      ⟨_, (Int.toNat_of_nonneg (by omega)).symm⟩
    have htail := cbufTail_eq hw hsize
    let d : Cbuf := { c with tail := c.tail + n }
    have hdw : Wf d := ⟨by simp only [d]; omega, by simp only [d]; omega, by simp only [d]; omega, hlen⟩
    have hblock : slice c.buf (cbufTail c).toNat n = (contents c).take n := by
      rw [contents, window_take _ _ (by omega), window_eq_slice (by omega), htail, Int.toNat_natCast]
    have hrest : contents d = (contents c).drop n := by
      rw [contents, contents, window_drop _ _ (by omega)]
      simp only [cbufUsed, d]
      congr 1
      · omega
      · omega
    rw [readLoop, if_pos (by omega)]
    simp only [hn, Int.toNat_natCast]
    rw [show (k : ℤ) - n = ((k - n : ℕ) : ℤ) by omega,
      @ih (k - n) d hdw (by simp only [cbufUsed, d]; omega) (by omega)]
    simp only [bind, Except.bind, pure, Except.pure, hblock, hrest, d]
    rw [← List.take_add, Nat.add_sub_cancel' (by omega)]
    congr 3
    omega

lemma readLoop_eq {c : Cbuf} (hw : Wf c) (hl : len ≤ cbufUsed c) : readLoop len.toNat len c =
      .ok ((contents c).take len.toNat, { c with tail := c.tail + len.toNat }) := by
  rcases le_or_gt len 0 with hle | hgt
  · rw [readLoop_of_nonpos hle, Int.toNat_of_nonpos hle]
    simp
  · obtain ⟨k, rfl⟩ : ∃ k : ℕ, len = k := ⟨_, (Int.toNat_of_nonneg hgt.le).symm⟩
    exact readLoop_spec hw hl le_rfl

def rewind (c : Cbuf) : Cbuf := { c with head := c.head - c.size, tail := c.tail - c.size }

lemma rewind_spec {c : Cbuf} (hw : Wf c) (h : c.size ≤ c.tail) : Wf (rewind c) ∧ contents (rewind c) = contents c := by
  have h0 := hw.tail_nonneg
  have h1 := hw.tail_le
  have h2 := hw.used_le
  have hlen := hw.length_eq
  have hused : cbufUsed (rewind c) = cbufUsed c := by
    simp only [cbufUsed, rewind]
    omega
  refine ⟨⟨by simp only [rewind]; omega, by simp only [rewind]; omega,
    by simp only [rewind]; omega, hlen⟩, ?_⟩
  rw [contents, hused, contents]
  rcases le_or_gt c.size 0 with hle | hgt
  · have : (cbufUsed c).toNat = 0 := by
      simp only [cbufUsed]
      omega
    rw [this, window_zero, window_zero]
  · have ht : c.tail.toNat = (rewind c).tail.toNat + c.buf.length := by
      simp only [rewind]
      omega
    rw [ht, window_add_length]
    rfl

lemma readCbuf_spec {c : Cbuf} (size : ℤ) (hw : Wf c) : ∃ c', readCbuf (some c) size =
        .ok ((contents c).take (min (cbufUsed c) size).toNat, min (cbufUsed c) size, some c') ∧
      Wf c' ∧ c'.size = c.size ∧
      contents c' = (contents c).drop (min (cbufUsed c) size).toNat := by
  have h0 := hw.tail_nonneg
  have h1 := hw.tail_le
  have h2 := hw.used_le
  generalize hr : min (cbufUsed c) size = rlen
  have hle : rlen ≤ cbufUsed c := by omega
  have hu : cbufUsed c = c.head - c.tail := rfl
  let d : Cbuf := { c with tail := c.tail + rlen.toNat }
  have hdw : Wf d :=
    ⟨by simp only [d]; omega, by simp only [d]; omega, by simp only [d]; omega, hw.length_eq⟩
  have hdc : contents d = (contents c).drop rlen.toNat := by
    rw [contents, contents, window_drop _ _ (by omega)]
    simp only [cbufUsed, d]
    congr 1
    · omega
    · omega
  have hread : readCbuf (some c) size = .ok ((contents c).take rlen.toNat, rlen,
      some (if c.size ≤ d.tail then rewind d else d)) := by
    simp only [readCbuf, hr, readLoop_eq hw hle, bind, Except.bind]
    simp only [d, ge_iff_le]
    split_ifs <;> rfl
  refine ⟨_, hread, ?_⟩
  split_ifs with hd
  · obtain ⟨hw', hc'⟩ := rewind_spec hdw hd
    exact ⟨hw', rfl, hc'.trans hdc⟩
  · exact ⟨hdw, rfl, hdc⟩

end Tapip.Lib
