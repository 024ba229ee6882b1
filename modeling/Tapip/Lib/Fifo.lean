import Tapip.Lib.Cbuf

/-! The circular buffer as a bounded queue of bytes, over any sequence of calls. -/

namespace Tapip.Lib.Fifo

open Foundation.Program

inductive Call
  | write (buf : List UInt8) (size : ℤ)
  | read (size : ℤ)

def Call.Valid : Call → Prop
  | .write buf size => 0 ≤ size ∧ size ≤ buf.length
  | .read size => 0 ≤ size

def writeChunks : ℕ → ℤ → Cbuf → List (ℤ × ℤ)
  | 0, _, _ => []
  | fuel + 1, len, c =>
    if len > 0 then
      let onelen := min (cbufHeadRight c) len
      (cbufHead c, onelen) :: writeChunks fuel (len - onelen) { c with head := c.head + onelen }
    else []

def readChunks : ℕ → ℤ → Cbuf → List (ℤ × ℤ)
  | 0, _, _ => []
  | fuel + 1, len, c =>
    if len > 0 then
      let onelen := min (cbufTailRight c) len
      (cbufTail c, onelen) :: readChunks fuel (len - onelen) { c with tail := c.tail + onelen }
    else []

def Inside (n : ℤ) (chunks : List (ℤ × ℤ)) : Prop :=
  ∀ p ∈ chunks, 0 < p.2 ∧ 0 ≤ p.1 ∧ p.1 + p.2 ≤ n

structure Holds (n : ℤ) (c : Cbuf) (queue : List UInt8) : Prop where
  size : c.size = n
  tail : 0 ≤ c.tail ∧ c.tail < n
  used : 0 ≤ c.head - c.tail ∧ c.head - c.tail ≤ n
  contents : contents c = queue

-- The write point is an `int`: past the greatest one the behaviour is undefined.
def HeadFits (c : Cbuf) : Prop := c.head < 2 ^ 31

/-- Every call does what it does to a queue of at most `n` bytes. -/
def Refines (n : ℤ) : List Call → Cbuf → List UInt8 → Prop
  | [], _, _ => True
  | .write buf size :: calls, c, queue =>
    let wlen := min (n - queue.length) size
    ∃ c', writeCbuf c buf size = .ok (wlen, c') ∧ Inside n (writeChunks wlen.toNat wlen c) ∧
      Holds n c' (queue ++ buf.take wlen.toNat) ∧ HeadFits c' ∧
      Refines n calls c' (queue ++ buf.take wlen.toNat)
  | .read size :: calls, c, queue =>
    let rlen := min (queue.length : ℤ) size
    ∃ c', readCbuf (some c) size = .ok (queue.take rlen.toNat, rlen, some c') ∧
      Inside n (readChunks rlen.toNat rlen c) ∧ Holds n c' (queue.drop rlen.toNat) ∧ HeadFits c' ∧
      Refines n calls c' (queue.drop rlen.toNat)

variable {c : Cbuf} {n : ℤ}

section Chunks

lemma writeChunks_inside {fuel : ℕ} {len : ℤ} (hw : Wf c) (hn : c.size = n) (hpos : 0 < n)
    (hl : len ≤ cbufFree c) : Inside n (writeChunks fuel len c) := by
  induction fuel generalizing len c with
  | zero => simp [Inside, writeChunks]
  | succ fuel ih =>
    rw [writeChunks]
    split_ifs with hlen
    · obtain ⟨h1, h2⟩ := cbufHeadRight_pos hw (hn ▸ hpos)
      have hhead := cbufHead_eq hw (hn ▸ hpos)
      have hf : len ≤ c.size - (c.head - c.tail) := hl
      have h3 := hw.tail_le
      have h4 := hw.used_le
      have hw' : Wf { c with head := c.head + min (cbufHeadRight c) len } := by
        refine ⟨hw.tail_nonneg, ?_, ?_, hw.length_eq⟩ <;> simp only <;> omega
      rintro p (_ | ⟨_, hp⟩)
      · simp only
        omega
      · refine ih hw' hn ?_ p hp
        simp only [cbufFree, cbufUsed]
        omega
    · simp [Inside]

lemma readChunks_inside {fuel : ℕ} {len : ℤ} (hw : Wf c) (hn : c.size = n) (hpos : 0 < n)
    (hl : len ≤ cbufUsed c) : Inside n (readChunks fuel len c) := by
  induction fuel generalizing len c with
  | zero => simp [Inside, readChunks]
  | succ fuel ih =>
    rw [readChunks]
    split_ifs with hlen
    · obtain ⟨h1, h2⟩ := cbufTailRight_pos hw (hn ▸ hpos) (lt_of_lt_of_le hlen hl)
      have htail := cbufTail_eq hw (hn ▸ hpos)
      have hu : len ≤ c.head - c.tail := hl
      have h3 := hw.tail_nonneg
      have h4 := hw.used_le
      have hw' : Wf { c with tail := c.tail + min (cbufTailRight c) len } := by
        refine ⟨?_, ?_, ?_, hw.length_eq⟩ <;> simp only <;> omega
      rintro p (_ | ⟨_, hp⟩)
      · simp only
        omega
      · refine ih hw' hn ?_ p hp
        simp only [cbufUsed]
        omega
    · simp [Inside]

end Chunks

variable {queue : List UInt8}

section Calls

variable {c' : Cbuf} {size : ℤ}

lemma Holds.length (hw : Wf c) (h : Holds n c queue) : (queue.length : ℤ) = c.head - c.tail := by
  rw [← h.contents, contents_length hw]
  rfl

lemma holds_of_wf (hw : Wf c) (hn : 0 < n) (hs : c.size = n) (ht : c.tail < n) (hc : contents c = queue) :
    Holds n c queue := by
  have h1 := hw.tail_nonneg
  have h2 := hw.tail_le
  have h3 := hw.used_le
  exact ⟨hs, ⟨h1, ht⟩, ⟨by omega, by omega⟩, hc⟩

lemma Holds.headFits (h : Holds n c queue) (hn : n ≤ 2 ^ 30) : HeadFits c := by
  have h1 := h.tail
  have h2 := h.used
  simp only [HeadFits]
  omega

lemma readCbuf_tail {buf : List UInt8} {rlen : ℤ} (hw : Wf c) (h : readCbuf (some c) size = .ok (buf, rlen, some c')) :
    c.tail + rlen.toNat < c.size ∧ c'.tail = c.tail + rlen.toNat ∨ c.size ≤ c.tail + rlen.toNat ∧
      c'.tail = c.tail + rlen.toNat - c.size := by
  rw [readCbuf] at h
  obtain ⟨⟨bytes, d⟩, hloop, h⟩ := bind_eq_ok.mp h
  rw [readLoop_eq hw (min_le_left _ _)] at hloop
  cases hloop
  simp only at h
  split_ifs at h with hge
  · cases h
    exact .inr ⟨hge, rfl⟩
  · cases h
    exact .inl ⟨not_le.mp hge, rfl⟩

lemma writeCbuf_holds {buf : List UInt8} (hn : 0 < n) (hw : Wf c) (h : Holds n c queue) (hs : size ≤ buf.length) :
    ∃ c', writeCbuf c buf size = .ok (min (n - queue.length) size, c') ∧ Wf c' ∧ c'.tail = c.tail ∧
      Inside n (writeChunks (min (n - queue.length) size).toNat (min (n - queue.length) size) c) ∧
      Holds n c' (queue ++ buf.take (min (n - queue.length) size).toNat) := by
  have hfree : cbufFree c = n - queue.length := by
    rw [h.length hw, cbufFree, h.size, cbufUsed]
  obtain ⟨c', hrun, hw', htail, hsize, hc⟩ := writeCbuf_spec hw hs
  rw [hfree] at hrun hc
  refine ⟨c', hrun, hw', htail, ?_, ?_⟩
  · apply writeChunks_inside hw h.size hn
    rw [hfree]
    exact min_le_left _ _
  · apply holds_of_wf hw' hn (hsize.trans h.size) (htail ▸ h.tail.2)
    rw [hc, h.contents]

lemma readCbuf_holds (size : ℤ) (hn : 0 < n) (hw : Wf c) (h : Holds n c queue) :
    ∃ c', readCbuf (some c) size = .ok (queue.take (min (queue.length : ℤ) size).toNat,
        min (queue.length : ℤ) size, some c') ∧ Wf c' ∧
      Inside n (readChunks (min (queue.length : ℤ) size).toNat (min (queue.length : ℤ) size) c) ∧
      Holds n c' (queue.drop (min (queue.length : ℤ) size).toNat) := by
  have hused : cbufUsed c = queue.length := (h.length hw).symm
  obtain ⟨c', hrun, hw', hsize, hc⟩ := readCbuf_spec size hw
  rw [hused, h.contents] at hrun hc
  refine ⟨c', hrun, hw', ?_, ?_⟩
  · apply readChunks_inside hw h.size hn
    rw [hused]
    exact min_le_left _ _
  · apply holds_of_wf hw' hn (hsize.trans h.size) _ hc
    have h1 := h.tail
    have h2 := h.used
    have h3 := h.length hw
    have h4 := h.size
    rcases readCbuf_tail hw hrun with ⟨hlt, ht⟩ | ⟨hge, ht⟩
    · omega
    · omega

end Calls

section Run

variable {c0 : Cbuf}

lemma refines_of_holds (hn : 0 < n) (hle : n ≤ 2 ^ 30) {calls : List Call}
    (hv : ∀ call ∈ calls, call.Valid) (hw : Wf c) (h : Holds n c queue) : Refines n calls c queue := by
  induction calls generalizing c queue with
  | nil => trivial
  | cons call calls ih =>
    have hrest : ∀ call ∈ calls, call.Valid := fun d hd => hv d (by simp [hd])
    have hcall := hv call (by simp)
    cases call with
    | write buf size =>
      obtain ⟨c', hrun, hw', -, hin, h'⟩ := writeCbuf_holds hn hw h hcall.2
      exact ⟨c', hrun, hin, h', h'.headFits hle, ih hrest hw' h'⟩
    | read size =>
      obtain ⟨c', hrun, hw', hin, h'⟩ := readCbuf_holds size hn hw h
      exact ⟨c', hrun, hin, h', h'.headFits hle, ih hrest hw' h'⟩

lemma alloc_holds (hn : 0 < n) (h : allocCbuf n = .ok c0) : Wf c0 ∧ Holds n c0 [] ∧ c0.tail = 0 := by
  obtain ⟨hw, hc⟩ := allocCbuf_wf h
  simp only [allocCbuf] at h
  split_ifs at h
  cases h
  exact ⟨hw, holds_of_wf hw hn rfl hn hc, rfl⟩

def zeros (n : ℤ) : List UInt8 := List.replicate n.toNat 0

lemma twice_full (hn : 0 < n) (h : allocCbuf n = .ok c0) : ∃ c1 c2 c3 buf, writeCbuf c0 (zeros n) n = .ok (n, c1) ∧
      readCbuf (some c1) (n - 1) = .ok (buf, n - 1, some c2) ∧
      writeCbuf c2 (zeros n) n = .ok (n - 1, c3) ∧ c3.head = 2 * n - 1 := by
  obtain ⟨hw0, h0, ht0⟩ := alloc_holds hn h
  have hlen : (zeros n).length = n.toNat := List.length_replicate
  have hbuf : n ≤ (zeros n).length := by omega
  obtain ⟨c1, hrun1, hw1, ht1, -, h1⟩ := writeCbuf_holds hn hw0 h0 hbuf
  generalize hq1 : [] ++ (zeros n).take _ = q1 at h1
  have hl1 : (q1.length : ℤ) = n := by
    rw [← hq1, List.nil_append, List.length_take, hlen, List.length_nil]
    omega
  obtain ⟨c2, hrun2, hw2, -, h2⟩ := readCbuf_holds (n - 1) hn hw1 h1
  generalize hq2 : q1.drop _ = q2 at h2
  have hl2 : (q2.length : ℤ) = 1 := by
    rw [← hq2, List.length_drop]
    omega
  obtain ⟨c3, hrun3, hw3, ht3, -, h3⟩ := writeCbuf_holds hn hw2 h2 hbuf
  have htail := readCbuf_tail hw1 hrun2
  have hsize := h1.size
  have hhead := h3.length hw3
  rw [List.length_append, List.length_take, hlen] at hhead
  rw [List.length_nil, show min (n - ((0 : ℕ) : ℤ)) n = n by omega] at hrun1
  rw [hl1, show min n (n - 1) = n - 1 by omega] at hrun2 htail
  rw [hl2, show min (n - 1) n = n - 1 by omega] at hrun3 hhead
  exact ⟨c1, c2, c3, _, hrun1, hrun2, hrun3, by omega⟩

theorem refines_iff (hn : 0 < n) (h : allocCbuf n = .ok c0) :
    (∀ calls : List Call, (∀ call ∈ calls, call.Valid) → Refines n calls c0 []) ↔ n ≤ 2 ^ 30 := by
  obtain ⟨hw, hh, -⟩ := alloc_holds hn h
  constructor
  · intro hall
    obtain ⟨c1, c2, c3, buf, hrun1, hrun2, hrun3, hhead⟩ := twice_full hn h
    have hv : ∀ call ∈ [Call.write (zeros n) n, .read (n - 1), .write (zeros n) n], call.Valid := by
      have : (zeros n).length = n.toNat := List.length_replicate
      simp only [List.mem_cons, List.not_mem_nil, or_false, forall_eq_or_imp, forall_eq, Call.Valid]
      omega
    obtain ⟨d1, hd1, -, -, -, d2, hd2, -, -, -, d3, hd3, -, -, hfits, -⟩ := hall _ hv
    rw [hrun1] at hd1
    obtain ⟨-, rfl⟩ := ok_inj hd1
    rw [hrun2] at hd2
    obtain ⟨-, -, rfl⟩ : _ ∧ _ ∧ c2 = d2 := by simpa using Except.ok.inj hd2
    rw [hrun3] at hd3
    obtain ⟨-, rfl⟩ := ok_inj hd3
    simp only [HeadFits] at hfits
    omega
  · intro hle calls hv
    exact refines_of_holds hn hle hv hw hh

end Run

theorem refines_three : Refines 3 [.write [1, 2] 2, .read 1, .write [3, 4, 5] 3, .read 3] ⟨0, 0, 3, [0, 0, 0]⟩ [] :=
  (refines_iff (n := 3) (by omega) rfl).mpr (by omega) _ (by
    simp [Call.Valid])

-- One byte more than a gibibyte: the write point passes the greatest `int`, 2147483647.
theorem writeCbuf_overflow : ∃ c0 c1 c2 c3 buf, allocCbuf (2 ^ 30 + 1) = .ok c0 ∧
    writeCbuf c0 (zeros (2 ^ 30 + 1)) (2 ^ 30 + 1) = .ok (2 ^ 30 + 1, c1) ∧
      readCbuf (some c1) (2 ^ 30) = .ok (buf, 2 ^ 30, some c2) ∧
      writeCbuf c2 (zeros (2 ^ 30 + 1)) (2 ^ 30 + 1) = .ok (2 ^ 30, c3) ∧
      c3.head = 2147483649 ∧ ¬HeadFits c3 := by
  have h : allocCbuf (2 ^ 30 + 1) = .ok ⟨0, 0, 2 ^ 30 + 1, zeros (2 ^ 30 + 1)⟩ := if_neg (by omega)
  obtain ⟨c1, c2, c3, buf, hrun1, hrun2, hrun3, hhead⟩ := twice_full (by omega) h
  exact ⟨_, c1, c2, c3, buf, h, hrun1, hrun2, hrun3, by omega, by simp only [HeadFits]; omega⟩

end Tapip.Lib.Fifo
