import Tapip.Ip.RawIn

/-! The copies that `copy_pkb` makes for raw socks: as many bytes are allocated and copied as the packet
has, the `struct pkbuf` in front of it included (net/pkb.c). -/

namespace Tapip.Ip.RawCopy

open Foundation.Program Foundation.Bytes Net Net.Pkb In Upper RawIn
open Stack (PKB_SZ)

section Memory

variable {self bytes b : List UInt8} {n : ℕ}

def PK_LIST : ℕ := 0
def PK_PRO : ℕ := 16
def PK_LEN : ℕ := 20
def PK_REFCNT : ℕ := 24

-- An access outside of the block is `none`.
def load (off n : ℕ) (block : List UInt8) : Option (List UInt8) :=
  if off + n ≤ block.length then some (slice block off n) else none

def store (off : ℕ) (src block : List UInt8) : Option (List UInt8) :=
  if off + src.length ≤ block.length then some (memcpy block off src) else none

def pkLen (block : List UInt8) : ℕ := (slice block PK_LEN 4).foldr (fun b n => b.toNat + 256 * n) 0

def copyPkb (self pkb : List UInt8) : Option (List UInt8) := do
  let cpkb ← load 0 (pkLen pkb) pkb
  let cpkb ← store PK_REFCNT [1, 0, 0, 0] cpkb
  store PK_LIST self cpkb

structure Buffer where
  bytes : List UInt8
  sized : bytes.length = PKB_SZ + pkLen bytes

def Shows (self pkb : List UInt8) (n : ℕ) : Prop :=
  ∃ cpkb data, copyPkb self pkb = some cpkb ∧ load PK_LIST 16 cpkb = some self ∧
    load PK_REFCNT 4 cpkb = some [1, 0, 0, 0] ∧ load PK_PRO 8 cpkb = load PK_PRO 8 pkb ∧
    load PKB_SZ n cpkb = some data ∧ load PKB_SZ n pkb = some data

lemma load_eq (h : off + n ≤ bytes.length) : load off n bytes = some (slice bytes off n) := if_pos h

lemma slice_slice (h : i + n ≤ len) : slice (slice bytes 0 len) i n = slice bytes i n := by
  apply slice_congr
  intro j hj
  rw [slice_getElem?, if_pos (by omega), Nat.zero_add]

def copied (self pkb : List UInt8) : List UInt8 :=
  memcpy (memcpy (slice pkb 0 (pkLen pkb)) PK_REFCNT [1, 0, 0, 0]) PK_LIST self

lemma counted_length (hle : pkLen bytes ≤ bytes.length) (hlen : PK_REFCNT + 4 ≤ pkLen bytes) :
    (memcpy (slice bytes 0 (pkLen bytes)) PK_REFCNT [1, 0, 0, 0]).length = pkLen bytes := by
  have hcount : (slice bytes 0 (pkLen bytes)).length = pkLen bytes := by
    simpa using hle
  rw [memcpy_length _ _ _ (hcount.symm ▸ hlen), hcount]

lemma slice_copied_list (hself : self.length = 16) : slice (copied self bytes) PK_LIST 16 = self := by
  rw [copied, ← hself]
  exact slice_memcpy_self _ _ (Nat.zero_le _)

variable (hself : self.length = 16) (hle : pkLen bytes ≤ bytes.length)

include hself hle

lemma copied_length (hlen : PK_REFCNT + 4 ≤ pkLen bytes) : (copied self bytes).length = pkLen bytes := by
  have hcount := counted_length hle hlen
  rw [copied, memcpy_length, hcount]
  rw [hself, hcount, PK_LIST]
  exact le_trans (by decide) hlen

lemma copyPkb_eq_some_iff : copyPkb self bytes = some b ↔ PK_REFCNT + 4 ≤ pkLen bytes ∧ copied self bytes = b := by
  have hcount : (slice bytes 0 (pkLen bytes)).length = pkLen bytes := by
    simpa using hle
  rw [copyPkb, load_eq (by omega), Option.bind_eq_bind, Option.bind_some, store, hcount]
  by_cases hlen : PK_REFCNT + 4 ≤ pkLen bytes
  · have hfits : PK_LIST + self.length ≤ pkLen bytes := by
      rw [hself]
      exact le_trans (by decide) hlen
    have hroom : PK_REFCNT + [(1 : UInt8), 0, 0, 0].length ≤ pkLen bytes := hlen
    rw [if_pos hroom, Option.bind_some, store, counted_length hle hlen, if_pos hfits]
    simp [hlen, copied]
  · have hroom : ¬PK_REFCNT + [(1 : UInt8), 0, 0, 0].length ≤ pkLen bytes := hlen
    rw [if_neg hroom]
    simp [hlen]

lemma slice_copied {i n : ℕ} (hi : 16 ≤ i) (hd : i + n ≤ PK_REFCNT ∨ PK_REFCNT + 4 ≤ i) (hn : i + n ≤ pkLen bytes)
    (hlen : PK_REFCNT + 4 ≤ pkLen bytes) : slice (copied self bytes) i n = slice bytes i n := by
  have hcount : (slice bytes 0 (pkLen bytes)).length = pkLen bytes := by
    simpa using hle
  rw [copied, slice_memcpy_of_disjoint _ (.inr _), slice_memcpy_of_disjoint _ hd, slice_slice hn]
  · rwa [hcount]
  · rw [counted_length hle hlen, hself]
    exact le_trans (by decide) hlen
  · rwa [hself, PK_LIST, Nat.zero_add]

lemma slice_copied_refcnt (hlen : PK_REFCNT + 4 ≤ pkLen bytes) :
    slice (copied self bytes) PK_REFCNT 4 = [1, 0, 0, 0] := by
  rw [copied, slice_memcpy_of_disjoint _ (.inr _)]
  · exact slice_memcpy_self _ [1, 0, 0, 0] (by simp; omega)
  · rw [counted_length hle hlen, hself]
    exact le_trans (by decide) hlen
  · rw [hself]
    decide

end Memory

lemma Buffer.shows_iff (m : Buffer) {self : List UInt8} (hself : self.length = 16) (n : ℕ) :
    Shows self m.bytes n ↔ PKB_SZ + n ≤ pkLen m.bytes := by
  have hle : pkLen m.bytes ≤ m.bytes.length := by
    rw [m.sized]
    omega
  constructor
  · rintro ⟨b, data, hcopy, -, -, -, hdata, -⟩
    obtain ⟨hlen, rfl⟩ := (copyPkb_eq_some_iff hself hle).mp hcopy
    rw [load, copied_length hself hle hlen, Option.ite_none_right_eq_some] at hdata
    exact hdata.1
  · intro hn
    have hlen : PK_REFCNT + 4 ≤ pkLen m.bytes := le_trans (by decide) (Nat.le_of_add_right_le hn)
    have hload : ∀ off n, off + n ≤ pkLen m.bytes →
        load off n (copied self m.bytes) = some (slice (copied self m.bytes) off n) :=
      fun off n h => load_eq (by rwa [copied_length hself hle hlen])
    have hlow : PK_PRO + 8 ≤ pkLen m.bytes := le_trans (by decide) hlen
    refine ⟨copied self m.bytes, slice m.bytes PKB_SZ n, (copyPkb_eq_some_iff hself hle).mpr ⟨hlen, rfl⟩, ?_, ?_, ?_, ?_,
      load_eq (hn.trans hle)⟩
    · rw [hload _ _ (le_trans (by decide) hlen), slice_copied_list hself]
    · rw [hload _ _ hlen, slice_copied_refcnt hself hle hlen]
    · rw [hload _ _ hlow, load_eq (hlow.trans hle), slice_copied hself hle (by decide) (.inl (by decide)) hlow hlen]
    · rw [hload _ _ hn, slice_copied hself hle (by decide) (.inr (by decide)) hn hlen]

structure Laid (m : Buffer) (pkb : Pkbuf) : Prop where
  len : pkLen m.bytes = pkb.pkLen
  data : m.bytes.drop PKB_SZ = pkb.pkData

lemma pkData_of_copied {c : Pkbuf} (h : Copied pkb c) :
    c.pkLen = pkb.pkLen ∧ c.pkData = pkb.pkData.take (pkb.pkLen - PKB_SZ) := by
  obtain ⟨s, s', hcopy⟩ := h
  obtain ⟨addr, s1, -, hret⟩ := bind_inv hcopy
  cases hret
  exact ⟨rfl, rfl⟩

lemma Laid.drop_copy (hm : Laid m pkb) (hself : self.length = 16) (hcopy : copyPkb self m.bytes = some b) :
    b.drop PKB_SZ = pkb.pkData.take (pkb.pkLen - PKB_SZ) := by
  have hle : pkLen m.bytes ≤ m.bytes.length := by
    rw [m.sized]
    omega
  obtain ⟨hlen, rfl⟩ := (copyPkb_eq_some_iff hself hle).mp hcopy
  have hcount := copied_length hself hle hlen
  rw [← hm.data, ← hm.len]
  rcases Nat.le_total (pkLen m.bytes) PKB_SZ with hshort | hlong
  · rw [Nat.sub_eq_zero_of_le hshort, List.take_zero, List.drop_of_length_le (hcount.trans_le hshort)]
  · have hslice := slice_copied hself hle (n := pkLen m.bytes - PKB_SZ) (by decide) (.inr (by decide))
      (Nat.add_sub_cancel' hlong).le hlen
    rwa [slice, List.take_of_length_le] at hslice
    rw [List.length_drop, hcount]

theorem raw_copy_shows_iff {chains : UInt8 → List ℕ} (h : Filed s chains) (hf : ∀ k, (chains k).length < fuel)
    {m : Buffer} {pkb : Pkbuf} (hm : Laid m pkb) {self : List UInt8} (hself : self.length = 16) :
    (∀ n, Shows self m.bytes n ↔ PKB_SZ + n ≤ pkb.pkLen) ∧
    ∀ s', rawIn fuel pkb s = .ok ((), s') → ∀ k id inet, id ∈ chains k → s.stack.socks[id]? = some (some inet) →
      rawMatch pkb inet = true → ∃ c, s'.stack.socks[id]? = some (some (addQueue c inet)) ∧ c.pkLen = pkb.pkLen ∧
        c.pkData = pkb.pkData.take (pkb.pkLen - PKB_SZ) ∧
        ∀ b, copyPkb self m.bytes = some b → b.drop PKB_SZ = c.pkData := by
  refine ⟨fun n => hm.len ▸ m.shows_iff hself n, fun s' hrun k id inet hk hi hmatch => ?_⟩
  obtain ⟨c, hc, hq⟩ := ((rawIn_copies h hf pkb).2 s' hrun id inet hi).1 ⟨⟨k, hk⟩, hmatch⟩
  obtain ⟨hlen, hdata⟩ := pkData_of_copied hc
  exact ⟨c, hq, hlen, hdata, fun b hb => hdata ▸ hm.drop_copy hself hb⟩

def longPing : Pkbuf := handed (datagram 1 ([8, 0, 0xf7, 0xfe, 0, 1, 0, 0] ++ List.replicate 32 0))

def longPingBuffer : Buffer where
  bytes := List.replicate 20 0 ++ [74, 0, 0, 0] ++ List.replicate 28 0 ++ longPing.pkData
  sized := by decide +kernel

def selfList : List UInt8 := List.replicate 16 0xaa

theorem raw_copy_shows_long : Shows selfList longPingBuffer.bytes 22 :=
  have hm : Laid longPingBuffer longPing := ⟨by decide +kernel, by decide +kernel⟩
  ((raw_copy_shows_iff (filed_table 0 0) tableChains_length hm rfl).1 22).mpr (by decide +kernel)

/-- The block that is allocated ends before the packet does. -/
theorem raw_copy_cut : ¬ Shows selfList longPingBuffer.bytes longPing.pkLen ∧
    (finalState (rawIn 3 longPing) anyTwo).stack.socks.map
      (Option.map fun inet => inet.sk.recvQueue.map fun c => (c.pkLen, c.pkData.length)) =
        [some [(74, 22)], some [(74, 22)]] := by
  constructor
  · rintro ⟨b, data, hcopy, -, -, -, hdata, -⟩
    have hcut : ((copyPkb selfList longPingBuffer.bytes).bind (load PKB_SZ longPing.pkLen)) = none := by
      decide +kernel
    rw [hcopy, Option.bind_some, hdata] at hcut
    cases hcut
  · decide +kernel

end Tapip.Ip.RawCopy
