import Mathlib.Data.List.TakeWhile
import Mathlib.Tactic.Ring
import Tapip.Ip.FragQueue

/-! Runs of `ipReass` over the fragments of one datagram. -/

namespace Tapip.Ip.Reassembly

open Foundation.Tiling Net.Pkb Header Frag FragQueue

variable {rest fragHead : List Fragment} {frag frag' : Fragment} {addr : ℕ} {acc : List Pkbuf}

abbrev Key := UInt16 × UInt8 × UInt32 × UInt32

def key (pkb : Pkbuf) : Key := (ipId pkb, ipPro pkb, ipSrc pkb, ipDst pkb)

def HasKey (frag : Fragment) (k : Key) : Prop :=
  frag.fragId = k.1 ∧ frag.fragPro = k.2.1.toUInt16 ∧ frag.fragSrc = k.2.2.1 ∧ frag.fragDst = k.2.2.2

lemma fragMatch_iff (pkb : Pkbuf) (frag : Fragment) : fragMatch pkb frag = true ↔ HasKey frag (key pkb) := by
  simp [fragMatch, HasKey, key, and_assoc]

def queue (pkb : Pkbuf) (fragHead : List Fragment) : Fragment := (fragSplit pkb fragHead).2.1

structure Feed where
  fragHead : List Fragment
  accepted : List Pkbuf

def feed (addr : ℕ) (pkb : Pkbuf) (s : Feed) : Feed where
  fragHead := (ipReass addr pkb s.fragHead).fragHead
  accepted :=
    match insertFrag pkb (queue pkb s.fragHead) with
    | (false, _) => s.accepted
    | (true, frag) => if frag.fragComplete then [] else pkb :: s.accepted

inductive Fed (ok : Fragment → Pkbuf → Prop) (k : Key) : Feed → Prop
  | start (fragHead : List Fragment) : (∀ f ∈ fragHead, ¬ HasKey f k) → Fed ok k ⟨fragHead, []⟩
  | step {s : Feed} (addr : ℕ) (pkb : Pkbuf) : Fed ok k s → key pkb = k → Checked pkb →
      ok (queue pkb s.fragHead) pkb → Fed ok k (feed addr pkb s)

lemma fragSplit_none (h : ∀ f ∈ rest, ¬ HasKey f (key pkb)) : fragSplit pkb rest = ([], newFrag pkb, rest) := by
  have hd : rest.dropWhile (fun f => !fragMatch pkb f) = [] := by
    rw [List.dropWhile_eq_nil_iff]
    intro f hf
    have := h f hf
    rw [← fragMatch_iff] at this
    simpa using this
  simp [fragSplit, hd]

lemma fragSplit_head (h : HasKey frag (key pkb)) : fragSplit pkb (frag :: rest) = ([], frag, rest) := by
  have hm := (fragMatch_iff pkb frag).mpr h
  simp [fragSplit, hm]

lemma newFrag_has (pkb : Pkbuf) : HasKey (newFrag pkb) (key pkb) := by
  simp [HasKey, newFrag, key]

lemma fragOut_has (pkb : Pkbuf) (frag : Fragment) (k : Key) : HasKey (fragOut pkb frag) k ↔ HasKey frag k := by
  simp only [fragOut]
  split <;> rfl

lemma insertFrag_has (h : insertFrag pkb frag = (b, frag')) (hk : HasKey frag k) : HasKey frag' k := by
  cases b with
  | true =>
    obtain ⟨_, ⟨_, _, rfl⟩ | ⟨_, before, after, _, _, _, rfl⟩⟩ := insertFrag_true h
    · exact (fragOut_has pkb _ k).mpr hk
    · exact (fragOut_has pkb _ k).mpr hk
  | false =>
    rcases insertFrag_false h with rfl | ⟨_, _, _, rfl⟩
    · exact hk
    · exact hk

def Reassembles (pkb : Pkbuf) (fragHead : List Fragment) (frag : Fragment) : Prop :=
  insertFrag pkb (queue pkb fragHead) = (true, frag) ∧ frag.fragComplete = true

lemma ipReass_pkb (h : Reassembles pkb fragHead frag) : (ipReass addr pkb fragHead).pkb = reassFrag addr frag := by
  obtain ⟨hi, hf⟩ := h
  simp only [queue] at hi
  simp [ipReass, hi, hf]

lemma reassembles_of_ipReass (h : (ipReass addr pkb fragHead).pkb = some r) :
    ∃ frag, Reassembles pkb fragHead frag ∧ reassFrag addr frag = some r := by
  cases hi : insertFrag pkb (queue pkb fragHead) with
  | mk b frag =>
    have hi' := hi
    simp only [queue] at hi'
    cases b with
    | false => simp [ipReass, hi'] at h
    | true =>
      by_cases hf : frag.fragComplete = true
      · exact ⟨frag, ⟨hi, hf⟩, by simpa [ipReass, hi', hf] using h⟩
      · simp [ipReass, hi', hf] at h

lemma insertFrag_complete (hi : insertFrag pkb frag = (true, frag')) : frag'.fragComplete = fullFrag frag' := by
  obtain ⟨hc, ⟨_, _, rfl⟩ | ⟨_, before, after, _, _, _, rfl⟩⟩ := insertFrag_true hi
  · exact fragOut_fragComplete _ _ hc
  · exact fragOut_fragComplete _ _ hc

lemma Reassembles.fullFrag (h : Reassembles pkb fragHead frag) : fullFrag frag = true :=
  (insertFrag_complete h.1).symm.trans h.2

lemma insertFrag_perm (h : insertFrag pkb frag = (true, frag')) : frag'.fragPkb.Perm (pkb :: frag.fragPkb) := by
  obtain ⟨_, ⟨_, _, rfl⟩ | ⟨_, before, after, hp, _, _, rfl⟩⟩ := insertFrag_true h
  · simp only [fragOut_fragPkb, placeLast]
    exact List.perm_append_singleton _ _
  · simp only [fragOut_fragPkb, placeAt, ← fragPos_append hp]
    exact List.perm_middle

lemma insertFrag_false_fragPkb (h : insertFrag pkb frag = (false, frag')) : frag'.fragPkb = frag.fragPkb := by
  rcases insertFrag_false h with rfl | ⟨_, _, _, rfl⟩
  · rfl
  · rfl

section Invariant

variable {ok : Fragment → Pkbuf → Prop} {k : Key} (P : Fragment → List Pkbuf → Prop)

def Holds (s : Feed) : Prop :=
  ∃ rest : List Fragment, (∀ f ∈ rest, ¬ HasKey f k) ∧
    ((s.fragHead = rest ∧ s.accepted = []) ∨
      ∃ frag, s.fragHead = frag :: rest ∧ HasKey frag k ∧ P frag s.accepted)

variable (hnew : ∀ pkb, key pkb = k → P (newFrag pkb) [])

include hnew in
lemma Holds.queue (h : Holds (k := k) P s) (hk : key pkb = k) :
    ∃ rest, (∀ f ∈ rest, ¬ HasKey f k) ∧ fragSplit pkb s.fragHead = ([], queue pkb s.fragHead, rest) ∧
      HasKey (queue pkb s.fragHead) k ∧ P (queue pkb s.fragHead) s.accepted := by
  obtain ⟨rest, hr, ⟨hf, ha⟩ | ⟨frag, hf, hh, hp⟩⟩ := h
  · have hs := fragSplit_none (show ∀ f ∈ rest, ¬ HasKey f (key pkb) by rwa [hk])
    refine ⟨rest, hr, ?_⟩
    simp only [Reassembly.queue, hf, hs, ha, true_and]
    exact ⟨hk ▸ newFrag_has pkb, hnew pkb hk⟩
  · have hs : fragSplit pkb (frag :: rest) = ([], frag, rest) := fragSplit_head (hk ▸ hh)
    refine ⟨rest, hr, ?_⟩
    simp only [Reassembly.queue, hf, hs, true_and]
    exact ⟨hh, hp⟩

variable (htrue : ∀ frag acc pkb frag', P frag acc → Checked pkb → ok frag pkb →
    insertFrag pkb frag = (true, frag') → frag'.fragComplete = false → P frag' (pkb :: acc))
  (hfalse : ∀ frag acc pkb frag', P frag acc → Checked pkb → ok frag pkb →
    insertFrag pkb frag = (false, frag') → P frag' acc)

include hnew htrue hfalse in
lemma Holds.feed {s : Feed} (h : Holds (k := k) P s) {pkb : Pkbuf} (hk : key pkb = k)
    (hc : Checked pkb) (ho : ok (Reassembly.queue pkb s.fragHead) pkb) :
    Holds (k := k) P (feed addr pkb s) := by
  obtain ⟨rest, hr, hs, hh, hp⟩ := h.queue P hnew hk
  refine ⟨rest, hr, ?_⟩
  cases hi : insertFrag pkb (Reassembly.queue pkb s.fragHead) with
  | mk b frag =>
    cases b with
    | true =>
      by_cases hf : frag.fragComplete = true
      · refine Or.inl ⟨?_, ?_⟩
        · simp [Reassembly.feed, ipReass, hs, hi, hf]
        · simp [Reassembly.feed, hi, hf]
      · refine Or.inr ⟨frag, ?_, insertFrag_has hi hh, ?_⟩
        · simp [Reassembly.feed, ipReass, hs, hi, hf]
        · simpa [Reassembly.feed, hi, hf] using htrue _ _ _ _ hp hc ho hi (by simpa using hf)
    | false =>
      refine Or.inr ⟨frag, ?_, insertFrag_has hi hh, ?_⟩
      · simp [Reassembly.feed, ipReass, hs, hi]
      · simpa [Reassembly.feed, hi] using hfalse _ _ _ _ hp hc ho hi

include hnew htrue hfalse in
lemma Fed.holds (h : Fed ok k s) : Holds (k := k) P s := by
  induction h with
  | start fragHead hn => exact ⟨fragHead, hn, Or.inl ⟨rfl, rfl⟩⟩
  | step addr pkb _ hk hc ho ih => exact ih.feed P hnew htrue hfalse hk hc ho

end Invariant

structure Counted (frag : Fragment) (acc : List Pkbuf) : Prop where
  tally : Tally frag
  perm : frag.fragPkb.Perm acc

lemma newFrag_counted (pkb : Pkbuf) : Counted (newFrag pkb) [] :=
  ⟨newFrag_tally pkb, List.Perm.refl _⟩

lemma Counted.accept (h : Counted frag acc)
    (hc : Checked pkb) (hi : insertFrag pkb frag = (true, frag')) : Counted frag' (pkb :: acc) :=
  ⟨h.tally.insert hc hi, (insertFrag_perm hi).trans (h.perm.cons pkb)⟩

lemma Counted.reject (h : Counted frag acc)
    (hc : Checked pkb) (hi : insertFrag pkb frag = (false, frag')) : Counted frag' acc :=
  ⟨h.tally.insert hc hi, (insertFrag_false_fragPkb hi) ▸ h.perm⟩

lemma Fed.counted (h : Fed ok k s) (hk : key pkb = k) : Counted (queue pkb s.fragHead) s.accepted := by
  have hh := h.holds Counted (fun p _ => newFrag_counted p)
    (fun _ _ _ _ hp hc _ hi _ => hp.accept hc hi) (fun _ _ _ _ hp hc _ hi => hp.reject hc hi)
  obtain ⟨_, _, _, _, hp⟩ := hh.queue Counted (fun p _ => newFrag_counted p) hk
  exact hp

section Copying

def copyLens (frag : Fragment) : List ℤ :=
  frag.fragPkb.map (fun p => ((ipLen p).toNat : ℤ) - frag.fragHlen)

structure CopiesFill (frag : Fragment) : Prop where
  nonneg : ∀ n ∈ copyLens frag, 0 ≤ n
  inside : ∀ p ∈ frag.fragPkb, ETH_HRD_SZ + frag.fragHlen ≤ p.pkData.length ∧
    ETH_HRD_SZ + frag.fragHlen + (((ipLen p).toNat : ℤ) - frag.fragHlen) ≤ p.pkData.length
  fill : (copyLens frag).sum = frag.fragSize

lemma copyLens_sum (pkbs : List Pkbuf) (n : ℕ) (hc : ∀ p ∈ pkbs, Checked p)
    (hh : ∀ p ∈ pkbs, ipMF p = true → iphlen p = n) :
    (pkbs.map (fun p => ((ipLen p).toNat : ℤ) - n)).sum =
      total plen pkbs + ((lasts pkbs).map (fun q => (iphlen q : ℤ) - n)).sum := by
  induction pkbs with
  | nil => simp [lasts]
  | cons p pkbs ih =>
    have hp := (hc p (by simp)).hlen_le
    have hi := ih (fun q hq => hc q (by simp [hq])) (fun q hq => hh q (by simp [hq]))
    have hn : ((plen p : ℕ) : ℤ) = (ipLen p).toNat - iphlen p := by
      simp only [plen]
      omega
    simp only [List.map_cons, List.sum_cons, total_cons, hi, Nat.cast_add, hn]
    cases hm : ipMF p with
    | true =>
      rw [lasts_cons_of_mf hm, hh p (by simp) hm]
      ring
    | false =>
      have hl : lasts (p :: pkbs) = p :: lasts pkbs := by simp [lasts, hm]
      rw [hl, List.map_cons, List.sum_cons]
      ring

lemma copiesFill_iff_last (h : Tally frag) (hf : fullFrag frag = true) :
    CopiesFill frag ↔ ∀ q ∈ frag.fragPkb, ipMF q = false → iphlen q = frag.fragHlen := by
  simp only [fullFrag, Bool.and_eq_true, beq_iff_eq] at hf
  obtain ⟨⟨_, hl⟩, hr⟩ := hf
  obtain ⟨q, hq, hs⟩ : ∃ q, lasts frag.fragPkb = [q] ∧ frag.fragSize = ipoff q + plen q := by
    rcases h.last with ⟨hl', _⟩ | ⟨_, hq⟩
    · simp [hl] at hl'
    · exact hq
  have hsum : (copyLens frag).sum = frag.fragSize + ((iphlen q : ℤ) - frag.fragHlen) := by
    rw [copyLens, copyLens_sum _ _ h.checked h.hlen, ← h.rsize, hr, hq]
    simp
  have hmem : ∀ p, (p ∈ frag.fragPkb ∧ ipMF p = false) ↔ p = q := by
    intro p
    rw [← mem_lasts, hq, List.mem_singleton]
  constructor
  · intro hc p hp hm
    cases (hmem p).mp ⟨hp, hm⟩
    have := hc.fill
    omega
  · intro hc
    have hall : ∀ p ∈ frag.fragPkb, iphlen p = frag.fragHlen := by
      intro p hp
      cases hm : ipMF p with
      | true => exact h.hlen p hp hm
      | false => exact hc p hp hm
    refine ⟨?_, ?_, ?_⟩
    · intro n hn
      obtain ⟨p, hp, rfl⟩ := List.mem_map.mp hn
      have := (h.checked p hp).hlen_le
      have := hall p hp
      omega
    · intro p hp
      have hk := h.checked p hp
      have := hk.hlen_le
      have := hall p hp
      rw [hk.length_eq]
      omega
    · have hqq := (hmem q).mpr rfl
      rw [hsum, hc q hqq.1 hqq.2]
      ring

theorem copiesFill_iff {k : Key} {s : Feed} {pkb : Pkbuf} {frag : Fragment}
    (h : Fed (fun _ _ => True) k s) (hk : key pkb = k) (hc : Checked pkb)
    (hr : Reassembles pkb s.fragHead frag) :
    CopiesFill frag ↔ ∀ q ∈ pkb :: s.accepted, ipMF q = false →
      ∀ p ∈ pkb :: s.accepted, ipMF p = true → iphlen q = iphlen p := by
  have hi := (h.counted hk).accept hc hr.1
  rw [copiesFill_iff_last hi.tally hr.fullFrag]
  simp only [← hi.perm.mem_iff]
  constructor
  · intro hq q hqm hm p hp hpm
    rw [hq q hqm hm, hi.tally.hlen p hp hpm]
  · intro hq q hqm hm
    obtain ⟨p, hp, hpm⟩ := hi.tally.exists_mf hr.fullFrag
    rw [hq q hqm hm p hp hpm, hi.tally.hlen p hp hpm]

def fragmentOf (words : ℕ) (fragoff : UInt16) (body : List UInt8) : Pkbuf :=
  let len := 4 * words + body.length
  let hdr : List UInt8 := [UInt8.ofNat (0x40 + words), 0, UInt8.ofNat len, 0, 7, 0,
    fragoff.toUInt8, (fragoff >>> 8).toUInt8, 64, 17, 0, 0, 10, 0, 0, 1, 10, 0, 0, 2]
  { allocPkb 0 (ETH_HRD_SZ + len) with
    pkPro := ETH_P_IP
    pkData := List.replicate 14 0 ++ hdr ++ List.replicate (4 * (words - 5)) 0 ++ body }

def firstFragment : Pkbuf := fragmentOf 5 IP_FRAG_MF [1, 2, 3, 4, 5, 6, 7, 8]

def afterFirst : Feed := feed 1 firstFragment ⟨[], []⟩

def lastFragment (words : ℕ) : Pkbuf := fragmentOf words 1 [9, 10, 11, 12, 13, 14, 15, 16]

theorem copies_overflow : ∃ frag, Reassembles (lastFragment 6) afterFirst.fragHead frag ∧
      frag.fragSize = 16 ∧ copyLens frag = [8, 12] ∧ ¬ CopiesFill frag := by
  refine ⟨(insertFrag (lastFragment 6) (queue (lastFragment 6) afterFirst.fragHead)).2,
    ⟨by decide, by decide⟩, by decide, by decide, ?_⟩
  intro h
  exact absurd h.fill (by decide)

theorem copiesFill_iff_two : ∃ frag, Reassembles (lastFragment 5) afterFirst.fragHead frag ∧ CopiesFill frag := by
  have hs : Fed (fun _ _ => True) (key (lastFragment 5)) afterFirst :=
    (Fed.start [] (by simp)).step 1 _ (by decide) ⟨by decide, by decide, by decide⟩ trivial
  have hr : Reassembles (lastFragment 5) afterFirst.fragHead
      (insertFrag (lastFragment 5) (queue (lastFragment 5) afterFirst.fragHead)).2 :=
    ⟨by decide, by decide⟩
  exact ⟨_, hr, (copiesFill_iff hs rfl ⟨by decide, by decide, by decide⟩ hr).mpr (by decide)⟩

end Copying

end Tapip.Ip.Reassembly
