import Tapip.Ip.Reassembly

/-! What `ipReass` hands up is the datagram the fragments were cut from. -/

namespace Tapip.Ip.ReassemblySound

open Foundation.Bytes Foundation.Tiling Net.Pkb Header Frag FragQueue Reassembly

variable {before after pkbs : List Pkbuf} {p r : Pkbuf} {addr : ℕ}

-- A fragment that `insertFrag` takes although it does not fit between the queued ones: it runs
-- into one that starts later, or lies behind the last one, or is the last one and lies in front
-- of the end of another.
def Misfit (frag : Fragment) (pkb : Pkbuf) : Prop :=
  if ipMF pkb then
    (∀ q ∈ frag.fragPkb, ipoff q ≠ ipoff pkb) ∧
    (∀ q ∈ frag.fragPkb, ipoff q < ipoff pkb → ipoff q + plen q ≤ ipoff pkb) ∧
    ∃ q ∈ frag.fragPkb, (ipoff pkb < ipoff q ∧ ipoff q < ipoff pkb + plen pkb) ∨
      (ipMF q = false ∧ ipoff q < ipoff pkb)
  else frag.fragLastIn = false ∧ ∃ q ∈ frag.fragPkb, ipoff pkb < ipoff q + plen q

instance (frag : Fragment) (pkb : Pkbuf) : Decidable (Misfit frag pkb) :=
  inferInstanceAs (Decidable (ite _ _ _))

structure Sound (n : ℕ) (frag : Fragment) (acc : List Pkbuf) : Prop where
  counted : Counted frag acc
  hlen : ∀ p ∈ frag.fragPkb, iphlen p = n
  ordered : Ordered ipoff plen frag.fragPkb
  bound : frag.fragLastIn = true → ∀ p ∈ frag.fragPkb, ipoff p + plen p ≤ frag.fragSize

lemma newFrag_sound (n : ℕ) (pkb : Pkbuf) : Sound n (newFrag pkb) [] where
  counted := newFrag_counted pkb
  hlen := by simp [newFrag]
  ordered := List.Pairwise.nil
  bound := by simp [newFrag]

variable {n : ℕ} {frag frag' : Fragment} {acc : List Pkbuf} {pkb : Pkbuf}

section Step

variable (h : Sound n frag acc)

include h

lemma Sound.accept_hlen (hn : iphlen pkb = n)
    (hi : insertFrag pkb frag = (true, frag')) : ∀ p ∈ frag'.fragPkb, iphlen p = n := by
  intro p hp
  rcases List.mem_cons.mp ((insertFrag_perm hi).mem_iff.mp hp) with rfl | hp
  · exact hn
  · exact h.hlen p hp

lemma Sound.placeLast (hc : Checked pkb) (hm : ipMF pkb = false)
    (hl : frag.fragLastIn = false) (hf : ¬ Misfit frag pkb) :
    Ordered ipoff plen (frag.fragPkb ++ [pkb]) ∧
      ∀ p ∈ frag.fragPkb ++ [pkb], ipoff p + plen p ≤ ipoff pkb + (ipLen pkb).toNat - iphlen pkb := by
  have hfit : ∀ q ∈ frag.fragPkb, ipoff q + plen q ≤ ipoff pkb := by
    intro q hq
    by_contra hlt
    exact hf (by simpa [Misfit, hm, hl] using ⟨q, hq, by omega⟩)
  have hsize : ipoff pkb + (ipLen pkb).toNat - iphlen pkb = ipoff pkb + plen pkb := by
    have := hc.hlen_le
    simp only [plen]
    omega
  refine ⟨Ordered.insert (by simpa using h.ordered) hfit (by simp), ?_⟩
  intro p hp
  rw [hsize]
  rcases List.mem_append.mp hp with hp | hp
  · exact (hfit p hp).trans (Nat.le_add_right _ _)
  · rw [List.mem_singleton.mp hp]

lemma Sound.before_le (hn : iphlen pkb = n) (hp : fragPos (ipoff pkb) frag.fragPkb.reverse [] = some (before, after))
    (hb : ∀ q, before.getLast? = some q → (ipoff q : ℤ) + (ipLen q).toNat - iphlen pkb ≤ ipoff pkb) :
    ∀ q ∈ before, ipoff q < ipoff pkb ∧ ipoff q + plen q ≤ ipoff pkb := by
  have happ := fragPos_append hp
  have ho : Ordered ipoff plen before :=
    (List.pairwise_append.mp (show Ordered ipoff plen (before ++ after) by rw [happ]; exact h.ordered)).1
  refine ho.le_of_getLast? ?_
  intro q hq
  have hmem : q ∈ frag.fragPkb := by
    rw [← happ]
    exact List.mem_append_left _ (List.mem_of_getLast? hq)
  have hlt := (fragPos_spec hp).2.2 q hq
  have hle := hb q hq
  have hqn := h.hlen q hmem
  have hqc := (h.counted.tally.checked q hmem).hlen_le
  simp only [plen]
  omega

lemma Sound.placeAt (hn : iphlen pkb = n) (hm : ipMF pkb = true) (hf : ¬ Misfit frag pkb)
    (hp : fragPos (ipoff pkb) frag.fragPkb.reverse [] = some (before, after))
    (hb : ∀ q, before.getLast? = some q → (ipoff q : ℤ) + (ipLen q).toNat - iphlen pkb ≤ ipoff pkb) :
    Ordered ipoff plen (before ++ pkb :: after) ∧ (frag.fragLastIn = true →
      ∀ p ∈ before ++ pkb :: after, ipoff p + plen p ≤ frag.fragSize) := by
  have happ := fragPos_append hp
  have hbefore := h.before_le hn hp hb
  have hafter : ∀ q ∈ after, ipoff pkb < ipoff q := by
    intro q hq
    rcases (fragPos_spec hp).2.1 q hq with hq' | hq'
    · simp at hq'
    · exact hq'
  have hfit : ∀ q ∈ frag.fragPkb, (ipoff pkb < ipoff q → ipoff pkb + plen pkb ≤ ipoff q) ∧
      (ipMF q = false → ipoff pkb ≤ ipoff q) := by
    have hne : ∀ q ∈ frag.fragPkb, ipoff q ≠ ipoff pkb ∧ (ipoff q < ipoff pkb → ipoff q + plen q ≤ ipoff pkb) := by
      intro q hq
      rw [← happ] at hq
      rcases List.mem_append.mp hq with hq | hq
      · exact ⟨(hbefore q hq).1.ne, fun _ => (hbefore q hq).2⟩
      · exact ⟨(hafter q hq).ne', fun hlt => absurd hlt (hafter q hq).not_gt⟩
    intro q hq
    constructor
    · intro hlt
      by_contra hge
      apply hf
      simp only [Misfit, hm, if_true]
      exact ⟨fun q hq => (hne q hq).1, fun q hq => (hne q hq).2, q, hq, Or.inl ⟨hlt, by omega⟩⟩
    · intro hl
      by_contra hge
      apply hf
      simp only [Misfit, hm, if_true]
      exact ⟨fun q hq => (hne q hq).1, fun q hq => (hne q hq).2, q, hq, Or.inr ⟨hl, by omega⟩⟩
  have hmem : ∀ q ∈ after, q ∈ frag.fragPkb := fun q hq => happ ▸ List.mem_append_right _ hq
  refine ⟨?_, ?_⟩
  · refine Ordered.insert (by rw [happ]; exact h.ordered) (fun q hq => (hbefore q hq).2) ?_
    exact fun q hq => (hfit q (hmem q hq)).1 (hafter q hq)
  · intro hl p hp'
    have hbound := h.bound hl
    rcases List.mem_append.mp hp' with hp' | hp'
    · exact hbound p (happ ▸ List.mem_append_left _ hp')
    rcases List.mem_cons.mp hp' with rfl | hp'
    · obtain ⟨q, hq⟩ : ∃ q, q ∈ frag.fragPkb ∧ ipMF q = false := by
        rcases h.counted.tally.last with ⟨hl', _⟩ | ⟨_, q, hq, _⟩
        · simp [hl] at hl'
        · exact ⟨q, mem_lasts.mp (by simp [hq])⟩
      have hge := (hfit q hq.1).2 hq.2
      have hq' : q ∈ after := by
        rcases List.mem_append.mp (happ ▸ hq.1) with hq' | hq'
        · have := (hbefore q hq').1
          omega
        · exact hq'
      have := (hfit q hq.1).1 (hafter q hq')
      have := hbound q hq.1
      omega
    · exact hbound p (hmem p hp')

lemma Sound.accept (hc : Checked pkb) (hn : iphlen pkb = n)
    (hf : ¬ Misfit frag pkb) (hi : insertFrag pkb frag = (true, frag')) :
    Sound n frag' (pkb :: acc) := by
  refine ⟨h.counted.accept hc hi, h.accept_hlen hn hi, ?_, ?_⟩
  · obtain ⟨_, ⟨hm, hl, rfl⟩ | ⟨hm, before, after, hp, _, hb, rfl⟩⟩ := insertFrag_true hi
    · exact (fragOut_fragPkb _ _).symm ▸ (h.placeLast hc hm hl hf).1
    · exact (fragOut_fragPkb _ _).symm ▸ (h.placeAt hn hm hf hp hb).1
  · obtain ⟨_, ⟨hm, hl, rfl⟩ | ⟨hm, before, after, hp, _, hb, rfl⟩⟩ := insertFrag_true hi
    · simp only [fragOut_fragPkb, fragOut_fragSize, FragQueue.placeLast]
      exact fun _ => (h.placeLast hc hm hl hf).2
    · simp only [fragOut_fragPkb, fragOut_fragSize, fragOut_fragLastIn, FragQueue.placeAt]
      exact (h.placeAt hn hm hf hp hb).2

lemma Sound.reject (hc : Checked pkb) (hi : insertFrag pkb frag = (false, frag')) : Sound n frag' acc := by
  have hcount := h.counted.reject hc hi
  rcases insertFrag_false hi with rfl | ⟨_, _, _, rfl⟩
  · exact h
  · exact ⟨hcount, h.hlen, h.ordered, h.bound⟩

end Step

def fits (n : ℕ) (frag : Fragment) (pkb : Pkbuf) : Prop := iphlen pkb = n ∧ ¬ Misfit frag pkb

lemma sound_of_fed {k : Key} {s : Feed} (h : Fed (fits n) k s) (hk : key pkb = k) :
    Sound n (queue pkb s.fragHead) s.accepted := by
  have hh := h.holds (Sound n) (fun p _ => newFrag_sound n p)
    (fun _ _ _ _ hp hc ho hi _ => hp.accept hc ho.1 ho.2 hi) (fun _ _ _ _ hp hc _ hi => hp.reject hc hi)
  obtain ⟨_, _, _, _, hp⟩ := hh.queue (Sound n) (fun p _ => newFrag_sound n p) hk
  exact hp

lemma Sound.contiguous (h : Sound n frag acc) (hf : fullFrag frag = true) :
    Contiguous ipoff plen 0 frag.fragPkb ∧ total plen frag.fragPkb = frag.fragSize := by
  simp only [fullFrag, Bool.and_eq_true, beq_iff_eq] at hf
  obtain ⟨⟨_, hl⟩, hr⟩ := hf
  have ht : total plen frag.fragPkb = frag.fragSize := by rw [← h.counted.tally.rsize, hr]
  exact ⟨contiguous_of_total h.ordered (by simp) (h.bound hl) (Nat.zero_le _) (by omega), ht⟩

lemma slice_eq_payload (hc : Checked p) (hn : iphlen p = n) :
    slice p.pkData (ETH_HRD_SZ + n) ((ipLen p).toNat - n) = payload p := by
  have := hc.hlen_le
  rw [slice, payload, hn, List.take_of_length_le]
  rw [List.length_drop, hc.length_eq]
  omega

lemma reassCopy_append (hc : ∀ p ∈ pkbs, Checked p ∧ iphlen p = n)
    (hd d : List UInt8) (h : total plen pkbs ≤ d.length) :
    reassCopy n pkbs hd.length (hd ++ d) = hd ++ pkbs.flatMap payload ++ d.drop (total plen pkbs) := by
  induction pkbs generalizing hd d with
  | nil => simp [reassCopy]
  | cons p pkbs ih =>
    obtain ⟨hpc, hpn⟩ := hc p (by simp)
    have hlen : (payload p).length = (ipLen p).toNat - n := by rw [hpc.payload_length, plen, hpn]
    rw [total_cons] at h
    simp only [plen, hpn] at h
    simp only [reassCopy, slice_eq_payload hpc hpn]
    rw [memcpy_append, ← hlen, ← List.length_append,
      ih (fun q hq => hc q (by simp [hq])) _ _ (by rw [List.length_drop]; omega),
      List.flatMap_cons, total_cons, List.drop_drop]
    simp only [List.append_assoc, hpc.payload_length]

def reassHeader (n len : ℕ) (p : Pkbuf) : List UInt8 :=
  storeShortAt (storeShortAt (p.pkData.take (ETH_HRD_SZ + n)) 20 0) 16 (UInt16.ofNat len)

lemma reassHeader_length (hc : Checked p) (hn : iphlen p = n) (len : ℕ) :
    (reassHeader n len p).length = ETH_HRD_SZ + n := by
  have hge := hc.hlen_ge
  have hle := hc.hlen_le
  have ht : (p.pkData.take (ETH_HRD_SZ + n)).length = ETH_HRD_SZ + n := by
    rw [List.length_take, hc.length_eq]
    omega
  have he : ETH_HRD_SZ = 14 := rfl
  simp only [IP_HRD_SZ] at hge
  rw [reassHeader, storeShortAt_length, storeShortAt_length, ht]
  · omega
  · rw [storeShortAt_length] <;> omega

lemma reassFrag_eq (hq : frag.fragPkb = p :: pkbs) (hc : ∀ q ∈ frag.fragPkb, Checked q ∧ iphlen q = frag.fragHlen)
    (ht : total plen frag.fragPkb = frag.fragSize) (hl : frag.fragHlen + frag.fragSize ≤ 65535) :
    reassFrag addr frag = some { allocPkb addr (ETH_HRD_SZ + (frag.fragHlen + frag.fragSize)) with
      pkPro := ETH_P_IP
      pkData := reassHeader frag.fragHlen (frag.fragHlen + frag.fragSize) p ++ frag.fragPkb.flatMap payload } := by
  obtain ⟨hpc, hpn⟩ := hc p (by simp [hq])
  have hge := hpc.hlen_ge
  have hle := hpc.hlen_le
  have hplen := hpc.length_eq
  simp only [IP_HRD_SZ] at hge
  have hhd : (p.pkData.take (ETH_HRD_SZ + frag.fragHlen)).length = ETH_HRD_SZ + frag.fragHlen := by
    rw [List.length_take]
    omega
  have hcopy : memcpy (List.replicate (ETH_HRD_SZ + (frag.fragHlen + frag.fragSize)) 0) 0
      (slice p.pkData 0 (ETH_HRD_SZ + frag.fragHlen)) =
      p.pkData.take (ETH_HRD_SZ + frag.fragHlen) ++ List.replicate frag.fragSize 0 := by
    rw [slice, memcpy, List.drop_zero, hhd, List.drop_replicate]
    simp only [List.take_zero, List.nil_append, Nat.zero_add]
    congr 2
    omega
  have hbody := reassCopy_append hc (reassHeader frag.fragHlen (frag.fragHlen + frag.fragSize) p)
    (List.replicate frag.fragSize 0) (by rw [List.length_replicate, ht])
  rw [reassHeader_length hpc hpn, ht, List.drop_replicate, Nat.sub_self, List.replicate_zero,
    List.append_nil] at hbody
  simp only [ETH_HRD_SZ] at *
  simp only [reassFrag, hq, allocPkb, setIpFragoff, setIpLen, setShort, ETH_HRD_SZ, if_neg (not_lt.mpr hl), hcopy]
  rw [storeShortAt_append _ _ _ _ (by omega), storeShortAt_append _ _ _ _
    (by rw [storeShortAt_length] <;> omega), ← hq]
  congr 2

lemma reassHeader_getElem? (hc : Checked p) (hn : iphlen p = n) (len : ℕ) {i : ℕ}
    (hi : i < ETH_HRD_SZ + n) (h1 : i < 16 ∨ 18 ≤ i) (h2 : i < 20 ∨ 22 ≤ i) :
    (reassHeader n len p)[i]? = p.pkData[i]? := by
  have hge := hc.hlen_ge
  have hle := hc.hlen_le
  have ht : (p.pkData.take (ETH_HRD_SZ + n)).length = ETH_HRD_SZ + n := by
    rw [List.length_take, hc.length_eq]
    omega
  have he : ETH_HRD_SZ = 14 := rfl
  simp only [IP_HRD_SZ] at hge
  rw [reassHeader, storeShortAt_getElem? _ _ _ _ (by rw [storeShortAt_length] <;> omega) h1,
    storeShortAt_getElem? _ _ _ _ (by omega) h2, List.getElem?_take_of_lt hi]

lemma iphlen_congr {q : Pkbuf} (h : p.pkData[14]? = q.pkData[14]?) : iphlen p = iphlen q := by
  simp only [iphlen, ipHlen, List.getD_eq_getElem?_getD, h]

lemma payload_reass (hc : Checked p) (hn : iphlen p = n) {len : ℕ}
    {body : List UInt8} (hr : r.pkData = reassHeader n len p ++ body) :
    iphlen r = n ∧ payload r = body := by
  have he : ETH_HRD_SZ = 14 := rfl
  have hge : 20 ≤ iphlen p := hc.hlen_ge
  have hlen := reassHeader_length hc hn len
  have hh : iphlen r = n := by
    rw [← hn]
    refine iphlen_congr ?_
    rw [hr, List.getElem?_append_left (by omega), reassHeader_getElem? hc hn len (by omega) (by omega) (by omega)]
  refine ⟨hh, ?_⟩
  rw [payload, hr, hh, ← hlen, List.drop_left]

lemma Sound.hlen_eq (h : Sound n frag acc) (hf : fullFrag frag = true) : frag.fragHlen = n := by
  obtain ⟨p, hp, hm⟩ := h.counted.tally.exists_mf hf
  rw [← h.counted.tally.hlen p hp hm, h.hlen p hp]

lemma Sound.payload (h : Sound n frag acc) (hf : fullFrag frag = true) (hr : reassFrag addr frag = some r) :
    FragQueue.payload r = frag.fragPkb.flatMap FragQueue.payload := by
  have hl : frag.fragHlen + frag.fragSize ≤ 65535 := by
    by_contra hgt
    simp [reassFrag, not_le.mp hgt] at hr
  have hn := h.hlen_eq hf
  have hc : ∀ q ∈ frag.fragPkb, Checked q ∧ iphlen q = frag.fragHlen :=
    fun q hq => ⟨h.counted.tally.checked q hq, (h.hlen q hq).trans hn.symm⟩
  cases hq : frag.fragPkb with
  | nil =>
    obtain ⟨p, hp, _⟩ := h.counted.tally.exists_mf hf
    simp [hq] at hp
  | cons p pkbs =>
    rw [reassFrag_eq hq hc (h.contiguous hf).2 hl, Option.some.injEq] at hr
    obtain ⟨hpc, hpn⟩ := hc p (by simp [hq])
    rw [← hq]
    exact (payload_reass hpc hpn (congrArg Pkbuf.pkData hr.symm)).2

theorem ipReass_sound {k : Key} {s : Feed} {addr : ℕ} {r : Pkbuf} (h : Fed (fits n) k s)
    (hk : key pkb = k) (hc : Checked pkb) (hf : fits n (queue pkb s.fragHead) pkb)
    (hr : (ipReass addr pkb s.fragHead).pkb = some r) :
    ∃ frag, Reassembles pkb s.fragHead frag ∧ Tiles ipoff plen (pkb :: s.accepted) frag.fragSize ∧
      (∃ q ∈ pkb :: s.accepted, ipMF q = false ∧ frag.fragSize = ipoff q + plen q) ∧
      (payload r).length = frag.fragSize ∧
      ∀ q ∈ pkb :: s.accepted, ∀ p, Covers ipoff plen q p → (payload r)[p]? = (payload q)[p - ipoff q]? := by
  obtain ⟨frag, hre, hr⟩ := reassembles_of_ipReass hr
  have hs := (sound_of_fed h hk).accept hc hf.1 hf.2 hre.1
  have hfull := hre.fullFrag
  have hcont := hs.contiguous hfull
  have hpay := hs.payload hfull hr
  have hlen : ∀ q ∈ frag.fragPkb, (payload q).length = plen q :=
    fun q hq => (hs.counted.tally.checked q hq).payload_length
  refine ⟨frag, hre, ?_, ?_, ?_, ?_⟩
  · have ht := hcont.1.tiles
    rw [hcont.2] at ht
    exact ht.perm hs.counted.perm
  · rcases hs.counted.tally.last with ⟨hl, _⟩ | ⟨_, q, hq, hsz⟩
    · simp [fullFrag, hl] at hfull
    · have hm := mem_lasts.mp (show q ∈ lasts frag.fragPkb by simp [hq])
      exact ⟨q, hs.counted.perm.mem_iff.mp hm.1, hm.2, hsz⟩
  · rw [hpay, flatMap_length hlen, hcont.2]
  · intro q hq p hp
    rw [hpay]
    exact hcont.1.flatMap_getElem? hlen (hs.counted.perm.mem_iff.mpr hq) hp

theorem ipReass_sound_two : ∃ r frag, (ipReass 1 (lastFragment 5) afterFirst.fragHead).pkb = some r ∧
      Reassembles (lastFragment 5) afterFirst.fragHead frag ∧
      Tiles ipoff plen [lastFragment 5, firstFragment] frag.fragSize := by
  have hs : Fed (fits 20) (key (lastFragment 5)) afterFirst :=
    (Fed.start [] (by simp)).step 1 _ (by decide) ⟨by decide, by decide, by decide⟩ ⟨by decide, by decide⟩
  obtain ⟨r, hr⟩ := Option.isSome_iff_exists.mp
    (show (ipReass 1 (lastFragment 5) afterFirst.fragHead).pkb.isSome = true by decide)
  obtain ⟨frag, hf, ht, _⟩ := ipReass_sound hs rfl ⟨by decide, by decide, by decide⟩ ⟨by decide, by decide⟩ hr
  exact ⟨r, frag, hr, hf, ht⟩

def swallowing : List Pkbuf :=
  [fragmentOf 5 (IP_FRAG_MF ||| 1) [1, 2, 3, 4, 5, 6, 7, 8],
    fragmentOf 5 IP_FRAG_MF [11, 12, 13, 14, 15, 16, 17, 18, 19, 20, 21, 22, 23, 24, 25, 26]]

-- Bytes 8 to 15 come twice and bytes 16 to 23 not at all, and the datagram counts as complete.
theorem ipReass_overlap : ∃ r frag, (ipReass 1 (fragmentOf 5 3 [31, 32, 33, 34, 35, 36, 37, 38])
        (swallowing.foldl (fun s p => feed 1 p s) ⟨[], []⟩).fragHead).pkb = some r ∧
      Reassembles (fragmentOf 5 3 [31, 32, 33, 34, 35, 36, 37, 38])
        (swallowing.foldl (fun s p => feed 1 p s) ⟨[], []⟩).fragHead frag ∧
      ¬ Tiles ipoff plen frag.fragPkb frag.fragSize := by
  obtain ⟨r, hr⟩ := Option.isSome_iff_exists.mp (show (ipReass 1 (fragmentOf 5 3 [31, 32, 33, 34, 35, 36, 37, 38])
    (swallowing.foldl (fun s p => feed 1 p s) ⟨[], []⟩).fragHead).pkb.isSome = true by decide)
  refine ⟨r, (insertFrag (fragmentOf 5 3 [31, 32, 33, 34, 35, 36, 37, 38])
    (queue (fragmentOf 5 3 [31, 32, 33, 34, 35, 36, 37, 38])
      (swallowing.foldl (fun s p => feed 1 p s) ⟨[], []⟩).fragHead)).2, hr, ⟨by decide, by decide⟩, ?_⟩
  intro ht
  exact absurd (ht 16) (by decide)

end Tapip.Ip.ReassemblySound
