import Tapip.Ip.Frag

/-! What a fragment queue keeps while fragments are put into it. -/

namespace Tapip.Ip.FragQueue

open Foundation.Tiling Net.Pkb Header Frag

variable {pkb p : Pkbuf} {off : ℕ} {rev after before : List Pkbuf} {frag frag' : Fragment}

def plen (pkb : Pkbuf) : ℕ := (ipLen pkb).toNat - iphlen pkb

def payload (pkb : Pkbuf) : List UInt8 := pkb.pkData.drop (ETH_HRD_SZ + iphlen pkb)

structure Checked (pkb : Pkbuf) : Prop where
  hlen_ge : IP_HRD_SZ ≤ iphlen pkb
  hlen_le : iphlen pkb ≤ (ipLen pkb).toNat
  length_eq : pkb.pkData.length = ETH_HRD_SZ + (ipLen pkb).toNat

lemma Checked.payload_length (h : Checked pkb) : (payload pkb).length = plen pkb := by
  have := h.hlen_le
  simp only [payload, plen, List.length_drop, h.length_eq]
  omega

def lasts (pkbs : List Pkbuf) : List Pkbuf := pkbs.filter (fun p => !ipMF p)

structure Tally (frag : Fragment) : Prop where
  checked : ∀ p ∈ frag.fragPkb, Checked p
  rsize : frag.fragRsize = total plen frag.fragPkb
  hlen : ∀ p ∈ frag.fragPkb, ipMF p = true → iphlen p = frag.fragHlen
  last : (frag.fragLastIn = false ∧ lasts frag.fragPkb = []) ∨
    (frag.fragLastIn = true ∧ ∃ q, lasts frag.fragPkb = [q] ∧ frag.fragSize = ipoff q + plen q)
  first : frag.fragFirstIn = true → ∃ p ∈ frag.fragPkb, ipMF p = true

lemma newFrag_tally (pkb : Pkbuf) : Tally (newFrag pkb) where
  checked := by simp [newFrag]
  rsize := by simp [newFrag]
  hlen := by simp [newFrag]
  last := by simp [newFrag, lasts]
  first := by simp [newFrag]

lemma fragPos_spec {b a : List Pkbuf} (h : fragPos off rev after = some (b, a)) :
    b ++ a = rev.reverse ++ after ∧ (∀ q ∈ a, q ∈ after ∨ off < ipoff q) ∧
      (∀ q, b.getLast? = some q → ipoff q < off) := by
  induction rev generalizing after with
  | nil =>
    simp only [fragPos, Option.some.injEq, Prod.mk.injEq] at h
    obtain ⟨rfl, rfl⟩ := h
    exact ⟨rfl, fun q hq => Or.inl hq, by simp⟩
  | cons q rev ih =>
    simp only [fragPos] at h
    split at h
    · simp at h
    · split at h
      · next hlt =>
        simp only [Option.some.injEq, Prod.mk.injEq] at h
        obtain ⟨rfl, rfl⟩ := h
        refine ⟨rfl, fun p hp => Or.inl hp, ?_⟩
        intro p hp
        simp only [List.reverse_cons, List.getLast?_append, List.getLast?_singleton,
          Option.some_or, Option.some.injEq] at hp
        exact hp ▸ hlt
      · next hne hge =>
        obtain ⟨h1, h2, h3⟩ := ih h
        refine ⟨by simp [h1], ?_, h3⟩
        intro p hp
        rcases h2 p hp with hm | hm
        · rcases List.mem_cons.mp hm with rfl | hm
          · exact Or.inr (by omega)
          · exact Or.inl hm
        · exact Or.inr hm

lemma fragPos_none (h : fragPos off rev after = none) : ∃ q ∈ rev, ipoff q = off := by
  induction rev generalizing after with
  | nil => simp [fragPos] at h
  | cons q rev ih =>
    simp only [fragPos] at h
    split at h
    · next he => exact ⟨q, by simp, he.symm⟩
    · split at h
      · simp at h
      · obtain ⟨p, hp, he⟩ := ih h
        exact ⟨p, by simp [hp], he⟩

@[simp] lemma fragOut_fragPkb (pkb : Pkbuf) (frag : Fragment) : (fragOut pkb frag).fragPkb = frag.fragPkb := by
  simp only [fragOut]
  split <;> rfl

@[simp] lemma fragOut_fragHlen (pkb : Pkbuf) (frag : Fragment) : (fragOut pkb frag).fragHlen = frag.fragHlen := by
  simp only [fragOut]
  split <;> rfl

@[simp] lemma fragOut_fragSize (pkb : Pkbuf) (frag : Fragment) : (fragOut pkb frag).fragSize = frag.fragSize := by
  simp only [fragOut]
  split <;> rfl

@[simp] lemma fragOut_fragRsize (pkb : Pkbuf) (frag : Fragment) :
    (fragOut pkb frag).fragRsize = frag.fragRsize + plen pkb := by
  simp only [fragOut]
  split <;> rfl

@[simp] lemma fragOut_fragFirstIn (pkb : Pkbuf) (frag : Fragment) :
    (fragOut pkb frag).fragFirstIn = frag.fragFirstIn := by
  simp only [fragOut]
  split <;> rfl

@[simp] lemma fragOut_fragLastIn (pkb : Pkbuf) (frag : Fragment) : (fragOut pkb frag).fragLastIn = frag.fragLastIn := by
  simp only [fragOut]
  split <;> rfl

lemma fragOut_fragComplete (pkb : Pkbuf) (frag : Fragment) (h : frag.fragComplete = false) :
    (fragOut pkb frag).fragComplete = fullFrag (fragOut pkb frag) := by
  simp only [fragOut]
  split
  · next hf => exact hf.symm
  · next hf => exact h.trans (Bool.eq_false_iff.mpr hf).symm

def placeLast (pkb : Pkbuf) (frag : Fragment) : Fragment :=
  { frag with
    fragLastIn := true
    fragSize := ipoff pkb + (ipLen pkb).toNat - iphlen pkb
    fragPkb := frag.fragPkb ++ [pkb] }

def placeAt (pkb : Pkbuf) (frag : Fragment) (before after : List Pkbuf) : Fragment :=
  { frag with
    fragHlen := iphlen pkb
    fragFirstIn := frag.fragFirstIn || ipoff pkb == 0
    fragPkb := before ++ pkb :: after }

lemma insertFrag_true (h : insertFrag pkb frag = (true, frag')) : frag.fragComplete = false ∧
      ((ipMF pkb = false ∧ frag.fragLastIn = false ∧ frag' = fragOut pkb (placeLast pkb frag)) ∨
        (ipMF pkb = true ∧ ∃ before after, fragPos (ipoff pkb) frag.fragPkb.reverse [] = some (before, after) ∧
          (frag.fragHlen = 0 ∨ frag.fragHlen = iphlen pkb) ∧
          (∀ q, before.getLast? = some q → (ipoff q : ℤ) + (ipLen q).toNat - iphlen pkb ≤ ipoff pkb) ∧
          frag' = fragOut pkb (placeAt pkb frag before after))) := by
  unfold insertFrag at h
  split at h
  · simp at h
  · next hc =>
    refine ⟨by simpa using hc, ?_⟩
    dsimp only at h
    split at h
    · next hm =>
      split at h
      · simp at h
      · next hl =>
        exact Or.inl ⟨by simpa using hm, by simpa using hl, (Prod.mk.inj h).2.symm⟩
    · next hm =>
      split at h
      · simp at h
      · next before after hp =>
        split at h
        · simp at h
        · next hh =>
          split at h
          · simp at h
          · next ho =>
            refine Or.inr ⟨by simpa using hm, before, after, hp, ?_, ?_, (Prod.mk.inj h).2.symm⟩
            · by_contra hn
              push Not at hn
              simp [hn.1, hn.2] at hh
            · intro q hq
              rw [hq] at ho
              simpa using ho

lemma insertFrag_false (h : insertFrag pkb frag = (false, frag')) :
    frag' = frag ∨ (ipMF pkb = true ∧ (frag.fragHlen = 0 ∨ frag.fragHlen = iphlen pkb) ∧
      (∃ q ∈ frag.fragPkb, ipoff q < ipoff pkb) ∧ frag' = { frag with fragHlen := iphlen pkb }) := by
  unfold insertFrag at h
  split at h
  · exact Or.inl (Prod.mk.inj h).2.symm
  · dsimp only at h
    split at h
    · split at h
      · exact Or.inl (Prod.mk.inj h).2.symm
      · simp at h
    · next hm =>
      split at h
      · exact Or.inl (Prod.mk.inj h).2.symm
      · next before after hp =>
        split at h
        · exact Or.inl (Prod.mk.inj h).2.symm
        · next hh =>
          split at h
          · next ho =>
            refine Or.inr ⟨by simpa using hm, ?_, ?_, (Prod.mk.inj h).2.symm⟩
            · by_contra hn
              push Not at hn
              simp [hn.1, hn.2] at hh
            · obtain ⟨q, hq, _⟩ := Option.any_eq_true _ _ |>.mp ho
              have hmem : q ∈ before ++ after := List.mem_append_left _ (List.mem_of_getLast? hq)
              rw [(fragPos_spec hp).1] at hmem
              exact ⟨q, by simpa using hmem, (fragPos_spec hp).2.2 q hq⟩
          · simp at h

lemma lasts_append (l m : List Pkbuf) : lasts (l ++ m) = lasts l ++ lasts m := by
  simp [lasts]

lemma lasts_cons_of_mf (h : ipMF p = true) (l : List Pkbuf) : lasts (p :: l) = lasts l := by
  simp [lasts, h]

lemma mem_lasts {l : List Pkbuf} : p ∈ lasts l ↔ p ∈ l ∧ ipMF p = false := by
  simp [lasts]

lemma Tally.hlen_new (h : Tally frag) {n : ℕ} (hn : frag.fragHlen = 0 ∨ frag.fragHlen = n) :
    ∀ p ∈ frag.fragPkb, ipMF p = true → iphlen p = n := by
  intro p hp hm
  have hh := h.hlen p hp hm
  have hg := (h.checked p hp).hlen_ge
  rcases hn with hn | hn
  · rw [hh, hn] at hg
    exact absurd hg (by decide)
  · rw [hh, hn]

lemma Tally.placeLast (h : Tally frag) (hc : Checked pkb) (hm : ipMF pkb = false) (hl : frag.fragLastIn = false) :
    Tally (fragOut pkb (placeLast pkb frag)) where
  checked := by
    intro p hp
    simp only [fragOut_fragPkb, FragQueue.placeLast, List.mem_append, List.mem_singleton] at hp
    rcases hp with hp | rfl
    · exact h.checked p hp
    · exact hc
  rsize := by simp [FragQueue.placeLast, h.rsize]
  hlen := by
    intro p hp hp'
    simp only [fragOut_fragPkb, FragQueue.placeLast, List.mem_append, List.mem_singleton] at hp
    rcases hp with hp | rfl
    · simpa [FragQueue.placeLast] using h.hlen p hp hp'
    · simp [hm] at hp'
  last := by
    have hs : lasts frag.fragPkb = [] := by
      rcases h.last with ⟨_, hs⟩ | ⟨hl', _⟩
      · exact hs
      · simp [hl] at hl'
    refine Or.inr ⟨by simp [FragQueue.placeLast], pkb, ?_, ?_⟩
    · simp [FragQueue.placeLast, lasts_append, hs]
      simp [lasts, hm]
    · have := hc.hlen_le
      simp only [fragOut_fragSize, FragQueue.placeLast, plen]
      omega
  first := by
    intro hf
    simp only [fragOut_fragFirstIn, FragQueue.placeLast] at hf
    obtain ⟨p, hp, hp'⟩ := h.first hf
    exact ⟨p, by simp [FragQueue.placeLast, hp], hp'⟩

lemma Tally.placeAt (h : Tally frag) (hc : Checked pkb) (hm : ipMF pkb = true) (hp : before ++ after = frag.fragPkb)
    (hh : frag.fragHlen = 0 ∨ frag.fragHlen = iphlen pkb) :
    Tally (fragOut pkb (placeAt pkb frag before after)) where
  checked := by
    intro p hp'
    simp only [fragOut_fragPkb, FragQueue.placeAt, List.mem_append, List.mem_cons] at hp'
    rcases hp' with hp' | rfl | hp'
    · exact h.checked p (by simp [← hp, hp'])
    · exact hc
    · exact h.checked p (by simp [← hp, hp'])
  rsize := by
    simp only [fragOut_fragRsize, fragOut_fragPkb, FragQueue.placeAt, h.rsize, ← hp, total_append, total_cons]
    omega
  hlen := by
    intro p hp' hm'
    simp only [fragOut_fragPkb, FragQueue.placeAt, List.mem_append, List.mem_cons] at hp'
    rcases hp' with hp' | rfl | hp'
    · simpa [FragQueue.placeAt] using h.hlen_new hh p (by simp [← hp, hp']) hm'
    · simp [FragQueue.placeAt]
    · simpa [FragQueue.placeAt] using h.hlen_new hh p (by simp [← hp, hp']) hm'
  last := by
    simpa [FragQueue.placeAt, lasts_append, lasts_cons_of_mf hm, ← hp] using h.last
  first := fun _ => ⟨pkb, by simp [FragQueue.placeAt], hm⟩

lemma fragPos_append (h : fragPos off frag.fragPkb.reverse [] = some (before, after)) :
    before ++ after = frag.fragPkb := by
  simpa using (fragPos_spec h).1

lemma Tally.insert (h : Tally frag) (hc : Checked pkb)
    {b : Bool} (hi : insertFrag pkb frag = (b, frag')) : Tally frag' := by
  cases b with
  | true =>
    obtain ⟨_, ⟨hm, hl, rfl⟩ | ⟨hm, before, after, hp, hh, _, rfl⟩⟩ := insertFrag_true hi
    · exact h.placeLast hc hm hl
    · exact h.placeAt hc hm (fragPos_append hp) hh
  | false =>
    rcases insertFrag_false hi with rfl | ⟨_, hh, _, rfl⟩
    · exact h
    · exact ⟨h.checked, h.rsize, h.hlen_new hh, h.last, h.first⟩

lemma Tally.exists_mf (h : Tally frag) (hf : fullFrag frag = true) : ∃ p ∈ frag.fragPkb, ipMF p = true := by
  simp only [fullFrag, Bool.and_eq_true] at hf
  exact h.first hf.1.1

end Tapip.Ip.FragQueue
