import Tapip.Ip.Isolation
import Tapip.Ip.RoundTrip

/-! The fragments of datagrams with different keys are never put together into one packet. -/

namespace Tapip.Ip.Unmixed

open Foundation.Program Net Net.ByteOrder Net.Pkb Header Frag FragQueue Reassembly
open Emit RoundTrip FragTable

def FragmentOf (frags : List Pkbuf) (pkb : Pkbuf) : Prop :=
  ∃ f ∈ frags, ∃ x : Pkbuf, x.pkData.drop ETH_HRD_SZ = f.pkData.drop ETH_HRD_SZ ∧
    pkb.pkData = (ipNtoh x).pkData

def Copy (d r : Pkbuf) : Prop := payload r = payload d ∧ SameHeader r (ipNtoh d)

section Pieces

variable {d p q : Pkbuf} {m mtu addr : ℕ} {frags : List Pkbuf}

lemma IsPiece.congr (h : IsPiece d m p) (hq : q.pkData = p.pkData) : IsPiece d m q := by
  cases p
  cases q
  cases hq
  exact ⟨⟨h.checked.hlen_ge, h.checked.hlen_le, h.checked.length_eq⟩, h.dvd, h.off_lt, h.plen_eq, h.mf,
    h.payload_eq, h.header⟩

lemma FragmentOf.isPiece (h : FragmentOf frags p) (hs : Sendable d mtu)
    (hsend : ipSendFrag addr mtu d = some frags) : IsPiece d (maxLen d mtu) p := by
  obtain ⟨frags', hsend', hsound, -⟩ := ipSendFrag_eq addr hs
  cases Option.mem_unique hsend hsend'
  obtain ⟨f, hf, x, hx, hp⟩ := h
  obtain ⟨off, hd, hlt, a, rfl⟩ := hsound f hf
  exact IsPiece.congr (isPiece_ntoh hs hd hlt hx).1 hp

lemma ipSendFragLoop_none {pkb : Pkbuf} {hlen : ℕ} {mlen : ℤ} (hm : mlen ≤ 0) (fuel addr : ℕ) (dlen : ℤ)
    (off : ℕ) (hd : mlen < dlen) : ipSendFragLoop pkb hlen mlen fuel addr dlen off = none := by
  induction fuel generalizing addr dlen off with
  | zero => rw [ipSendFragLoop, if_pos hd]
  | succ fuel ih =>
    rw [ipSendFragLoop, if_pos hd]
    simp only [ih (addr + 1) (dlen - mlen) (off + mlen.toNat) (by omega)]
    rfl

lemma mtu_ge_of_ipSendFrag {netMtu : ℤ} (h : ipSendFrag addr netMtu d = some frags)
    (hd : netMtu < (ntohs (ipLen d)).toNat) : (iphlen d : ℤ) + 8 ≤ netMtu := by
  by_contra hlt
  simp only [ipSendFrag] at h
  rw [ipSendFragLoop_none (by omega) _ _ _ _ (by omega)] at h
  cases h

end Pieces

section Table

variable {ds : List Pkbuf} {mtu addr : ℕ} {l : List Fragment} {x : Pkbuf}

def Stored (ds : List Pkbuf) (mtu : ℕ) (l : List Fragment) : Prop :=
  ∀ frag ∈ l, ∀ d ∈ ds, HasKey frag (key (ipNtoh d)) → ∃ acc, Open d (maxLen d mtu) frag acc

def Pieces (ds : List Pkbuf) (mtu : ℕ) (x : Pkbuf) : Prop :=
  ∀ d ∈ ds, key x = key (ipNtoh d) → IsPiece d (maxLen d mtu) x

lemma Stored.queue (h : Stored ds mtu l) {before after : List Fragment} {frag : Fragment}
    (hsplit : fragSplit x l = (before, frag, after)) :
    Stored ds mtu [frag] ∧ Stored ds mtu (before ++ after) := by
  obtain ⟨-, -, rfl | ⟨rfl, rfl, rfl, -⟩⟩ := fragSplit_spec hsplit
  · refine ⟨fun f hf => h f ?_, fun f hf => h f ?_⟩
    · simp [List.mem_singleton.mp hf]
    · rcases List.mem_append.mp hf with hf | hf
      · exact List.mem_append_left _ hf
      · exact List.mem_append_right _ (List.mem_cons_of_mem _ hf)
  · refine ⟨?_, h⟩
    intro f hf d _ _
    cases List.mem_singleton.mp hf
    exact ⟨[], newFrag_open x⟩

lemma Stored.insert {before after : List Fragment} {frag : Fragment} (hf : Stored ds mtu [frag])
    (h : Stored ds mtu (before ++ after)) : Stored ds mtu (before ++ frag :: after) := by
  intro f hmem
  rcases List.mem_append.mp hmem with hb | hb
  · exact h f (List.mem_append_left _ hb)
  · rcases List.mem_cons.mp hb with rfl | ha
    · exact hf f (List.mem_singleton.mpr rfl)
    · exact h f (List.mem_append_right _ ha)

lemma Stored.ipReass (h : Stored ds mtu l) (hx : Pieces ds mtu x) (hs : ∀ d ∈ ds, Sendable d mtu) (addr : ℕ) :
    Stored ds mtu (ipReass addr x l).fragHead ∧
      ∀ r ∈ (ipReass addr x l).pkb, ∀ d ∈ ds, key x = key (ipNtoh d) → Copy d r := by
  obtain ⟨before, frag, after, hsplit, hdoes⟩ := ipReass_does addr x l
  obtain ⟨hfrag, hrest⟩ := h.queue hsplit
  obtain ⟨hk, -, -⟩ := fragSplit_spec hsplit
  have hkey : ∀ {b frag' d}, insertFrag x frag = (b, frag') → HasKey frag' (key (ipNtoh d)) →
      key x = key (ipNtoh d) :=
    fun hi hd => Isolation.HasKey.unique (insertFrag_has hi hk) hd
  have hopen : ∀ d ∈ ds, key x = key (ipNtoh d) → ∃ acc, Open d (maxLen d mtu) frag acc :=
    fun d hd he => hfrag frag (List.mem_singleton.mpr rfl) d hd (he ▸ hk)
  generalize Frag.ipReass addr x l = res at hdoes ⊢
  cases hdoes with
  | refuse hi =>
    refine ⟨Stored.insert ?_ hrest, nofun⟩
    intro f hf d hd hfd
    cases List.mem_singleton.mp hf
    obtain ⟨acc, ho⟩ := hopen d hd (hkey hi hfd)
    refine ⟨acc, ho.1.reject (hx d hd (hkey hi hfd)) (hs d hd).hlen_ge hi, ?_⟩
    rcases insertFrag_false hi with rfl | ⟨_, _, _, rfl⟩
    · exact ho.2
    · exact ho.2
  | queue hi hc =>
    refine ⟨Stored.insert ?_ hrest, nofun⟩
    intro f hf d hd hfd
    cases List.mem_singleton.mp hf
    obtain ⟨acc, ho⟩ := hopen d hd (hkey hi hfd)
    exact ⟨x :: acc, ho.1.accept (hx d hd (hkey hi hfd)) (hs d hd).hlen_ge hi, hc⟩
  | complete hi hc =>
    refine ⟨hrest, fun r hr d hd he => ?_⟩
    obtain ⟨acc, ho⟩ := hopen d hd he
    have hg := ho.1.accept (hx d hd he) (hs d hd).hlen_ge hi
    obtain ⟨r', hr', hcopy⟩ := hg.reassFrag (hs d hd) addr ((insertFrag_complete hi).symm.trans hc)
    cases Option.mem_unique hr' hr
    exact hcopy

lemma Stored.expire (h : Stored ds mtu l) (delta : ℤ) : Stored ds mtu (expire delta l) := by
  intro f hf d hd hk
  obtain ⟨f0, hf0, he⟩ := List.mem_filterMap.mp hf
  obtain ⟨acc, ho⟩ := h f0 hf0 d hd ((hasKey_congr (expireOne_fragKey he)).mp hk)
  simp only [expireOne] at he
  split_ifs at he
  · cases he
    exact ⟨acc, ho⟩
  · cases he
    have hs := ho.1.sound
    have ht := hs.counted.tally
    exact ⟨acc, ⟨⟨⟨⟨ht.checked, ht.rsize, ht.hlen, ht.last, ht.first⟩, hs.counted.perm⟩, hs.hlen, hs.ordered,
      hs.bound⟩, ho.1.piece, ho.1.hlen, ho.1.first⟩, ho.2⟩

variable {netIn : NetIn}

lemma Run.copies {trace : List (Op × Option Pkbuf)} (h : Run netIn trace l) (hs : ∀ d ∈ ds, Sendable d mtu)
    (hx : ∀ x r, (Op.reass x, r) ∈ trace → Pieces ds mtu x) :
    Stored ds mtu l ∧ ∀ x r, (Op.reass x, some r) ∈ trace → ∀ d ∈ ds, key x = key (ipNtoh d) → Copy d r := by
  induction h with
  | start => exact ⟨by simp [Stored], by simp⟩
  | @step trace l l' op r _ _ hstep ih =>
    obtain ⟨hstored, hcopies⟩ := ih (fun x r hm => hx x r (List.mem_append_left _ hm))
    cases op with
    | reass x =>
      obtain ⟨addr, rfl, rfl⟩ := reass_inv hstep
      have hpiece := hx x _ (List.mem_append_right _ (List.mem_singleton.mpr rfl))
      obtain ⟨hst, hret⟩ := hstored.ipReass hpiece hs addr
      refine ⟨hst, fun y r hm => ?_⟩
      rcases List.mem_append.mp hm with hm | hm
      · exact hcopies y r hm
      · obtain ⟨hy, hr⟩ := Prod.mk.inj (List.mem_singleton.mp hm)
        cases Op.reass.inj hy
        exact hret r hr.symm
    | tick =>
      obtain ⟨rfl, rfl⟩ := tick_inv hstep
      refine ⟨hstored.expire 1, fun y r hm => ?_⟩
      rcases List.mem_append.mp hm with hm | hm
      · exact hcopies y r hm
      · simp at hm

end Table

end Tapip.Ip.Unmixed
