import Tapip.Ip.Emit

/-! The fragments of a packet, taken in any order, give the packet back. -/

namespace Tapip.Ip.RoundTrip

open Foundation.Bytes Foundation.Tiling Net.ByteOrder Net.Pkb Header Frag FragQueue Reassembly
open ReassemblySound Emit

variable {i off mtu : ℕ}

variable {orig : Pkbuf} {m : ℕ}

section Pieces

variable {p q : Pkbuf} (hp : IsPiece orig m p) (hq : IsPiece orig m q)

include hp

lemma piece_plen_le : plen p ≤ m := by
  rw [hp.plen_eq]
  exact Nat.min_le_left _ _

lemma piece_end_le : ipoff p + plen p ≤ plen (ipNtoh orig) := by
  have := hp.off_lt
  rw [hp.plen_eq]
  omega

include hq

lemma piece_le_of_lt (h : ipoff p < ipoff q) : ipoff p + plen p ≤ ipoff q := by
  have := piece_plen_le hp
  obtain ⟨a, ha⟩ := hp.dvd
  obtain ⟨b, hb⟩ := hq.dvd
  have hab : a < b := by
    by_contra hge
    have := Nat.mul_le_mul_left m (not_lt.mp hge)
    omega
  have := Nat.mul_le_mul_left m hab
  rw [Nat.mul_succ] at this
  omega

lemma piece_mf_congr (h : ipoff p = ipoff q) : ipMF p = ipMF q := by
  rw [hp.mf, hq.mf, h]

lemma piece_le_last (h : ipMF q = false) : ipoff p ≤ ipoff q := by
  rw [hq.mf, decide_eq_false_iff_not, not_lt] at h
  by_contra hlt
  have hle := piece_le_of_lt hq hp (not_le.mp hlt)
  have hp' := hp.off_lt
  rw [hq.plen_eq] at hle
  omega

end Pieces

section Key

variable {p : Pkbuf} (hp : IsPiece orig m p) (hge : IP_HRD_SZ ≤ iphlen orig)

include hp hge

lemma piece_byte (hi : 14 ≤ i ∧ i < 34) (ha : ¬ Adjusted i) : p.pkData[i]? = (ipNtoh orig).pkData[i]? := by
  obtain ⟨he, hh⟩ := header_sizes
  exact hp.header i (by omega) (by omega) ha

lemma piece_iphlen : iphlen p = iphlen (ipNtoh orig) :=
  iphlen_congr (piece_byte hp hge (by omega) (by simp [Adjusted]))

lemma piece_key : key p = key (ipNtoh orig) := by
  have hid : ipId p = ipId (ipNtoh orig) :=
    loadShortAt_congr (piece_byte hp hge (by omega) (by simp [Adjusted]))
      (piece_byte hp hge (by omega) (by simp [Adjusted]))
  have hpro : ipPro p = ipPro (ipNtoh orig) := by
    simp only [ipPro, List.getD_eq_getElem?_getD,
      piece_byte hp hge (show 14 ≤ 23 ∧ 23 < 34 by omega) (by simp [Adjusted])]
  have hsrc : ipSrc p = ipSrc (ipNtoh orig) :=
    loadIntAt_congr (fun j hj => piece_byte hp hge (by omega) (by simp only [Adjusted]; omega))
  have hdst : ipDst p = ipDst (ipNtoh orig) :=
    loadIntAt_congr (fun j hj => piece_byte hp hge (by omega) (by simp only [Adjusted]; omega))
  simp only [key, hid, hpro, hsrc, hdst]

end Key

structure Gathering (orig : Pkbuf) (m : ℕ) (frag : Fragment) (acc : List Pkbuf) : Prop where
  sound : Sound (iphlen (ipNtoh orig)) frag acc
  piece : ∀ p ∈ frag.fragPkb, IsPiece orig m p
  hlen : frag.fragHlen = 0 ∨ frag.fragHlen = iphlen (ipNtoh orig)
  first : (∃ p ∈ frag.fragPkb, ipoff p = 0 ∧ ipMF p = true) → frag.fragFirstIn = true

lemma newFrag_gathering (pkb : Pkbuf) : Gathering orig m (newFrag pkb) [] where
  sound := newFrag_sound _ pkb
  piece := by simp [newFrag]
  hlen := Or.inl rfl
  first := by simp [newFrag]

section Insert

variable {frag frag' : Fragment} {acc : List Pkbuf} {pkb : Pkbuf} (h : Gathering orig m frag acc)
  (hp : IsPiece orig m pkb) (hge : IP_HRD_SZ ≤ iphlen orig)

include h hp

lemma Gathering.not_misfit : ¬ Misfit frag pkb := by
  intro hf
  rw [Misfit] at hf
  split at hf
  · obtain ⟨_, _, q, hq, ⟨h1, h2⟩ | ⟨h1, h2⟩⟩ := hf
    · have := piece_le_of_lt hp (h.piece q hq) h1
      omega
    · have := piece_le_last hp (h.piece q hq) h1
      omega
  · next hm =>
    obtain ⟨hl, q, hq, hlt⟩ := hf
    have hle := piece_le_last (h.piece q hq) hp (by simpa using hm)
    rcases Nat.lt_or_eq_of_le hle with hlt' | heq
    · have := piece_le_of_lt (h.piece q hq) hp hlt'
      omega
    · have hqm : ipMF q = false := by
        rw [piece_mf_congr (h.piece q hq) hp heq]
        simpa using hm
      rcases h.sound.counted.tally.last with ⟨_, hs⟩ | ⟨hl', _⟩
      · have : q ∈ lasts frag.fragPkb := mem_lasts.mpr ⟨hq, hqm⟩
        simp [hs] at this
      · simp [hl] at hl'

include hge

lemma Gathering.accepts (hc : frag.fragComplete = false) (hn : ∀ q ∈ frag.fragPkb, ipoff q ≠ ipoff pkb) :
    ∃ frag', insertFrag pkb frag = (true, frag') := by
  cases hm : ipMF pkb with
  | false =>
    have hl : frag.fragLastIn = false := by
      rcases h.sound.counted.tally.last with ⟨hl, _⟩ | ⟨_, q, hq, _⟩
      · exact hl
      · obtain ⟨hq, hqm⟩ := mem_lasts.mp (show q ∈ lasts frag.fragPkb by simp [hq])
        have h1 := piece_le_last (h.piece q hq) hp hm
        have h2 := piece_le_last hp (h.piece q hq) hqm
        exact absurd (Nat.le_antisymm h1 h2) (hn q hq)
    exact ⟨_, by simp [insertFrag, hc, hm, hl]; rfl⟩
  | true =>
    cases hpos : fragPos (ipoff pkb) frag.fragPkb.reverse [] with
    | none =>
      obtain ⟨q, hq, he⟩ := fragPos_none hpos
      exact absurd he (hn q (List.mem_reverse.mp hq))
    | some ba =>
      obtain ⟨before, after⟩ := ba
      have hh := piece_iphlen hp hge
      have hhl : (frag.fragHlen != 0 && frag.fragHlen != iphlen pkb) = false := by
        rcases h.hlen with h0 | h0
        · simp [h0]
        · simp [h0, hh]
      have hov : before.getLast?.any
          (fun q => decide ((ipoff q : ℤ) + (ipLen q).toNat - iphlen pkb > ipoff pkb)) = false := by
        cases hb : before.getLast? with
        | none => rfl
        | some q =>
          have hq : q ∈ frag.fragPkb := by
            rw [← fragPos_append hpos]
            exact List.mem_append_left _ (List.mem_of_getLast? hb)
          have hle := piece_le_of_lt (h.piece q hq) hp ((fragPos_spec hpos).2.2 q hb)
          have hqh := piece_iphlen (h.piece q hq) hge
          have hqc := (h.piece q hq).checked.hlen_le
          simp only [plen] at hle
          simp only [Option.any_some, decide_eq_false_iff_not]
          omega
      exact ⟨_, by simp only [insertFrag, hc, hm, hpos, hhl, hov]; rfl⟩

lemma Gathering.accept (hi : insertFrag pkb frag = (true, frag')) : Gathering orig m frag' (pkb :: acc) := by
  have hperm := insertFrag_perm hi
  refine ⟨h.sound.accept hp.checked (piece_iphlen hp hge) (h.not_misfit hp) hi, ?_, ?_, ?_⟩
  · intro p hp'
    rcases List.mem_cons.mp (hperm.mem_iff.mp hp') with rfl | hp'
    · exact hp
    · exact h.piece p hp'
  · obtain ⟨_, ⟨_, _, rfl⟩ | ⟨_, before, after, _, _, _, rfl⟩⟩ := insertFrag_true hi
    · simpa [placeLast] using h.hlen
    · exact Or.inr (by simpa [placeAt] using piece_iphlen hp hge)
  · rintro ⟨p, hp', h0, hm⟩
    rcases List.mem_cons.mp (hperm.mem_iff.mp hp') with rfl | hp'
    · obtain ⟨_, ⟨hm', _, _⟩ | ⟨_, before, after, _, _, _, rfl⟩⟩ := insertFrag_true hi
      · simp [hm] at hm'
      · simp [placeAt, h0]
    · have hf := h.first ⟨p, hp', h0, hm⟩
      obtain ⟨_, ⟨_, _, rfl⟩ | ⟨_, before, after, _, _, _, rfl⟩⟩ := insertFrag_true hi
      · simpa [placeLast] using hf
      · simp [placeAt, hf]

lemma Gathering.reject (hi : insertFrag pkb frag = (false, frag')) : Gathering orig m frag' acc := by
  have hs := h.sound.reject hp.checked hi
  rcases insertFrag_false hi with rfl | ⟨_, _, _, rfl⟩
  · exact h
  · exact ⟨hs, h.piece, Or.inr (piece_iphlen hp hge), h.first⟩

end Insert

section Full

variable {frag : Fragment} {acc : List Pkbuf} (h : Gathering orig m frag acc) (hm : 0 < m)

include h

lemma Gathering.fragSize (hl : frag.fragLastIn = true) : frag.fragSize = plen (ipNtoh orig) := by
  rcases h.sound.counted.tally.last with ⟨hl', _⟩ | ⟨_, q, hq, hs⟩
  · simp [hl] at hl'
  · obtain ⟨hq, hqm⟩ := mem_lasts.mp (show q ∈ lasts frag.fragPkb by simp [hq])
    have hp := h.piece q hq
    have := hp.off_lt
    rw [hp.mf, decide_eq_false_iff_not, not_lt] at hqm
    rw [hs, hp.plen_eq]
    omega

lemma Gathering.mem_of_full (hf : fullFrag frag = true) (hd : m ∣ off)
    (hlt : off < plen (ipNtoh orig)) : ∃ p ∈ frag.fragPkb, ipoff p = off := by
  obtain ⟨hc, ht⟩ := h.sound.contiguous hf
  have hl : frag.fragLastIn = true := by
    simp only [fullFrag, Bool.and_eq_true] at hf
    exact hf.1.2
  have hcount := hc.tiles off
  rw [ht, h.fragSize hl, if_pos hlt] at hcount
  obtain ⟨p, hp, hcov⟩ := List.countP_pos_iff.mp (show 0 < _ by rw [hcount]; omega)
  obtain ⟨h1, h2⟩ := of_decide_eq_true hcov
  refine ⟨p, hp, ?_⟩
  have hpl := piece_plen_le (h.piece p hp)
  have hdiff : m ∣ off - ipoff p := Nat.dvd_sub hd (h.piece p hp).dvd
  have := Nat.eq_zero_of_dvd_of_lt hdiff (by omega)
  omega

include hm

lemma Gathering.full (hlt : m < plen (ipNtoh orig))
    (hall : ∀ off, m ∣ off → off < plen (ipNtoh orig) → ∃ p ∈ frag.fragPkb, ipoff p = off) :
    fullFrag frag = true := by
  have hfirst : frag.fragFirstIn = true := by
    obtain ⟨p, hp, h0⟩ := hall 0 (Nat.dvd_zero m) (by omega)
    refine h.first ⟨p, hp, h0, ?_⟩
    rw [(h.piece p hp).mf, h0]
    exact decide_eq_true (by omega)
  have hlast : frag.fragLastIn = true := by
    have hdiv := Nat.div_add_mod (plen (ipNtoh orig) - 1) m
    have hmod := Nat.mod_lt (plen (ipNtoh orig) - 1) hm
    obtain ⟨p, hp, h0⟩ := hall (m * ((plen (ipNtoh orig) - 1) / m)) (Nat.dvd_mul_right _ _) (by omega)
    have hpm : ipMF p = false := by
      rw [(h.piece p hp).mf, h0]
      exact decide_eq_false (by omega)
    rcases h.sound.counted.tally.last with ⟨_, hs⟩ | ⟨hl, _⟩
    · have : p ∈ lasts frag.fragPkb := mem_lasts.mpr ⟨hp, hpm⟩
      simp [hs] at this
    · exact hl
  have htotal : total plen frag.fragPkb = plen (ipNtoh orig) - 0 := by
    refine (contiguous_of_covered h.sound.ordered (by simp)
      (fun p hp => piece_end_le (h.piece p hp)) (Nat.zero_le _) ?_).2
    intro x _ hx
    have hdiv := Nat.div_add_mod x m
    have hmod := Nat.mod_lt x hm
    obtain ⟨p, hp, h0⟩ := hall (m * (x / m)) (Nat.dvd_mul_right _ _) (by omega)
    refine ⟨p, hp, by omega, ?_⟩
    rw [(h.piece p hp).plen_eq, h0]
    omega
  simp only [fullFrag, hfirst, hlast, Bool.and_self, Bool.true_and, beq_iff_eq]
  rw [h.sound.counted.tally.rsize, htotal, h.fragSize hlast, Nat.sub_zero]

end Full

def Open (orig : Pkbuf) (m : ℕ) (frag : Fragment) (acc : List Pkbuf) : Prop :=
  Gathering orig m frag acc ∧ frag.fragComplete = false

lemma newFrag_open (pkb : Pkbuf) : Open orig m (newFrag pkb) [] :=
  ⟨newFrag_gathering pkb, rfl⟩

structure Collected (orig : Pkbuf) (m : ℕ) (s : Feed) (seen : List Pkbuf) : Prop where
  holds : Holds (k := key (ipNtoh orig)) (Open orig m) s
  offsets : ∀ off, (∃ p ∈ s.accepted, ipoff p = off) ↔ ∃ x ∈ seen, ipoff x = off

section Run

variable {s : Feed} {seen : List Pkbuf} {x : Pkbuf} (hc : Collected orig m s seen)
  (hx : IsPiece orig m x) (hge : IP_HRD_SZ ≤ iphlen orig)

include hc hx hge

lemma Collected.queue : Open orig m (Reassembly.queue x s.fragHead) s.accepted := by
  obtain ⟨_, _, _, _, hp⟩ := hc.holds.queue _ (fun p _ => newFrag_open p) (piece_key hx hge)
  exact hp

lemma Collected.mem_queue (off : ℕ) :
    (∃ p ∈ (Reassembly.queue x s.fragHead).fragPkb, ipoff p = off) ↔ ∃ y ∈ seen, ipoff y = off := by
  rw [← hc.offsets off]
  simp only [(hc.queue hx hge).1.sound.counted.perm.mem_iff]

lemma Collected.feed_holds (addr : ℕ) : Holds (k := key (ipNtoh orig)) (Open orig m) (feed addr x s) := by
  refine @Holds.feed addr (fun _ p => IsPiece orig m p) _ _ (fun p _ => newFrag_open p) ?_ ?_ _ hc.holds
    x (piece_key hx hge) hx.checked hx
  · intro frag acc pkb frag' ho _ hp hi hf
    exact ⟨ho.1.accept hp hge hi, hf⟩
  · intro frag acc pkb frag' ho _ hp hi
    refine ⟨ho.1.reject hp hge hi, ?_⟩
    rcases insertFrag_false hi with rfl | ⟨_, _, _, rfl⟩
    · exact ho.2
    · exact ho.2

lemma Collected.step (addr : ℕ) (hd : m ∣ off) (hlt : off < plen (ipNtoh orig))
    (hmiss : ∀ y ∈ seen ++ [x], ipoff y ≠ off) :
    Collected orig m (feed addr x s) (seen ++ [x]) ∧ (ipReass addr x s.fragHead).pkb = none := by
  have hq := hc.queue hx hge
  have hmem := hc.mem_queue hx hge
  cases hi : insertFrag x (Reassembly.queue x s.fragHead) with
  | mk b frag =>
    have hi' := hi
    simp only [Reassembly.queue] at hi'
    cases b with
    | false =>
      have hdup : ∃ q ∈ (Reassembly.queue x s.fragHead).fragPkb, ipoff q = ipoff x := by
        by_contra hn
        push Not at hn
        obtain ⟨frag', ha⟩ := hq.1.accepts hx hge hq.2 hn
        simp [hi] at ha
      refine ⟨⟨hc.feed_holds hx hge addr, ?_⟩, by simp [ipReass, hi']⟩
      intro o
      simp only [feed, hi, hc.offsets o, List.mem_append, List.mem_singleton]
      constructor
      · rintro ⟨y, hy, rfl⟩
        exact ⟨y, Or.inl hy, rfl⟩
      · rintro ⟨y, hy | rfl, rfl⟩
        · exact ⟨y, hy, rfl⟩
        · exact (hmem _).mp hdup
    | true =>
      have hg := hq.1.accept hx hge hi
      have hoff {o : ℕ} : (∃ p ∈ frag.fragPkb, ipoff p = o) ↔ ∃ y ∈ seen ++ [x], ipoff y = o := by
        have := hmem o
        simp only [(insertFrag_perm hi).mem_iff, List.mem_append, List.mem_singleton]
        grind
      have hinc : frag.fragComplete = false := by
        by_contra hcomp
        have hfull := Reassembles.fullFrag ⟨hi, by simpa using hcomp⟩
        obtain ⟨y, hy, hyo⟩ := hoff.mp (hg.mem_of_full hfull hd hlt)
        exact hmiss y hy hyo
      refine ⟨⟨hc.feed_holds hx hge addr, ?_⟩, by simp [ipReass, hi', hinc]⟩
      intro o
      have hacc : (feed addr x s).accepted = x :: s.accepted := by simp [feed, hi, hinc]
      rw [hacc, ← hoff]
      simp only [hg.sound.counted.perm.mem_iff]

lemma Collected.finish (addr : ℕ) (hm : 0 < m) (hlt : m < plen (ipNtoh orig)) (hnew : ∀ y ∈ seen, ipoff y ≠ ipoff x)
    (hall : ∀ off, m ∣ off → off < plen (ipNtoh orig) → ∃ y ∈ seen ++ [x], ipoff y = off) :
    ∃ frag, (ipReass addr x s.fragHead).pkb = reassFrag addr frag ∧
      Gathering orig m frag (x :: s.accepted) ∧ fullFrag frag = true := by
  have hq := hc.queue hx hge
  have hmem := hc.mem_queue hx hge
  have hn : ∀ q ∈ (Reassembly.queue x s.fragHead).fragPkb, ipoff q ≠ ipoff x := by
    intro q hq' he
    obtain ⟨y, hy, hyo⟩ := (hmem _).mp ⟨q, hq', rfl⟩
    exact hnew y hy (hyo.trans he)
  obtain ⟨frag, hi⟩ := hq.1.accepts hx hge hq.2 hn
  have hg := hq.1.accept hx hge hi
  have hfull : fullFrag frag = true := by
    refine hg.full hm hlt ?_
    intro off hd ho
    obtain ⟨y, hy, hyo⟩ := hall off hd ho
    rcases List.mem_append.mp hy with hy | hy
    · obtain ⟨p, hp, hpo⟩ := (hmem _).mpr ⟨y, hy, hyo⟩
      exact ⟨p, (insertFrag_perm hi).mem_iff.mpr (List.mem_cons_of_mem _ hp), hpo⟩
    · exact ⟨x, (insertFrag_perm hi).mem_iff.mpr (List.mem_cons_self), List.mem_singleton.mp hy ▸ hyo⟩
  have hcomp : frag.fragComplete = true := (insertFrag_complete hi).trans hfull
  exact ⟨frag, ipReass_pkb ⟨hi, hcomp⟩, hg, hfull⟩

end Run

def ipReassList : ℕ → List Pkbuf → List Fragment → List (Option Pkbuf)
  | _, [], _ => []
  | addr, x :: xs, fragHead =>
    let r := ipReass addr x fragHead
    r.pkb :: ipReassList (addr + 1) xs r.fragHead

lemma Collected.run (hge : IP_HRD_SZ ≤ iphlen orig) (hd : m ∣ off)
    (hlt : off < plen (ipNtoh orig)) {s : Feed} {seen : List Pkbuf} (xs : List Pkbuf) (addr : ℕ)
    (hc : Collected orig m s seen) (hx : ∀ x ∈ xs, IsPiece orig m x)
    (hmiss : ∀ y ∈ seen ++ xs, ipoff y ≠ off) :
    ∃ s', Collected orig m s' (seen ++ xs) ∧ ∀ ys, ipReassList addr (xs ++ ys) s.fragHead =
      List.replicate xs.length none ++ ipReassList (addr + xs.length) ys s'.fragHead := by
  induction xs generalizing s seen addr with
  | nil => exact ⟨s, by simpa using hc, fun ys => by simp⟩
  | cons x xs ih =>
    obtain ⟨hs, hr⟩ := hc.step (hx x (by simp)) hge addr hd hlt
      (fun y hy => hmiss y (by simp only [List.mem_append, List.mem_singleton] at hy; grind))
    obtain ⟨s', hs', hrun⟩ := ih (addr + 1) hs (fun y hy => hx y (by simp [hy]))
      (fun y hy => hmiss y (by simpa using hy))
    refine ⟨s', by simpa using hs', ?_⟩
    intro ys
    have hf : (feed addr x s).fragHead = (ipReass addr x s.fragHead).fragHead := rfl
    rw [List.cons_append, ipReassList, hr, ← hf, hrun ys, List.length_cons, List.replicate_succ,
      List.cons_append, Nat.add_assoc, Nat.add_comm 1]

lemma reassHeader_eq {p : Pkbuf} (hs : Sendable orig mtu) (hp : IsPiece orig m p)
    (hi : ETH_HRD_SZ ≤ i) (hi' : i < ETH_HRD_SZ + iphlen orig) (hck : i ≠ 24 ∧ i ≠ 25) :
    (reassHeader (iphlen orig) (iphlen orig + plen (ipNtoh orig)) p)[i]? = (ipNtoh orig).pkData[i]? := by
  have he : ETH_HRD_SZ = 14 := rfl
  have hh : iphlen p = iphlen orig := (piece_iphlen hp hs.hlen_ge).trans hs.iphlen_ntoh
  have hge : 20 ≤ iphlen p := hp.checked.hlen_ge
  have hle := hp.checked.hlen_le
  have htake : (p.pkData.take (ETH_HRD_SZ + iphlen orig)).length = ETH_HRD_SZ + iphlen orig := by
    rw [List.length_take, hp.checked.length_eq]
    omega
  have h22 := le_trans (show 22 ≤ 34 by omega) hs.length_ge
  have hstore : 22 ≤ (storeShortAt (p.pkData.take (ETH_HRD_SZ + iphlen orig)) 20 0).length :=
    le_trans (by omega) (le_memcpy_length _ _ _)
  by_cases h1 : i = 16 ∨ i = 17
  · have hlen : UInt16.ofNat (iphlen orig + plen (ipNtoh orig)) = ntohs (ipLen orig) := by
      have := hs.mtu_ge
      have := hs.mtu_lt
      rw [hs.plen_ntoh, Nat.add_sub_cancel' (by omega), UInt16.ofNat_toNat]
    obtain ⟨ha, hb⟩ := storeShortAt_getElem?_self
      (storeShortAt (p.pkData.take (ETH_HRD_SZ + iphlen orig)) 20 0) 16 (ntohs (ipLen orig)) (by omega)
    obtain ⟨hc, hd⟩ := ipNtoh_getElem?_len h22
    rcases h1 with rfl | rfl
    · rw [reassHeader, hlen, ha, hc]
    · rw [reassHeader, hlen, hb, hd]
  by_cases h2 : i = 20 ∨ i = 21
  · obtain ⟨ha, hb⟩ := storeShortAt_getElem?_self (p.pkData.take (ETH_HRD_SZ + iphlen orig)) 20 0 (by omega)
    obtain ⟨hc, hd⟩ := ipNtoh_getElem?_fragoff h22
    rw [hs.fragoff] at hc hd
    rcases h2 with rfl | rfl
    · rw [reassHeader, storeShortAt_getElem? _ _ _ _ (by omega) (by omega), ha, hc]
      rfl
    · rw [reassHeader, storeShortAt_getElem? _ _ _ _ (by omega) (by omega), hb, hd]
      rfl
  · rw [reassHeader_getElem? hp.checked hh _ hi' (by omega) (by omega)]
    exact hp.header i hi hi' (by simp only [Adjusted]; omega)

structure Arrival (frags xs : List Pkbuf) (z : Pkbuf) : Prop where
  mem : ∀ x ∈ xs ++ [z], ∃ f ∈ frags, x.pkData.drop ETH_HRD_SZ = f.pkData.drop ETH_HRD_SZ
  all : ∀ f ∈ frags, ∃ x ∈ xs ++ [z], x.pkData.drop ETH_HRD_SZ = f.pkData.drop ETH_HRD_SZ
  last : ∀ x ∈ xs, x.pkData.drop ETH_HRD_SZ ≠ z.pkData.drop ETH_HRD_SZ

def SameHeader (r orig : Pkbuf) : Prop :=
  iphlen r = iphlen orig ∧ ∀ i, ETH_HRD_SZ ≤ i → i < ETH_HRD_SZ + iphlen orig →
    i ≠ 24 ∧ i ≠ 25 → r.pkData[i]? = orig.pkData[i]?

lemma Gathering.reassFrag (hs : Sendable orig mtu) {frag : Fragment} {acc : List Pkbuf}
    (addr : ℕ) (h : Gathering orig m frag acc) (hf : fullFrag frag = true) :
    ∃ r, Frag.reassFrag addr frag = some r ∧ payload r = payload orig ∧ SameHeader r (ipNtoh orig) := by
  have hn : frag.fragHlen = iphlen orig := (h.sound.hlen_eq hf).trans hs.iphlen_ntoh
  have hl : frag.fragLastIn = true := by
    simp only [fullFrag, Bool.and_eq_true] at hf
    exact hf.1.2
  have hsize := h.fragSize hl
  have hsum := hs.plen_lt
  have hc : ∀ q ∈ frag.fragPkb, Checked q ∧ iphlen q = frag.fragHlen := by
    intro q hq
    refine ⟨(h.piece q hq).checked, ?_⟩
    rw [hn, piece_iphlen (h.piece q hq) hs.hlen_ge, hs.iphlen_ntoh]
  obtain ⟨hcont, htotal⟩ := h.sound.contiguous hf
  cases hq : frag.fragPkb with
  | nil =>
    obtain ⟨p, hp, _⟩ := h.sound.counted.tally.exists_mf hf
    simp [hq] at hp
  | cons p pkbs =>
    have hmem : p ∈ frag.fragPkb := by simp [hq]
    obtain ⟨hpc, hpn⟩ := hc p hmem
    refine ⟨_, reassFrag_eq hq hc htotal (by rw [hn, hsize]; omega), ?_, ?_⟩
    · rw [(payload_reass hpc hpn rfl).2, hcont.flatMap_slice
        (fun q hq => (h.piece q hq).payload_eq), htotal, hsize, slice, List.drop_zero,
        List.take_of_length_le]
      rw [payload, List.length_drop, hs.data_length]
      omega
    · refine ⟨(payload_reass hpc hpn rfl).1.trans (hn.trans hs.iphlen_ntoh.symm), ?_⟩
      intro i hi hi' hck
      rw [hs.iphlen_ntoh] at hi'
      rw [List.getElem?_append_left (by rw [reassHeader_length hpc hpn, hn]; exact hi'), hn, hsize]
      exact reassHeader_eq hs (h.piece p hmem) hi hi' hck

theorem ipReass_ipSendFrag {pkb : Pkbuf} {mtu : ℕ} (addr : ℕ) (hs : Sendable pkb mtu) :
    ∃ frags, ipSendFrag addr mtu pkb = some frags ∧ ∀ xs z fragHead addr', Arrival frags xs z →
        (∀ f ∈ fragHead, ¬ HasKey f (key (ipNtoh pkb))) →
        ∃ r, ipReassList addr' ((xs ++ [z]).map ipNtoh) fragHead = List.replicate xs.length none ++ [some r] ∧
          payload r = payload pkb ∧ SameHeader r (ipNtoh pkb) := by
  obtain ⟨frags, hsend, hsound, hcomp⟩ := ipSendFrag_eq addr hs
  refine ⟨frags, hsend, ?_⟩
  intro xs z fragHead addr' harr hfree
  have hpos := hs.maxLen_pos
  have hpiece : ∀ x ∈ xs ++ [z], IsPiece pkb (maxLen pkb mtu) (ipNtoh x) := by
    intro x hx
    obtain ⟨f, hf, he⟩ := harr.mem x hx
    obtain ⟨off, hd, hlt, a, rfl⟩ := hsound f hf
    exact (isPiece_ntoh hs hd hlt he).1
  have hcut : ∀ x ∈ xs ++ [z], ∀ y ∈ xs ++ [z], ipoff (ipNtoh x) = ipoff (ipNtoh y) →
      x.pkData.drop ETH_HRD_SZ = y.pkData.drop ETH_HRD_SZ := by
    intro x hx y hy hxy
    obtain ⟨f, hf, hxf⟩ := harr.mem x hx
    obtain ⟨g, hg, hyg⟩ := harr.mem y hy
    obtain ⟨o, hd, hlt, a, rfl⟩ := hsound f hf
    obtain ⟨o', hd', hlt', a', rfl⟩ := hsound g hg
    have ho := (isPiece_ntoh hs hd hlt hxf).2
    have ho' := (isPiece_ntoh hs hd' hlt' hyg).2
    have : o = o' := by rw [← ho, ← ho', hxy]
    subst this
    rw [hxf, hyg]
    rfl
  have hz := hpiece z (by simp)
  have hnew : ∀ y ∈ xs.map ipNtoh, ipoff y ≠ ipoff (ipNtoh z) := by
    intro y hy he
    obtain ⟨x, hx, rfl⟩ := List.mem_map.mp hy
    exact harr.last x hx (hcut x (by simp [hx]) z (by simp) he)
  have hstart : Collected pkb (maxLen pkb mtu) ⟨fragHead, []⟩ [] :=
    ⟨⟨fragHead, hfree, Or.inl ⟨rfl, rfl⟩⟩, by simp⟩
  obtain ⟨s, hcol, hrun⟩ := hstart.run hs.hlen_ge hz.dvd hz.off_lt (xs.map ipNtoh) addr' (by
      intro y hy
      obtain ⟨x, hx, rfl⟩ := List.mem_map.mp hy
      exact hpiece x (by simp [hx]))
    (by simpa using hnew)
  obtain ⟨frag, hr, hg, hf⟩ := hcol.finish hz hs.hlen_ge (addr' + xs.length) (by omega) hs.maxLen_lt
    (by simpa using hnew) (by
      intro off hd hlt
      obtain ⟨f, hfm, a, rfl⟩ := hcomp off hd hlt
      obtain ⟨x, hx, hxe⟩ := harr.all _ hfm
      refine ⟨ipNtoh x, ?_, (isPiece_ntoh hs hd hlt hxe).2⟩
      rcases List.mem_append.mp hx with hx | hx
      · exact List.mem_append_left _ (List.mem_map.mpr ⟨x, hx, rfl⟩)
      · exact List.mem_append_right _ (List.mem_singleton.mpr (by rw [List.mem_singleton.mp hx])))
  obtain ⟨r, hre, hpay, hhd⟩ := hg.reassFrag hs (addr' + xs.length) hf
  refine ⟨r, ?_, hpay, hhd⟩
  rw [List.map_append, hrun]
  simp [ipReassList, hr, hre]

def datagram : Pkbuf :=
  { allocPkb 0 50 with
    pkData := List.replicate 14 0 ++
      [0x45, 0, 0, 36, 0, 7, 0, 0, 64, 17, 0, 0, 10, 0, 0, 1, 10, 0, 0, 2] ++
      [1, 2, 3, 4, 5, 6, 7, 8, 9, 10, 11, 12, 13, 14, 15, 16] }

theorem ipReass_ipSendFrag_two : ∃ f g r, ipSendFrag 0 (28 : ℕ) datagram = some [f, g] ∧
      ipReassList 9 [ipNtoh g, ipNtoh g, ipNtoh f] [] = [none, none, some r] ∧
      payload r = payload datagram := by
  obtain ⟨frags, hsend, h⟩ := @ipReass_ipSendFrag datagram 28 0
    ⟨by decide, by decide, by decide, by decide, by decide⟩
  have he : ipSendFrag 0 (28 : ℕ) datagram = some [ipFrag 0 datagram 20 8 0 IP_FRAG_MF,
    ipFrag 1 datagram 20 8 8 0] := by decide
  cases Option.mem_unique he hsend
  obtain ⟨r, hr, hp, _⟩ := h [ipFrag 1 datagram 20 8 8 0, ipFrag 1 datagram 20 8 8 0]
    (ipFrag 0 datagram 20 8 0 IP_FRAG_MF) [] 9 ⟨by decide, by decide, by decide⟩ (by simp)
  exact ⟨_, _, r, hsend, hr, hp⟩

end Tapip.Ip.RoundTrip
