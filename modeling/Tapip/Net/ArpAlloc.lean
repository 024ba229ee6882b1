import Tapip.Net.Arp

/-! The search for a free entry of the ARP cache (arp/arp_cache.c). -/

namespace Tapip.Net.ArpAlloc

open Arp Foundation.Program

variable {s s' : Stack} {cs : List ArpEntry} {ae : ArpEntry} {i next turns : ℕ}

def Free (cs : List ArpEntry) (i : ℕ) : Prop := ∃ ae, cs[i]? = some ae ∧ ae.aeState = .free

lemma free_iff : cs[i]?.any (fun ae => ae.aeState = .free) = true ↔ Free cs i := by
  simp [Option.any_eq_true, Free]

section Loop

def arpAllocLoop (cs : List ArpEntry) : ℕ → ℕ → ℕ → ℕ × ℕ
  | 0, i, next => (i, next)
  | turns + 1, i, next =>
    if cs[next]?.any (fun ae => ae.aeState = .free) then (i, next)
    else arpAllocLoop cs turns (i + 1) ((next + 1) % ARP_CACHE_SZ)

def arpAllocLocked (s : Stack) : Option ℕ × Stack :=
  let (i, next) := arpAllocLoop s.arpCache ARP_CACHE_SZ 0 s.arpNext
  if ARP_CACHE_SZ ≤ i then (none, { s with arpNext := next })
  else (some next, { s with
    arpCache := s.arpCache.modify next arpInit, arpNext := (next + 1) % ARP_CACHE_SZ })

lemma arpAllocLoop_spec (cs : List ArpEntry) (turns i : ℕ) (hn : next < ARP_CACHE_SZ) :
    ∃ k ≤ turns, arpAllocLoop cs turns i next = (i + k, (next + k) % ARP_CACHE_SZ) ∧
      (∀ j < k, ¬Free cs ((next + j) % ARP_CACHE_SZ)) ∧ (k < turns → Free cs ((next + k) % ARP_CACHE_SZ)) := by
  induction turns generalizing i next with
  | zero => exact ⟨0, le_rfl, by simp [arpAllocLoop, Nat.mod_eq_of_lt hn], nofun, nofun⟩
  | succ turns ih =>
    rw [arpAllocLoop]
    split_ifs with hfree
    · refine ⟨0, Nat.zero_le _, by simp [Nat.mod_eq_of_lt hn], nofun, fun _ => ?_⟩
      rw [Nat.add_zero, Nat.mod_eq_of_lt hn]
      exact free_iff.mp hfree
    · have hround (j : ℕ) : ((next + 1) % ARP_CACHE_SZ + j) % ARP_CACHE_SZ = (next + (j + 1)) % ARP_CACHE_SZ := by
        rw [Nat.mod_add_mod, Nat.add_right_comm, Nat.add_assoc]
      obtain ⟨k, hk, heq, hbusy, hend⟩ := ih (i + 1) (Nat.mod_lt (next + 1) (by decide))
      refine ⟨k + 1, by omega, ?_, fun j hj => ?_, fun hlt => ?_⟩
      · rw [heq, hround, Nat.add_assoc, Nat.add_comm 1]
      · cases j with
        | zero => rwa [Nat.add_zero, Nat.mod_eq_of_lt hn, ← free_iff]
        | succ j =>
          rw [← hround]
          exact hbusy j (by omega)
      · rw [← hround]
        exact hend (by omega)

lemma arpNextFree_eq : arpNextFree cs turns next =
    if (arpAllocLoop cs turns i next).1 < i + turns then some (arpAllocLoop cs turns i next).2 else none := by
  induction turns generalizing i next with
  | zero => simp [arpNextFree, arpAllocLoop]
  | succ turns ih =>
    rw [arpNextFree, arpAllocLoop]
    by_cases hfree : cs[next]?.any (fun ae => ae.aeState = .free) = true
    · simp [hfree]
    · rw [if_neg hfree, if_neg hfree, ih (i := i + 1), show i + 1 + turns = i + (turns + 1) by omega]

end Loop

section Search

lemma arpNextFree_some (h : arpNextFree cs turns next = some i) : Free cs i := by
  induction turns generalizing next with
  | zero => cases h
  | succ turns ih =>
    rw [arpNextFree] at h
    split_ifs at h with hfree
    · cases h
      exact free_iff.mp hfree
    · exact ih h

lemma exists_turn (hn : next < ARP_CACHE_SZ) (hi : i < ARP_CACHE_SZ) :
    ∃ k < ARP_CACHE_SZ, (next + k) % ARP_CACHE_SZ = i := by
  refine ⟨(i + ARP_CACHE_SZ - next) % ARP_CACHE_SZ, Nat.mod_lt _ (by decide), ?_⟩
  rw [Nat.add_mod_mod, show next + (i + ARP_CACHE_SZ - next) = i + ARP_CACHE_SZ by omega,
    Nat.add_mod_right, Nat.mod_eq_of_lt hi]

lemma full_of_turns (hlen : cs.length = ARP_CACHE_SZ) (hn : next < ARP_CACHE_SZ)
    (h : ∀ j < ARP_CACHE_SZ, ¬Free cs ((next + j) % ARP_CACHE_SZ)) : ∀ ae ∈ cs, ae.aeState ≠ .free := by
  intro ae hae hfree
  obtain ⟨m, hm, rfl⟩ := List.mem_iff_getElem.mp hae
  obtain ⟨k, hk, rfl⟩ := exists_turn hn (hlen ▸ hm)
  exact h k hk ⟨_, List.getElem?_eq_getElem hm, hfree⟩

lemma full_of_arpNextFree (hlen : cs.length = ARP_CACHE_SZ) (hn : next < ARP_CACHE_SZ)
    (h : arpNextFree cs ARP_CACHE_SZ next = none) : ∀ ae ∈ cs, ae.aeState ≠ .free := by
  obtain ⟨k, hk, heq, hbusy, -⟩ := arpAllocLoop_spec cs ARP_CACHE_SZ 0 hn
  rw [arpNextFree_eq (i := 0), heq] at h
  obtain rfl : k = ARP_CACHE_SZ := by
    split_ifs at h with hlt
    omega
  exact full_of_turns hlen hn hbusy

end Search

section Alloc

lemma modifyAe_run (f : ArpEntry → ArpEntry) (h : s.arpCache[i]? = some ae) :
    modifyAe i f s = .ok ((), { s with arpCache := s.arpCache.set i (f ae) }) := by
  simp [modifyAe, List.modify_eq_set_getElem?, h]

lemma set_get {cs : List ArpEntry} (h : cs[i]? = some ae) (x : ArpEntry) : (cs.set i x)[i]? = some x := by
  have hlt := (List.getElem?_eq_some_iff.mp h).1
  simp [hlt]

lemma arpAlloc_inv {r : Option ℕ} (h : arpAlloc s = .ok (r, s')) :
    (r = none ∧ s' = s ∧ arpNextFree s.arpCache ARP_CACHE_SZ s.arpNext = none) ∨
      ∃ i ae, r = some i ∧ s.arpCache[i]? = some ae ∧ ae.aeState = .free ∧ s' = { s with
        arpCache := s.arpCache.set i (arpInit ae), arpNext := (i + 1) % ARP_CACHE_SZ } := by
  simp only [arpAlloc] at h
  split at h
  · rename_i hnone
    cases h
    exact .inl ⟨rfl, rfl, hnone⟩
  · rename_i i hsome
    obtain ⟨ae, hae, hfree⟩ := arpNextFree_some hsome
    cases h
    exact .inr ⟨i, ae, rfl, hae, hfree, by simp [List.modify_eq_set_getElem?, hae]⟩

lemma arpAlloc_eq (hn : s.arpNext < ARP_CACHE_SZ) : arpAlloc s = .ok (arpAllocLocked s) := by
  obtain ⟨k, hk, heq, -, -⟩ := arpAllocLoop_spec s.arpCache ARP_CACHE_SZ 0 hn
  simp only [arpAlloc, arpAllocLocked, arpNextFree_eq (i := 0), heq, Nat.zero_add]
  obtain hlt | rfl : k < ARP_CACHE_SZ ∨ k = ARP_CACHE_SZ := by omega
  · rw [if_pos hlt, if_neg (by omega)]
  · rw [if_neg (lt_irrefl _), if_pos le_rfl, Nat.add_mod_right, Nat.mod_eq_of_lt hn]

def FirstFree (cs : List ArpEntry) (next i : ℕ) : Prop :=
  ∃ k < ARP_CACHE_SZ, i = (next + k) % ARP_CACHE_SZ ∧ Free cs i ∧ ∀ j < k, ¬Free cs ((next + j) % ARP_CACHE_SZ)

lemma arpAllocLocked_cases (hlen : s.arpCache.length = ARP_CACHE_SZ) (hn : s.arpNext < ARP_CACHE_SZ) :
    (arpAllocLocked s = (none, s) ∧ ∀ ae ∈ s.arpCache, ae.aeState ≠ .free) ∨
      ∃ i, FirstFree s.arpCache s.arpNext i ∧ arpAllocLocked s = (some i, { s with
        arpCache := s.arpCache.modify i arpInit, arpNext := (i + 1) % ARP_CACHE_SZ }) := by
  obtain ⟨k, hk, heq, hbusy, hend⟩ := arpAllocLoop_spec s.arpCache ARP_CACHE_SZ 0 hn
  simp only [arpAllocLocked, heq, Nat.zero_add]
  obtain hlt | rfl : k < ARP_CACHE_SZ ∨ k = ARP_CACHE_SZ := by omega
  · exact .inr ⟨_, ⟨k, hlt, rfl, hend hlt, hbusy⟩, by rw [if_neg (by omega)]⟩
  · rw [if_pos le_rfl, Nat.add_mod_right, Nat.mod_eq_of_lt hn]
    exact .inl ⟨rfl, full_of_turns hlen hn hbusy⟩

theorem arpAlloc_round_robin (hlen : s.arpCache.length = ARP_CACHE_SZ) (hn : s.arpNext < ARP_CACHE_SZ) :
    ∃ r s', arpAlloc s = .ok (r, s') ∧ arpAllocLocked s = (r, s') ∧
      (r = none ↔ ∀ ae ∈ s.arpCache, ae.aeState ≠ .free) ∧ (r = none → s' = s) ∧
      ∀ i, r = some i → FirstFree s.arpCache s.arpNext i ∧ (∀ j ≠ i, s'.arpCache[j]? = s.arpCache[j]?) ∧
        s'.arpNext = (i + 1) % ARP_CACHE_SZ ∧ s'.arpNext < ARP_CACHE_SZ ∧
        { s' with arpCache := s.arpCache, arpNext := s.arpNext } = s := by
  obtain ⟨heq, hfull⟩ | ⟨i, hfirst, heq⟩ := arpAllocLocked_cases hlen hn
  · exact ⟨none, s, heq ▸ arpAlloc_eq hn, heq, ⟨fun _ => hfull, fun _ => rfl⟩, fun _ => rfl, nofun⟩
  · refine ⟨some i, _, heq ▸ arpAlloc_eq hn, heq, ⟨nofun, fun hfull => ?_⟩, nofun, fun j hj => ?_⟩
    · obtain ⟨-, -, -, ⟨ae, hae, hfree⟩, -⟩ := hfirst
      exact absurd hfree (hfull ae (List.mem_of_getElem? hae))
    · cases hj
      exact ⟨hfirst, fun j hne => by simp [hne.symm], rfl, Nat.mod_lt _ (by decide), rfl⟩

def wrapped : Stack :=
  { Stack.empty with
    arpCache := (List.range ARP_CACHE_SZ).map fun i => ⟨[], none, 4, 1, if i = 3 then .free else .waiting, 0, 0, []⟩
    arpNext := 5 }

theorem arpAlloc_round_robin_wraps : ∃ s', arpAlloc wrapped = .ok (some 3, s') ∧
    FirstFree wrapped.arpCache 5 3 ∧ s'.arpNext = 4 := by
  obtain ⟨r, s', hrun, -, -, -, hfound⟩ := arpAlloc_round_robin (s := wrapped) rfl (by decide)
  have hout : outcome arpAlloc wrapped = some (some 3) := by decide +kernel
  obtain ⟨rfl, -⟩ := ok_inj (hrun.symm.trans (run_of_outcome hout))
  obtain ⟨hfirst, -, hnext, -⟩ := hfound 3 rfl
  exact ⟨s', hrun, hfirst, hnext⟩

end Alloc

end Tapip.Net.ArpAlloc
