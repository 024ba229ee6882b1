import Mathlib.Data.Finset.Card
import Mathlib.Data.List.Nodup
import Mathlib.Logic.Function.Basic

/-! Objects linked into the chains of a hash table by a key they carry. -/

namespace Tapip.Foundation.Buckets

variable {ι ο κ : Type}

def entries (n : ℕ) (chain : ℕ → List ι) : List ι := (List.range n).flatMap chain

def push (b : ℕ) (i : ι) (chain : ℕ → List ι) : ℕ → List ι :=
  Function.update chain b (i :: chain b)

def remove [DecidableEq ι] (i : ι) (chain : ℕ → List ι) : ℕ → List ι := fun b => (chain b).erase i

def finds [DecidableEq κ] (key : ο → κ) (objs : ι → Option ο) (k : κ) (head : List ι) : Bool :=
  head.any (fun i => (objs i).any (fun o => key o = k))

structure Filed (hash : κ → ℕ) (key : ο → κ) (linked : ο → Bool) (objs : ι → Option ο)
    (chain : ℕ → List ι) : Prop where
  live : ∀ {b i}, i ∈ chain b → ∃ o, objs i = some o ∧ linked o = true
  listed : ∀ {i o}, objs i = some o → linked o = true → ∃ b, i ∈ chain b
  home : ∀ {b i o}, i ∈ chain b → objs i = some o → b = hash (key o)
  nodup : ∀ b, (chain b).Nodup
  distinct : ∀ {b c i j o o'}, i ∈ chain b → j ∈ chain c → objs i = some o → objs j = some o' →
    key o = key o' → i = j

section Length

variable {n b : ℕ}

lemma length_entries_update (chain : ℕ → List ι) (l : List ι) (hb : b < n) :
    (entries n (Function.update chain b l)).length + (chain b).length = (entries n chain).length + l.length := by
  induction n with
  | zero => omega
  | succ n ih =>
    simp only [entries, List.range_succ, List.flatMap_append, List.flatMap_singleton, List.length_append] at ih ⊢
    by_cases hlt : b < n
    · have hn := ih hlt
      rw [Function.update_of_ne (by omega)]
      omega
    · obtain rfl : b = n := by omega
      have hrest : (List.range b).flatMap (Function.update chain b l) = (List.range b).flatMap chain := by
        apply List.flatMap_congr
        intro j hj
        rw [Function.update_of_ne (List.mem_range.mp hj).ne]
      rw [hrest, Function.update_self]
      omega

lemma length_entries_push (chain : ℕ → List ι) (i : ι) (hb : b < n) :
    (entries n (push b i chain)).length = (entries n chain).length + 1 := by
  have h := length_entries_update chain (i :: chain b) hb
  simp only [push, List.length_cons] at h ⊢
  omega

lemma exists_key_free [DecidableEq κ] {chain : ℕ → List ι} (key : ι → κ) {keys : Finset κ}
    (h : (entries n chain).length < keys.card) : ∃ k ∈ keys, ∀ b < n, ∀ i ∈ chain b, key i ≠ k := by
  have hcard : ((entries n chain).map key).toFinset.card < keys.card := by
    apply lt_of_le_of_lt (List.toFinset_card_le _)
    rwa [List.length_map]
  obtain ⟨k, hk, hfree⟩ := Finset.exists_mem_notMem_of_card_lt_card hcard
  refine ⟨k, hk, fun b hb i hi he => hfree ?_⟩
  rw [List.mem_toFinset, List.mem_map]
  exact ⟨i, List.mem_flatMap.mpr ⟨b, List.mem_range.mpr hb, hi⟩, he⟩

end Length

section Filed

variable {hash : κ → ℕ} {key : ο → κ} {linked : ο → Bool} {objs : ι → Option ο} {chain : ℕ → List ι}
  {b c : ℕ} {i j : ι} {o : ο}

lemma filed_empty (h : ∀ i o, objs i = some o → linked o = false) : Filed hash key linked objs fun _ => [] where
  live hi := absurd hi List.not_mem_nil
  listed ho hl := by simp [h _ _ ho] at hl
  home hi := absurd hi List.not_mem_nil
  nodup _ := List.nodup_nil
  distinct hi := absurd hi List.not_mem_nil

lemma Filed.linked_iff (h : Filed hash key linked objs chain) (ho : objs i = some o) :
    linked o = true ↔ ∃ b, i ∈ chain b := by
  refine ⟨h.listed ho, ?_⟩
  rintro ⟨b, hi⟩
  obtain ⟨o', ho', hl⟩ := h.live hi
  rwa [Option.mem_unique ho ho']

lemma Filed.nodup_entries (h : Filed hash key linked objs chain) (n : ℕ) : (entries n chain).Nodup := by
  apply List.nodup_flatMap.mpr
  refine ⟨fun b _ => h.nodup b, List.Pairwise.imp ?_ List.nodup_range⟩
  intro b c hbc
  apply List.disjoint_left.mpr
  intro i hb hc
  obtain ⟨o, ho, -⟩ := h.live hb
  exact hbc ((h.home hb ho).trans (h.home hc ho).symm)

lemma Filed.finds_iff [DecidableEq κ] (h : Filed hash key linked objs chain) {k : κ} :
    finds key objs k (chain (hash k)) = true ↔ ∃ b, ∃ i ∈ chain b, ∃ o, objs i = some o ∧ key o = k := by
  simp only [finds, List.any_eq_true, Option.any_eq_true, decide_eq_true_eq]
  constructor
  · rintro ⟨i, hi, o, ho, he⟩
    exact ⟨_, i, hi, o, ho, he⟩
  · rintro ⟨b, i, hi, o, ho, rfl⟩
    rw [h.home hi ho] at hi
    exact ⟨i, hi, o, ho, rfl⟩

lemma mem_push : j ∈ push b i chain c ↔ (c = b ∧ j = i) ∨ j ∈ chain c := by
  by_cases hc : c = b
  · subst hc
    simp [push]
  · simp [push, hc]

variable [DecidableEq ι]

variable (h : Filed hash key linked objs chain)

include h

lemma Filed.link (hi : ∀ b, i ∉ chain b) (hl : linked o = true)
    (hfree : ∀ b, ∀ j ∈ chain b, ∀ o', objs j = some o' → key o' ≠ key o) :
    Filed hash key linked (Function.update objs i (some o)) (push (hash (key o)) i chain) := by
  have hne : ∀ {b j}, j ∈ chain b → j ≠ i := by
    rintro b j hj rfl
    exact hi b hj
  have hold : ∀ {b j}, j ∈ chain b → Function.update objs i (some o) j = objs j :=
    fun hj => Function.update_of_ne (hne hj) _ _
  have hnew : ∀ {o'}, Function.update objs i (some o) i = some o' → o' = o := by
    intro o' ho'
    rw [Function.update_self] at ho'
    exact (Option.some.inj ho').symm
  refine ⟨?_, ?_, ?_, ?_, ?_⟩
  · intro b j hj
    rcases mem_push.mp hj with ⟨-, rfl⟩ | hj
    · exact ⟨o, Function.update_self _ _ _, hl⟩
    · rw [hold hj]
      exact h.live hj
  · intro j o' ho' hl'
    by_cases hji : j = i
    · exact ⟨_, mem_push.mpr (.inl ⟨rfl, hji⟩)⟩
    · obtain ⟨b, hj⟩ := h.listed ((Function.update_of_ne hji _ _).symm.trans ho') hl'
      exact ⟨b, mem_push.mpr (.inr hj)⟩
  · intro b j o' hj ho'
    rcases mem_push.mp hj with ⟨rfl, rfl⟩ | hj
    · rw [hnew ho']
    · exact h.home hj ((hold hj).symm.trans ho')
  · intro b
    by_cases hb : b = hash (key o)
    · subst hb
      simp only [push, Function.update_self, List.nodup_cons]
      exact ⟨hi _, h.nodup _⟩
    · simp only [push, Function.update_of_ne hb]
      exact h.nodup b
  · intro b c j l oj ol hj hl hoj hol he
    rcases mem_push.mp hj with ⟨-, hji⟩ | hj' <;> rcases mem_push.mp hl with ⟨-, hli⟩ | hl'
    · exact hji.trans hli.symm
    · subst hji
      rw [hnew hoj] at he
      exact absurd he.symm (hfree _ l hl' ol ((hold hl').symm.trans hol))
    · subst hli
      rw [hnew hol] at he
      exact absurd he (hfree _ j hj' oj ((hold hj').symm.trans hoj))
    · exact h.distinct hj' hl' ((hold hj').symm.trans hoj) ((hold hl').symm.trans hol) he

lemma Filed.mem_remove : j ∈ remove i chain b ↔ j ≠ i ∧ j ∈ chain b := (h.nodup b).mem_erase_iff

lemma Filed.unlink {v : Option ο} (hv : ∀ o ∈ v, linked o = false) :
    Filed hash key linked (Function.update objs i v) (remove i chain) := by
  have hold : ∀ {b j}, j ∈ remove i chain b → Function.update objs i v j = objs j :=
    fun hj => Function.update_of_ne (h.mem_remove.mp hj).1 _ _
  refine ⟨?_, ?_, ?_, fun b => (h.nodup b).erase i, ?_⟩
  · intro b j hj
    rw [hold hj]
    exact h.live (h.mem_remove.mp hj).2
  · intro j o ho hl
    by_cases hji : j = i
    · subst hji
      rw [Function.update_self] at ho
      simp [hv o ho] at hl
    · obtain ⟨b, hj⟩ := h.listed ((Function.update_of_ne hji _ _).symm.trans ho) hl
      exact ⟨b, h.mem_remove.mpr ⟨hji, hj⟩⟩
  · intro b j o hj ho
    exact h.home (h.mem_remove.mp hj).2 ((hold hj).symm.trans ho)
  · intro b c j l oj ol hj hl hoj hol he
    exact h.distinct (h.mem_remove.mp hj).2 (h.mem_remove.mp hl).2 ((hold hj).symm.trans hoj)
      ((hold hl).symm.trans hol) he

lemma Filed.aside (hi : ∀ b, i ∉ chain b) {v : Option ο}
    (hv : ∀ o ∈ v, linked o = false) : Filed hash key linked (Function.update objs i v) chain := by
  have hsame : remove i chain = chain := by
    funext b
    exact List.erase_of_not_mem (hi b)
  rw [← hsame]
  exact h.unlink hv

lemma Filed.touch (ho : objs i = some o) {o' : ο} (hk : key o' = key o) (hl : linked o' = linked o) :
    Filed hash key linked (Function.update objs i (some o')) chain := by
  have hback : ∀ {j u}, Function.update objs i (some o') j = some u →
      ∃ u0, objs j = some u0 ∧ key u = key u0 ∧ linked u = linked u0 := by
    intro j u hu
    by_cases hji : j = i
    · subst hji
      rw [Function.update_self] at hu
      cases hu
      exact ⟨o, ho, hk, hl⟩
    · rw [Function.update_of_ne hji] at hu
      exact ⟨u, hu, rfl, rfl⟩
  refine ⟨?_, ?_, ?_, h.nodup, ?_⟩
  · intro b j hj
    by_cases hji : j = i
    · subst hji
      obtain ⟨o0, ho0, hl0⟩ := h.live hj
      cases Option.mem_unique ho ho0
      exact ⟨o', Function.update_self _ _ _, hl.trans hl0⟩
    · rw [Function.update_of_ne hji]
      exact h.live hj
  · intro j u hu hlu
    obtain ⟨u0, hu0, -, hl0⟩ := hback hu
    exact h.listed hu0 (hl0 ▸ hlu)
  · intro b j u hj hu
    obtain ⟨u0, hu0, hk0, -⟩ := hback hu
    rw [hk0]
    exact h.home hj hu0
  · intro b c j l u v hj hl hu hv he
    obtain ⟨u0, hu0, hku, -⟩ := hback hu
    obtain ⟨v0, hv0, hkv, -⟩ := hback hv
    exact h.distinct hj hl hu0 hv0 (hku.symm.trans (he.trans hkv))

lemma Filed.length_remove {n : ℕ} (hb : b < n) (hi : i ∈ chain b) :
    (entries n (remove i chain)).length + 1 = (entries n chain).length := by
  obtain ⟨o, ho, -⟩ := h.live hi
  have hone : remove i chain = Function.update chain b ((chain b).erase i) := by
    funext c
    by_cases hc : c = b
    · subst hc
      rw [Function.update_self, remove]
    · rw [Function.update_of_ne hc, remove, List.erase_of_not_mem]
      intro hic
      exact hc ((h.home hic ho).trans (h.home hi ho).symm)
  have hlen := length_entries_update chain ((chain b).erase i) hb
  have hpos := List.length_pos_of_mem hi
  rw [List.length_erase_of_mem hi] at hlen
  rw [hone]
  omega

end Filed

end Tapip.Foundation.Buckets
