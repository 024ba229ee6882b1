import Mathlib.Algebra.Order.Ring.Int
import Mathlib.Data.Finset.Card

/-! Reference counts of the objects an allocator has handed out. -/

namespace Tapip.Foundation.Refcount

structure Ledger where
  refcnt : ℕ → ℤ
  next : ℕ
  allocs : ℤ
  frees : ℤ

namespace Ledger

def alloc (l : Ledger) : Ledger :=
  { l with refcnt := Function.update l.refcnt l.next 1, next := l.next + 1, allocs := l.allocs + 1 }

def get (a : ℕ) (l : Ledger) : Ledger :=
  { l with refcnt := Function.update l.refcnt a (l.refcnt a + 1) }

def free (a : ℕ) (l : Ledger) : Ledger :=
  if l.refcnt a - 1 ≤ 0 then
    { l with refcnt := Function.update l.refcnt a 0, frees := l.frees + 1 }
  else { l with refcnt := Function.update l.refcnt a (l.refcnt a - 1) }

def live (l : Ledger) : Finset ℕ := (Finset.range l.next).filter (fun a => 0 < l.refcnt a)

structure Balanced (l : Ledger) : Prop where
  count : l.allocs - l.frees = l.live.card
  fresh : ∀ a, l.next ≤ a → l.refcnt a = 0

variable {l : Ledger} {a b : ℕ}

lemma mem_live (hl : ∀ a, l.next ≤ a → l.refcnt a = 0) : a ∈ l.live ↔ 0 < l.refcnt a := by
  simp only [live, Finset.mem_filter, Finset.mem_range, and_iff_right_iff_imp]
  intro hpos
  by_contra hge
  have := hl a (not_lt.mp hge)
  omega

lemma refcnt_get : (l.get a).refcnt b = l.refcnt b + if a = b then 1 else 0 := by
  by_cases hb : b = a
  · subst hb
    simp [get]
  · simp [get, hb, Ne.symm hb]

lemma refcnt_free (h : 0 < l.refcnt a) : (l.free a).refcnt b = l.refcnt b - if a = b then 1 else 0 := by
  by_cases hb : b = a
  · subst hb
    simp only [free, if_true]
    split_ifs
    · simp only [Function.update_self]
      omega
    · simp
  · rw [if_neg (Ne.symm hb), sub_zero, free]
    split_ifs
    · exact Function.update_of_ne hb _ _
    · exact Function.update_of_ne hb _ _

@[simp] lemma next_free : (l.free a).next = l.next := by
  simp only [free]
  split_ifs <;> rfl

lemma Balanced.lt_next (h : l.Balanced) (ha : 0 < l.refcnt a) : a < l.next := by
  by_contra hge
  have := h.fresh a (not_lt.mp hge)
  omega

lemma Balanced.alloc (h : l.Balanced) : l.alloc.Balanced := by
  have hfresh : ∀ a, l.alloc.next ≤ a → l.alloc.refcnt a = 0 := by
    intro a ha
    have hlt : l.next < a := ha
    exact (Function.update_of_ne hlt.ne' _ _).trans (h.fresh a hlt.le)
  have hlive : l.alloc.live = insert l.next l.live := by
    ext a
    rw [Finset.mem_insert, mem_live hfresh, mem_live h.fresh]
    by_cases ha : a = l.next
    · simp [ha, Ledger.alloc]
    · simp [ha, Ledger.alloc]
  have hnew : l.next ∉ l.live := by simp [live]
  refine ⟨?_, hfresh⟩
  rw [hlive, Finset.card_insert_of_notMem hnew]
  have := h.count
  simp only [Ledger.alloc]
  push_cast
  omega

lemma Balanced.get (h : l.Balanced) (ha : 0 < l.refcnt a) : (l.get a).Balanced := by
  have hfresh : ∀ b, (l.get a).next ≤ b → (l.get a).refcnt b = 0 := by
    intro b hb
    have hne : a ≠ b := fun he => (h.lt_next ha).not_ge (he ▸ hb)
    rw [refcnt_get, if_neg hne, add_zero]
    exact h.fresh b hb
  have hlive : (l.get a).live = l.live := by
    ext b
    rw [mem_live hfresh, mem_live h.fresh, refcnt_get]
    by_cases hb : a = b
    · subst hb
      simp only [if_true]
      omega
    · simp [hb]
  exact ⟨by rw [hlive]; exact h.count, hfresh⟩

lemma Balanced.free (h : l.Balanced) (ha : 0 < l.refcnt a) : (l.free a).Balanced := by
  have hfresh : ∀ b, (l.free a).next ≤ b → (l.free a).refcnt b = 0 := by
    intro b hb
    rw [next_free] at hb
    have hne : a ≠ b := fun he => (h.lt_next ha).not_ge (he ▸ hb)
    rw [refcnt_free ha, if_neg hne, sub_zero]
    exact h.fresh b hb
  have hcount := h.count
  by_cases hlast : l.refcnt a - 1 ≤ 0
  · have hlive : (l.free a).live = l.live.erase a := by
      ext b
      rw [Finset.mem_erase, mem_live hfresh, mem_live h.fresh, refcnt_free ha]
      by_cases hb : a = b
      · subst hb
        simp only [if_true, ne_eq, not_true, false_and, iff_false]
        omega
      · simp [hb, Ne.symm hb]
    have hmem : a ∈ l.live := (mem_live h.fresh).mpr ha
    refine ⟨?_, hfresh⟩
    rw [hlive, Finset.card_erase_of_mem hmem]
    have hpos := Finset.card_pos.mpr ⟨a, hmem⟩
    simp only [Ledger.free, if_pos hlast]
    omega
  · have hlive : (l.free a).live = l.live := by
      ext b
      rw [mem_live hfresh, mem_live h.fresh, refcnt_free ha]
      by_cases hb : a = b
      · subst hb
        simp only [if_true]
        omega
      · simp [hb]
    refine ⟨?_, hfresh⟩
    rw [hlive]
    simpa only [Ledger.free, if_neg hlast] using hcount

structure Frees (freed : List ℕ) (l l' : Ledger) : Prop where
  next_le : l.next ≤ l'.next
  balanced : l.Balanced → l'.Balanced
  refcnt : l.Balanced → ∀ a, l'.refcnt a = l.refcnt a - freed.count a

namespace Frees

variable {l' l'' : Ledger} {freed freed' : List ℕ}

lemma refl (l : Ledger) : Frees [] l l := ⟨le_rfl, id, fun _ a => by simp⟩

lemma trans (h : Frees freed l l') (h' : Frees freed' l' l'') : Frees (freed ++ freed') l l'' := by
  refine ⟨h.next_le.trans h'.next_le, fun hl => h'.balanced (h.balanced hl), fun hl a => ?_⟩
  rw [h'.refcnt (h.balanced hl), h.refcnt hl, List.count_append]
  push_cast
  omega

lemma one (h : 0 < l.refcnt a) : Frees [a] l (l.free a) := by
  refine ⟨next_free.ge, fun hl => hl.free h, fun _ b => ?_⟩
  rw [refcnt_free h, List.count_singleton]
  by_cases hb : a = b <;> simp [hb, beq_iff_eq]

lemma of_alloc (h : Frees (l.next :: freed) l.alloc l') : Frees freed l l' := by
  refine ⟨(Nat.le_succ _).trans h.next_le, fun hl => h.balanced hl.alloc, fun hl b => ?_⟩
  rw [h.refcnt hl.alloc, List.count_cons]
  by_cases hb : l.next = b
  · subst hb
    simp [alloc, hl.fresh l.next le_rfl]
  · simp [alloc, hb, Ne.symm hb]

end Frees

end Ledger

end Tapip.Foundation.Refcount
