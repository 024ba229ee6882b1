import Mathlib.Algebra.GroupWithZero.Nat
import Mathlib.Data.List.Induction
import Mathlib.Algebra.BigOperators.Group.List.Basic
import Tapip.Foundation.Bytes

/-! Lists of intervals: when they fill a range without hole and without overlap. -/

namespace Tapip.Foundation.Tiling

open Bytes

variable {β : Type*} (start len : β → ℕ)

def Covers (i : β) (p : ℕ) : Prop := start i ≤ p ∧ p < start i + len i

instance (i : β) (p : ℕ) : Decidable (Covers start len i p) :=
  inferInstanceAs (Decidable (_ ∧ _))

/-- Every place below `n` lies in exactly one interval, and no other place in any. -/
def Tiles (l : List β) (n : ℕ) : Prop :=
  ∀ p, l.countP (fun i => Covers start len i p) = if p < n then 1 else 0

def Contiguous : ℕ → List β → Prop
  | _, [] => True
  | a, i :: l => start i = a ∧ Contiguous (a + len i) l

def total (l : List β) : ℕ := (l.map len).sum

def Ordered (l : List β) : Prop := l.Pairwise (fun i j => start i + len i ≤ start j)

variable {start len}

@[simp] lemma total_nil : total len ([] : List β) = 0 := rfl

@[simp] lemma total_cons (i : β) (l : List β) : total len (i :: l) = len i + total len l := by
  simp [total]

@[simp] lemma total_append (l m : List β) : total len (l ++ m) = total len l + total len m := by
  simp [total]

lemma total_le {l : List β} {a b : ℕ} (ho : Ordered start len l) (ha : ∀ i ∈ l, a ≤ start i)
    (hb : ∀ i ∈ l, start i + len i ≤ b) (hab : a ≤ b) : total len l ≤ b - a := by
  induction l generalizing a with
  | nil => simp
  | cons i l ih =>
    obtain ⟨hi, ho⟩ := List.pairwise_cons.mp ho
    have hib := hb i (by simp)
    have hia := ha i (by simp)
    have := ih ho hi (fun j hj => hb j (by simp [hj])) hib
    rw [total_cons]
    omega

lemma contiguous_of_total {l : List β} {a b : ℕ} (ho : Ordered start len l)
    (ha : ∀ i ∈ l, a ≤ start i) (hb : ∀ i ∈ l, start i + len i ≤ b) (hab : a ≤ b)
    (ht : total len l = b - a) : Contiguous start len a l := by
  induction l generalizing a with
  | nil => trivial
  | cons i l ih =>
    obtain ⟨hi, ho⟩ := List.pairwise_cons.mp ho
    have hib := hb i (by simp)
    have hia := ha i (by simp)
    have hbl : ∀ j ∈ l, start j + len j ≤ b := fun j hj => hb j (by simp [hj])
    have hle := total_le ho hi hbl hib
    rw [total_cons] at ht
    have hs : start i = a := by omega
    refine ⟨hs, ?_⟩
    rw [← hs]
    exact ih ho hi hbl hib (by omega)

lemma contiguous_of_covered {l : List β} {a b : ℕ} (ho : Ordered start len l)
    (ha : ∀ i ∈ l, a ≤ start i) (hb : ∀ i ∈ l, start i + len i ≤ b) (hab : a ≤ b)
    (hc : ∀ p, a ≤ p → p < b → ∃ i ∈ l, Covers start len i p) :
    Contiguous start len a l ∧ total len l = b - a := by
  induction l generalizing a with
  | nil =>
    refine ⟨trivial, ?_⟩
    by_contra hne
    obtain ⟨i, hi, _⟩ := hc a (Nat.le_refl a) (by rw [total_nil] at hne; omega)
    simp at hi
  | cons i l ih =>
    obtain ⟨hi, ho⟩ := List.pairwise_cons.mp ho
    have hib := hb i (by simp)
    have hia := ha i (by simp)
    have hs : start i = a := by
      by_contra hne
      obtain ⟨j, hj, hj1, _⟩ := hc a (Nat.le_refl a) (by omega)
      rcases List.mem_cons.mp hj with rfl | hj
      · omega
      · have := hi j hj
        omega
    obtain ⟨h1, h2⟩ := ih ho hi (fun j hj => hb j (by simp [hj])) hib (by
      intro p hp hpb
      obtain ⟨j, hj, hj1, hj2⟩ := hc p (by omega) hpb
      rcases List.mem_cons.mp hj with rfl | hj
      · omega
      · exact ⟨j, hj, hj1, hj2⟩)
    refine ⟨⟨hs, hs ▸ h1⟩, ?_⟩
    rw [total_cons, h2]
    omega

lemma Contiguous.countP {l : List β} {a : ℕ} (h : Contiguous start len a l) (p : ℕ) :
    l.countP (fun i => Covers start len i p) = if a ≤ p ∧ p < a + total len l then 1 else 0 := by
  induction l generalizing a with
  | nil =>
    rw [List.countP_nil, total_nil, if_neg (by omega)]
  | cons i l ih =>
    obtain ⟨rfl, hl⟩ := h
    simp only [List.countP_cons, decide_eq_true_eq, ih hl, total_cons]
    split_ifs <;> simp only [Covers] at * <;> omega

lemma Contiguous.covered {l : List β} {a p : ℕ} (h : Contiguous start len a l) (ha : a ≤ p)
    (hp : p < a + total len l) : ∃ i ∈ l, Covers start len i p := by
  have hc : 0 < l.countP (fun i => Covers start len i p) := by
    rw [h.countP, if_pos ⟨ha, hp⟩]
    exact Nat.one_pos
  obtain ⟨i, hi, hcov⟩ := List.countP_pos_iff.mp hc
  exact ⟨i, hi, by simpa using hcov⟩

lemma Contiguous.append {l m : List β} {a : ℕ} (h : Contiguous start len a l)
    (hm : Contiguous start len (a + total len l) m) : Contiguous start len a (l ++ m) := by
  induction l generalizing a with
  | nil => exact hm
  | cons i l ih =>
    refine ⟨h.1, ih h.2 ?_⟩
    rwa [total_cons, ← Nat.add_assoc] at hm

lemma Contiguous.ordered {l : List β} {a : ℕ} (h : Contiguous start len a l) :
    Ordered start len l ∧ ∀ i ∈ l, a ≤ start i ∧ start i + len i ≤ a + total len l := by
  induction l generalizing a with
  | nil => exact ⟨.nil, by simp⟩
  | cons i l ih =>
    obtain ⟨rfl, hl⟩ := h
    obtain ⟨ho, hin⟩ := ih hl
    refine ⟨List.pairwise_cons.mpr ⟨fun j hj => (hin j hj).1, ho⟩, fun j hj => ?_⟩
    rw [total_cons]
    cases hj with
    | head => omega
    | tail _ hj =>
      have := hin j hj
      omega

lemma Contiguous.tiles {l : List β} (h : Contiguous start len 0 l) : Tiles start len l (total len l) := by
  intro p
  rw [h.countP]
  split_ifs <;> omega

lemma contiguous_range {m a q : ℕ} {g : ℕ → β} {last : β} (hs : ∀ i < q, start (g i) = a + i * m)
    (hl : ∀ i < q, len (g i) = m) (hlast : start last = a + q * m) :
    Contiguous start len a ((List.range q).map g ++ [last]) ∧
      total len ((List.range q).map g ++ [last]) = q * m + len last := by
  induction q generalizing a g with
  | zero =>
    have hlast : start last = a := by simpa using hlast
    exact ⟨⟨hlast, trivial⟩, by simp⟩
  | succ q ih =>
    obtain ⟨h1, h2⟩ := @ih (a + m) (fun i => g (i + 1))
      (fun i hi => by rw [hs (i + 1) (by omega), Nat.succ_mul]; omega)
      (fun i hi => hl (i + 1) (by omega)) (by rw [hlast, Nat.succ_mul]; omega)
    rw [List.range_succ_eq_map, List.map_cons, List.map_map, List.cons_append]
    have h0 : start (g 0) = a := by simpa using hs 0 (by omega)
    refine ⟨⟨h0, ?_⟩, ?_⟩
    · rw [hl 0 (by omega)]
      exact h1
    · rw [total_cons, hl 0 (by omega), Nat.succ_mul]
      have : total len ((List.range q).map (g ∘ Nat.succ) ++ [last]) = q * m + len last := h2
      omega

lemma Tiles.perm {l m : List β} {n : ℕ} (h : Tiles start len l n) (hp : l.Perm m) : Tiles start len m n := by
  intro p
  rw [← hp.countP_eq, h p]

lemma Ordered.insert {before after : List β} {i : β} (h : Ordered start len (before ++ after))
    (hb : ∀ j ∈ before, start j + len j ≤ start i) (ha : ∀ j ∈ after, start i + len i ≤ start j) :
    Ordered start len (before ++ i :: after) := by
  obtain ⟨h1, h2, h3⟩ := List.pairwise_append.mp h
  refine List.pairwise_append.mpr ⟨h1, List.pairwise_cons.mpr ⟨ha, h2⟩, ?_⟩
  intro j hj m hm
  rcases List.mem_cons.mp hm with rfl | hm
  · exact hb j hj
  · exact h3 j hj m hm

lemma Ordered.le_of_getLast? {l : List β} {a : ℕ} (h : Ordered start len l)
    (ha : ∀ j, l.getLast? = some j → start j < a ∧ start j + len j ≤ a) :
    ∀ j ∈ l, start j < a ∧ start j + len j ≤ a := by
  induction l using List.reverseRecOn with
  | nil => simp
  | append_singleton l i ih =>
    have hi := ha i (by simp)
    obtain ⟨_, _, h3⟩ := List.pairwise_append.mp h
    intro j hj
    rcases List.mem_append.mp hj with hj | hj
    · have := h3 j hj i (by simp)
      omega
    · rw [List.mem_singleton.mp hj]
      exact hi

variable {α : Type*} {data : β → List α}

lemma flatMap_length {l : List β} (hd : ∀ i ∈ l, (data i).length = len i) : (l.flatMap data).length = total len l := by
  induction l with
  | nil => rfl
  | cons i l ih =>
    rw [List.flatMap_cons, List.length_append, hd i (by simp), total_cons, ih (fun j hj => hd j (by simp [hj]))]

lemma Contiguous.flatMap_getElem? {l : List β} {a : ℕ} (h : Contiguous start len a l)
    (hd : ∀ i ∈ l, (data i).length = len i) {i : β} (hi : i ∈ l) {p : ℕ}
    (hp : Covers start len i p) : (l.flatMap data)[p - a]? = (data i)[p - start i]? := by
  induction l generalizing a with
  | nil => simp at hi
  | cons j l ih =>
    obtain ⟨rfl, hl⟩ := h
    have hj := hd j (by simp)
    rw [List.flatMap_cons]
    rcases List.mem_cons.mp hi with rfl | hi
    · rw [List.getElem?_append_left (by rw [hj]; obtain ⟨h1, h2⟩ := hp; omega)]
    · have hge : start j + len j ≤ p := by
        by_contra hlt
        have hc := hl.countP p
        rw [if_neg (by omega), List.countP_eq_zero] at hc
        exact hc i hi (by simpa using hp)
      rw [List.getElem?_append_right (by rw [hj]; omega), hj, Nat.sub_sub]
      exact ih hl (fun j hj => hd j (by simp [hj])) hi

lemma Contiguous.flatMap_slice {l : List β} {a : ℕ} {block : List α}
    (h : Contiguous start len a l) (hd : ∀ i ∈ l, data i = slice block (start i) (len i)) :
    l.flatMap data = slice block a (total len l) := by
  induction l generalizing a with
  | nil => simp [slice]
  | cons i l ih =>
    obtain ⟨rfl, hl⟩ := h
    rw [List.flatMap_cons, hd i (by simp), ih hl (fun j hj => hd j (by simp [hj])), total_cons]
    simp only [slice]
    rw [List.take_add, List.drop_drop]

end Tapip.Foundation.Tiling
