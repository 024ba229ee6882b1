import Mathlib.Algebra.Group.Pi.Lemmas
import Mathlib.Algebra.Order.Ring.Int
import Mathlib.Data.List.Basic
import Mathlib.Tactic.Abel

/-! How often each key occurs in a list, and what an update of the list does to the numbers. -/

namespace Tapip.Foundation.Tally

variable {α β κ : Type} [DecidableEq κ] (key : α → κ)

def tally (l : List α) : κ → ℤ := fun k => (l.map key).count k

@[simp] lemma tally_nil : tally key [] = 0 := rfl

@[simp] lemma tally_cons (a : α) (l : List α) : tally key (a :: l) = Pi.single (key a) 1 + tally key l := by
  ext k
  simp only [tally, List.map_cons, List.count_cons, Pi.add_apply, Pi.single_apply, beq_iff_eq]
  split_ifs with h1 h2 h2
  · push_cast
    omega
  · exact absurd h1.symm h2
  · exact absurd h2.symm h1
  · simp

@[simp] lemma tally_append (l m : List α) : tally key (l ++ m) = tally key l + tally key m := by
  ext k
  simp [tally]

lemma tally_perm {l m : List α} (h : l.Perm m) : tally key l = tally key m := by
  ext k
  simp only [tally, (h.map key).count_eq]

lemma tally_nonneg (l : List α) : 0 ≤ tally key l := fun _ => Int.natCast_nonneg _

lemma tally_flatMap_modify (g : β → List α) {l : List β} {i : ℕ} {b : β} (f : β → β) (h : l[i]? = some b) :
    tally key ((l.modify i f).flatMap g) = tally key (l.flatMap g) + (tally key (g (f b)) - tally key (g b)) := by
  induction l generalizing i with
  | nil => simp at h
  | cons c l ih =>
    cases i with
    | zero =>
      cases h
      simp only [List.modify_zero_cons, List.flatMap_cons, tally_append]
      abel
    | succ i =>
      simp only [List.modify_succ_cons, List.flatMap_cons, tally_append, ih h]
      abel

lemma tally_flatMap_range_update (g : β → List α) {t : ℕ → β} {n i : ℕ} (b : β) (hi : i < n) :
    tally key ((List.range n).flatMap fun j => g (Function.update t i b j)) =
      tally key ((List.range n).flatMap fun j => g (t j)) + (tally key (g b) - tally key (g (t i))) := by
  induction n with
  | zero => cases hi
  | succ n ih =>
    simp only [List.range_succ, List.flatMap_append, List.flatMap_singleton, tally_append]
    rcases Nat.lt_succ_iff_lt_or_eq.mp hi with hlt | rfl
    · rw [ih hlt, Function.update_of_ne hlt.ne']
      abel
    · have hsame : ((List.range i).flatMap fun j => g (Function.update t i b j)) =
          (List.range i).flatMap fun j => g (t j) := by
        apply List.flatMap_congr
        intro j hj
        rw [Function.update_of_ne (List.mem_range.mp hj).ne]
      rw [hsame, Function.update_self]
      abel

end Tapip.Foundation.Tally
