import Mathlib.Data.List.Nodup
import Mathlib.Logic.Function.Basic

/-! Singly linked lists that are edited through a pointer to a link. -/

namespace Tapip.Foundation.Linked

variable {ν : Type}

structure Links (ν : Type) where
  head : Option ν
  next : ν → Option ν

inductive Link (ν : Type)
  | head
  | next (node : ν)
deriving DecidableEq

def Links.get (l : Links ν) : Link ν → Option ν
  | .head => l.head
  | .next n => l.next n

def Chain (l : Links ν) : Link ν → List ν → Prop
  | a, [] => l.get a = none
  | a, n :: nodes => l.get a = some n ∧ Chain l (.next n) nodes

def Links.toList (l : Links ν) : ℕ → Link ν → List ν
  | 0, _ => []
  | fuel + 1, a =>
    match l.get a with
    | none => []
    | some n => n :: l.toList fuel (.next n)

lemma Chain.get_eq {l : Links ν} {a : Link ν} {nodes : List ν} (h : Chain l a nodes) : l.get a = nodes.head? := by
  cases nodes with
  | nil => exact h
  | cons n nodes => exact h.1

lemma Chain.congr {l l' : Links ν} {a : Link ν} {nodes : List ν} (ha : l'.get a = l.get a)
    (hn : ∀ n ∈ nodes, l'.get (.next n) = l.get (.next n)) (h : Chain l a nodes) :
    Chain l' a nodes := by
  induction nodes generalizing a with
  | nil => exact ha.trans h
  | cons n nodes ih =>
    exact ⟨ha.trans h.1, ih (hn n (by simp)) (fun m hm => hn m (by simp [hm])) h.2⟩

lemma Chain.toList {l : Links ν} {a : Link ν} {nodes : List ν} (h : Chain l a nodes) {fuel : ℕ}
    (hf : nodes.length ≤ fuel) : l.toList fuel a = nodes := by
  induction nodes generalizing a fuel with
  | nil =>
    have hg : l.get a = none := h
    cases fuel <;> simp [Links.toList, hg]
  | cons n nodes ih =>
    obtain ⟨hg, h⟩ := h
    cases fuel with
    | zero => simp at hf
    | succ fuel => simp [Links.toList, hg, ih h (Nat.le_of_succ_le_succ hf)]

variable [DecidableEq ν]

def Links.set (l : Links ν) (v : Option ν) : Link ν → Links ν
  | .head => { l with head := v }
  | .next n => { l with next := Function.update l.next n v }

@[simp] lemma get_set_self (l : Links ν) (a : Link ν) (v : Option ν) : (l.set v a).get a = v := by
  cases a <;> simp [Links.set, Links.get]

lemma get_set_of_ne (l : Links ν) {a b : Link ν} (v : Option ν) (h : b ≠ a) : (l.set v a).get b = l.get b := by
  cases a <;> cases b <;> simp_all [Links.set, Links.get, Function.update]

def Links.ofList : List ν → Links ν
  | [] => ⟨none, fun _ => none⟩
  | n :: nodes => ⟨some n, Function.update (Links.ofList nodes).next n nodes.head?⟩

lemma chain_ofList {nodes : List ν} (h : nodes.Nodup) : Chain (Links.ofList nodes) .head nodes := by
  induction nodes with
  | nil => rfl
  | cons n nodes ih =>
    obtain ⟨hn, hnd⟩ := List.nodup_cons.mp h
    refine ⟨rfl, ?_⟩
    cases nodes with
    | nil => simp [Chain, Links.get, Links.ofList]
    | cons m nodes =>
      have hother : ∀ k ∈ m :: nodes, (Links.ofList (n :: m :: nodes)).get (.next k) =
          (Links.ofList (m :: nodes)).get (.next k) := by
        intro k hk
        have hne : k ≠ n := by
          rintro rfl
          exact hn hk
        simp [Links.get, Links.ofList, Function.update, hne]
      refine ⟨by simp [Links.get, Links.ofList], (ih hnd).2.congr (hother m (by simp)) ?_⟩
      intro k hk
      exact hother k (by simp [hk])

end Tapip.Foundation.Linked
