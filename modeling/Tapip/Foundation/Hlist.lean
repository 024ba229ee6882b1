import Mathlib.Data.List.Nodup
import Mathlib.Logic.Function.Basic
import Tapip.Foundation.Program

/-! Chains of nodes, each with a pointer to the next one and a pointer to the place that holds its own
address. -/

namespace Tapip.Foundation.Hlist

open Program

variable {κ ν : Type}

/-- A place that holds the address of a node: a list head, or the link in another node. -/
inductive Slot (κ ν : Type)
  | first (head : κ)
  | next (node : ν)
deriving DecidableEq

structure Hlists (κ ν : Type) where
  slot : Slot κ ν → Option ν
  pprev : ν → Option (Slot κ ν)

section Operations

def Hlists.empty : Hlists κ ν := ⟨fun _ => none, fun _ => none⟩

def Hlists.unhashed (m : Hlists κ ν) (n : ν) : Bool := (m.pprev n).isNone

def Hlists.search (m : Hlists κ ν) (p : ν → Except Fault Bool) : ℕ → Slot κ ν → Except Fault (Option ν)
  | 0, _ => .error .hang
  | fuel + 1, a =>
    match m.slot a with
    | none => .ok none
    | some n => do if ← p n then return some n else m.search p fuel (.next n)

variable [DecidableEq κ] [DecidableEq ν]

def Hlists.addHead (m : Hlists κ ν) (k : κ) (n : ν) : Hlists κ ν :=
  let first := m.slot (.first k)
  let pprev := Function.update m.pprev n (some (.first k))
  { slot := Function.update (Function.update m.slot (.next n) first) (.first k) (some n)
    pprev := first.elim pprev fun f => Function.update pprev f (some (.next n)) }

-- Nothing is done to a node that is on no chain; callers ask before.
def Hlists.del (m : Hlists κ ν) (n : ν) : Hlists κ ν :=
  match m.pprev n with
  | none => m
  | some a =>
    let slot := Function.update m.slot a (m.slot (.next n))
    let pprev := (slot (.next n)).elim m.pprev fun f => Function.update m.pprev f (some a)
    { slot := Function.update slot (.next n) none
      pprev := Function.update pprev n none }

end Operations

def Chain (m : Hlists κ ν) : Slot κ ν → List ν → Prop
  | a, [] => m.slot a = none
  | a, n :: nodes => m.slot a = some n ∧ m.pprev n = some a ∧ Chain m (.next n) nodes

structure Rep (m : Hlists κ ν) (chains : κ → List ν) : Prop where
  chain : ∀ k, Chain m (.first k) (chains k)
  off : ∀ n, (∀ k, n ∉ chains k) → m.pprev n = none
  nodup : ∀ k, (chains k).Nodup
  disjoint : ∀ {k k' n}, n ∈ chains k → n ∈ chains k' → k = k'

lemma rep_empty : Rep (Hlists.empty : Hlists κ ν) fun _ => [] :=
  ⟨fun _ => rfl, fun _ _ => rfl, fun _ => List.nodup_nil, fun h => absurd h List.not_mem_nil⟩

section Chains

variable {m m' : Hlists κ ν} {a : Slot κ ν} {nodes l1 l2 : List ν} {n : ν}

lemma Chain.congr (h : Chain m a nodes) (ha : m'.slot a = m.slot a)
    (hs : ∀ x ∈ nodes, m'.slot (.next x) = m.slot (.next x)) (hp : ∀ x ∈ nodes, m'.pprev x = m.pprev x) :
    Chain m' a nodes := by
  induction nodes generalizing a with
  | nil => exact ha.trans h
  | cons x nodes ih =>
    obtain ⟨h1, h2, h3⟩ := h
    exact ⟨ha.trans h1, (hp x (by simp)).trans h2,
      ih h3 (hs x (by simp)) (fun y hy => hs y (by simp [hy])) fun y hy => hp y (by simp [hy])⟩

lemma Chain.slot_eq (h : Chain m a nodes) : m.slot a = nodes.head? := by
  cases nodes with
  | nil => exact h
  | cons n nodes => exact h.1

lemma Chain.unique {nodes' : List ν} (h : Chain m a nodes) (h' : Chain m a nodes') : nodes = nodes' := by
  induction nodes generalizing a nodes' with
  | nil =>
    have he := h.slot_eq.symm.trans h'.slot_eq
    exact (List.head?_eq_none_iff.mp he.symm).symm
  | cons x nodes ih =>
    cases nodes' with
    | nil =>
      have he := h.1.symm.trans h'.slot_eq
      simp at he
    | cons y nodes' =>
      cases Option.mem_unique h.1 h'.1
      rw [ih h.2.2 h'.2.2]

lemma Chain.pprev_ne_none (h : Chain m a nodes) (hn : n ∈ nodes) : m.pprev n ≠ none := by
  induction nodes generalizing a with
  | nil => exact absurd hn List.not_mem_nil
  | cons x nodes ih =>
    obtain ⟨-, h2, h3⟩ := h
    rcases List.mem_cons.mp hn with rfl | hn
    · simp [h2]
    · exact ih h3 hn

def before (a : Slot κ ν) : List ν → Slot κ ν
  | [] => a
  | x :: l => before (.next x) l

lemma Chain.pprev_eq (h : Chain m a (l1 ++ n :: l2)) : m.pprev n = some (before a l1) := by
  induction l1 generalizing a with
  | nil => exact h.2.1
  | cons x l1 ih => exact ih h.2.2

lemma Chain.slot_next_eq (h : Chain m a (l1 ++ n :: l2)) : m.slot (.next n) = l2.head? := by
  induction l1 generalizing a with
  | nil => exact h.2.2.slot_eq
  | cons x l1 ih => exact ih h.2.2

lemma before_eq (a : Slot κ ν) (l : List ν) : before a l = a ∨ ∃ x ∈ l, before a l = .next x := by
  induction l generalizing a with
  | nil => exact .inl rfl
  | cons x l ih =>
    rcases ih (.next x) with h | ⟨y, hy, h⟩
    · exact .inr ⟨x, by simp, h⟩
    · exact .inr ⟨y, by simp [hy], h⟩

lemma Chain.search_eq {p : ν → Except Fault Bool} {q : ν → Bool} {fuel : ℕ} (h : Chain m a nodes)
    (hp : ∀ x ∈ nodes, p x = .ok (q x)) (hf : nodes.length < fuel) :
    m.search p fuel a = .ok (nodes.find? q) := by
  induction nodes generalizing a fuel with
  | nil =>
    obtain ⟨fuel, rfl⟩ := Nat.exists_eq_add_of_lt hf
    have hnone : m.slot a = none := h
    simp [Hlists.search, hnone]
  | cons x nodes ih =>
    obtain ⟨h1, -, h3⟩ := h
    cases fuel with
    | zero => omega
    | succ fuel =>
      simp only [List.length_cons, Nat.add_lt_add_iff_right] at hf
      rw [Hlists.search]
      simp only [h1, hp x (by simp), ok_bind, List.find?_cons]
      cases q x with
      | true => rfl
      | false => exact ih h3 (fun y hy => hp y (by simp [hy])) hf

lemma Chain.search_inv {p : ν → Except Fault Bool} {q : ν → Bool} {fuel : ℕ} {r : Option ν} (h : Chain m a nodes)
    (hp : ∀ x ∈ nodes, p x = .ok (q x)) (hr : m.search p fuel a = .ok r) : r = nodes.find? q := by
  induction nodes generalizing a fuel with
  | nil =>
    have hnone : m.slot a = none := h
    cases fuel with
    | zero => simp [Hlists.search] at hr
    | succ fuel =>
      simp only [Hlists.search, hnone] at hr
      exact (Except.ok.inj hr).symm
  | cons x nodes ih =>
    obtain ⟨h1, -, h3⟩ := h
    cases fuel with
    | zero => simp [Hlists.search] at hr
    | succ fuel =>
      rw [Hlists.search] at hr
      simp only [h1, hp x (by simp), ok_bind, List.find?_cons] at hr ⊢
      cases hq : q x with
      | true =>
        simp only [hq] at hr
        exact (Except.ok.inj hr).symm
      | false =>
        simp only [hq] at hr
        exact ih h3 (fun y hy => hp y (by simp [hy])) hr

lemma search_circle {p : ν → Except Fault Bool} (ha : m.slot a = some n) (hn : m.slot (.next n) = some n)
    (hp : p n = .ok false) (fuel : ℕ) : m.search p fuel a = .error .hang := by
  induction fuel generalizing a with
  | zero => rfl
  | succ fuel ih =>
    rw [Hlists.search]
    simp only [ha, hp, ok_bind]
    exact ih hn

end Chains

section Rep

variable {m : Hlists κ ν} {chains : κ → List ν} {k : κ} {n : ν}

lemma Rep.unhashed_iff (h : Rep m chains) : m.unhashed n = true ↔ ∀ k, n ∉ chains k := by
  rw [Hlists.unhashed, Option.isNone_iff_eq_none]
  exact ⟨fun hn k hk => (h.chain k).pprev_ne_none hk hn, h.off n⟩

variable [DecidableEq κ] [DecidableEq ν]

lemma Rep.addHead (h : Rep m chains) (hn : ∀ k, n ∉ chains k) :
    Rep (m.addHead k n) (Function.update chains k (n :: chains k)) := by
  have hslot : ∀ x, x ≠ n → (m.addHead k n).slot (.next x) = m.slot (.next x) := by
    intro x hx
    simp [Hlists.addHead, Function.update_of_ne, hx]
  have hpprev : ∀ x, x ≠ n → m.slot (.first k) ≠ some x → (m.addHead k n).pprev x = m.pprev x := by
    intro x hx hf
    cases hfirst : m.slot (.first k) with
    | none => simp [Hlists.addHead, hfirst, hx]
    | some f =>
      have hxf : x ≠ f := by
        rintro rfl
        exact hf hfirst
      simp [Hlists.addHead, hfirst, hx, hxf]
  have hmem : ∀ {j x}, x ∈ Function.update chains k (n :: chains k) j → x = n ∧ j = k ∨ x ∈ chains j := by
    intro j x hx
    by_cases hj : j = k
    · subst hj
      rw [Function.update_self] at hx
      exact (List.mem_cons.mp hx).imp_left fun hx => ⟨hx, rfl⟩
    · rw [Function.update_of_ne hj] at hx
      exact .inr hx
  have hfirst : ∀ f, m.slot (.first k) = some f → f ∈ chains k := by
    intro f hf
    rw [(h.chain k).slot_eq] at hf
    exact List.mem_of_mem_head? hf
  refine ⟨fun j => ?_, fun x hx => ?_, fun j => ?_, fun {j j' x} hj hj' => ?_⟩
  · by_cases hj : j = k
    · subst hj
      rw [Function.update_self]
      have hc := h.chain j
      cases hl : chains j with
      | nil =>
        have hnone : m.slot (.first j) = none := by rw [hc.slot_eq, hl, List.head?_nil]
        refine ⟨?_, ?_, ?_⟩ <;> simp [Hlists.addHead, hnone, Chain]
      | cons f l =>
        rw [hl] at hc
        obtain ⟨h1, -, h3⟩ := hc
        have hnd := h.nodup j
        rw [hl, List.nodup_cons] at hnd
        have hnot : ∀ x ∈ f :: l, x ≠ n := by
          rintro x hx rfl
          exact hn j (hl ▸ hx)
        have hfn := hnot f (by simp)
        refine ⟨?_, ?_, ?_, ?_, ?_⟩
        · simp [Hlists.addHead]
        · simp [Hlists.addHead, h1, hfn.symm]
        · simp [Hlists.addHead, h1]
        · simp [Hlists.addHead, h1]
        · refine h3.congr (hslot f hfn) (fun x hx => hslot x (hnot x (by simp [hx]))) fun x hx => ?_
          refine hpprev x (hnot x (by simp [hx])) fun hf => hnd.1 ?_
          cases Option.mem_unique h1 hf
          exact hx
    · rw [Function.update_of_ne hj]
      refine (h.chain j).congr ?_ (fun x hx => ?_) fun x hx => ?_
      · simp [Hlists.addHead, hj]
      · exact hslot x fun hxn => hn j (hxn ▸ hx)
      · exact hpprev x (fun hxn => hn j (hxn ▸ hx)) fun hf => hj (h.disjoint hx (hfirst x hf))
  · have hxn : x ≠ n := fun hxn => hx k (by simp [hxn])
    have hold : ∀ j, x ∉ chains j := by
      intro j hj
      apply hx j
      by_cases hjk : j = k
      · subst hjk
        simp [hj]
      · rwa [Function.update_of_ne hjk]
    rw [hpprev x hxn fun hf => hold k (hfirst x hf)]
    exact h.off x hold
  · by_cases hj : j = k
    · subst hj
      rw [Function.update_self]
      exact List.nodup_cons.mpr ⟨hn j, h.nodup j⟩
    · rw [Function.update_of_ne hj]
      exact h.nodup j
  · rcases hmem hj with ⟨rfl, rfl⟩ | hj <;> rcases hmem hj' with ⟨h1, h2⟩ | hj'
    · exact h2.symm
    · exact absurd hj' (hn j')
    · exact absurd (h1 ▸ hj) (hn j)
    · exact h.disjoint hj hj'

section Del

variable {b : Slot κ ν} (hb : m.pprev n = some b) (hbn : b ≠ .next n)

include hb hbn

lemma slot_del_self : (m.del n).slot b = m.slot (.next n) := by
  simp [Hlists.del, hb, hbn]

omit hbn in
lemma slot_del_of_ne {a : Slot κ ν} (h1 : a ≠ b) (h2 : a ≠ .next n) : (m.del n).slot a = m.slot a := by
  simp [Hlists.del, hb, h1, h2]

lemma pprev_del_next {f : ν} (hf : m.slot (.next n) = some f) (hfn : f ≠ n) : (m.del n).pprev f = some b := by
  simp [Hlists.del, hb, hbn.symm, hf, hfn]

lemma pprev_del_of_ne {x : ν} (hx : x ≠ n) (hf : m.slot (.next n) ≠ some x) : (m.del n).pprev x = m.pprev x := by
  cases hnext : m.slot (.next n) with
  | none => simp [Hlists.del, hb, hbn.symm, hnext, hx]
  | some f =>
    have hxf : x ≠ f := by
      rintro rfl
      exact hf hnext
    simp [Hlists.del, hb, hbn.symm, hnext, hx, hxf]

end Del

lemma Chain.del {a : Slot κ ν} {l1 l2 : List ν} (h : Chain m a (l1 ++ n :: l2))
    (hnd : (l1 ++ n :: l2).Nodup) (ha : ∀ x ∈ l1 ++ n :: l2, a ≠ .next x) :
    Chain (m.del n) a (l1 ++ l2) := by
  have hb := h.pprev_eq
  induction l1 generalizing a with
  | nil =>
    obtain ⟨-, -, h3⟩ := h
    have hbn : a ≠ .next n := ha n (by simp)
    have hnd' := List.nodup_cons.mp hnd
    cases l2 with
    | nil => exact (slot_del_self hb hbn).trans h3
    | cons f l =>
      obtain ⟨h4, -, h5⟩ := h3
      have hfn : ∀ x ∈ f :: l, x ≠ n := by
        rintro x hx rfl
        exact hnd'.1 hx
      refine ⟨(slot_del_self hb hbn).trans h4, pprev_del_next hb hbn h4 (hfn f (by simp)), ?_⟩
      refine h5.congr ?_ (fun x hx => ?_) fun x hx => ?_
      · exact slot_del_of_ne hb (ha f (by simp)).symm (by simpa using hfn f (by simp))
      · exact slot_del_of_ne hb (ha x (by simp [hx])).symm (by simpa using hfn x (by simp [hx]))
      · refine pprev_del_of_ne hb hbn (hfn x (by simp [hx])) fun hf => ?_
        cases Option.mem_unique h4 hf
        exact (List.nodup_cons.mp hnd'.2).1 hx
  | cons y l1 ih =>
    have hnext : m.slot (.next n) = l2.head? := h.slot_next_eq
    obtain ⟨h1, h2, h3⟩ := h
    rw [List.cons_append, List.nodup_cons] at hnd
    have hyn : y ≠ n := fun hy => hnd.1 (by simp [hy])
    have hnl : n ∉ l1 := fun hn => (List.nodup_append'.mp hnd.2).2.2 hn (by simp)
    have hbn : before (.next y : Slot κ ν) l1 ≠ .next n := by
      rcases before_eq (.next y : Slot κ ν) l1 with he | ⟨x, hx, he⟩ <;> rw [he]
      · simpa using hyn
      · have hxn : x ≠ n := fun hxn => hnl (hxn ▸ hx)
        simpa using hxn
    have hab : a ≠ before (.next y) l1 := by
      rcases before_eq (.next y : Slot κ ν) l1 with he | ⟨x, hx, he⟩ <;> rw [he]
      · exact ha y (by simp)
      · exact ha x (by simp [hx])
    refine ⟨(slot_del_of_ne hb hab (ha n (by simp))).trans h1, ?_, ih h3 hnd.2 (fun x hx hyx => ?_) hb⟩
    · refine (pprev_del_of_ne hb hbn hyn fun hf => ?_).trans h2
      rw [hnext] at hf
      exact hnd.1 (by simp [List.mem_of_mem_head? hf])
    · cases Slot.next.inj hyx
      exact hnd.1 hx

lemma Rep.del (h : Rep m chains) (hn : n ∈ chains k) :
    Rep (m.del n) (Function.update chains k ((chains k).erase n)) := by
  obtain ⟨l1, l2, hl⟩ := List.append_of_mem hn
  have hc := h.chain k
  have hnd := h.nodup k
  rw [hl] at hc hnd
  have hl1 : n ∉ l1 := fun hm => (List.nodup_append'.mp hnd).2.2 hm (by simp)
  have herase : (chains k).erase n = l1 ++ l2 := by
    rw [hl, List.erase_append_right _ hl1, List.erase_cons_head]
  have hb := hc.pprev_eq
  have hbn : before (.first k) l1 ≠ .next n := by
    rcases before_eq (.first k) l1 with he | ⟨x, hx, he⟩ <;> rw [he]
    · simp
    · have hxn : x ≠ n := fun hxn => hl1 (hxn ▸ hx)
      simpa using hxn
  have hother : ∀ {x}, x ∉ chains k → (m.del n).slot (.next x) = m.slot (.next x) ∧
      (m.del n).pprev x = m.pprev x := by
    intro x hx
    have hxn : x ≠ n := fun hxn => hx (hxn ▸ hn)
    refine ⟨slot_del_of_ne hb ?_ (by simpa using hxn), pprev_del_of_ne hb hbn hxn fun hf => ?_⟩
    · rcases before_eq (.first k) l1 with he | ⟨y, hy, he⟩ <;> rw [he]
      · simp
      · have hxy : x ≠ y := fun hxy => hx (by simp [hl, hxy, hy])
        simpa using hxy
    · rw [hc.slot_next_eq] at hf
      exact hx (by simp [hl, List.mem_of_mem_head? hf])
  refine ⟨fun j => ?_, fun x hx => ?_, fun j => ?_, fun {j j' x} hj hj' => ?_⟩
  · by_cases hj : j = k
    · subst hj
      rw [Function.update_self, herase]
      exact hc.del hnd (by simp)
    · rw [Function.update_of_ne hj]
      have hapart : ∀ {x}, x ∈ chains j → x ∉ chains k := fun h1 h2 => hj (h.disjoint h1 h2)
      refine (h.chain j).congr (slot_del_of_ne hb ?_ (by simp)) (fun x hx => (hother (hapart hx)).1)
        fun x hx => (hother (hapart hx)).2
      rcases before_eq (.first k) l1 with he | ⟨y, hy, he⟩ <;> rw [he]
      · simpa using hj
      · simp
  · by_cases hxn : x = n
    · subst hxn
      simp [Hlists.del, hb]
    · have hout : ∀ j, x ∉ chains j := by
        intro j hj
        apply hx j
        by_cases hjk : j = k
        · subst hjk
          rw [Function.update_self]
          exact (List.mem_erase_of_ne hxn).mpr hj
        · rwa [Function.update_of_ne hjk]
      rw [(hother (hout k)).2]
      exact h.off x hout
  · by_cases hj : j = k
    · subst hj
      rw [Function.update_self]
      exact (h.nodup j).erase n
    · rw [Function.update_of_ne hj]
      exact h.nodup j
  · have hsub : ∀ {i}, x ∈ Function.update chains k ((chains k).erase n) i → x ∈ chains i := by
      intro i hi
      by_cases hik : i = k
      · subst hik
        rw [Function.update_self] at hi
        exact List.mem_of_mem_erase hi
      · rwa [Function.update_of_ne hik] at hi
    exact h.disjoint (hsub hj) (hsub hj')

end Rep

end Tapip.Foundation.Hlist
