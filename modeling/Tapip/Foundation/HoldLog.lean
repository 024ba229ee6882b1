import Mathlib.Data.List.Count
import Mathlib.Data.List.Pairwise
import Mathlib.Data.List.Forall2
import Mathlib.Data.List.Perm.Basic

/-! A log of the items given to a sender that can hold them back: what has become of each item. -/

namespace Tapip.Foundation.HoldLog

inductive Fate (η : Type*)
  | held
  | sent (place : ℕ) (via : η)
  | dropped
deriving DecidableEq

structure Ticket (α η : Type*) where
  item : α
  fate : Fate η

variable {α η δ : Type*} [DecidableEq δ]

def Fate.isHeld : Fate η → Bool
  | .held => true
  | _ => false

def Fate.place? : Fate η → Option ℕ
  | .sent n _ => some n
  | _ => none

def Fate.Before : Fate η → Fate η → Prop
  | .sent n _, .sent m _ => n < m
  | .held, .sent _ _ => False
  | _, _ => True

variable (key : α → δ)

def waits (d : δ) (t : Ticket α η) : Bool := t.fate.isHeld && decide (key t.item = d)

def heldFor (d : δ) (log : List (Ticket α η)) : List α := (log.filter (waits key d)).map Ticket.item

def places (log : List (Ticket α η)) : List ℕ := log.filterMap fun t => t.fate.place?

def settled (p : α → Bool) (log : List (Ticket α η)) : ℕ :=
  log.countP fun t => !t.fate.isHeld && p t.item

def InOrder (log : List (Ticket α η)) : Prop :=
  log.Pairwise fun t t' => key t.item = key t'.item → t.fate.Before t'.fate

/-- What waits for `d` gets the fates `fs`, in order. -/
inductive Settles (d : δ) : List (Fate η) → List (Ticket α η) → List (Ticket α η) → Prop
  | nil : Settles d [] [] []
  | turn {fs : List (Fate η)} {log log' : List (Ticket α η)} {t : Ticket α η} (f : Fate η) : waits key d t = true →
      Settles d fs log log' → Settles d (f :: fs) (t :: log) (⟨t.item, f⟩ :: log')
  | skip {fs : List (Fate η)} {log log' : List (Ticket α η)} {t : Ticket α η} : waits key d t = false →
      Settles d fs log log' → Settles d fs (t :: log) (t :: log')

variable {key} {d : δ} {fs : List (Fate η)} {log log' : List (Ticket α η)} {t : Ticket α η}

lemma heldFor_cons_of_waits (h : waits key d t = true) : heldFor key d (t :: log) = t.item :: heldFor key d log := by
  simp [heldFor, h]

lemma heldFor_cons_of_not (h : waits key d t = false) : heldFor key d (t :: log) = heldFor key d log := by
  simp [heldFor, h]

lemma waits_eq_true : waits key d t = true ↔ t.fate = .held ∧ key t.item = d := by
  cases hf : t.fate <;> simp [waits, hf, Fate.isHeld]

lemma exists_settles (hlen : fs.length = (heldFor key d log).length) : ∃ log', Settles key d fs log log' := by
  induction log generalizing fs with
  | nil =>
    cases List.length_eq_zero_iff.mp hlen
    exact ⟨[], .nil⟩
  | cons t log ih =>
    cases hw : waits key d t with
    | true =>
      rw [heldFor_cons_of_waits hw] at hlen
      cases fs with
      | nil => simp at hlen
      | cons f fs =>
        obtain ⟨log', h⟩ := @ih fs (by simpa using hlen)
        exact ⟨_, .turn f hw h⟩
    | false =>
      rw [heldFor_cons_of_not hw] at hlen
      obtain ⟨log', h⟩ := ih hlen
      exact ⟨_, .skip hw h⟩

section Settles

variable (h : Settles key d fs log log')

include h

lemma Settles.mem (ht : t ∈ log') :
    t ∈ log ∨ key t.item = d ∧ ∃ j : ℕ, fs[j]? = some t.fate ∧ (heldFor key d log)[j]? = some t.item := by
  induction h with
  | nil => exact .inl ht
  | turn f hw _ ih =>
    rw [heldFor_cons_of_waits hw]
    rcases List.mem_cons.mp ht with rfl | ht
    · exact .inr ⟨(waits_eq_true.mp hw).2, 0, rfl, rfl⟩
    · rcases ih ht with hold | ⟨hk, j, hf, hj⟩
      · exact .inl (List.mem_cons_of_mem _ hold)
      · exact .inr ⟨hk, j + 1, hf, hj⟩
  | skip hw _ ih =>
    rw [heldFor_cons_of_not hw]
    rcases List.mem_cons.mp ht with rfl | ht
    · exact .inl List.mem_cons_self
    · exact (ih ht).imp_left (List.mem_cons_of_mem _)

lemma Settles.heldFor_update (hfs : ∀ f ∈ fs, f.isHeld = false) :
    (fun e => heldFor key e log') = Function.update (fun e => heldFor key e log) d [] := by
  funext e
  induction h with
  | nil => by_cases he : e = d <;> simp [he, heldFor]
  | turn f hw _ ih =>
    rw [heldFor_cons_of_not (by simp [waits, hfs f]), ih fun g hg => hfs g (List.mem_cons_of_mem _ hg)]
    by_cases he : e = d
    · simp [he]
    · rw [Function.update_of_ne he, Function.update_of_ne he, heldFor_cons_of_not]
      simp [waits, (waits_eq_true.mp hw).2, Ne.symm he]
  | @skip _ _ _ t hw _ ih =>
    by_cases he : e = d
    · subst he
      rw [heldFor_cons_of_not hw, ih hfs, Function.update_self, Function.update_self]
    · have hih := ih hfs
      rw [Function.update_of_ne he] at hih ⊢
      cases hw' : waits key e t with
      | true => rw [heldFor_cons_of_waits hw', heldFor_cons_of_waits hw', hih]
      | false => rw [heldFor_cons_of_not hw', heldFor_cons_of_not hw', hih]

lemma Settles.settled (hfs : ∀ f ∈ fs, f.isHeld = false) (p : α → Bool) :
    settled p log' = settled p log + (heldFor key d log).countP p := by
  induction h with
  | nil => rfl
  | turn f hw _ ih =>
    have hih := ih fun g hg => hfs g (List.mem_cons_of_mem _ hg)
    have hheld : (Fate.held : Fate η).isHeld = true := rfl
    rw [heldFor_cons_of_waits hw]
    simp only [HoldLog.settled, List.countP_cons, hfs f List.mem_cons_self, (waits_eq_true.mp hw).1, hheld,
      Bool.not_false, Bool.true_and, Bool.not_true, Bool.false_and, Bool.false_eq_true, if_false] at hih ⊢
    omega
  | skip hw _ ih =>
    have hih := ih hfs
    rw [heldFor_cons_of_not hw]
    simp only [HoldLog.settled, List.countP_cons] at hih ⊢
    omega

lemma Settles.places : (places log').Perm (places log ++ fs.filterMap Fate.place?) := by
  induction h with
  | nil => exact .refl _
  | turn f hw _ ih =>
    simp only [HoldLog.places, List.filterMap_cons, (waits_eq_true.mp hw).1, Fate.place?] at ih ⊢
    cases f with
    | sent n via => exact (ih.cons n).trans List.perm_middle.symm
    | held | dropped => exact ih
  | @skip _ _ _ t _ _ ih =>
    simp only [HoldLog.places, List.filterMap_cons] at ih ⊢
    cases t.fate.place? with
    | none => exact ih
    | some n => exact ih.cons n

lemma Settles.forall₂ {R : Ticket α η → Ticket α η → Prop} (hsame : ∀ t, R t t)
    (hturn : ∀ x, key x = d → ∀ f ∈ fs, R ⟨x, .held⟩ ⟨x, f⟩) : List.Forall₂ R log log' := by
  induction h with
  | nil => exact .nil
  | @turn _ _ _ t f hw _ ih =>
    obtain ⟨hheld, hk⟩ := waits_eq_true.mp hw
    have ht : t = ⟨t.item, .held⟩ := by rw [← hheld]
    refine .cons ?_ (ih fun x hk g hg => hturn x hk g (List.mem_cons_of_mem _ hg))
    rw [ht]
    exact hturn t.item hk f List.mem_cons_self
  | skip _ _ ih => exact .cons (hsame _) (ih hturn)

end Settles

section Order

lemma Fate.before_of_waits {f f' : Fate η} (h : Fate.held.Before f') : f.Before f' := by
  cases f' with
  | sent m v => exact absurd h id
  | held | dropped => cases f <;> trivial

lemma InOrder.settles (h : InOrder key log) (hs : Settles key d fs log log') (hfs : fs.Pairwise Fate.Before)
    (hlog : ∀ t ∈ log, t.fate.isHeld = false → ∀ f ∈ fs, t.fate.Before f) : InOrder key log' := by
  induction hs with
  | nil => exact h
  | turn f hw hs ih =>
    obtain ⟨hhead, htail⟩ := List.pairwise_cons.mp h
    obtain ⟨hf, hfs⟩ := List.pairwise_cons.mp hfs
    refine List.pairwise_cons.mpr ⟨fun t' ht' hk => ?_, ih htail hfs fun t ht hn g hg =>
      hlog t (List.mem_cons_of_mem _ ht) hn g (List.mem_cons_of_mem _ hg)⟩
    rcases hs.mem ht' with hold | ⟨-, j, hj, -⟩
    · exact Fate.before_of_waits ((waits_eq_true.mp hw).1 ▸ hhead t' hold hk)
    · exact hf t'.fate (List.mem_of_getElem? hj)
  | @skip _ _ _ t hw hs ih =>
    obtain ⟨hhead, htail⟩ := List.pairwise_cons.mp h
    refine List.pairwise_cons.mpr ⟨fun t' ht' hk => ?_, ih htail hfs fun t ht => hlog t (List.mem_cons_of_mem _ ht)⟩
    rcases hs.mem ht' with hold | ⟨hd, j, hj, -⟩
    · exact hhead t' hold hk
    · have hnot : t.fate.isHeld = false := by
        simpa [waits, hk.trans hd] using hw
      exact hlog t List.mem_cons_self hnot t'.fate (List.mem_of_getElem? hj)

omit [DecidableEq δ] in
lemma InOrder.append (h : InOrder key log) (ht : ∀ t' ∈ log, key t'.item = key t.item → t'.fate.Before t.fate) :
    InOrder key (log ++ [t]) :=
  List.pairwise_append.mpr ⟨h, List.pairwise_singleton _ _, fun t' ht' x hx hk => by
    cases List.mem_singleton.mp hx
    exact ht t' ht' hk⟩

end Order

section Append

lemma heldFor_append (log log' : List (Ticket α η)) :
    heldFor key d (log ++ log') = heldFor key d log ++ heldFor key d log' := by
  simp [heldFor]

lemma settled_append (p : α → Bool) (log log' : List (Ticket α η)) :
    settled p (log ++ log') = settled p log + settled p log' := by
  simp [settled]

lemma mem_heldFor {x : α} : x ∈ heldFor key d log ↔ ∃ t ∈ log, t.fate = .held ∧ key t.item = d ∧ t.item = x := by
  simp [heldFor, waits_eq_true, and_assoc]

lemma mem_places {n : ℕ} : n ∈ places log ↔ ∃ t ∈ log, ∃ v, t.fate = .sent n v := by
  have hiff : ∀ t : Ticket α η, t.fate.place? = some n ↔ ∃ v, t.fate = .sent n v := by
    intro t
    cases t.fate <;> simp [Fate.place?]
  simp [places, hiff]

end Append

end Tapip.Foundation.HoldLog
