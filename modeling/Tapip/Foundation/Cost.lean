import Mathlib.Algebra.Group.Basic
import Tapip.Foundation.Program

/-! What a run of a program takes, in amounts that add up along the run. -/

namespace Tapip.Foundation.Cost

open Program

class Graded {G σ : Type} [AddCommGroup G] (R : G → σ → σ → Prop) : Prop where
  refl (s : σ) : R 0 s s
  trans {g h : G} {a b c : σ} : R g a b → R h b c → R (g + h) a c

variable {G σ α β : Type}

def CostsAt (R : G → σ → σ → Prop) (g : α → G) (x : Prog σ α) (s : σ) : Prop :=
  ∀ a s', x s = .ok (a, s') → R (g a) s s'

def Costs (R : G → σ → σ → Prop) (g : α → G) (x : Prog σ α) : Prop := ∀ s, CostsAt R g x s

variable {R : G → σ → σ → Prop} {g k : α → G} {x : Prog σ α} {f : α → Prog σ β} {s : σ}

lemma CostsAt.cast (h : CostsAt R g x s) (hg : ∀ a, g a = k a) : CostsAt R k x s :=
  fun a s' hx => hg a ▸ h a s' hx

lemma CostsAt.mono (h : CostsAt R g x s) (hR : ∀ a s', R (g a) s s' → R (k a) s s') : CostsAt R k x s :=
  fun a s' hx => hR a s' (h a s' hx)

lemma costsAt_error {e : Fault} (h : x s = .error e) : CostsAt R g x s := by
  intro a s' hx
  rw [h] at hx
  nomatch hx

variable [AddCommGroup G] [Graded R]

lemma costsAt_pure {a : α} (h : g a = 0) : CostsAt R g (pure a : Prog σ α) s := by
  intro b s' hx
  cases hx
  rw [h]
  exact Graded.refl _

lemma costs_of_reads (h : Respects Eq x) : Costs R (fun _ => 0) x := by
  intro s a s' hx
  cases h s a s' hx
  exact Graded.refl s

lemma CostsAt.bind {k : β → G} (hx : CostsAt R g x s)
    (hf : ∀ a s', x s = .ok (a, s') → CostsAt R (fun b => k b - g a) (f a) s') :
    CostsAt R k (x >>= f) s := by
  intro b s' h
  obtain ⟨a, s1, h1, h2⟩ := bind_inv h
  have := Graded.trans (hx a s1 h1) (hf a s1 h1 b s' h2)
  rwa [add_sub_cancel] at this

lemma CostsAt.cancel (hx : CostsAt R (fun a => -g a) x s)
    (hf : ∀ a s', x s = .ok (a, s') → CostsAt R (fun _ => g a) (f a) s') :
    CostsAt R (fun _ => 0) (x >>= f) s :=
  hx.bind fun a s' h => (hf a s' h).cast fun _ => by rw [zero_sub, neg_neg]

lemma CostsAt.seq {k : β → G} (hx : CostsAt R (fun _ => 0) x s)
    (hf : ∀ a s', x s = .ok (a, s') → CostsAt R k (f a) s') : CostsAt R k (x >>= f) s :=
  hx.bind fun a s' h => (hf a s' h).cast fun _ => (sub_zero _).symm

lemma CostsAt.finish {c : G} (hx : CostsAt R (fun _ => c) x s)
    (hf : ∀ a s', x s = .ok (a, s') → CostsAt R (fun _ => 0) (f a) s') :
    CostsAt R (fun _ => c) (x >>= f) s :=
  hx.bind fun a s' h => (hf a s' h).cast fun _ => (sub_self _).symm

end Tapip.Foundation.Cost
