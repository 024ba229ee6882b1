import Mathlib.Order.Basic

/-! Programs with a state that can stop before they return. -/

namespace Tapip.Foundation.Program

inductive Fault
  | assertion
  | nullPointer
  | useAfterFree
  | exit
  | hang
deriving DecidableEq, Repr

abbrev Prog (σ : Type) := StateT σ (Except Fault)

variable {α β : Type}

section Bind

variable {x : Except Fault α} {f : α → Except Fault β}

lemma bind_eq_ok {b : β} : x >>= f = .ok b ↔ ∃ a, x = .ok a ∧ f a = .ok b := by
  cases x <;> simp [bind, Except.bind]

lemma bind_eq_error {e : Fault} : x >>= f = .error e ↔ x = .error e ∨ ∃ a, x = .ok a ∧ f a = .error e := by
  cases x <;> simp [bind, Except.bind]

@[simp] lemma ok_bind (a : α) : ((.ok a : Except Fault α) >>= f) = f a := rfl

@[simp] lemma error_bind (e : Fault) : ((.error e : Except Fault α) >>= f) = .error e := rfl

@[simp] lemma pure_eq_ok (a : α) : (pure a : Except Fault α) = .ok a := rfl

def faults (e : Fault) : Except Fault α → Bool
  | .error e' => e' = e
  | .ok _ => false

lemma faults_iff {e : Fault} : faults e x = true ↔ x = .error e := by
  cases x <;> simp [faults]

end Bind

variable {σ : Type}

section Run

variable {x : Prog σ α} {f : α → Prog σ β} {s s' : σ}

lemma bind_run {a : α} (h : x s = .ok (a, s')) : (x >>= f) s = f a s' := by
  simp only [bind, StateT.bind, h]
  rfl

lemma bind_run_error {e : Fault} (h : x s = .error e) : (x >>= f) s = .error e := by
  simp only [bind, StateT.bind, h]
  rfl

lemma bind_run_eq {y : Except Fault (α × σ)} (h : x s = y) : (x >>= f) s = y >>= fun p => f p.1 p.2 := by
  simp only [bind, StateT.bind, h]

lemma bind_inv {r : β × σ} (h : (x >>= f) s = .ok r) : ∃ a s', x s = .ok (a, s') ∧ f a s' = .ok r := by
  simp only [bind, StateT.bind] at h
  cases hx : x s with
  | error e => simp [hx, Except.bind] at h
  | ok p =>
    rw [hx] at h
    exact ⟨p.1, p.2, rfl, h⟩

lemma bind_ne {r : β × σ} (h : ∀ a s', f a s' ≠ .ok r) : (x >>= f) s ≠ .ok r := by
  intro hrun
  obtain ⟨a, s', -, hf⟩ := bind_inv hrun
  exact h a s' hf

lemma ok_inj {ε : Type} {a b : α} (h : (.ok (a, s) : Except ε (α × σ)) = .ok (b, s')) : a = b ∧ s = s' :=
  Prod.mk.inj (Except.ok.inj h)

@[simp] lemma pure_run (a : α) : (pure a : Prog σ α) s = .ok (a, s) := rfl

end Run

section Outcome

def outcome (x : Prog σ α) (s : σ) : Option α :=
  match x s with
  | .ok (a, _) => some a
  | .error _ => none

def finalState (x : Prog σ α) (s : σ) : σ :=
  match x s with
  | .ok (_, s') => s'
  | .error _ => s

lemma run_of_outcome {x : Prog σ α} {s : σ} {a : α} (h : outcome x s = some a) : x s = .ok (a, finalState x s) := by
  simp only [outcome, finalState] at h ⊢
  split at h
  · rename_i b s' hx
    cases h
    exact hx
  · simp at h

end Outcome

structure Sequential {σ : Type} (W : (α : Type) → Prog σ α → Prop) : Prop where
  pure : ∀ {α : Type} (a : α), W α (pure a)
  bind : ∀ {α β : Type} {x : Prog σ α} {f : α → Prog σ β}, W α x → (∀ a, W β (f a)) → W β (x >>= f)

section Respects

variable {R : σ → σ → Prop}

def Respects (R : σ → σ → Prop) (x : Prog σ α) : Prop := ∀ s a s', x s = .ok (a, s') → R s s'

lemma Respects.pure (hr : ∀ s, R s s) (a : α) : Respects R (pure a : Prog σ α) := by
  rintro s b s' h
  cases h
  exact hr s

lemma Respects.bind (ht : ∀ {a b c}, R a b → R b c → R a c) {x : Prog σ α} {f : α → Prog σ β}
    (hx : Respects R x) (hf : ∀ a, Respects R (f a)) : Respects R (x >>= f) := by
  intro s b s' h
  obtain ⟨a, s1, h1, h2⟩ := bind_inv h
  exact ht (hx s a s1 h1) (hf a s1 b s' h2)

lemma sequential_respects (hr : ∀ s, R s s) (ht : ∀ {a b c}, R a b → R b c → R a c) :
    Sequential fun (α : Type) (x : Prog σ α) => Respects R x where
  pure a := Respects.pure hr a
  bind hx hf := Respects.bind (R := R) ht hx hf

end Respects

section Commutes

variable {γ δ : Type} {g : σ → σ} {v : α → β} {w : γ → δ} {s : σ}

/-- The second program does to the image of a state what the first one does to the state. -/
def Commutes (g : σ → σ) (v : α → β) (x : Prog σ α) (y : Prog σ β) (s : σ) : Prop :=
  y (g s) = (x s).map fun r => (v r.1, g r.2)

lemma commutes_pure (a : α) (s : σ) : Commutes g v (pure a) (pure (v a)) s := rfl

lemma Commutes.bind {x : Prog σ α} {y : Prog σ β} {f : α → Prog σ γ} {h : β → Prog σ δ} (hx : Commutes g v x y s)
    (hf : ∀ a s', x s = .ok (a, s') → Commutes g w (f a) (h (v a)) s') : Commutes g w (x >>= f) (y >>= h) s := by
  rw [Commutes] at hx ⊢
  cases hrun : x s with
  | error e =>
    rw [hrun] at hx
    rw [bind_run_error hx, bind_run_error hrun]
    rfl
  | ok r =>
    rw [hrun] at hx
    rw [bind_run hx, bind_run hrun]
    exact hf r.1 r.2 hrun

lemma Commutes.ite {c : Prop} [Decidable c] {x x' : Prog σ α} {y y' : Prog σ β} (hx : c → Commutes g v x y s)
    (hx' : ¬c → Commutes g v x' y' s) : Commutes g v (if c then x else x') (if c then y else y') s := by
  split_ifs with hc
  · exact hx hc
  · exact hx' hc

end Commutes

section Avoids

variable {e : Fault}

def Avoids (e : Fault) (x : Prog σ α) : Prop := ∀ s, x s ≠ .error e

lemma Avoids.pure (a : α) : Avoids e (pure a : Prog σ α) := fun s => by simp

lemma Avoids.bind {x : Prog σ α} {f : α → Prog σ β} (hx : Avoids e x) (hf : ∀ a, Avoids e (f a)) :
    Avoids e (x >>= f) := by
  intro s
  cases h : x s with
  | error e' =>
    rw [bind_run_error h]
    rintro he
    cases Except.error.inj he
    exact hx s h
  | ok p =>
    rw [bind_run h]
    exact hf p.1 p.2

end Avoids

end Tapip.Foundation.Program
