import Tapip.Foundation.Program

/-! Preconditions and postconditions of programs, and faults they must not end in. -/

namespace Tapip.Foundation.Hoare

open Program

variable {σ τ α β : Type} {bad : Fault → Prop}

/-- From `s`, `x` does not end in a bad fault, and if it returns, then with `Q`. -/
def Runs (bad : Fault → Prop) (x : Prog σ α) (s : σ) (Q : α → σ → Prop) : Prop :=
  match x s with
  | .ok (a, s') => Q a s'
  | .error e => ¬bad e

variable {x : Prog σ α} {f : α → Prog σ β} {s s' : σ} {a : α} {Q R : α → σ → Prop} {P : β → σ → Prop}

lemma Runs.elim (h : Runs bad x s Q) (hx : x s = .ok (a, s')) : Q a s' := by
  rw [Runs, hx] at h
  exact h

lemma Runs.no_fault (h : Runs bad x s Q) {e : Fault} (he : bad e) : x s ≠ .error e := by
  intro hx
  rw [Runs, hx] at h
  exact h he

lemma runs_ok (hx : x s = .ok (a, s')) (h : Q a s') : Runs bad x s Q := by
  rw [Runs, hx]
  exact h

lemma runs_error {e : Fault} (hx : x s = .error e) (h : ¬bad e) : Runs bad x s Q := by
  rw [Runs, hx]
  exact h

lemma runs_pure (h : Q a s) : Runs bad (pure a : Prog σ α) s Q := h

lemma Runs.mono (h : Runs bad x s Q) (hQ : ∀ a s', Q a s' → R a s') : Runs bad x s R := by
  rw [Runs] at h ⊢
  split at h
  · exact hQ _ _ h
  · exact h

lemma Runs.bind (h : Runs bad x s fun a s' => Runs bad (f a) s' P) : Runs bad (x >>= f) s P := by
  cases hx : x s with
  | error e =>
    rw [Runs, hx] at h
    exact runs_error (bind_run_error hx) h
  | ok p =>
    rw [Runs, hx] at h
    rw [Runs, bind_run hx]
    exact h

section View

variable {ν : Type} {view : σ → ν} {v : ν} {S T : α → ν → Prop} {U : β → ν → Prop}

def Effect (view : σ → ν) (bad : Fault → Prop) (x : Prog σ α) (v : ν) (S : α → ν → Prop) : Prop :=
  ∀ s, view s = v → Runs bad x s fun a s' => S a (view s')

lemma effect_pure (h : S a v) : Effect view bad (pure a : Prog σ α) v S := by
  rintro s rfl
  exact runs_pure h

lemma Effect.mono (h : Effect view bad x v S) (hT : ∀ a v', S a v' → T a v') : Effect view bad x v T :=
  fun s hs => (h s hs).mono fun a s' => hT a (view s')

lemma Effect.bind (h : Effect view bad x v fun a v' => Effect view bad (f a) v' U) : Effect view bad (x >>= f) v U :=
  fun s hs => Runs.bind ((h s hs).mono fun _ s' hf => hf s' rfl)

lemma sequential_effect : Sequential fun (α : Type) (x : Prog σ α) => Effect view bad x v fun _ v' => v' = v where
  pure _ := effect_pure rfl
  bind hx hf := Effect.bind (hx.mono fun a _ hv => hv ▸ hf a)

end View

end Tapip.Foundation.Hoare
