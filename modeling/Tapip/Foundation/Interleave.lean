import Mathlib.Data.List.Basic

/-! Programs made of single accesses to a shared memory, two parties that run such programs in turn,
and proofs about their interleavings from what each party relies on. -/

namespace Tapip.Foundation.Interleave

universe u v w

inductive Access (σ : Type u) (α : Type v)
  | done (a : α)
  | step (effect : σ → σ) (next : σ → Access σ α)

namespace Access

variable {σ : Type u} {α β : Type v}

def bind : Access σ α → (α → Access σ β) → Access σ β
  | done a, f => f a
  | step effect next, f => step effect (fun s => (next s).bind f)

instance : Monad (Access σ) where
  pure := done
  bind := bind

def read (f : σ → α) : Access σ α := step id (fun s => done (f s))

def write (f : σ → σ) : Access σ Unit := step f (fun _ => done ())

def Never (p : α → Prop) : Access σ α → Prop
  | done a => ¬p a
  | step _ next => ∀ s, (next s).Never p

def Spares (p : α → Prop) : Access σ α → Prop
  | done _ => True
  | step effect next => (∀ s, (next s).Never p) ∨ effect = id ∧ ∀ s, (next s).Spares p

lemma Never.bind {p : β → Prop} {f : α → Access σ β} (h : ∀ a, (f a).Never p) (x : Access σ α) : (x >>= f).Never p := by
  induction x with
  | done a => exact h a
  | step effect next ih => exact ih

lemma Never.spares {p : α → Prop} {x : Access σ α} (h : x.Never p) : x.Spares p := by
  cases x with
  | done a => trivial
  | step effect next => exact .inl h

lemma Spares.read_bind {p : β → Prop} {g : σ → α} {f : α → Access σ β} (h : ∀ a, (f a).Spares p) :
    (read g >>= f).Spares p :=
  .inr ⟨rfl, fun _ => h _⟩

end Access

section Rely

variable {σ : Type u} {α β : Type v} {W : Type w}

/-- The world of a proof: the memory seen in it, what a party relies on and what it guarantees. -/
structure Terms (σ : Type u) (W : Type w) where
  view : W → σ
  Rely : W → W → Prop
  Guar : W → W → Prop
  rely_refl : ∀ w, Rely w w
  rely_trans : ∀ {w1 w2 w3}, Rely w1 w2 → Rely w2 w3 → Rely w1 w3
  guar_refl : ∀ w, Guar w w

variable (t : Terms σ W)

/-- Whatever the others do, the rest of the program keeps to the terms, has `Keep` until it ends and
ends with `Q`. -/
def Sat (Keep : W → Prop) (Q : α → W → Prop) : Access σ α → W → Prop
  | .done a, w => Q a w
  | .step effect next, w => Keep w ∧ ∀ w', t.Rely w w' →
      ∃ w'', t.view w'' = effect (t.view w') ∧ t.Guar w' w'' ∧ Sat Keep Q (next (t.view w')) w''

variable {t} {Keep : W → Prop} {Q : α → W → Prop}

lemma Sat.bind {f : α → Access σ β} {Q : β → W → Prop} {x : Access σ α} {w : W}
    (h : Sat t Keep (fun a w => Sat t Keep Q (f a) w) x w) : Sat t Keep Q (x >>= f) w := by
  induction x generalizing w with
  | done a => exact h
  | step effect next ih =>
    refine ⟨h.1, fun w' hw' => ?_⟩
    obtain ⟨w'', hview, hguar, hnext⟩ := h.2 w' hw'
    exact ⟨w'', hview, hguar, ih _ hnext⟩

lemma Sat.mono {Q' : α → W → Prop} (hQ : ∀ a w, Q a w → Q' a w) {x : Access σ α} {w : W}
    (h : Sat t Keep Q x w) : Sat t Keep Q' x w := by
  induction x generalizing w with
  | done a => exact hQ a w h
  | step effect next ih =>
    refine ⟨h.1, fun w' hw' => ?_⟩
    obtain ⟨w'', hview, hguar, hnext⟩ := h.2 w' hw'
    exact ⟨w'', hview, hguar, ih _ hnext⟩

lemma Sat.read {f : σ → α} {w : W} (hk : Keep w)
    (h : ∀ w', t.Rely w w' → Q (f (t.view w')) w') : Sat t Keep Q (.read f) w :=
  ⟨hk, fun w' hw' => ⟨w', rfl, t.guar_refl w', h w' hw'⟩⟩

lemma Sat.write {f : σ → σ} {Q : Unit → W → Prop} {w : W} (hk : Keep w)
    (h : ∀ w', t.Rely w w' → ∃ w'', t.view w'' = f (t.view w') ∧ t.Guar w' w'' ∧ Q () w'') :
    Sat t Keep Q (.write f) w :=
  ⟨hk, h⟩

lemma Sat.of_rely {x : Access σ α} {w w' : W} (h : Sat t Keep Q x w) (hr : t.Rely w w')
    (hk : Keep w → Keep w') (hQ : ∀ a, Q a w → Q a w') : Sat t Keep Q x w' := by
  cases x with
  | done a => exact hQ a h
  | step effect next => exact ⟨hk h.1, fun w'' hw'' => h.2 w'' (t.rely_trans hr hw'')⟩

end Rely

section Party

variable {σ : Type u} {κ α : Type v}

structure Ended (σ : Type u) (κ α : Type v) where
  call : κ
  result : α
  accesses : List (σ × σ)

structure Party (σ : Type u) (κ α : Type v) where
  running : Option (κ × Access σ α × List (σ × σ))
  ended : List (Ended σ κ α)

namespace Party

def idle : Party σ κ α := ⟨none, []⟩

def proceed (party : Party σ κ α) (c : κ) (accesses : List (σ × σ)) : Access σ α → Party σ κ α
  | .done a => ⟨none, party.ended ++ [⟨c, a, accesses⟩]⟩
  | x => ⟨some (c, x, accesses), party.ended⟩

def start (prog : κ → Access σ α) (c : κ) (party : Party σ κ α) : Party σ κ α :=
  match party.running with
  | none => party.proceed c [] (prog c)
  | some _ => party

def access (s : σ) (party : Party σ κ α) : σ × Party σ κ α :=
  match party.running with
  | some (c, .step effect next, accesses) =>
    (effect s, party.proceed c (accesses ++ [(s, effect s)]) (next s))
  | _ => (s, party)

def results (party : Party σ κ α) : List (κ × α) := party.ended.map (fun e => (e.call, e.result))

structure Sparing (p : α → Prop) (party : Party σ κ α) : Prop where
  ended : ∀ e ∈ party.ended, p e.result → ∀ a ∈ e.accesses, a.2 = a.1
  running : ∀ r ∈ party.running, r.2.1.Never p ∨ r.2.1.Spares p ∧ ∀ a ∈ r.2.2, a.2 = a.1

variable {p : α → Prop} {party : Party σ κ α}

lemma Sparing.idle (p : α → Prop) : (Party.idle : Party σ κ α).Sparing p :=
  ⟨by simp [Party.idle], by simp [Party.idle]⟩

lemma Sparing.proceed (h : party.Sparing p) {c : κ} {accesses : List (σ × σ)} {x : Access σ α}
    (hx : x.Never p ∨ x.Spares p ∧ ∀ a ∈ accesses, a.2 = a.1) :
    (party.proceed c accesses x).Sparing p := by
  cases x with
  | done a =>
    refine ⟨?_, by simp [Party.proceed]⟩
    simp only [Party.proceed, List.mem_append, List.mem_singleton]
    rintro e (he | rfl) hp
    · exact h.ended e he hp
    · cases hx with
      | inl hnever => exact absurd hp hnever
      | inr hsame => exact hsame.2
  | step effect next => exact ⟨h.ended, by simpa [Party.proceed] using hx⟩

lemma Sparing.start {prog : κ → Access σ α} (hprog : ∀ c, (prog c).Spares p) (h : party.Sparing p)
    (c : κ) : (party.start prog c).Sparing p := by
  simp only [Party.start]
  split
  · exact h.proceed (.inr ⟨hprog c, by simp⟩)
  · exact h

lemma Sparing.access (h : party.Sparing p) (s : σ) : (party.access s).2.Sparing p := by
  simp only [Party.access]
  split
  · next c effect next accesses heq =>
    apply h.proceed
    have hr := h.running _ heq
    rcases hr with hnever | ⟨hspares | ⟨rfl, hspares⟩, hsame⟩
    · exact .inl (hnever s)
    · exact .inl (hspares s)
    · refine .inr ⟨hspares s, fun a ha => ?_⟩
      rcases List.mem_append.mp ha with ha | ha
      · exact hsame a ha
      · rw [List.mem_singleton.mp ha]
        rfl
  · exact h

end Party

end Party

section Contract

variable {σ : Type u} {κ α : Type v} {W : Type w} {t : Terms σ W} {prog : κ → Access σ α}
  {Keep Rest : List (κ × α) → W → Prop}

structure Contract (t : Terms σ W) (prog : κ → Access σ α) (Keep Rest : List (κ × α) → W → Prop) :
    Prop where
  rest_keep : ∀ {h w}, Rest h w → Keep h w
  keep_rely : ∀ {h w w'}, t.Rely w w' → Keep h w → Keep h w'
  rest_rely : ∀ {h w w'}, t.Rely w w' → Rest h w → Rest h w'
  call : ∀ {h w} (c : κ), Rest h w → Sat t (Keep h) (fun a => Rest (h ++ [(c, a)])) (prog c) w

def Obeys (t : Terms σ W) (Keep Rest : List (κ × α) → W → Prop) (party : Party σ κ α) (w : W) : Prop :=
  Keep party.results w ∧
    match party.running with
    | none => Rest party.results w
    | some (c, x, _) => Sat t (Keep party.results) (fun a => Rest (party.results ++ [(c, a)])) x w

variable {party : Party σ κ α} {w : W} (hc : Contract t prog Keep Rest)

include hc

lemma Contract.idle (h : Rest [] w) : Obeys t Keep Rest .idle w := ⟨hc.rest_keep h, h⟩

lemma Contract.proceed {c : κ} {accesses : List (σ × σ)} {x : Access σ α}
    (h : Sat t (Keep party.results) (fun a => Rest (party.results ++ [(c, a)])) x w) :
    Obeys t Keep Rest (party.proceed c accesses x) w := by
  cases x with
  | done a =>
    have hrest : Rest (party.proceed c accesses (.done a)).results w := by
      simpa [Party.results, Party.proceed, Sat] using h
    exact ⟨hc.rest_keep hrest, hrest⟩
  | step effect next => exact ⟨h.1, h⟩

lemma Contract.start (h : Obeys t Keep Rest party w) (c : κ) : Obeys t Keep Rest (party.start prog c) w := by
  obtain ⟨hkeep, hrun⟩ := h
  cases hr : party.running with
  | none =>
    rw [hr] at hrun
    simp only [Party.start, hr]
    exact hc.proceed (hc.call c hrun)
  | some r =>
    simp only [Party.start, hr]
    exact ⟨hkeep, hrun⟩

lemma Contract.access (h : Obeys t Keep Rest party w) : ∃ w', t.view w' = (party.access (t.view w)).1 ∧ t.Guar w w' ∧
      Obeys t Keep Rest (party.access (t.view w)).2 w' := by
  have hstay : ∃ w', t.view w' = t.view w ∧ t.Guar w w' ∧ Obeys t Keep Rest party w' :=
    ⟨w, rfl, t.guar_refl w, h⟩
  simp only [Party.access]
  split
  · next c effect next accesses heq =>
    have hrun := h.2
    rw [heq] at hrun
    obtain ⟨w', hview, hguar, hsat⟩ := hrun.2 w (t.rely_refl w)
    exact ⟨w', hview, hguar, hc.proceed hsat⟩
  · exact hstay

lemma Contract.obeys_of_rely (h : Obeys t Keep Rest party w) {w' : W} (hr : t.Rely w w') :
    Obeys t Keep Rest party w' := by
  obtain ⟨hkeep, hrun⟩ := h
  refine ⟨hc.keep_rely hr hkeep, ?_⟩
  split at hrun
  · exact hc.rest_rely hr hrun
  · exact hrun.of_rely hr (hc.keep_rely hr) (fun _ => hc.rest_rely hr)

end Contract

section Pair

variable {σ : Type u} {κ₁ α₁ κ₂ α₂ : Type v} {W : Type w}

structure Pair (σ : Type u) (κ₁ α₁ κ₂ α₂ : Type v) where
  memory : σ
  first : Party σ κ₁ α₁
  second : Party σ κ₂ α₂

inductive Move (κ₁ κ₂ : Type v)
  | start₁ (c : κ₁)
  | start₂ (c : κ₂)
  | access₁
  | access₂

namespace Pair

variable (prog₁ : κ₁ → Access σ α₁) (prog₂ : κ₂ → Access σ α₂)

def move (pair : Pair σ κ₁ α₁ κ₂ α₂) : Move κ₁ κ₂ → Pair σ κ₁ α₁ κ₂ α₂
  | .start₁ c => { pair with first := pair.first.start prog₁ c }
  | .start₂ c => { pair with second := pair.second.start prog₂ c }
  | .access₁ => { pair with
      memory := (pair.first.access pair.memory).1
      first := (pair.first.access pair.memory).2 }
  | .access₂ => { pair with
      memory := (pair.second.access pair.memory).1
      second := (pair.second.access pair.memory).2 }

def run (pair : Pair σ κ₁ α₁ κ₂ α₂) (moves : List (Move κ₁ κ₂)) : Pair σ κ₁ α₁ κ₂ α₂ :=
  moves.foldl (move prog₁ prog₂) pair

def init (s : σ) : Pair σ κ₁ α₁ κ₂ α₂ := ⟨s, .idle, .idle⟩

lemma sparing_run {p1 : α₁ → Prop} {p2 : α₂ → Prop} (h1 : ∀ c, (prog₁ c).Spares p1)
    (h2 : ∀ c, (prog₂ c).Spares p2) {pair : Pair σ κ₁ α₁ κ₂ α₂} (hp1 : pair.first.Sparing p1)
    (hp2 : pair.second.Sparing p2) (moves : List (Move κ₁ κ₂)) :
    (pair.run prog₁ prog₂ moves).first.Sparing p1 ∧ (pair.run prog₁ prog₂ moves).second.Sparing p2 := by
  induction moves generalizing pair with
  | nil => exact ⟨hp1, hp2⟩
  | cons m moves ih =>
    cases m with
    | start₁ c => exact ih (hp1.start h1 c) hp2
    | start₂ c => exact ih hp1 (hp2.start h2 c)
    | access₁ => exact ih (hp1.access _) hp2
    | access₂ => exact ih hp1 (hp2.access _)

variable {prog₁ prog₂} {t1 t2 : Terms σ W} {Keep₁ Rest₁ : List (κ₁ × α₁) → W → Prop}
  {Keep₂ Rest₂ : List (κ₂ × α₂) → W → Prop}

structure Agree (t1 t2 : Terms σ W) (Keep₁ Rest₁ : List (κ₁ × α₁) → W → Prop)
    (Keep₂ Rest₂ : List (κ₂ × α₂) → W → Prop) (pair : Pair σ κ₁ α₁ κ₂ α₂) (w : W) : Prop where
  view₁ : t1.view w = pair.memory
  view₂ : t2.view w = pair.memory
  first : Obeys t1 Keep₁ Rest₁ pair.first w
  second : Obeys t2 Keep₂ Rest₂ pair.second w

variable (hc1 : Contract t1 prog₁ Keep₁ Rest₁) (hc2 : Contract t2 prog₂ Keep₂ Rest₂)
  (hview : t1.view = t2.view) (h₁₂ : ∀ {w w'}, t1.Guar w w' → t2.Rely w w')
  (h₂₁ : ∀ {w w'}, t2.Guar w w' → t1.Rely w w')

include hc1 hc2 hview h₁₂ h₂₁

lemma agree_move {pair : Pair σ κ₁ α₁ κ₂ α₂} {w : W} (h : Agree t1 t2 Keep₁ Rest₁ Keep₂ Rest₂ pair w) (m : Move κ₁ κ₂) :
    ∃ w', Agree t1 t2 Keep₁ Rest₁ Keep₂ Rest₂ (pair.move prog₁ prog₂ m) w' := by
  cases m with
  | start₁ c => exact ⟨w, h.view₁, h.view₂, hc1.start h.first c, h.second⟩
  | start₂ c => exact ⟨w, h.view₁, h.view₂, h.first, hc2.start h.second c⟩
  | access₁ =>
    obtain ⟨w', hw', hguar, hobeys⟩ := hc1.access h.first
    rw [h.view₁] at hw' hobeys
    exact ⟨w', hw', hview ▸ hw', hobeys, hc2.obeys_of_rely h.second (h₁₂ hguar)⟩
  | access₂ =>
    obtain ⟨w', hw', hguar, hobeys⟩ := hc2.access h.second
    rw [h.view₂] at hw' hobeys
    exact ⟨w', hview ▸ hw', hw', hc1.obeys_of_rely h.first (h₂₁ hguar), hobeys⟩

lemma agree_run {pair : Pair σ κ₁ α₁ κ₂ α₂} {w : W}
    (h : Agree t1 t2 Keep₁ Rest₁ Keep₂ Rest₂ pair w) (moves : List (Move κ₁ κ₂)) :
    ∃ w', Agree t1 t2 Keep₁ Rest₁ Keep₂ Rest₂ (pair.run prog₁ prog₂ moves) w' := by
  induction moves generalizing pair w with
  | nil => exact ⟨w, h⟩
  | cons m moves ih =>
    obtain ⟨w', h'⟩ := agree_move hc1 hc2 hview h₁₂ h₂₁ h m
    exact ih h'

end Pair

end Pair

end Tapip.Foundation.Interleave
