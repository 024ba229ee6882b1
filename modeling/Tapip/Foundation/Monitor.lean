import Mathlib.Data.List.Basic

/-! A thread that waits on a condition variable, and the sections other threads run under its mutex. -/

namespace Tapip.Foundation.Monitor

universe u v

/-- Each section holds the mutex. The ones of the thread say whether they end in a wait, the ones of the
others whether they signal. -/
structure Sections (σ : Type u) (ι : Type v) where
  enter : σ → σ × Bool
  resume : σ → σ × Bool
  other : ι → σ → σ × Bool

/-- Where the thread is; to one that is `blocked` no signal has been sent. -/
inductive Place
  | outside
  | blocked
  | woken
  | leaving
deriving DecidableEq, Repr

inductive Move (ι : Type v)
  | enter
  | spurious
  | resume
  | leave
  | other (i : ι)
deriving DecidableEq, Repr

structure Config (σ : Type u) where
  shared : σ
  place : Place
deriving DecidableEq, Repr

def Place.after (waits : Bool) : Place := if waits then .blocked else .leaving

def Place.signal (p : Place) (sent : Bool) : Place := if sent = true ∧ p = .blocked then .woken else p

variable {σ : Type u} {ι : Type v}

def Config.ends (r : σ × Bool) : Config σ := ⟨r.1, .after r.2⟩

namespace Sections

variable (m : Sections σ ι)

def step (c : Config σ) : Move ι → Option (Config σ)
  | .enter => if c.place = .outside then some (.ends (m.enter c.shared)) else none
  | .spurious => if c.place = .blocked then some ⟨c.shared, .woken⟩ else none
  | .resume => if c.place = .woken then some (.ends (m.resume c.shared)) else none
  | .leave => if c.place = .leaving then some ⟨c.shared, .outside⟩ else none
  | .other i => some ⟨(m.other i c.shared).1, c.place.signal (m.other i c.shared).2⟩

def run (moves : List (Move ι)) (c : Config σ) : Option (Config σ) := moves.foldlM m.step c

inductive Reached (start : σ) (ok : Config σ → Move ι → Prop) : Config σ → Prop
  | start : Reached start ok ⟨start, .outside⟩
  | step {c c' : Config σ} {move : Move ι} : Reached start ok c → ok c move → m.step c move = some c' →
      Reached start ok c'

end Sections

variable {m : Sections σ ι} {start : σ} {ok : Config σ → Move ι → Prop} {c c' : Config σ}

section Invariant

variable {I : σ → Place → Prop} (henter : ∀ s, ok ⟨s, .outside⟩ .enter → I s .outside →
    I (m.enter s).1 (.after (m.enter s).2))
  (hspurious : ∀ s, I s .blocked → I s .woken)
  (hresume : ∀ s, I s .woken → I (m.resume s).1 (.after (m.resume s).2))
  (hleave : ∀ s, I s .leaving → I s .outside)
  (hother : ∀ i s p, I s p → I (m.other i s).1 (p.signal (m.other i s).2))

include henter hspurious hresume hleave hother

lemma step_invariant {move : Move ι} (hstep : m.step c move = some c') (hok : ok c move)
    (hc : I c.shared c.place) : I c'.shared c'.place := by
  obtain ⟨s, p⟩ := c
  cases move <;> simp only [Sections.step, Option.ite_none_right_eq_some, Option.some.injEq] at hstep
  case enter =>
    obtain ⟨rfl, rfl⟩ := hstep
    exact henter s hok hc
  case spurious =>
    obtain ⟨rfl, rfl⟩ := hstep
    exact hspurious s hc
  case resume =>
    obtain ⟨rfl, rfl⟩ := hstep
    exact hresume s hc
  case leave =>
    obtain ⟨rfl, rfl⟩ := hstep
    exact hleave s hc
  case other i =>
    subst hstep
    exact hother i s p hc

lemma Sections.Reached.invariant (hr : m.Reached start ok c) (hstart : I start .outside) : I c.shared c.place := by
  induction hr with
  | start => exact hstart
  | step _ hok hstep ih => exact step_invariant henter hspurious hresume hleave hother hstep hok ih

end Invariant

lemma Sections.run_cons {move : Move ι} {moves : List (Move ι)} : m.run (move :: moves) c = some c' ↔
    ∃ c1, m.step c move = some c1 ∧ m.run moves c1 = some c' := by
  simp [run, List.foldlM_cons, Option.bind_eq_some_iff]

lemma Sections.Reached.run {moves : List (Move ι)} (hr : m.Reached start (fun _ _ => True) c)
    (hrun : m.run moves c = some c') : m.Reached start (fun _ _ => True) c' := by
  induction moves generalizing c with
  | nil =>
    cases hrun
    exact hr
  | cons move moves ih =>
    obtain ⟨c1, hstep, hrest⟩ := Sections.run_cons.mp hrun
    exact ih (hr.step trivial hstep) hrest

end Tapip.Foundation.Monitor
