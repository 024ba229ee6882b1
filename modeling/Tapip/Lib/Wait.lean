import Mathlib.Data.Int.Notation
import Tapip.Foundation.Monitor

/-! Threads that sleep and are woken up (include/wait.h); each section of the mutex is one step. -/

namespace Tapip.Lib.Wait

open Foundation.Monitor

structure TapipWait where
  notified : Bool
  dead : Bool
  sleep : Bool
deriving DecidableEq, Repr

def waitInit : TapipWait := ⟨false, false, false⟩

-- With the wait object goes whether its condition variable is signalled.
def wakeUp (w : TapipWait) : TapipWait × Bool :=
  if w.dead then (w, false)
  else if !w.notified then ({ w with notified := true }, w.sleep)
  else (w, false)

def waitExit (w : TapipWait) : TapipWait × Bool :=
  if w.dead then (w, false) else ({ w with dead := true }, w.sleep)

def sleepOnEnd (w : TapipWait) : TapipWait := { w with notified := false, sleep := false }

def sleepOn (w : TapipWait) : TapipWait × Bool :=
  if w.dead then (w, false)
  else
    let w := { w with sleep := true }
    if !w.notified then (w, true) else (sleepOnEnd w, false)

-- `dead` is read after the mutex has been given back.
def sleepOnRet (w : TapipWait) : ℤ := -(if w.dead then 1 else 0)

inductive Caller
  | wakeUp
  | waitExit
deriving DecidableEq, Repr

def Caller.call : Caller → TapipWait → TapipWait × Bool
  | .wakeUp => Wait.wakeUp
  | .waitExit => Wait.waitExit

def sleeper : Sections TapipWait Caller where
  enter := sleepOn
  resume w := (sleepOnEnd w, false)
  other := Caller.call

section Steps

variable {w : TapipWait} {p : Place}

def Asleep (w : TapipWait) (p : Place) : Prop :=
  p = .blocked → w.sleep = true ∧ w.notified = false ∧ w.dead = false

lemma asleep_after_false : Asleep w (.after false) := by
  intro hp
  cases hp

lemma asleep_sleepOn : Asleep (sleepOn w).1 (.after (sleepOn w).2) := by
  cases hd : w.dead with
  | true =>
    rw [sleepOn, if_pos hd]
    exact asleep_after_false
  | false =>
    cases hn : w.notified with
    | true =>
      simp only [sleepOn, hd, hn]
      exact asleep_after_false
    | false =>
      intro _
      simp [sleepOn, hd, hn]

lemma asleep_call (i : Caller) (h : Asleep w p) : Asleep (i.call w).1 (p.signal (i.call w).2) := by
  intro hp
  have hb : p = .blocked := by
    rw [Place.signal] at hp
    split_ifs at hp
    exact hp
  obtain ⟨hs, hn, hd⟩ := h hb
  cases i <;> simp [Caller.call, wakeUp, waitExit, Place.signal, hs, hn, hd, hb] at hp

lemma asleep_of_reached {ok : Config TapipWait → Move Caller → Prop} {c : Config TapipWait}
    (hr : sleeper.Reached waitInit ok c) : Asleep c.shared c.place := by
  apply hr.invariant
  · exact fun _ _ _ => asleep_sleepOn
  · exact fun _ _ hp => by cases hp
  · exact fun _ _ => asleep_after_false
  · exact fun _ _ hp => by cases hp
  · exact fun i _ _ h => asleep_call i h
  · intro hp
    cases hp

def Told (w : TapipWait) : Prop := w.notified = true ∨ w.dead = true

lemma told_wakeUp : Told (wakeUp w).1 := by
  rw [wakeUp]
  split_ifs with hd hn
  · exact .inr hd
  · exact .inl rfl
  · exact .inl (by simpa using hn)

lemma Told.call (h : Told w) (i : Caller) : Told (i.call w).1 := by
  cases i with
  | wakeUp => exact told_wakeUp
  | waitExit =>
    simp only [Caller.call, waitExit]
    split_ifs
    · exact h
    · exact .inr rfl

lemma Told.sleepOn (h : Told w) : (sleepOn w).2 = false := by
  rcases h with hn | hd
  · cases hd : w.dead <;> simp [Wait.sleepOn, hn, hd]
  · simp [Wait.sleepOn, hd]

lemma dead_step {c c' : Config TapipWait} {move : Move Caller} (hstep : sleeper.step c move = some c')
    (hd : c.shared.dead = true) : c'.shared.dead = true := by
  refine @step_invariant _ _ sleeper (fun _ _ => True) c c' (fun w _ => w.dead = true) ?_ ?_ ?_ ?_ ?_ move hstep
    trivial hd
  · intro w _ hw
    simp [sleeper, Wait.sleepOn, hw]
  · exact fun _ hw => hw
  · exact fun _ hw => hw
  · exact fun _ hw => hw
  · intro i w _ hw
    cases i <;> simp [sleeper, Caller.call, wakeUp, waitExit, hw]

end Steps

section Runs

variable {c c' : Config TapipWait}

lemma dead_run {moves : List (Move Caller)} (hrun : sleeper.run moves c = some c') (hd : c.shared.dead = true) :
    c'.shared.dead = true := by
  induction moves generalizing c with
  | nil =>
    cases hrun
    exact hd
  | cons move moves ih =>
    obtain ⟨c1, hstep, hrest⟩ := Sections.run_cons.mp hrun
    exact ih hrest (dead_step hstep hd)

lemma told_run {calls : List Caller} (hrun : sleeper.run (calls.map .other ++ [.enter]) c = some c')
    (ht : Told c.shared) : c'.place = .leaving := by
  induction calls generalizing c with
  | nil =>
    obtain ⟨c1, hstep, hend⟩ := Sections.run_cons.mp hrun
    cases hend
    simp only [Sections.step, Option.ite_none_right_eq_some, Option.some.injEq] at hstep
    obtain ⟨-, rfl⟩ := hstep
    change Place.after (sleepOn c.shared).2 = _
    rw [ht.sleepOn]
    rfl
  | cons i calls ih =>
    obtain ⟨c1, hstep, hrest⟩ := Sections.run_cons.mp hrun
    cases hstep
    exact ih hrest (ht.call i)

theorem no_lost_wakeup (hr : sleeper.Reached waitInit (fun _ _ => True) c) :
    (c.place = .blocked → c.shared.notified = false ∧ c.shared.dead = false) ∧
    (∀ (calls : List Caller) (c' : Config TapipWait), sleeper.run (.other .wakeUp ::
      (calls.map .other ++ [.enter])) c = some c' → c'.place = .leaving) ∧
    ∀ moves c', sleeper.run (.other .waitExit :: moves) c = some c' →
      c'.place ≠ .blocked ∧ (c'.place = .leaving → sleepOnRet c'.shared = -1) := by
  refine ⟨fun hp => (asleep_of_reached hr hp).2, fun calls c' hrun => ?_, fun moves c' hrun => ?_⟩
  · obtain ⟨c1, hstep, hrest⟩ := Sections.run_cons.mp hrun
    cases hstep
    exact told_run hrest told_wakeUp
  · have hd : c'.shared.dead = true := by
      obtain ⟨c1, hstep, hrest⟩ := Sections.run_cons.mp hrun
      cases hstep
      apply dead_run hrest
      simp only [sleeper, Caller.call, waitExit]
      split_ifs with hdead
      · exact hdead
      · rfl
    refine ⟨fun hp => ?_, fun _ => ?_⟩
    · have hnot := (asleep_of_reached (hr.run hrun) hp).2.2
      simp [hd] at hnot
    · simp [sleepOnRet, hd]

theorem no_lost_wakeup_twice : ∃ c, sleeper.Reached waitInit (fun _ _ => True) c ∧ c.place = .blocked ∧
    c.shared.notified = false ∧ c.shared.dead = false := by
  have hrun : sleeper.run [.enter, .other .wakeUp, .resume, .leave, .enter] ⟨waitInit, .outside⟩ =
    some ⟨⟨false, false, true⟩, .blocked⟩ := rfl
  have hr := Sections.Reached.start.run hrun
  exact ⟨_, hr, rfl, (no_lost_wakeup hr).1 rfl⟩

end Runs

end Tapip.Lib.Wait
