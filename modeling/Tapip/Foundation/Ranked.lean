import Mathlib.Data.List.Sort

/-! Tables kept in descending order of a key, the newest entry of a key first. -/

namespace Tapip.Foundation.Ranked

variable {α κ : Type*} [LinearOrder κ] {key : α → κ}

structure Ranks (key : α → κ) (table newest : List α) : Prop where
  sorted : table.Pairwise (fun a b => key b ≤ key a)
  stable : ∀ k, table.filter (fun a => key a = k) = newest.filter (fun a => key a = k)

lemma Ranks.nil : Ranks key [] [] := ⟨.nil, fun _ => rfl⟩

lemma Ranks.mem_iff {table newest : List α} (h : Ranks key table newest) (a : α) : a ∈ table ↔ a ∈ newest := by
  have hf := h.stable (key a)
  constructor
  · intro ha
    have hm : a ∈ table.filter (fun b => key b = key a) := by simpa using ha
    rw [hf] at hm
    exact (List.mem_filter.mp hm).1
  · intro ha
    have hm : a ∈ newest.filter (fun b => key b = key a) := by simpa using ha
    rw [← hf] at hm
    exact (List.mem_filter.mp hm).1

lemma filter_orderedInsert {r : α → α → Prop} [DecidableRel r] {p : α → Bool} {a : α}
    (h : ∀ b, p a = true → p b = true → r a b) (l : List α) :
    (l.orderedInsert r a).filter p = (a :: l).filter p := by
  induction l with
  | nil => rfl
  | cons b l ih =>
    rw [List.orderedInsert_cons]
    split_ifs with hr
    · rfl
    · rw [List.filter_cons, ih]
      by_cases ha : p a = true
      · have hb : ¬p b = true := fun hb => hr (h b ha hb)
        simp [ha, hb]
      · simp [List.filter_cons, ha]

lemma Ranks.insert {r : α → α → Prop} [DecidableRel r] (hr : ∀ a b, r a b ↔ key b ≤ key a)
    {table newest : List α} (a : α) (h : Ranks key table newest) :
    Ranks key (table.orderedInsert r a) (a :: newest) := by
  obtain rfl : r = fun a b => key b ≤ key a := by
    funext a b
    exact propext (hr a b)
  have : Std.Total (fun a b => key b ≤ key a) := ⟨fun a b => le_total (key b) (key a)⟩
  have : IsTrans α (fun a b => key b ≤ key a) := ⟨fun _ _ _ h h' => h'.trans h⟩
  refine ⟨h.sorted.orderedInsert _ _, fun k => ?_⟩
  rw [filter_orderedInsert, List.filter_cons, List.filter_cons, h.stable k]
  intro b ha hb
  simp only [decide_eq_true_eq] at ha hb
  exact (hb.trans ha.symm).le

lemma filter_eraseP {p q : α → Bool} (h : ∀ a, p a = true → q a = true) (l : List α) :
    (l.eraseP p).filter q = (l.filter q).eraseP p := by
  induction l with
  | nil => rfl
  | cons b l ih =>
    by_cases hp : p b = true
    · simp [hp, h b hp]
    · by_cases hq : q b = true <;> simp [hp, hq, ih]

lemma filter_eraseP_of_disjoint {p q : α → Bool} (h : ∀ a, p a = true → ¬q a = true) (l : List α) :
    (l.eraseP p).filter q = l.filter q := by
  induction l with
  | nil => rfl
  | cons b l ih =>
    by_cases hp : p b = true
    · simp [hp, h b hp]
    · simp [List.filter_cons, hp, ih]

lemma Ranks.eraseP {table newest : List α} {p : α → Bool}
    (hp : ∀ a b, p a = true → p b = true → key a = key b) (h : Ranks key table newest) :
    Ranks key (table.eraseP p) (newest.eraseP p) := by
  refine ⟨h.sorted.sublist List.eraseP_sublist, fun k => ?_⟩
  by_cases hk : ∃ a, p a = true ∧ key a = k
  · obtain ⟨a, ha, rfl⟩ := hk
    have himp : ∀ b, p b = true → decide (key b = key a) = true := by
      intro b hb
      simpa using hp b a hb ha
    rw [filter_eraseP himp, filter_eraseP himp, h.stable]
  · have hno : ∀ b, p b = true → ¬decide (key b = k) = true := by
      intro b hb hbk
      exact hk ⟨b, hb, by simpa using hbk⟩
    rw [filter_eraseP_of_disjoint hno, filter_eraseP_of_disjoint hno, h.stable]

lemma Ranks.find? {table newest : List α} {p : α → Bool} {a : α} (h : Ranks key table newest)
    (hf : table.find? p = some a) :
    ∃ newer older, newest = newer ++ a :: older ∧ p a = true ∧
      (∀ b ∈ newest, p b = true → key b ≤ key a) ∧ ∀ b ∈ newer, p b = true → key b < key a := by
  obtain ⟨ha, front, back, rfl, hfront⟩ := List.find?_eq_some_iff_append.mp hf
  have hmax : ∀ b ∈ newest, p b = true → key b ≤ key a := by
    intro b hb hpb
    rw [← h.mem_iff] at hb
    rcases List.mem_append.mp hb with hb | hb
    · exact absurd hpb (by simpa using hfront b hb)
    · rcases List.mem_cons.mp hb with rfl | hb
      · exact le_rfl
      · exact (List.pairwise_cons.mp (List.pairwise_append.mp h.sorted).2.1).1 b hb
  have hsplit := h.stable (key a)
  rw [List.filter_append, List.filter_cons_of_pos (by simp)] at hsplit
  obtain ⟨newer, rest, rfl, hnewer, hrest⟩ := List.filter_eq_append_iff.mp hsplit.symm
  obtain ⟨mid, older, rfl, hmid, -, -⟩ := List.filter_eq_cons_iff.mp hrest
  refine ⟨newer ++ mid, older, by simp, ha, hmax, fun b hb hpb => ?_⟩
  have hle : key b ≤ key a := hmax b (by
    rcases List.mem_append.mp hb with hb | hb <;> simp [hb]) hpb
  refine lt_of_le_of_ne hle fun he => ?_
  rcases List.mem_append.mp hb with hb | hb
  · have hm : b ∈ front.filter (fun b => key b = key a) := by
      rw [← hnewer]
      simpa [hb] using he
    have := hfront b (List.mem_filter.mp hm).1
    simp [hpb] at this
  · exact hmid b hb (by simpa using he)

end Tapip.Foundation.Ranked
