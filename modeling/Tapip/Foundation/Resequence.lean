import Mathlib.Data.List.Perm.Basic
import Mathlib.Data.List.TakeWhile
import Tapip.Foundation.Tiling

/-! Pieces of a text that come in any order and go out in sequence. A piece in front of all that wait
is cut at a floor; with the floor at zero nothing is ever cut. -/

namespace Tapip.Foundation.Resequence

open Tiling

structure Piece (α : Type*) where
  start : ℕ
  data : List α

structure Line (α : Type*) where
  nxt : ℕ
  out : List α
  wait : List (Piece α)

variable {α : Type*}

def Piece.len (p : Piece α) : ℕ := p.data.length

def deliver : List (Piece α) → ℕ → List α → Line α
  | [], n, out => ⟨n, out, []⟩
  | p :: q, n, out =>
    if p.start = n then deliver q (n + p.len) (out ++ p.data) else ⟨n, out, p :: q⟩

def place (x : Piece α) (q : List (Piece α)) : List (Piece α) :=
  q.takeWhile (fun p => decide (p.start ≤ x.start)) ++
    x :: q.dropWhile (fun p => decide (p.start ≤ x.start))

def Leads (x : Piece α) (q : List (Piece α)) : Prop := ∃ p ∈ q.head?, x.start < p.start

instance (x : Piece α) (q : List (Piece α)) : Decidable (Leads x q) :=
  inferInstanceAs (Decidable (∃ p ∈ q.head?, _))

def arrive (floor : ℕ) (l : Line α) (x : Piece α) : Line α :=
  if Leads x l.wait ∧ x.start < floor then
    if x.start + x.len ≤ floor then l
    else deliver (⟨floor, x.data.drop (floor - x.start)⟩ :: l.wait) l.nxt l.out
  else deliver (place x l.wait) l.nxt l.out

def Apart (p q : Piece α) : Prop := p.start + p.len ≤ q.start ∨ q.start + q.len ≤ p.start

lemma Apart.symm {p q : Piece α} (h : Apart p q) : Apart q p := Or.symm h

section Queue

variable {q : List (Piece α)} {x : Piece α}

lemma lt_of_mem_dropWhile (ho : Ordered Piece.start Piece.len q) {p : Piece α}
    (hp : p ∈ q.dropWhile (fun p => decide (p.start ≤ x.start))) : x.start < p.start := by
  induction q with
  | nil => simp at hp
  | cons w q ih =>
    obtain ⟨hw, ho⟩ := List.pairwise_cons.mp ho
    rw [List.dropWhile_cons] at hp
    split_ifs at hp with hle
    · exact ih ho hp
    · have hlt : x.start < w.start := by simpa using hle
      cases hp with
      | head => exact hlt
      | tail _ hp =>
        have := hw p hp
        omega

lemma leads_iff (ho : Ordered Piece.start Piece.len q) : Leads x q ↔ q ≠ [] ∧ ∀ p ∈ q, x.start < p.start := by
  cases q with
  | nil => simp [Leads]
  | cons w q =>
    obtain ⟨hw, -⟩ := List.pairwise_cons.mp ho
    constructor
    · rintro ⟨p, hp, hlt⟩
      cases hp
      refine ⟨List.cons_ne_nil _ _, fun p' hp' => ?_⟩
      cases hp' with
      | head => exact hlt
      | tail _ hp' =>
        have := hw p' hp'
        omega
    · rintro ⟨-, h⟩
      exact ⟨w, rfl, h w (by simp)⟩

lemma place_perm : (place x q).Perm (x :: q) := by
  refine List.perm_middle.trans ?_
  rw [List.takeWhile_append_dropWhile]

lemma place_ordered (ho : Ordered Piece.start Piece.len q) (hx : 0 < x.len) (ha : ∀ p ∈ q, Apart p x) :
    Ordered Piece.start Piece.len (place x q) := by
  apply Ordered.insert
  · rwa [List.takeWhile_append_dropWhile]
  · intro p hp
    have hle : p.start ≤ x.start := by simpa using List.mem_takeWhile_imp hp
    cases ha p (List.takeWhile_subset _ hp) with
    | inl h => exact h
    | inr h => omega
  · intro p hp
    have hlt := lt_of_mem_dropWhile ho hp
    cases ha p (List.dropWhile_subset _ hp) with
    | inl h => omega
    | inr h => exact h

lemma deliver_spec {n : ℕ} {out : List α} (ho : Ordered Piece.start Piece.len q)
    (hn : ∀ p ∈ q, n ≤ p.start) (hpos : ∀ p ∈ q, 0 < p.len) :
    ∃ gone rest, q = gone ++ rest ∧ Contiguous Piece.start Piece.len n gone ∧
      deliver q n out = ⟨n + total Piece.len gone, out ++ gone.flatMap Piece.data, rest⟩ ∧
      ∀ p ∈ rest, n + total Piece.len gone < p.start := by
  induction q generalizing n out with
  | nil => exact ⟨[], [], rfl, trivial, by simp [deliver], by simp⟩
  | cons w q ih =>
    obtain ⟨hw, ho'⟩ := List.pairwise_cons.mp ho
    have hwpos := hpos w (by simp)
    rw [deliver]
    split_ifs with hs
    · obtain ⟨gone, rest, rfl, hc, hd, hb⟩ := @ih (n + w.len) (out ++ w.data) ho'
        (fun p hp => hs ▸ hw p hp) (fun p hp => hpos p (by simp [hp]))
      refine ⟨w :: gone, rest, rfl, ⟨hs, hc⟩, ?_, ?_⟩
      · rw [hd, total_cons, List.flatMap_cons, ← List.append_assoc, Nat.add_assoc]
      · rwa [total_cons, ← Nat.add_assoc]
    · have hnw := hn w (by simp)
      refine ⟨[], w :: q, rfl, trivial, by simp, fun p hp => ?_⟩
      rw [total_nil]
      cases hp with
      | head => omega
      | tail _ hp =>
        have := hw p hp
        omega

end Queue

structure Intact (a : ℕ) (pre done : List (Piece α)) (l : Line α) : Prop where
  perm : (done ++ l.wait).Perm pre
  contiguous : Contiguous Piece.start Piece.len a done
  nxt : l.nxt = a + total Piece.len done
  out : l.out = done.flatMap Piece.data
  ordered : Ordered Piece.start Piece.len l.wait
  beyond : ∀ p ∈ l.wait, l.nxt < p.start

structure Stuck (m : ℕ) (l : Line α) : Prop where
  nxt : l.nxt ≤ m
  wait : ∀ p ∈ l.wait, p.start + p.len ≤ m ∨ m < p.start

structure Sane (a : ℕ) (pre : List (Piece α)) (l : Line α) : Prop where
  covered : ∀ m, a ≤ m → m < l.nxt → ∃ p ∈ pre, Covers Piece.start Piece.len p m
  wait : ∀ w ∈ l.wait, ∃ p ∈ pre, p.start ≤ w.start ∧ w.start + w.len ≤ p.start + p.len

section Step

variable {a floor m : ℕ} {pre done : List (Piece α)} {l : Line α} {x : Piece α}

lemma Intact.mem_done (h : Intact a pre done l) {p : Piece α} (hp : p ∈ done) : p ∈ pre :=
  h.perm.subset (List.mem_append_left _ hp)

lemma Intact.mem_wait (h : Intact a pre done l) {p : Piece α} (hp : p ∈ l.wait) : p ∈ pre :=
  h.perm.subset (List.mem_append_right _ hp)

lemma Intact.sane (h : Intact a pre done l) : Sane a pre l := by
  refine ⟨fun m ha hm => ?_, fun w hw => ⟨w, h.mem_wait hw, le_rfl, le_rfl⟩⟩
  obtain ⟨d, hd, hcov⟩ := h.contiguous.covered ha (h.nxt ▸ hm)
  exact ⟨d, h.mem_done hd, hcov⟩

lemma Sane.nxt_le (h : Sane a pre l) (ha : a ≤ x.start) (hx : 0 < x.len)
    (hapart : ∀ p ∈ pre, Apart p x) : l.nxt ≤ x.start := by
  by_contra hlt
  obtain ⟨d, hd, h1, h2⟩ := h.covered x.start ha (by omega)
  cases hapart d hd with
  | inl h => omega
  | inr h => omega

lemma Intact.arrive (h : Intact a pre done l) (ha : a ≤ x.start) (hx : 0 < x.len)
    (hapart : ∀ p ∈ pre, Apart p x) (hpos : ∀ p ∈ pre, 0 < p.len)
    (hkeep : ¬ (Leads x l.wait ∧ x.start < floor)) :
    ∃ done', Intact a (pre ++ [x]) done' (arrive floor l x) := by
  have hnxt := h.sane.nxt_le ha hx hapart
  have ho := place_ordered h.ordered hx fun p hp => hapart p (h.mem_wait hp)
  have hge : ∀ p ∈ place x l.wait, l.nxt ≤ p.start ∧ 0 < p.len := by
    intro p hp
    cases place_perm.subset hp with
    | head => exact ⟨hnxt, hx⟩
    | tail _ hp => exact ⟨(h.beyond p hp).le, hpos p (h.mem_wait hp)⟩
  obtain ⟨gone, rest, hq, hc, hd, hb⟩ :=
    @deliver_spec _ _ l.nxt l.out ho (fun p hp => (hge p hp).1) (fun p hp => (hge p hp).2)
  rw [Resequence.arrive, if_neg hkeep, hd]
  refine ⟨done ++ gone, ⟨?_, ?_, ?_, ?_, ?_, hb⟩⟩
  · calc (done ++ gone ++ rest).Perm (done ++ (x :: l.wait)) := by
          rw [List.append_assoc, ← hq]
          exact place_perm.append_left done
      _ |>.Perm (x :: (done ++ l.wait)) := List.perm_middle
      _ |>.Perm (x :: pre) := h.perm.cons x
      _ |>.Perm (pre ++ [x]) := (List.perm_append_singleton x pre).symm
  · exact h.contiguous.append (h.nxt ▸ hc)
  · simp only [total_append, h.nxt, Nat.add_assoc]
  · simp only [List.flatMap_append, h.out]
  · exact (hq ▸ ho).sublist (List.sublist_append_right gone rest)

lemma Stuck.deliver {q : List (Piece α)} {n : ℕ} {out : List α} (hn : n ≤ m)
    (hq : ∀ p ∈ q, p.start + p.len ≤ m ∨ m < p.start) : Stuck m (deliver q n out) := by
  induction q generalizing n out with
  | nil => exact ⟨hn, by simp [Resequence.deliver]⟩
  | cons w q ih =>
    rw [Resequence.deliver]
    split_ifs with hs
    · refine ih ?_ fun p hp => hq p (by simp [hp])
      cases hq w (by simp) with
      | inl h => omega
      | inr h => omega
    · exact ⟨hn, hq⟩

lemma Stuck.arrive (h : Stuck m l) (hx : x.start + x.len ≤ m ∨ m < x.start) : Stuck m (arrive floor l x) := by
  rw [Resequence.arrive]
  split_ifs with hlead hdrop
  · exact h
  · apply Stuck.deliver h.nxt
    intro p hp
    cases hp with
    | head =>
      simp only [Piece.len, List.length_drop] at hx hdrop ⊢
      omega
    | tail _ hp => exact h.wait p hp
  · apply Stuck.deliver h.nxt
    intro p hp
    cases place_perm.subset hp with
    | head => exact hx
    | tail _ hp => exact h.wait p hp

lemma Sane.deliver {q : List (Piece α)} {n : ℕ} {out : List α}
    (hn : ∀ m, a ≤ m → m < n → ∃ p ∈ pre, Covers Piece.start Piece.len p m)
    (hq : ∀ w ∈ q, ∃ p ∈ pre, p.start ≤ w.start ∧ w.start + w.len ≤ p.start + p.len) :
    Sane a pre (deliver q n out) := by
  induction q generalizing n out with
  | nil => exact ⟨hn, by simp [Resequence.deliver]⟩
  | cons w q ih =>
    rw [Resequence.deliver]
    split_ifs with hs
    · refine ih (fun m ha hm => ?_) fun p hp => hq p (by simp [hp])
      by_cases hlt : m < n
      · exact hn m ha hlt
      · obtain ⟨p, hp, h1, h2⟩ := hq w (by simp)
        exact ⟨p, hp, by omega, by omega⟩
    · exact ⟨hn, hq⟩

lemma Sane.arrive (h : Sane a pre l) : Sane a (pre ++ [x]) (arrive floor l x) := by
  have hcovered : ∀ m, a ≤ m → m < l.nxt → ∃ p ∈ pre ++ [x], Covers Piece.start Piece.len p m := by
    intro m ha hm
    obtain ⟨p, hp, hcov⟩ := h.covered m ha hm
    exact ⟨p, List.mem_append_left _ hp, hcov⟩
  have hwait : ∀ w ∈ l.wait, ∃ p ∈ pre ++ [x], p.start ≤ w.start ∧ w.start + w.len ≤ p.start + p.len := by
    intro w hw
    obtain ⟨p, hp, hin⟩ := h.wait w hw
    exact ⟨p, List.mem_append_left _ hp, hin⟩
  rw [Resequence.arrive]
  split_ifs with hlead hdrop
  · exact ⟨hcovered, hwait⟩
  · apply Sane.deliver hcovered
    intro w hw
    cases hw with
    | head =>
      refine ⟨x, by simp, hlead.2.le, ?_⟩
      simp only [Piece.len, List.length_drop] at hdrop ⊢
      omega
    | tail _ hw => exact hwait w hw
  · apply Sane.deliver hcovered
    intro w hw
    cases place_perm.subset hw with
    | head => exact ⟨x, by simp, le_rfl, le_rfl⟩
    | tail _ hw => exact hwait w hw

lemma Sane.apart (h : Sane a pre l) (hapart : ∀ p ∈ pre, Apart p x) : ∀ w ∈ l.wait, Apart w x := by
  intro w hw
  obtain ⟨p, hp, h1, h2⟩ := h.wait w hw
  cases hapart p hp with
  | inl h => exact .inl (by omega)
  | inr h => exact .inr (by omega)

lemma Intact.stuck (h : Intact a pre done l) (hnxt : l.nxt ≤ x.start) (hlead : Leads x l.wait)
    (hlt : x.start < floor) : Stuck x.start (Resequence.arrive floor l x) := by
  have hwait := ((leads_iff h.ordered).mp hlead).2
  rw [Resequence.arrive, if_pos ⟨hlead, hlt⟩]
  split_ifs
  · exact ⟨hnxt, fun p hp => .inr (hwait p hp)⟩
  · apply Stuck.deliver hnxt
    intro p hp
    cases hp with
    | head => exact .inr hlt
    | tail _ hp => exact .inr (hwait p hp)

end Step

/-- In front of `x` nothing waits, but behind it something does: of `pre`, which arrived, every piece
before `x` has all before it, and some piece lies behind `x`. -/
def Exposed (pre : List (Piece α)) (x : Piece α) (post : List (Piece α)) : Prop :=
  (∃ y ∈ pre, x.start < y.start) ∧
    ∀ y ∈ pre, y.start < x.start → ∀ z ∈ post, y.start < z.start

section Run

variable {a floor : ℕ} {arrivals parts : List (Piece α)}

structure Shuffle (a : ℕ) (arrivals parts : List (Piece α)) : Prop where
  perm : arrivals.Perm parts
  contiguous : Contiguous Piece.start Piece.len a parts
  pos : ∀ p ∈ parts, 0 < p.len

lemma Shuffle.inside (h : Shuffle a arrivals parts) {p : Piece α} (hp : p ∈ arrivals) :
    a ≤ p.start ∧ 0 < p.len ∧ p.start + p.len ≤ a + total Piece.len parts := by
  have hp' := h.perm.subset hp
  have := h.contiguous.ordered.2 p hp'
  exact ⟨this.1, h.pos p hp', this.2⟩

lemma Shuffle.apart (h : Shuffle a arrivals parts) : arrivals.Pairwise Apart := by
  apply (h.perm.pairwise_iff fun h => Apart.symm h).mpr
  exact h.contiguous.ordered.1.imp fun h => .inl h

lemma Shuffle.covered (h : Shuffle a arrivals parts) {n : ℕ} (ha : a ≤ n)
    (hn : n < a + total Piece.len parts) : ∃ c ∈ arrivals, Covers Piece.start Piece.len c n := by
  obtain ⟨c, hc, hcov⟩ := h.contiguous.covered ha hn
  exact ⟨c, h.perm.symm.subset hc, hcov⟩

variable {pre post done : List (Piece α)} {x : Piece α} {l : Line α}

lemma Shuffle.next (h : Shuffle a (pre ++ x :: post) parts) :
    a ≤ x.start ∧ 0 < x.len ∧ (∀ p ∈ pre, Apart p x) ∧ (∀ p ∈ pre, 0 < p.len) ∧ (∀ p ∈ post, Apart x p) := by
  obtain ⟨-, hcons, hcross⟩ := List.pairwise_append.mp h.apart
  have hx := h.inside (p := x) (by simp)
  exact ⟨hx.1, hx.2.1, fun p hp => hcross p hp x (by simp), fun p hp => (h.inside (by simp [hp])).2.1,
    (List.pairwise_cons.mp hcons).1⟩

lemma Shuffle.leads_iff_exposed (h : Shuffle a (pre ++ x :: post) parts) (hl : Intact a pre done l) :
    Leads x l.wait ↔ Exposed pre x post := by
  obtain ⟨hax, hx, hapart, -, -⟩ := h.next
  have hnxt := hl.sane.nxt_le hax hx hapart
  have hdone : ∀ y ∈ done, y.start + y.len ≤ l.nxt := fun y hy =>
    hl.nxt ▸ (hl.contiguous.ordered.2 y hy).2
  rw [leads_iff hl.ordered]
  constructor
  · rintro ⟨hne, hwait⟩
    obtain ⟨w, hw⟩ := List.exists_mem_of_ne_nil _ hne
    refine ⟨⟨w, hl.mem_wait hw, hwait w hw⟩, fun y hy hlt z hz => ?_⟩
    cases List.mem_append.mp (hl.perm.symm.subset hy) with
    | inl hy' =>
      have hz' := h.inside (p := z) (by simp [hz])
      have hcross := (List.pairwise_append.mp h.apart).2.2
      have hle := hl.sane.nxt_le hz'.1 hz'.2.1 fun p hp => hcross p hp z (by simp [hz])
      have := hdone y hy'
      have := (h.inside (p := y) (by simp [hy])).2.1
      omega
    | inr hy' =>
      have := hwait y hy'
      omega
  · rintro ⟨⟨y, hy, hlt⟩, hbefore⟩
    have hywait : y ∈ l.wait := by
      cases List.mem_append.mp (hl.perm.symm.subset hy) with
      | inl hy' =>
        have := hdone y hy'
        omega
      | inr hy' => exact hy'
    refine ⟨List.ne_nil_of_mem hywait, fun w hw => ?_⟩
    by_contra hge
    have hwx := hapart w (hl.mem_wait hw)
    have hwin := h.inside (p := w) (by simp [hl.mem_wait hw])
    have hbeyond := hl.beyond w hw
    have hwlt : w.start < x.start := by
      simp only [Apart] at hwx
      omega
    obtain ⟨c, hc, hc1, hc2⟩ := h.covered (n := l.nxt) (by rw [hl.nxt]; omega) (by omega)
    cases List.mem_append.mp hc with
    | inl hc' =>
      cases List.mem_append.mp (hl.perm.symm.subset hc') with
      | inl hc' =>
        have := hdone c hc'
        omega
      | inr hc' =>
        have := hl.beyond c hc'
        omega
    | inr hc' =>
      cases hc' with
      | head => omega
      | tail _ hc' =>
        have := hbefore w (hl.mem_wait hw) hwlt c hc'
        omega

lemma Shuffle.complete (h : Shuffle a arrivals parts) (hl : Intact a arrivals done l) :
    l = ⟨a + total Piece.len parts, parts.flatMap Piece.data, []⟩ := by
  have hnxt : a + total Piece.len parts ≤ l.nxt := by
    by_contra hlt
    obtain ⟨c, hc, hc1, hc2⟩ := h.covered (n := l.nxt) (by rw [hl.nxt]; omega) (by omega)
    cases List.mem_append.mp (hl.perm.symm.subset hc) with
    | inl hc' =>
      have := (hl.contiguous.ordered.2 c hc').2
      rw [← hl.nxt] at this
      omega
    | inr hc' =>
      have := hl.beyond c hc'
      omega
  have hwait : l.wait = [] := by
    apply List.eq_nil_iff_forall_not_mem.mpr
    intro w hw
    have := hl.beyond w hw
    have := h.inside (hl.mem_wait hw)
    omega
  have hperm : done.Perm parts := by
    have := hl.perm.trans h.perm
    rwa [hwait, List.append_nil] at this
  have heq : done = parts := by
    refine hperm.eq_of_pairwise ?_ hl.contiguous.ordered.1 h.contiguous.ordered.1
    intro p p' hp _ h1 h2
    have := h.pos p (hperm.subset hp)
    omega
  obtain ⟨nxt, out, wait⟩ := l
  obtain rfl : wait = [] := hwait
  rw [← heq, ← hl.out, ← hl.nxt]

lemma Shuffle.intact (h : Shuffle a arrivals parts) (hkeep : ∀ pre x post done, arrivals = pre ++ x :: post →
      Intact a pre done (pre.foldl (arrive floor) ⟨a, [], []⟩) →
      ¬ (Leads x (pre.foldl (arrive floor) ⟨a, [], []⟩).wait ∧ x.start < floor)) (pre post)
    (hsplit : arrivals = pre ++ post) :
    ∃ done, Intact a pre done (pre.foldl (arrive floor) ⟨a, [], []⟩) := by
  induction pre using List.reverseRecOn generalizing post with
  | nil => exact ⟨[], .refl _, trivial, rfl, rfl, .nil, by simp⟩
  | append_singleton pre x ih =>
    rw [List.append_assoc, List.singleton_append] at hsplit
    obtain ⟨done, hl⟩ := ih _ hsplit
    obtain ⟨hax, hx, hapart, hpos, -⟩ := (hsplit ▸ h).next
    rw [List.foldl_append]
    exact hl.arrive hax hx hapart hpos (hkeep pre x post done hsplit hl)

lemma Stuck.foldl {m : ℕ} (h : Stuck m l) (floor : ℕ) (rest : List (Piece α))
    (hrest : ∀ p ∈ rest, p.start + p.len ≤ m ∨ m < p.start) :
    Stuck m (rest.foldl (Resequence.arrive floor) l) := by
  induction rest generalizing l with
  | nil => exact h
  | cons y rest ih => exact ih (h.arrive (hrest y (by simp))) fun p hp => hrest p (by simp [hp])

lemma Shuffle.foldl_complete (h : Shuffle a arrivals parts)
    (hfloor : ∀ pre x post, arrivals = pre ++ x :: post → Exposed pre x post → floor ≤ x.start) :
    arrivals.foldl (arrive floor) ⟨a, [], []⟩ = ⟨a + total Piece.len parts, parts.flatMap Piece.data, []⟩ := by
  have hkeep : ∀ pre x post done, arrivals = pre ++ x :: post →
      Intact a pre done (pre.foldl (arrive floor) ⟨a, [], []⟩) →
      ¬ (Leads x (pre.foldl (arrive floor) ⟨a, [], []⟩).wait ∧ x.start < floor) := by
    rintro pre x post done rfl hl ⟨hlead, hlt⟩
    have := hfloor pre x post rfl ((h.leads_iff_exposed hl).mp hlead)
    omega
  obtain ⟨done, hl⟩ := h.intact hkeep arrivals [] (by simp)
  exact h.complete hl

lemma Shuffle.floor_le (h : Shuffle a arrivals parts)
    (hnxt : (arrivals.foldl (arrive floor) ⟨a, [], []⟩).nxt = a + total Piece.len parts)
    (hsplit : arrivals = pre ++ x :: post) (hx : Exposed pre x post) : floor ≤ x.start := by
  have hkeep : ∀ pre x post done, arrivals = pre ++ x :: post →
      Intact a pre done (pre.foldl (arrive floor) ⟨a, [], []⟩) →
      ¬ (Leads x (pre.foldl (arrive floor) ⟨a, [], []⟩).wait ∧ x.start < floor) := by
    rintro pre x post done rfl hl ⟨hlead, hlt⟩
    obtain ⟨hax, hx, hapart, -, hpost⟩ := h.next
    have hrest : ∀ p ∈ post, p.start + p.len ≤ x.start ∨ x.start < p.start := by
      intro p hp
      have := hpost p hp
      simp only [Apart] at this
      omega
    rw [List.foldl_append, List.foldl_cons] at hnxt
    have := ((hl.stuck (hl.sane.nxt_le hax hx hapart) hlead hlt).foldl floor post hrest).nxt
    have := (h.inside (p := x) (by simp)).2.2
    omega
  obtain ⟨done, hl⟩ := h.intact hkeep pre (x :: post) hsplit
  by_contra hlt
  exact hkeep pre x post done hsplit hl
    ⟨((hsplit ▸ h).leads_iff_exposed hl).mpr hx, by omega⟩

end Run

end Tapip.Foundation.Resequence
