import Tapip.Tcp.Lifecycle

/-! Socks that come into being, and those a listening sock has in its queues. -/

namespace Tapip.Tcp.Links

open Foundation.Tally

variable {K : Users} {exact whole listening : Prop} {own own' : ℕ → ℤ} {used used' handed handed' dialing dialing' : ℕ → Prop}
  {g g' : Graph} {i j c p : ℕ} {n n' m m' : Node} {v : Option Node} {e l b w : List ℕ}

def Graph.grow (g : Graph) : Graph := { g with next := g.next + 1 }

lemma surplus_grow (hn : g.node g.next = none) : surplus g.grow = surplus g := by
  have hk : links g.grow = links g := by
    simp only [links, Graph.grow, List.range_succ, List.flatMap_append, List.flatMap_singleton, hn,
      Option.elim_none, List.append_nil]
  have hr : refcnts g.grow = refcnts g := rfl
  have hl : listed g.grow = listed g := rfl
  simp only [surplus, hk, hr, hl]

namespace Sound

variable (h : Sound K g)

include h

lemma fresh : g.node g.next = none := by
  cases hn : g.node g.next with
  | none => rfl
  | some n => exact absurd (h.counted.below _ _ hn) (lt_irrefl _)

lemma grow : Sound K g.grow where
  counted :=
    { below := fun i n hn => (h.counted.below i n hn).trans (Nat.lt_succ_self _)
      own_nonneg := h.counted.own_nonneg
      covered := by
        rw [surplus_grow h.fresh]
        exact h.counted.covered
      exact := by
        rw [surplus_grow h.fresh]
        exact h.counted.exact
      pos := h.counted.pos }
  hashed := ⟨h.hashed.nodup, h.hashed.flag, h.hashed.placed⟩
  bhashed := ⟨h.bhashed.nodup, h.bhashed.flag, h.bhashed.port, h.bhashed.distinct, h.bhashed.bound⟩
  timed := ⟨h.timed.nodup, h.timed.state, h.timed.settled, h.timed.adopted⟩
  dialed := ⟨fun i hi => (h.dialed.below i hi).trans (Nat.lt_succ_self _), h.dialed.ports⟩
  queued := ⟨h.queued.nodup, fun c n hn => (h.queued.kid c n hn).congr fun _ => .refl _ _⟩
  handed := ⟨h.handed.used, h.handed.idle, h.handed.state⟩

lemma unborn (hn : g.node i = none) : K.own i = 0 ∧ i ∉ g.etable ∧ i ∉ g.ltable ∧ i ∉ g.btable ∧
    i ∉ g.timewait ∧ ∀ p m, g.node p = some m → i ∉ refs m := by
  have hdead : ∀ {P : Prop}, (P → ∃ n, g.node i = some n) → ¬P := by
    rintro P hP hp
    obtain ⟨n, hn'⟩ := hP hp
    simp [hn] at hn'
  refine ⟨?_, hdead fun hm => h.counted.listed_live (.inl hm),
    hdead fun hm => h.counted.listed_live (.inr (.inl hm)),
    hdead fun hm => h.counted.listed_live (.inr (.inr (.inl hm))),
    hdead fun hm => h.counted.listed_live (.inr (.inr (.inr hm))), fun p m hp => ?_⟩
  · have ho : 0 ≤ K.own i := h.counted.own_nonneg i
    have hle : ¬1 ≤ K.own i := hdead h.counted.own_live
    omega
  · exact hdead fun hm => h.counted.links_live (links_pos hp (h.counted.below p m hp) hm)

lemma born (hn : g.node i = none) (hi : i < g.next) (hu : ∀ j, j ≠ i → (used' j ↔ K.used j))
    (hst : n.state = .closed) (hpar : n.parent = .none) (hl : n.listenQueue = []) (ha : n.acceptQueue = [])
    (hh : n.hashed = false) (hb : n.bhashed = false) (hr : n.refcnt = 1) (hnd : ¬K.dialing i) :
    Sound { K.hold i 1 with used := used' } (g.set i (some n)) := by
  obtain ⟨ho, he, hlt, hbt, hw, hrefs⟩ := h.unborn hn
  have hchange : surplus (g.edit i (some n) g.etable g.ltable g.btable g.timewait) = surplus g + Pi.single i 1 := by
    rw [surplus_edit hi hn tally_add_zero tally_add_zero tally_add_zero tally_add_zero]
    simp [refs, up, hl, ha, hpar, hr]
  exact
    { counted := by
        refine h.counted.edit hi hchange ?_ le_rfl (fun _ => rfl) ?_
        · intro j
          have hj : 0 ≤ K.own j := h.counted.own_nonneg j
          by_cases hji : j = i
          · subst hji
            simp [Users.hold, ho]
          · simpa [Users.hold, hji] using hj
        · rintro m hm
          cases hm
          omega
      hashed := by
        refine h.hashed.edit h.hashed.nodup (fun _ _ => Iff.rfl) (fun _ _ => Iff.rfl) (fun _ _ => Iff.rfl) ?_
        rintro m hm
        cases hm
        simp [hh, he, hlt, hst, Placed]
      bhashed := by
        refine h.bhashed.edit h.bhashed.nodup (fun _ _ => Iff.rfl) ?_
        rintro m hm
        cases hm
        simp [hb, hbt, hst]
      timed := by
        refine h.timed.edit h.timed.nodup hu (fun _ _ hm => hm) ?_
        rintro m hm
        cases hm
        simp [hw, hst, ending, hpar]
      dialed := h.dialed.edit hu (fun _ _ => Iff.rfl) (fun _ => hi) fun _ _ hd => absurd hd hnd
      queued := by
        refine h.queued.edit (add_single_of_ne K.own 1) (fun c _ => ?_) ?_
        · rw [hn]
          refine ⟨fun m hm hc => ?_, fun m hm hc => ?_, by simp, by simp⟩
          all_goals
            cases hm
            simp_all
        · rintro m hm
          cases hm
          refine ⟨by simp [hl, ha], fun p m hp hm => ?_, fun p m hp hm => ?_, ?_, ?_, ?_⟩
          · rcases node_edit_inv hp with ⟨rfl, hp'⟩ | ⟨-, hp'⟩
            · cases hp'
              simp [hl] at hm
            · exact absurd (mem_refs_of_queue (.inl hm)) (hrefs p m hp')
          · rcases node_edit_inv hp with ⟨rfl, hp'⟩ | ⟨-, hp'⟩
            · cases hp'
              simp [ha] at hm
            · exact absurd (mem_refs_of_queue (.inr hm)) (hrefs p m hp')
          all_goals simp [hpar]
      handed := by
        have hne : ∀ j, K.handed j → j ≠ i := by
          rintro j hj rfl
          obtain ⟨m, hm, -⟩ := h.handed.state j hj
          simp [hn] at hm
        refine ⟨fun j hj => (hu j (hne j hj)).mpr (h.handed.used j hj), h.handed.idle, fun j hj => ?_⟩
        rw [Graph.node_set_of_ne (hne j hj)]
        exact h.handed.state j hj }

end Sound

section Both

def Graph.both (g : Graph) (p c : ℕ) (m n : Node) (etable : List ℕ) : Graph :=
  (g.edit c (some n) etable g.ltable g.btable g.timewait).set p (some m)

@[simp] lemma both_node_parent : (g.both p c m n e).node p = some m := Graph.node_set_self

lemma both_node_self (hpc : p ≠ c) : (g.both p c m n e).node c = some n := by
  rw [Graph.both, Graph.node_set_of_ne hpc.symm, node_edit_self]

lemma both_node_of_ne (hjp : j ≠ p) (hjc : j ≠ c) : (g.both p c m n e).node j = g.node j := by
  rw [Graph.both, Graph.node_set_of_ne hjp, node_edit_of_ne hjc]

lemma set_set_set_set {a a' b b' : Option Node} (hpc : p ≠ c) :
    (((g.set p a).set c b).set p a').set c b' = (g.set c b').set p a' := by
  simp only [Graph.set, Function.update_comm hpc.symm, Function.update_idem]

lemma ne_of_parent (hp : g.node p = some m) (hc : g.node c = some n) (hpar : n.parent = .sock p)
    (hpp : ∀ q, m.parent ≠ .sock q) : p ≠ c := by
  rintro rfl
  cases Option.mem_unique hp hc
  exact hpp _ hpar

lemma Counted.parent_held (h : Counted exact own g) (hp : g.node p = some m) (hc : g.node c = some n)
    (hpar : n.parent = .sock p) (hown : 1 ≤ own p) : 2 ≤ m.refcnt := by
  have hge := h.refcnt_ge hp
  have hlisted := listed_nonneg g p
  have hkid : 1 ≤ links g p := links_pos hc (h.below c n hc) (by simp [refs, up, hpar])
  omega

lemma both_node_inv (hpc : p ≠ c) {k : Node} (hj : (g.both p c m n e).node j = some k) :
    (j = p ∧ k = m) ∨ (j = c ∧ k = n) ∨ (j ≠ p ∧ j ≠ c ∧ g.node j = some k) := by
  by_cases hjp : j = p
  · subst hjp
    rw [both_node_parent] at hj
    exact .inl ⟨rfl, (Option.some.inj hj).symm⟩
  by_cases hjc : j = c
  · subst hjc
    rw [both_node_self hpc] at hj
    exact .inr (.inl ⟨rfl, (Option.some.inj hj).symm⟩)
  · rw [both_node_of_ne hjp hjc] at hj
    exact .inr (.inr ⟨hjp, hjc, hj⟩)

lemma surplus_both {o : Option Node} {a : ℤ} (hpc : p ≠ c) (hpn : p < g.next) (hcn : c < g.next)
    (hp : g.node p = some m) (hc : g.node c = o) (he : tally id e = tally id g.etable + Pi.single c a) :
    surplus (g.both p c m' n e) = surplus g
      + (Pi.single c (n.refcnt - o.elim 0 Node.refcnt - a) - (tally id (refs n) - tally id (o.elim [] refs)))
      + (Pi.single p (m'.refcnt - m.refcnt) - (tally id (refs m') - tally id (refs m))) := by
  generalize hg1 : g.edit c (some n) e g.ltable g.btable g.timewait = g1
  have hnode1 : g1.node p = some m := by rw [← hg1, node_edit_of_ne hpc, hp]
  have hnext1 : p < g1.next := by rw [← hg1]; exact hpn
  have hs1 := @surplus_edit g c (some n) e g.ltable g.btable g.timewait o hcn hc a 0 0 0 he
    tally_add_zero tally_add_zero tally_add_zero
  have hs2 := @surplus_edit g1 p (some m') g1.etable g1.ltable g1.btable g1.timewait _ hnext1 hnode1
    0 0 0 0 tally_add_zero tally_add_zero tally_add_zero tally_add_zero
  rw [hg1] at hs1
  rw [Graph.both, hg1]
  refine hs2.trans ?_
  rw [hs1]
  simp only [Option.elim_some, sub_zero]
  abel

lemma Queued.both (h : Queued exact whole own g) (hpc : p ≠ c) (hown : ∀ j, j ≠ c → own' j = own j)
    (hm : g.node p = some m) (hst : m'.state = m.state) (hpar : m'.parent = m.parent)
    (hemb : m.state = .synRecv → ∀ q, m.parent ≠ .sock q) (hsp : ∀ d, d ≠ c → Sees d (some m) (some m'))
    (hsc : ∀ d, d ≠ c → Sees d (g.node c) (some n))
    (hmd : (m'.listenQueue ++ m'.acceptQueue).Nodup) (hnd : (n.listenQueue ++ n.acceptQueue).Nodup)
    (hk : Kid exact whole (own' c) (g.both p c m' n e) c n) : Queued exact whole own' (g.both p c m' n e) := by
  have hs : ∀ d, d ≠ c → ∀ q, Sees d (g.node q) ((g.both p c m' n e).node q) := by
    intro d hd q
    by_cases hqp : q = p
    · subst hqp
      rw [both_node_parent, hm]
      exact hsp d hd
    by_cases hqc : q = c
    · subst hqc
      rw [both_node_self hpc]
      exact hsc d hd
    rw [both_node_of_ne hqp hqc]
    exact .refl _ _
  refine ⟨fun q k hq => ?_, fun d k hd => ?_⟩
  · rcases both_node_inv hpc hq with ⟨rfl, rfl⟩ | ⟨rfl, rfl⟩ | ⟨-, -, hq⟩
    · exact hmd
    · exact hnd
    · exact h.nodup q k hq
  · rcases both_node_inv hpc hd with ⟨rfl, rfl⟩ | ⟨rfl, rfl⟩ | ⟨-, hdc, hd⟩
    · rw [hown d hpc]
      apply ((h.kid d m hm).congr (hs d hpc)).restate hpar
      intro q hq
      rw [hst]
      exact ⟨.refl _ _, (h.kid d m hm).dialed q hq, fun hsyn => absurd hq (hemb hsyn q)⟩
    · exact hk
    · rw [hown d hdc]
      exact (h.kid d k hd).congr (hs d hdc)

lemma Handed.both (h : Handed used handed dialing g) (hpc : p ≠ c) (hp : g.node p = some m)
    (hst : m'.state = m.state) (hu : ∀ j, j ≠ c → (used' j ↔ used j))
    (hh : ∀ j, handed' j → j ≠ c → handed j)
    (hc : handed' c → used' c ∧ ¬dialing c ∧ connected n.state) :
    Handed used' handed' dialing (g.both p c m' n e) := by
  refine ⟨fun j hj => ?_, fun j hj => ?_, fun j hj => ?_⟩
  all_goals by_cases hjc : j = c
  · exact hjc ▸ (hc (hjc ▸ hj)).1
  · exact (hu j hjc).mpr (h.used j (hh j hj hjc))
  · exact hjc ▸ (hc (hjc ▸ hj)).2.1
  · exact h.idle j (hh j hj hjc)
  · subst hjc
    exact ⟨n, both_node_self hpc, (hc hj).2.2⟩
  · by_cases hjp : j = p
    · subst hjp
      exact ⟨m', both_node_parent, hst ▸ h.live hp (hh j hj hjc)⟩
    · rw [both_node_of_ne hjp hjc]
      exact h.state j (hh j hj hjc)

/-- What a change of a sock and its parent keeps, given what the change of the sock alone keeps. -/
lemma Sound.both {m' : Node} {l a : List ℕ} {r : ℤ} (h : Counted K.exact K.own g) (hpc : p ≠ c) (hp : g.node p = some m)
    (hm : m' = { m with listenQueue := l, acceptQueue := a, refcnt := r })
    (hcn : c < g.next) (hr : 1 ≤ r) (hn : 1 ≤ n.refcnt) (hs : surplus (g.both p c m' n e) = surplus g)
    (hhashed : Hashed K.dialing (g.edit c (some n) e g.ltable g.btable g.timewait))
    (hbhashed : Bhashed K.listening (g.edit c (some n) e g.ltable g.btable g.timewait))
    (htimed : Timed K.used (g.edit c (some n) e g.ltable g.btable g.timewait))
    (hdialed : Dialed K.used K.dialing (g.edit c (some n) e g.ltable g.btable g.timewait))
    (hqueued : Queued K.exact K.whole K.own (g.both p c m' n e))
    (hhanded : Handed K.used K.handed K.dialing (g.both p c m' n e)) : Sound K (g.both p c m' n e) := by
  subst hm
  have hnode : (g.edit c (some n) e g.ltable g.btable g.timewait).node p = some m := by
    rw [node_edit_of_ne hpc, hp]
  refine ⟨?_, hhashed.keep hnode rfl (fun _ _ => Iff.rfl) fun hp => hp, hbhashed.keep hnode rfl (fun _ => rfl) fun hl => hl,
    htimed.keep hnode rfl (fun _ hw => hw) fun hs hns => absurd hs hns, hdialed.keep hnode rfl rfl, hqueued, hhanded⟩
  refine h.change (hs.trans (add_zero _).symm) h.own_nonneg (by simp) (by simp) fun j k hj => ?_
  change j < g.next ∧ _
  rcases both_node_inv hpc hj with ⟨rfl, rfl⟩ | ⟨rfl, rfl⟩ | ⟨-, -, hj⟩
  · exact ⟨h.below j m hp, hr⟩
  · exact ⟨hcn, hn⟩
  · exact ⟨h.below j k hj, h.pos j k hj⟩

end Both

def Graph.child (g : Graph) (p c : ℕ) (m kid : Node) : Graph :=
  g.both p c { m with listenQueue := c :: m.listenQueue, refcnt := m.refcnt + 1 } kid (c :: g.etable)

structure Embryo (p : ℕ) (kid : Node) : Prop where
  state : kid.state = .synRecv
  parent : kid.parent = .sock p
  listenQueue : kid.listenQueue = []
  acceptQueue : kid.acceptQueue = []
  hashed : kid.hashed = true
  bhashed : kid.bhashed = false
  refcnt : kid.refcnt = 2

section Child

variable {kid : Node} (hk : Embryo p kid) (hp : g.node p = some m) (hpc : p ≠ c)

include hk hp hpc

lemma surplus_child (hpn : p < g.next) (hcn : c < g.next) (hc : g.node c = none) :
    surplus (g.child p c m kid) = surplus g := by
  rw [Graph.child, surplus_both hpc hpn hcn hp hc (tally_cons_add _ _)]
  simp [refs, up, hk.listenQueue, hk.acceptQueue, hk.parent, hk.refcnt]
  abel

lemma Queued.child (h : Queued exact whole own g) (hl : m.state = .listen) (hc : g.node c = none)
    (ho : own c = 0) (hq : ∀ q k, g.node q = some k → c ∉ k.listenQueue ∧ c ∉ k.acceptQueue) :
    Queued exact whole own (g.child p c m kid) := by
  refine h.both hpc (fun _ _ => rfl) hp rfl rfl (by simp [hl]) (fun d hd => ?_) (fun d hd => ?_) ?_ ?_ ?_
  · exact sees_of (by simp [hd]) Iff.rfl fun _ hs => hs
  · rw [hc]
    refine ⟨fun k hm hd => ?_, fun k hm hd => ?_, fun k hm => (by cases hm), fun k hm => (by cases hm)⟩
    · cases hm
      simp [hk.listenQueue] at hd
    · cases hm
      simp [hk.acceptQueue] at hd
  · obtain ⟨h1, h2⟩ := hq p m hp
    rw [List.cons_append, List.nodup_cons]
    exact ⟨by simp [h1, h2], h.nodup p m hp⟩
  · simp [hk.listenQueue, hk.acceptQueue]
  · refine ⟨fun q k hm hin => ?_, fun q k hm hin => ?_, fun q hq' _ => ?_, fun _ q hq' => ?_,
      by simp [hk.state]⟩
    · rcases both_node_inv hpc hm with ⟨rfl, -⟩ | ⟨-, rfl⟩ | ⟨-, -, hm⟩
      · exact ⟨hk.parent, .inl hk.state⟩
      · simp [hk.listenQueue] at hin
      · exact absurd hin (hq q k hm).1
    · rcases both_node_inv hpc hm with ⟨rfl, rfl⟩ | ⟨-, rfl⟩ | ⟨-, -, hm⟩
      · exact absurd hin (hq q m hp).2
      · simp [hk.acceptQueue] at hin
      · exact absurd hin (hq q k hm).2
    · obtain rfl : p = q := by simpa [hk.parent] using hq'
      have hr := hk.refcnt
      exact ⟨by omega, _, both_node_parent, hl, by simp⟩
    · obtain rfl : p = q := by simpa [hk.parent] using hq'
      exact ⟨_, both_node_parent, .inl (by simp)⟩

end Child

lemma Sound.child {kid : Node} (h : Sound K g) (hk : Embryo p kid)
    (hp : g.node p = some m) (hl : m.state = .listen) (hc : g.node c = none) (hcn : c < g.next)
    (hu : ¬K.used c) (hnd : ¬K.dialing c) : Sound K (g.child p c m kid) := by
  obtain ⟨ho, he, hlt, hbt, hw, hrefs⟩ := h.unborn hc
  have hpc : p ≠ c := by
    rintro rfl
    simp [hp] at hc
  have hrp := h.counted.pos p m hp
  have hpn := h.counted.below p m hp
  have hr := hk.refcnt
  refine Sound.both h.counted hpc hp rfl hcn (by omega) (by omega) (surplus_child hk hp hpc hpn hcn hc) ?_ ?_ ?_ ?_ ?_
    (h.handed.both hpc hp rfl (fun _ _ => Iff.rfl) (fun _ hj _ => hj) fun hj => absurd (h.handed.used c hj) hu)
  · refine h.hashed.edit ?_ (fun _ _ => Iff.rfl) (fun j hj => by simp [hj]) (fun _ _ => Iff.rfl) ?_
    · rw [List.cons_append, List.nodup_cons]
      exact ⟨by simp [he, hlt], h.hashed.nodup⟩
    · rintro k hk'
      cases hk'
      simp [hk.hashed, hk.state, Placed, hlt]
  · refine h.bhashed.edit h.bhashed.nodup (fun _ _ => Iff.rfl) ?_
    rintro k hk'
    cases hk'
    simp [hk.bhashed, hbt, hk.state]
  · refine h.timed.edit h.timed.nodup (fun _ _ => Iff.rfl) (fun _ _ hm => hm) ?_
    rintro k hk'
    cases hk'
    simp [hw, hk.state, ending, hu]
  · exact h.dialed.edit (fun _ _ => Iff.rfl) (fun _ _ => Iff.rfl) (fun _ => hcn) fun _ _ hd => absurd hd hnd
  · exact h.queued.child hk hp hpc hl hc ho fun q k hq =>
      ⟨fun hm => hrefs q k hq (mem_refs_of_queue (.inl hm)), fun hm => hrefs q k hq (mem_refs_of_queue (.inr hm))⟩

section Queue

lemma Queued.only_in (h : Queued exact whole own g) (hc : g.node c = some n) (hpar : n.parent = .sock p) {q : ℕ}
    {k : Node} (hk : g.node q = some k) (hm : c ∈ k.listenQueue ∨ c ∈ k.acceptQueue) : q = p := by
  have hkid := h.kid c n hc
  rcases hm with hm | hm
  · have := (hkid.listening q k hk hm).1
    simpa [hpar, eq_comm] using this
  · have := (hkid.accepting q k hk hm).1
    simpa [hpar, eq_comm] using this

def Graph.join (g : Graph) (p c : ℕ) (m n : Node) (b : TcpState) : Graph :=
  g.both p c { m with listenQueue := m.listenQueue.erase c, acceptQueue := c :: m.acceptQueue.erase c }
    { n with state := b } g.etable

def Graph.detach (g : Graph) (p c : ℕ) (m n : Node) (parent : Parent) : Graph :=
  g.both p c { m with
      listenQueue := m.listenQueue.erase c, acceptQueue := m.acceptQueue.erase c
      refcnt := m.refcnt - 1 }
    { n with parent, refcnt := n.refcnt - 1 } g.etable

lemma surplus_join (hpc : p ≠ c) (hp : g.node p = some m) (hc : g.node c = some n) (hpn : p < g.next)
    (hcn : c < g.next) (hl : c ∈ m.listenQueue) (ha : c ∉ m.acceptQueue) (b : TcpState) :
    surplus (g.join p c m n b) = surplus g := by
  rw [Graph.join, surplus_both hpc hpn hcn hp hc tally_add_zero]
  simp [refs, tally_erase hl, List.erase_of_not_mem ha]
  abel

lemma surplus_detach (hpc : p ≠ c) (hp : g.node p = some m) (hc : g.node c = some n) (hpn : p < g.next)
    (hcn : c < g.next) (hpar : n.parent = .sock p) (hnd : (m.listenQueue ++ m.acceptQueue).Nodup)
    (hq : c ∈ m.listenQueue ∨ c ∈ m.acceptQueue) {parent : Parent} (hx : ∀ q, parent ≠ .sock q) :
    surplus (g.detach p c m n parent) = surplus g := by
  have hdis := (List.nodup_append'.mp hnd).2.2
  have hsum : tally id (m.listenQueue.erase c) + tally id (m.acceptQueue.erase c) =
      tally id m.listenQueue + tally id m.acceptQueue - Pi.single c 1 := by
    rcases hq with hq | hq
    · rw [tally_erase hq, List.erase_of_not_mem fun hm => hdis hq hm]
      abel
    · rw [tally_erase hq, List.erase_of_not_mem fun hm => hdis hm hq]
      abel
  rw [Graph.detach, surplus_both hpc hpn hcn hp hc tally_add_zero]
  simp [refs, hpar, up, eq_sub_of_add_eq hsum, Pi.single_neg]
  abel

variable (h : Sound K g) (hp : g.node p = some m)
  (hc : g.node c = some n)

include h hp hc

lemma Sound.join (hl : m.state = .listen) (hst : n.state = .synRecv) (hpar : n.parent = .sock p)
    {b : TcpState} (hb : b = .established ∨ b = .closeWait) :
    Sound K (g.join p c m n b) := by
  have hpc : p ≠ c := by
    rintro rfl
    cases Option.mem_unique hp hc
    simp [hl] at hst
  have hmem : c ∈ m.listenQueue := by
    obtain ⟨-, k, hk, -, hm⟩ := (h.queued.kid c n hc).embryo p hpar hst
    cases Option.mem_unique hp hk
    exact hm
  have hnd := h.queued.nodup p m hp
  obtain ⟨hlnd, hand, hdis⟩ := List.nodup_append'.mp hnd
  have hnot : c ∉ m.acceptQueue := fun hm => hdis hmem hm
  have hcn := h.counted.below c n hc
  refine Sound.both h.counted hpc hp rfl hcn (h.counted.pos p m hp) (h.counted.pos c n hc)
    (surplus_join hpc hp hc (h.counted.below p m hp) hcn hmem hnot b) (h.hashed.keep hc rfl (fun _ _ => Iff.rfl) ?_)
    (h.bhashed.keep hc rfl (fun _ => rfl) ?_) (h.timed.keep hc rfl ?_ ?_) (h.dialed.keep hc rfl rfl) ?_
    (h.handed.both hpc hp rfl (fun _ _ => Iff.rfl) (fun _ hj _ => hj)
      fun hj => absurd (h.handed.live hc hj) (by simp [connected, hst]))
  · rw [hst]
    rcases hb with rfl | rfl <;> exact fun hp => hp
  · rcases hb with rfl | rfl <;> simp
  · rw [hst]
    simp [waits]
  · rcases hb with rfl | rfl <;> simp [ending]
  · refine h.queued.both hpc (fun _ _ => rfl) hp rfl rfl (by simp [hl]) (fun d hd => ?_) (fun d hd => ?_)
      ?_ (h.queued.nodup c n hc) ?_
    · exact sees_of (List.mem_erase_of_ne hd) (by simp [hd, List.mem_erase_of_ne]) fun _ hs => hs
    · rw [hc]
      exact sees_of Iff.rfl Iff.rfl (by simp [hst])
    · rw [List.nodup_middle, List.nodup_cons, List.erase_of_not_mem hnot]
      refine ⟨by simp [hlnd.mem_erase_iff, hnot], List.nodup_append'.mpr ⟨hlnd.erase c, hand, ?_⟩⟩
      exact fun j h1 h2 => hdis (List.mem_of_mem_erase h1) h2
    · have honly : ∀ q k, q ≠ p → (g.both p c { m with
          listenQueue := m.listenQueue.erase c, acceptQueue := c :: m.acceptQueue.erase c }
          { n with state := b } g.etable).node q = some k → ¬(c ∈ k.listenQueue ∨ c ∈ k.acceptQueue) := by
        intro q k hq hk hm
        rcases both_node_inv hpc hk with ⟨rfl, -⟩ | ⟨rfl, rfl⟩ | ⟨-, -, hk⟩
        · exact hq rfl
        · exact hq (h.queued.only_in hc hpar hc hm)
        · exact hq (h.queued.only_in hc hpar hk hm)
      refine ⟨fun q k hk hm => ?_, fun q k hk hm => ?_, fun q hq hsyn => ?_, fun _ q hq => ?_, fun q hq => ?_⟩
      · by_cases hqp : q = p
        · subst hqp
          rw [both_node_parent] at hk
          cases hk
          simp [hlnd.mem_erase_iff] at hm
        · exact absurd (.inl hm) (honly q k hqp hk)
      · by_cases hqp : q = p
        · exact ⟨hqp ▸ hpar, by rcases hb with rfl | rfl <;> simp⟩
        · exact absurd (.inr hm) (honly q k hqp hk)
      · rcases hb with rfl | rfl <;> simp at hsyn
      · obtain rfl : p = q := by simpa [hpar] using hq
        exact ⟨_, both_node_parent, .inr (by simp)⟩
      · rcases hb with rfl | rfl <;> simp

lemma Sound.detach (hpar : n.parent = .sock p) (hq : c ∈ m.listenQueue ∨ c ∈ m.acceptQueue)
    (hown : 1 ≤ K.own p) (hpp : ∀ q, m.parent ≠ .sock q) (hr : 1 < n.refcnt) (parent : Parent)
    (hx : ∀ q, parent ≠ .sock q) (hu : ∀ j, j ≠ c → (used' j ↔ K.used j))
    (hh : ∀ j, handed' j → j ≠ c → K.handed j)
    (hh' : handed' c → used' c ∧ ¬K.dialing c ∧ connected n.state) :
    Sound { K with used := used', handed := handed' } (g.detach p c m n parent) := by
  have hpc := ne_of_parent hp hc hpar hpp
  have hpn := h.counted.below p m hp
  have hcn := h.counted.below c n hc
  have hnd := h.queued.nodup p m hp
  obtain ⟨hlnd, hand, hdis⟩ := List.nodup_append'.mp hnd
  have hrp := h.counted.parent_held hp hc hpar hown
  refine Sound.both h.counted hpc hp rfl hcn (by omega) (by simp only; omega)
    (surplus_detach hpc hp hc hpn hcn hpar hnd hq hx) (h.hashed.keep hc rfl (fun _ _ => Iff.rfl) fun hp => hp)
    (h.bhashed.keep hc rfl (fun _ => rfl) fun hl => hl) (h.timed.edit h.timed.nodup hu (fun _ _ hm => hm) ?_)
    (h.dialed.edit hu (fun _ _ => Iff.rfl) (fun _ => hcn) ?_) ?_ (h.handed.both hpc hp rfl hu hh hh')
  · rintro k hk
    cases hk
    refine ⟨h.timed.state c n hc, fun he => ?_, fun _ => hx⟩
    exact absurd hpar ((h.timed.settled c n hc he).2 p)
  · rintro k hk hd
    cases hk
    exact h.dialed.ports c n hc hd
  · refine h.queued.both hpc (fun _ _ => rfl) hp rfl rfl (fun _ => hpp) (fun d hd => ?_) (fun d hd => ?_)
      ?_ (h.queued.nodup c n hc) ?_
    · exact sees_of (List.mem_erase_of_ne hd) (List.mem_erase_of_ne hd) fun _ hs => hs
    · rw [hc]
      exact sees_of Iff.rfl Iff.rfl fun _ hs => hs
    · exact List.nodup_append'.mpr ⟨hlnd.erase c, hand.erase c,
        fun j h1 h2 => hdis (List.mem_of_mem_erase h1) (List.mem_of_mem_erase h2)⟩
    · have hout : ∀ q k, (g.detach p c m n parent).node q = some k → ¬(c ∈ k.listenQueue ∨ c ∈ k.acceptQueue) := by
        intro q k hk hm
        rcases both_node_inv hpc hk with ⟨rfl, rfl⟩ | ⟨rfl, rfl⟩ | ⟨hqp, -, hk⟩
        · simp [hlnd.mem_erase_iff, hand.mem_erase_iff] at hm
        · exact hpc (h.queued.only_in hc hpar hc hm).symm
        · exact hqp (h.queued.only_in hc hpar hk hm)
      exact ⟨fun q k hk hm => absurd (.inl hm) (hout q k hk), fun q k hk hm => absurd (.inr hm) (hout q k hk),
        fun q hq => absurd hq (hx q), fun _ q hq => absurd hq (hx q), fun q hq => absurd hq (hx q)⟩

lemma Sound.skip (hex : ¬K.exact) (hm : c ∈ m.listenQueue) (hst : n.state ≠ .synRecv) (hpp : ∀ q, m.parent ≠ .sock q) :
    Sound K
      (g.set p (some { m with listenQueue := m.listenQueue.erase c })) := by
  have hpn := h.counted.below p m hp
  have hcn := h.counted.below c n hc
  obtain ⟨hlnd, hand, hdis⟩ := List.nodup_append'.mp (h.queued.nodup p m hp)
  have hpar := ((h.queued.kid c n hc).listening p m hp hm).1
  have hs : surplus (g.edit p (some { m with listenQueue := m.listenQueue.erase c }) g.etable g.ltable
      g.btable g.timewait) = surplus g + Pi.single c 1 := by
    rw [surplus_edit hpn hp tally_add_zero tally_add_zero tally_add_zero tally_add_zero]
    simp [refs, tally_erase hm]
  have hpc := ne_of_parent hp hc hpar hpp
  have hsame : g.set p (some { m with listenQueue := m.listenQueue.erase c }) =
      g.both p c { m with listenQueue := m.listenQueue.erase c } n g.etable := by
    have he : Function.update g.node c (some n) = g.node := Function.update_eq_self_iff.mpr hc.symm
    simp only [Graph.both, Graph.edit, Graph.set, he]
  refine ⟨?_, h.hashed.keep hp rfl (fun _ _ => Iff.rfl) fun hp => hp,
    h.bhashed.keep hp rfl (fun _ => rfl) fun hl => hl,
    h.timed.keep hp rfl (fun _ hw => hw) fun hs hns => absurd hs hns, h.dialed.keep hp rfl rfl, ?_,
    h.handed.keep hp fun _ hc => hc⟩
  · refine h.counted.edit hpn hs h.counted.own_nonneg (fun j => ?_) (fun he => absurd he hex) ?_
    · have hj : 0 ≤ (Pi.single c 1 : ℕ → ℤ) j := by
        by_cases hjc : j = c <;> simp [hjc]
      simp only [Pi.add_apply]
      omega
    · rintro k hk
      cases hk
      exact h.counted.pos p m hp
  · rw [hsame]
    refine h.queued.both hpc (fun _ _ => rfl) hp rfl rfl (fun _ => hpp) (fun d hd => ?_) (fun d hd => ?_)
      ?_ (h.queued.nodup c n hc) ?_
    · exact sees_of (List.mem_erase_of_ne hd) Iff.rfl fun _ hs => hs
    · rw [hc]
      exact .refl _ _
    · exact List.nodup_append'.mpr ⟨hlnd.erase c, hand, fun j h1 h2 => hdis (List.mem_of_mem_erase h1) h2⟩
    · have hout : ∀ q k, (g.both p c { m with listenQueue := m.listenQueue.erase c } n g.etable).node q =
          some k → ¬(c ∈ k.listenQueue ∨ c ∈ k.acceptQueue) := by
        intro q k hk hin
        rcases both_node_inv hpc hk with ⟨rfl, rfl⟩ | ⟨rfl, rfl⟩ | ⟨hqp, -, hk⟩
        · have hnot : c ∉ m.acceptQueue := fun ha => hdis hm ha
          simp [hlnd.mem_erase_iff, hnot] at hin
        · exact hpc (h.queued.only_in hc hpar hc hin).symm
        · exact hqp (h.queued.only_in hc hpar hk hin)
      exact ⟨fun q k hk hm => absurd (.inl hm) (hout q k hk), fun q k hk hm => absurd (.inr hm) (hout q k hk),
        fun _ _ hs => absurd hs hst, fun he => absurd he hex, (h.queued.kid c n hc).dialed⟩

end Queue

end Tapip.Tcp.Links
