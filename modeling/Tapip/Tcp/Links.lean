import Tapip.Foundation.Tally
import Tapip.Tcp.World

/-! The socks as nodes of a graph: the tables and queues they are linked in, and their reference
counts. -/

namespace Tapip.Tcp.Links

open Foundation.Tally

variable {dialing dialing' used used' : ℕ → Prop}

structure Node where
  state : TcpState
  parent : Parent
  listenQueue : List ℕ
  acceptQueue : List ℕ
  recvWait : Bool
  sport : UInt16
  dport : UInt16
  hashed : Bool
  bhashed : Bool
  refcnt : ℤ

def nodeOf (t : TcpSock) : Node where
  state := t.state
  parent := t.parent
  listenQueue := t.listenQueue
  acceptQueue := t.acceptQueue
  recvWait := t.sk.recvWait
  sport := t.sk.skSport
  dport := t.sk.skDport
  hashed := t.sk.hashed
  bhashed := t.bhashed
  refcnt := t.sk.refcnt

structure Graph where
  node : ℕ → Option Node
  next : ℕ
  etable : List ℕ
  ltable : List ℕ
  btable : List ℕ
  timewait : List ℕ

def graphOf (w : TcpWorld) : Graph where
  node id := (w.socks id).map nodeOf
  next := w.nextSock
  etable := w.etable
  ltable := w.ltable
  btable := w.btable
  timewait := w.timewait

variable {g : Graph} {i j : ℕ} {v : Option Node}

namespace Graph

def set (g : Graph) (i : ℕ) (n : Option Node) : Graph := { g with node := Function.update g.node i n }

@[simp] lemma node_set_self : (g.set i v).node i = v := Function.update_self _ _ _

lemma node_set_of_ne (h : j ≠ i) : (g.set i v).node j = g.node j := Function.update_of_ne h _ _

lemma set_set (v' : Option Node) : (g.set i v).set i v' = g.set i v' := by
  simp [set]

end Graph

def up : Parent → List ℕ
  | .sock p => [p]
  | _ => []

def refs (n : Node) : List ℕ := n.listenQueue ++ n.acceptQueue ++ up n.parent

lemma up_eq_nil {parent : Parent} (h : ∀ p, parent ≠ .sock p) : up parent = [] := by
  cases parent with
  | sock p => exact absurd rfl (h p)
  | none => rfl
  | dead => rfl

variable {n : Node}

section Surplus

def refcnts (g : Graph) : ℕ → ℤ := fun j => (g.node j).elim 0 Node.refcnt

def links (g : Graph) : ℕ → ℤ := tally id ((List.range g.next).flatMap fun j => (g.node j).elim [] refs)

def listed (g : Graph) : ℕ → ℤ :=
  tally id g.etable + tally id g.ltable + tally id g.btable + tally id g.timewait

def surplus (g : Graph) : ℕ → ℤ := refcnts g - listed g - links g

lemma refcnts_set (v : Option Node) : refcnts (g.set i v) =
      refcnts g + Pi.single i (v.elim 0 Node.refcnt - (g.node i).elim 0 Node.refcnt) := by
  funext j
  by_cases hj : j = i
  · subst hj
    simp [refcnts]
  · simp [refcnts, Graph.node_set_of_ne hj, hj]

lemma links_set (v : Option Node) (hi : i < g.next) :
    links (g.set i v) = links g + (tally id (v.elim [] refs) - tally id ((g.node i).elim [] refs)) :=
  tally_flatMap_range_update id (fun o : Option Node => o.elim [] refs) v hi

lemma links_nonneg (g : Graph) (j : ℕ) : 0 ≤ links g j := tally_nonneg id _ j

lemma tally_pos {l : List ℕ} (h : j ∈ l) : 1 ≤ tally id l j := by
  have hpos : 0 < (l.map id).count j := List.count_pos_iff.mpr (by simpa using h)
  simp only [tally]
  omega

lemma tally_eq_zero {l : List ℕ} (h : j ∉ l) : tally id l j = 0 := by
  simp only [tally, List.map_id]
  exact_mod_cast List.count_eq_zero.mpr h

lemma tally_erase {l : List ℕ} (h : i ∈ l) : tally id (l.erase i) = tally id l - Pi.single i 1 := by
  have hperm := tally_perm id (List.perm_cons_erase h)
  rw [hperm, tally_cons]
  simp

lemma links_pos (hi : g.node i = some n) (hlt : i < g.next) (hj : j ∈ refs n) : 1 ≤ links g j := by
  refine tally_pos (List.mem_flatMap.mpr ⟨i, List.mem_range.mpr hlt, ?_⟩)
  simpa [hi] using hj

end Surplus

def Graph.edit (g : Graph) (i : ℕ) (v : Option Node) (etable ltable btable timewait : List ℕ) : Graph :=
  { g with node := Function.update g.node i v, etable, ltable, btable, timewait }

variable {e l b w : List ℕ}

section Edit

@[simp] lemma node_edit_self : (g.edit i v e l b w).node i = v := Function.update_self _ _ _

lemma node_edit_of_ne (h : j ≠ i) : (g.edit i v e l b w).node j = g.node j :=
  Function.update_of_ne h _ _

lemma node_edit_inv {m : Node} (h : (g.edit i v e l b w).node j = some m) :
    (j = i ∧ v = some m) ∨ (j ≠ i ∧ g.node j = some m) := by
  by_cases hji : j = i
  · subst hji
    exact .inl ⟨rfl, by simpa using h⟩
  · exact .inr ⟨hji, by rwa [node_edit_of_ne hji] at h⟩

lemma surplus_edit {o : Option Node} (hi : i < g.next) (ho : g.node i = o) {a c d f : ℤ}
    (he : tally id e = tally id g.etable + Pi.single i a)
    (hl : tally id l = tally id g.ltable + Pi.single i c)
    (hb : tally id b = tally id g.btable + Pi.single i d)
    (hw : tally id w = tally id g.timewait + Pi.single i f) :
    surplus (g.edit i v e l b w) = surplus g
      + Pi.single i (v.elim 0 Node.refcnt - o.elim 0 Node.refcnt - a - c - d - f)
      - (tally id (v.elim [] refs) - tally id (o.elim [] refs)) := by
  have hr : refcnts (g.edit i v e l b w) = _ := @refcnts_set g i v
  have hk : links (g.edit i v e l b w) = _ := links_set v hi
  have ht : listed (g.edit i v e l b w) = tally id e + tally id l + tally id b + tally id w := rfl
  rw [ho] at hr hk
  simp only [surplus]
  rw [hr, hk, ht, he, hl, hb, hw]
  simp only [listed, Pi.single_sub]
  abel

lemma tally_erase_add (l : List ℕ) (i : ℕ) :
    tally id (l.erase i) = tally id l + Pi.single i (-if i ∈ l then 1 else 0) := by
  split_ifs with h
  · rw [tally_erase h, Pi.single_neg, sub_eq_add_neg]
  · rw [List.erase_of_not_mem h]
    simp

lemma tally_cons_add (l : List ℕ) (i : ℕ) : tally id (i :: l) = tally id l + Pi.single i 1 := by
  rw [tally_cons, add_comm]
  rfl

lemma tally_add_zero {l : List ℕ} {i : ℕ} : tally id l = tally id l + Pi.single i 0 := by simp

end Edit

section Invariants

/-- Every reference count covers the references there are, and `own`, those of the sockets and of
lookups; in an `exact` run there are no others. -/
structure Counted (exact : Prop) (own : ℕ → ℤ) (g : Graph) : Prop where
  below : ∀ i n, g.node i = some n → i < g.next
  own_nonneg : 0 ≤ own
  covered : own ≤ surplus g
  exact : exact → surplus g = own
  pos : ∀ i n, g.node i = some n → 1 ≤ n.refcnt

def Placed (dialing inE inL : Prop) : TcpState → Prop
  | .closed => ¬inL ∧ (inE → dialing)
  | .listen => inL ∧ ¬inE ∧ ¬dialing
  | .synSent => inE ∧ ¬inL ∧ dialing
  | _ => inE ∧ ¬inL

structure Hashed (dialing : ℕ → Prop) (g : Graph) : Prop where
  nodup : (g.etable ++ g.ltable).Nodup
  flag : ∀ i n, g.node i = some n → (n.hashed = true ↔ i ∈ g.etable ∨ i ∈ g.ltable)
  placed : ∀ i n, g.node i = some n → Placed (dialing i) (i ∈ g.etable) (i ∈ g.ltable) n.state

lemma Hashed.edit (h : Hashed dialing g) (hnd : (e ++ l).Nodup) (hd : ∀ j, j ≠ i → (dialing' j ↔ dialing j))
    (he : ∀ j, j ≠ i → (j ∈ e ↔ j ∈ g.etable)) (hl : ∀ j, j ≠ i → (j ∈ l ↔ j ∈ g.ltable))
    (hv : ∀ n, v = some n → (n.hashed = true ↔ i ∈ e ∨ i ∈ l) ∧ Placed (dialing' i) (i ∈ e) (i ∈ l) n.state) :
    Hashed dialing' (g.edit i v e l b w) := by
  refine ⟨hnd, fun j n hj => ?_, fun j n hj => ?_⟩
  · rcases node_edit_inv hj with ⟨rfl, hm⟩ | ⟨hji, hm⟩
    · exact (hv n hm).1
    · simpa [Graph.edit, he j hji, hl j hji] using h.flag j n hm
  · rcases node_edit_inv hj with ⟨rfl, hm⟩ | ⟨hji, hm⟩
    · exact (hv n hm).2
    · simpa [Graph.edit, he j hji, hl j hji, hd j hji] using h.placed j n hm

structure Bhashed (listening : Prop) (g : Graph) : Prop where
  nodup : g.btable.Nodup
  flag : ∀ i n, g.node i = some n → (n.bhashed = true ↔ i ∈ g.btable)
  port : ∀ i n, g.node i = some n → n.bhashed = true → n.sport ≠ 0
  distinct : ∀ i j n m, g.node i = some n → g.node j = some m → n.bhashed = true → m.bhashed = true →
    n.sport = m.sport → i = j
  bound : listening → ∀ i n, g.node i = some n → n.state = .listen → n.bhashed = true

lemma Bhashed.edit {listening : Prop} (h : Bhashed listening g) (hnd : b.Nodup)
    (hb : ∀ j, j ≠ i → (j ∈ b ↔ j ∈ g.btable))
    (hv : ∀ n, v = some n → (n.bhashed = true ↔ i ∈ b) ∧ (n.bhashed = true → n.sport ≠ 0 ∧
      ∀ j m, j ≠ i → g.node j = some m → m.bhashed = true → n.sport ≠ m.sport) ∧
      (listening → n.state = .listen → n.bhashed = true)) :
    Bhashed listening (g.edit i v e l b w) := by
  refine ⟨hnd, fun j m hj => ?_, fun j m hj hm => ?_, fun j k m o hj hk hm ho hs => ?_, fun hl j m hj hm => ?_⟩
  · rcases node_edit_inv hj with ⟨rfl, hm⟩ | ⟨hji, hm⟩
    · exact (hv m hm).1
    · simpa [Graph.edit, hb j hji] using h.flag j m hm
  · rcases node_edit_inv hj with ⟨rfl, hj'⟩ | ⟨hji, hj'⟩
    · exact ((hv m hj').2.1 hm).1
    · exact h.port j m hj' hm
  · rcases node_edit_inv hj with ⟨rfl, hj'⟩ | ⟨hji, hj'⟩ <;>
      rcases node_edit_inv hk with ⟨rfl, hk'⟩ | ⟨hki, hk'⟩
    · rfl
    · exact absurd hs (((hv m hj').2.1 hm).2 k o hki hk' ho)
    · exact absurd hs.symm (((hv o hk').2.1 ho).2 j m hji hj' hm)
    · exact h.distinct j k m o hj' hk' hm ho hs
  · rcases node_edit_inv hj with ⟨rfl, hj'⟩ | ⟨hji, hj'⟩
    · exact (hv m hj').2.2 hl hm
    · exact h.bound hl j m hj' hm

def waits (state : TcpState) : Prop := state = .timeWait ∨ state = .closed

def ending : TcpState → Prop
  | .lastAck | .finWait1 | .finWait2 | .closing | .timeWait => True
  | _ => False

structure Timed (used : ℕ → Prop) (g : Graph) : Prop where
  nodup : g.timewait.Nodup
  state : ∀ i n, g.node i = some n → i ∈ g.timewait → waits n.state
  settled : ∀ i n, g.node i = some n → ending n.state ∨ i ∈ g.timewait →
    ¬used i ∧ ∀ p, n.parent ≠ .sock p
  adopted : ∀ i n, g.node i = some n → used i → ∀ p, n.parent ≠ .sock p

lemma Timed.edit (h : Timed used g) (hnd : w.Nodup)
    (hu : ∀ j, j ≠ i → (used' j ↔ used j)) (hw : ∀ j, j ≠ i → j ∈ w → j ∈ g.timewait)
    (hv : ∀ n, v = some n → (i ∈ w → waits n.state) ∧
      (ending n.state ∨ i ∈ w → ¬used' i ∧ ∀ p, n.parent ≠ .sock p) ∧
      (used' i → ∀ p, n.parent ≠ .sock p)) : Timed used' (g.edit i v e l b w) := by
  refine ⟨hnd, fun j n hj hm => ?_, fun j n hj hm => ?_, fun j n hj hm => ?_⟩
  · rcases node_edit_inv hj with ⟨rfl, hj'⟩ | ⟨hji, hj'⟩
    · exact (hv n hj').1 hm
    · exact h.state j n hj' (hw j hji hm)
  · rcases node_edit_inv hj with ⟨rfl, hj'⟩ | ⟨hji, hj'⟩
    · exact (hv n hj').2.1 hm
    · rw [hu j hji]
      exact h.settled j n hj' (hm.imp_right (hw j hji))
  · rcases node_edit_inv hj with ⟨rfl, hj'⟩ | ⟨hji, hj'⟩
    · exact (hv n hj').2.2 hm
    · exact h.adopted j n hj' ((hu j hji).mp hm)

structure Dialed (used dialing : ℕ → Prop) (g : Graph) : Prop where
  below : ∀ i, used i → i < g.next
  ports : ∀ i n, g.node i = some n → dialing i → n.sport ≠ 0 ∧ n.dport ≠ 0

lemma Dialed.edit (h : Dialed used dialing g)
    (hu : ∀ j, j ≠ i → (used' j ↔ used j)) (hd : ∀ j, j ≠ i → (dialing' j ↔ dialing j))
    (hi : used' i → i < g.next) (hv : ∀ n, v = some n → dialing' i → n.sport ≠ 0 ∧ n.dport ≠ 0) :
    Dialed used' dialing' (g.edit i v e l b w) := by
  refine ⟨fun j hj => ?_, fun j n hn hj => ?_⟩
  · by_cases hji : j = i
    · subst hji
      exact hi hj
    · exact h.below j ((hu j hji).mp hj)
  · rcases node_edit_inv hn with ⟨rfl, hm⟩ | ⟨hji, hm⟩
    · exact hv n hm hj
    · exact h.ports j n hm ((hd j hji).mp hj)

def connected (state : TcpState) : Prop := state = .established ∨ state = .closeWait

/-- Socks that `tcp_accept` has taken off a queue for a socket that does not have them yet. -/
structure Handed (used handed dialing : ℕ → Prop) (g : Graph) : Prop where
  used : ∀ i, handed i → used i
  idle : ∀ i, handed i → ¬dialing i
  state : ∀ i, handed i → ∃ n, g.node i = some n ∧ connected n.state

lemma Handed.edit {handed : ℕ → Prop} (h : Handed used handed dialing g) (hd : ∀ j, j ≠ i → (dialing' j ↔ dialing j))
    (hv : handed i → ¬dialing' i ∧ ∃ n, v = some n ∧ connected n.state) :
    Handed used handed dialing' (g.edit i v e l b w) := by
  refine ⟨h.used, fun j hj => ?_, fun j hj => ?_⟩
  · by_cases hji : j = i
    · subst hji
      exact (hv hj).1
    · rw [hd j hji]
      exact h.idle j hj
  · by_cases hji : j = i
    · subst hji
      rw [node_edit_self]
      exact (hv hj).2
    · rw [node_edit_of_ne hji]
      exact h.state j hj

end Invariants

section Queues

variable {exact whole : Prop} {own own' : ℕ → ℤ} {g' : Graph} {c : ℕ} {o o' : Option Node}

/-- What a sock's place in the queues of others says about it; in a `whole` run no connection request
is reset. -/
structure Kid (exact whole : Prop) (own : ℤ) (g : Graph) (c : ℕ) (n : Node) : Prop where
  listening : ∀ p m, g.node p = some m → c ∈ m.listenQueue →
    n.parent = .sock p ∧ (n.state = .synRecv ∨ ¬whole ∧ n.state = .closed)
  accepting : ∀ p m, g.node p = some m → c ∈ m.acceptQueue →
    n.parent = .sock p ∧ (n.state = .established ∨ n.state = .closeWait ∨ n.state = .closed)
  embryo : ∀ p, n.parent = .sock p → n.state = .synRecv → n.refcnt = 2 + own ∧
    ∃ m, g.node p = some m ∧ m.state = .listen ∧ c ∈ m.listenQueue
  nested : exact → ∀ p, n.parent = .sock p →
    ∃ m, g.node p = some m ∧ (c ∈ m.listenQueue ∨ c ∈ m.acceptQueue)
  dialed : ∀ p, n.parent = .sock p → n.state ≠ .synSent

structure Sees (c : ℕ) (o o' : Option Node) : Prop where
  listening : ∀ m', o' = some m' → c ∈ m'.listenQueue → ∃ m, o = some m ∧ c ∈ m.listenQueue
  accepting : ∀ m', o' = some m' → c ∈ m'.acceptQueue → ∃ m, o = some m ∧ c ∈ m.acceptQueue
  stays : ∀ m, o = some m → c ∈ m.listenQueue → ∃ m', o' = some m' ∧ c ∈ m'.listenQueue ∧
    (m.state = .listen → m'.state = .listen)
  accepts : ∀ m, o = some m → c ∈ m.acceptQueue → ∃ m', o' = some m' ∧ c ∈ m'.acceptQueue

lemma Sees.refl (c : ℕ) (o : Option Node) : Sees c o o :=
  ⟨fun m h hc => ⟨m, h, hc⟩, fun m h hc => ⟨m, h, hc⟩, fun m h hc => ⟨m, h, hc, fun hl => hl⟩,
    fun m h hc => ⟨m, h, hc⟩⟩

lemma Kid.congr {own : ℤ} (h : Kid exact whole own g c n) (hs : ∀ p, Sees c (g.node p) (g'.node p)) :
    Kid exact whole own g' c n := by
  refine ⟨fun p m' hp hc => ?_, fun p m' hp hc => ?_, fun p hp hst => ?_, fun hex p hp => ?_, h.dialed⟩
  · obtain ⟨m, hm, hmem⟩ := (hs p).listening m' hp hc
    exact h.listening p m hm hmem
  · obtain ⟨m, hm, hmem⟩ := (hs p).accepting m' hp hc
    exact h.accepting p m hm hmem
  · obtain ⟨hr, m, hm, hl, hmem⟩ := h.embryo p hp hst
    obtain ⟨m', hm', hmem', hl'⟩ := (hs p).stays m hm hmem
    exact ⟨hr, m', hm', hl' hl, hmem'⟩
  · obtain ⟨m, hm, hmem | hmem⟩ := h.nested hex p hp
    · obtain ⟨m', hm', hmem', -⟩ := (hs p).stays m hm hmem
      exact ⟨m', hm', .inl hmem'⟩
    · obtain ⟨m', hm', hmem'⟩ := (hs p).accepts m hm hmem
      exact ⟨m', hm', .inr hmem'⟩

structure Queued (exact whole : Prop) (own : ℕ → ℤ) (g : Graph) : Prop where
  nodup : ∀ p m, g.node p = some m → (m.listenQueue ++ m.acceptQueue).Nodup
  kid : ∀ c n, g.node c = some n → Kid exact whole (own c) g c n

lemma Queued.edit (h : Queued exact whole own g) (hown : ∀ j, j ≠ i → own' j = own j)
    (hs : ∀ c, c ≠ i → Sees c (g.node i) v)
    (hv : ∀ n, v = some n → (n.listenQueue ++ n.acceptQueue).Nodup ∧
      Kid exact whole (own' i) (g.edit i v e l b w) i n) : Queued exact whole own' (g.edit i v e l b w) := by
  refine ⟨fun p m hp => ?_, fun c n hc => ?_⟩
  · rcases node_edit_inv hp with ⟨rfl, hm⟩ | ⟨-, hm⟩
    · exact (hv m hm).1
    · exact h.nodup p m hm
  · rcases node_edit_inv hc with ⟨rfl, hn⟩ | ⟨hci, hn⟩
    · exact (hv n hn).2
    · rw [hown c hci]
      apply (h.kid c n hn).congr
      intro p
      by_cases hpi : p = i
      · subst hpi
        rw [node_edit_self]
        exact hs c hci
      · rw [node_edit_of_ne hpi]
        exact .refl _ _

end Queues

structure Terms where
  exact : Prop
  whole : Prop
  listening : Prop

/-- `used` are the socks of the sockets and of calls, `own` counts the references of sockets and of
lookups, and on the socks of `dialing` a thread sleeps in `tcp_connect`. -/
structure Users extends Terms where
  own : ℕ → ℤ
  used : ℕ → Prop
  handed : ℕ → Prop
  dialing : ℕ → Prop

def Users.hold (K : Users) (i : ℕ) (k : ℤ) : Users := { K with own := K.own + Pi.single i k }

lemma Users.hold_back (K : Users) (i : ℕ) : (K.hold i 1).hold i (-1) = K := by
  simp [hold, add_assoc, ← Pi.single_add]

structure Sound (K : Users) (g : Graph) : Prop where
  counted : Counted K.exact K.own g
  hashed : Hashed K.dialing g
  bhashed : Bhashed K.listening g
  timed : Timed K.used g
  dialed : Dialed K.used K.dialing g
  queued : Queued K.exact K.whole K.own g
  handed : Handed K.used K.handed K.dialing g

abbrev Standing (K : Users) (i : ℕ) (g : Graph) : Prop := Sound K g ∧ ∃ n, g.node i = some n

end Tapip.Tcp.Links
