import Tapip.Foundation.Hoare
import Tapip.Tcp.Children
import Tapip.Tcp.Connection
import Tapip.Tcp.In
import Tapip.Tcp.Timer

/-! What the functions of the TCP layer do to the graph of socks. -/

namespace Tapip.Tcp.Links

open Net.Pkb Foundation.Program Foundation.Hoare Connection Timer

variable {α β : Type} {bad : Fault → Prop} {g : Graph} {i j : ℕ} {n : Node}

abbrev seen (s : Local) : Graph := graphOf s.tcp

variable {net : Net}

section Primitives

variable {Q : α → Graph → Prop}

lemma sock_of_node (hs : seen s = g) (hn : g.node i = some n) : ∃ t, s.sock i = some t ∧ nodeOf t = n := by
  subst hs
  exact Option.map_eq_some_iff.mp hn

lemma node_of_sock {t : TcpSock} (ht : s.sock i = some t) : (seen s).node i = some (nodeOf t) :=
  Option.map_eq_some_iff.mpr ⟨t, ht, rfl⟩

lemma graphOf_update (w : TcpWorld) (o : Option TcpSock) :
    graphOf { w with socks := Function.update w.socks i o } = (graphOf w).set i (o.map nodeOf) := by
  simp only [graphOf, Graph.set, Graph.mk.injEq, and_true]
  funext j
  by_cases hj : j = i
  · subst hj
    simp
  · simp [hj]

lemma seen_edited (o : Option TcpSock) (b h : Bool) : seen (edited s i o b h) = (seen s).edit i (o.map nodeOf)
    (if h then unlinked i (seen s).ltable (seen s).etable else (seen s).etable) (without i h (seen s).ltable)
    (without i b (seen s).btable) (seen s).timewait :=
  congrArg (fun g : Graph => { g with
    etable := if h then unlinked i g.ltable g.etable else g.etable
    ltable := without i h g.ltable
    btable := without i b g.btable }) (graphOf_update s.tcp o)

lemma graphOf_alloc (w : TcpWorld) (t : TcpSock) (k : ℕ) (a : ℤ) :
    graphOf { w with socks := Function.update w.socks i (some t), nextSock := k, tcpId := a } =
      { (graphOf w).set i (some (nodeOf t)) with next := k } := by
  change { graphOf { w with socks := Function.update w.socks i (some t) } with next := k } = _
  rw [graphOf_update, Option.map_some]

lemma effect_fault (he : ¬bad e) : Effect seen bad (fault e : Prog Local α) g Q :=
  fun _ _ => runs_error rfl he

lemma effect_getSk {f : TcpSock → Prog Local α} (hn : g.node i = some n)
    (hf : ∀ t, nodeOf t = n → Effect seen bad (f t) g Q) :
    Effect seen bad (getSk net.env i >>= f) g Q := by
  intro s hs
  obtain ⟨t, ht, rfl⟩ := sock_of_node hs hn
  exact Runs.bind (runs_ok (getSk_run ht) (hf t rfl s hs))

lemma effect_readSk (hn : g.node i = some n) : Effect seen bad (getSk net.env i) g fun _ g' => g' = g := by
  intro s hs
  obtain ⟨t, ht, -⟩ := sock_of_node hs hn
  exact runs_ok (getSk_run ht) hs

lemma effect_dead (hn : g.node i = none) (hb : ¬bad .useAfterFree) : Effect seen bad (getSk net.env i >>= f) g Q := by
  rintro s rfl
  have hsock : s.tcp.socks i = none := by simpa [seen, graphOf] using hn
  have hrun : getSk net.env i s = .error .useAfterFree := by simp [getSk, Net.env, hsock]
  exact Runs.bind (runs_error hrun hb)

lemma effect_modifySk {Q : Unit → Graph → Prop} {f : TcpSock → TcpSock} (hn : g.node i = some n) (n' : Node)
    (hf : ∀ t, nodeOf t = n → nodeOf (f t) = n') (hQ : Q () (g.set i (some n'))) :
    Effect seen bad (modifySk net.env i f) g Q := by
  rintro s rfl
  obtain ⟨t, ht, hnt⟩ := sock_of_node rfl hn
  refine runs_ok (modifySk_run f ht) ?_
  rw [seen, Local.put, graphOf_update, Option.map_some, hf t hnt]
  exact hQ

lemma set_self (hn : g.node i = some n) : g.set i (some n) = g := by
  have he : Function.update g.node i (some n) = g.node := Function.update_eq_self_iff.mpr hn.symm
  simp only [Graph.set, he]

lemma effect_touch {Q : Unit → Graph → Prop} {f : TcpSock → TcpSock} (hn : g.node i = some n)
    (hf : ∀ t, nodeOf (f t) = nodeOf t) (hQ : Q () g) :
    Effect seen bad (modifySk net.env i f) g Q :=
  effect_modifySk hn n (fun t ht => (hf t).trans ht) (by rwa [set_self hn])

lemma effect_modifyWorld {Q : Unit → Graph → Prop} {f : TcpWorld → TcpWorld} (F : Graph → Graph)
    (hf : ∀ w, graphOf (f w) = F (graphOf w)) (hQ : Q () (F g)) :
    Effect seen bad (modifyWorld net.env f) g Q := by
  rintro s rfl
  refine runs_ok (a := ()) rfl ?_
  change Q () (graphOf (f s.tcp))
  rw [hf s.tcp]
  exact hQ

lemma effect_getWorld (hf : ∀ w, graphOf w = g → Effect seen bad (f w) g Q) :
    Effect seen bad (getWorld net.env >>= f) g Q :=
  fun s hs => Runs.bind (runs_ok rfl (hf s.tcp hs s hs))

lemma effect_freeSock {Q : Unit → Graph → Prop} (hn : g.node i = some n) (hQ : Q () (g.release i n)) :
    Effect seen bad (freeSock net.env i) g Q := by
  refine effect_getSk hn fun t ht => ?_
  have hr : t.sk.refcnt = n.refcnt := by rw [← ht]; rfl
  rw [Graph.release] at hQ
  rw [hr]
  split_ifs at hQ ⊢
  · exact effect_modifyWorld (fun g => g.set i none) (fun w => graphOf_update w none) hQ
  · refine effect_modifySk hn _ (fun t ht => ?_) hQ
    subst ht
    rfl

lemma effect_allocNewIss {Q : UInt32 → Graph → Prop} (hQ : ∀ iss, Q iss g) :
    Effect seen bad (allocNewIss net.env) g Q :=
  effect_getWorld fun _ _ => Effect.bind
    (effect_modifyWorld (fun g => g) (fun _ => rfl) (effect_pure (hQ _)))

end Primitives

section Send

variable {Q : Unit → Graph → Prop} {seg : TcpSegment} {pkb : Pkbuf} {out : OutTcp}

lemma effect_tcpRoute (daddr : UInt32) (hl : ∀ i ∈ tsk, ∃ n, g.node i = some n) :
    Effect seen bad (tcpRoute net.env tsk daddr) g fun _ g' => g' = g := by
  apply sequential_tcpRoute sequential_effect
  · intro i hi
    obtain ⟨n, hn⟩ := hl i hi
    exact effect_readSk hn
  · exact effect_pure rfl
  · intro i hi rt
    obtain ⟨n, hn⟩ := hl i hi
    exact effect_touch hn (fun _ => rfl) rfl

lemma effect_tcpSendOut {tsk : Option ℕ} (hbad : ¬bad .assertion) {seg : Option TcpSegment}
    (hl : ∀ i ∈ tsk, ∃ n, g.node i = some n) (hQ : Q () g) :
    Effect seen bad (tcpSendOut net.env tsk pkb out seg) g Q := by
  have hsent : Effect seen bad (tcpSendOut net.env tsk pkb out seg) g fun _ g' => g' = g := by
    apply sequential_tcpSendOut sequential_effect
    · intro i hi
      obtain ⟨n, hn⟩ := hl i hi
      exact effect_readSk hn
    · exact effect_fault hbad
    · exact fun daddr => effect_tcpRoute daddr hl
    · exact effect_pure rfl
    · rintro rt saddr daddr - s rfl
      rfl
  exact hsent.mono fun _ g' hg => hg ▸ hQ

lemma effect_tcpSendReset (hbad : ¬bad .assertion) (hQ : Q () g) : Effect seen bad (tcpSendReset net.env seg) g Q := by
  rw [tcpSendReset]
  split_ifs
  · exact effect_pure hQ
  · exact Effect.bind (effect_pure (effect_tcpSendOut hbad (by simp) hQ))

variable (hn : g.node i = some n)

include hn

lemma live_some : ∀ j ∈ some i, ∃ n, g.node j = some n := by
  rintro j hj
  cases hj
  exact ⟨n, hn⟩

variable (hbad : ¬bad .assertion)

include hbad

lemma effect_tcpSendAck (hQ : Q () g) : Effect seen bad (tcpSendAck net.env i (some seg)) g Q := by
  rw [tcpSendAck]
  split_ifs
  · exact effect_pure hQ
  · exact Effect.bind (effect_pure (effect_getSk hn fun _ _ =>
      effect_tcpSendOut hbad (live_some hn) hQ))

lemma effect_tcpSendSynack (hQ : Q () g) : Effect seen bad (tcpSendSynack net.env i seg) g Q := by
  rw [tcpSendSynack]
  split_ifs
  · exact effect_pure hQ
  · exact Effect.bind (effect_pure (effect_getSk hn fun _ _ =>
      effect_tcpSendOut hbad (live_some hn) hQ))

lemma effect_tcpSendSyn (hQ : Q () g) : Effect seen bad (tcpSendSyn net.env i) g Q :=
  Effect.bind (effect_pure (effect_getSk hn fun _ _ => effect_tcpSendOut hbad (live_some hn) hQ))

lemma effect_tcpSendFin (hQ : Q () g) : Effect seen bad (tcpSendFin net.env i) g Q :=
  Effect.bind (effect_pure (effect_getSk hn fun _ _ => effect_tcpSendOut hbad (live_some hn) hQ))

lemma effect_sendTextLoop {Q : ℤ → Graph → Prop} (hhang : ¬bad .hang)
    (buf : List UInt8) (len : ℤ) (hQ : ∀ r, Q r g) (fuel : ℕ) (segsize slen : ℤ) :
    Effect seen bad (sendTextLoop net.env i buf len fuel segsize slen) g Q := by
  induction fuel generalizing segsize slen with
  | zero =>
    rw [sendTextLoop]
    split_ifs
    · exact effect_fault hhang
    · exact effect_pure (hQ _)
  | succ fuel ih =>
    rw [sendTextLoop]
    split_ifs
    · refine Effect.bind (effect_pure (effect_getSk hn fun t _ => Effect.bind ?_))
      exact effect_touch hn (fun _ => rfl) (Effect.bind (effect_tcpSendOut hbad (live_some hn) (ih _ _)))
    · exact effect_pure (hQ _)

lemma effect_tcpSendText {Q : ℤ → Graph → Prop} (hhang : ¬bad .hang)
    (hnull : ¬bad .nullPointer) (buf : List UInt8) (len : ℤ) (hQ : ∀ r, Q r g) :
    Effect seen bad (tcpSendText net.env i buf len) g Q := by
  refine effect_getSk hn fun t _ => ?_
  cases t.sk.skDst with
  | none => exact effect_fault hnull
  | some rt =>
    refine Effect.bind (effect_pure (Effect.bind (effect_sendTextLoop hn hbad hhang _ _ ?_ _ _ _)))
    intro slen
    split_ifs
    · exact Effect.bind (effect_fault hnull)
    · exact effect_pure (hQ _)

end Send

section Tables

def Graph.unhash (g : Graph) (i : ℕ) (n : Node) : Graph :=
  g.edit i (some { n with hashed := false, refcnt := n.refcnt - n.hashed.toNat })
    (g.etable.erase i) (g.ltable.erase i) g.btable g.timewait

def Graph.unbhash (g : Graph) (i : ℕ) (n : Node) : Graph :=
  g.edit i (some { n with bhashed := false, refcnt := n.refcnt - n.bhashed.toNat })
    g.etable g.ltable (g.btable.erase i) g.timewait

variable {Q : Unit → Graph → Prop} (hn : g.node i = some n)

include hn

lemma effect_tcpUnhash (hr : n.hashed = true → 1 < n.refcnt) (ha : i ∈ g.ltable → i ∉ g.etable)
    (hm : n.hashed = false → i ∉ g.etable ∧ i ∉ g.ltable) (hQ : Q () (g.unhash i n)) :
    Effect seen bad (tcpUnhash net.env i) g Q := by
  rintro s rfl
  obtain ⟨t, ht, rfl⟩ := sock_of_node rfl hn
  refine runs_ok (tcpUnhash_run ht hr) ?_
  rw [seen_edited, Option.map_some]
  cases hc : t.sk.hashed with
  | false =>
    have hout := hm hc
    simpa [Graph.unhash, unhashed, nodeOf, hc, without, List.erase_of_not_mem hout.1, List.erase_of_not_mem hout.2] using hQ
  | true => simpa [Graph.unhash, unhashed, nodeOf, setRefcnt, setHashed, hc, without, unlinked_eq_erase ha] using hQ

lemma effect_tcpUnbhash (hr : n.bhashed = true → 1 < n.refcnt) (hm : n.bhashed = false → i ∉ g.btable)
    (hQ : Q () (g.unbhash i n)) : Effect seen bad (tcpUnbhash net.env i) g Q := by
  rintro s rfl
  obtain ⟨t, ht, rfl⟩ := sock_of_node rfl hn
  refine runs_ok (tcpUnbhash_run ht hr) ?_
  rw [seen_edited, Option.map_some]
  cases hc : t.bhashed with
  | false => simpa [Graph.unbhash, unbhashed, nodeOf, hc, without, List.erase_of_not_mem (hm hc)] using hQ
  | true => simpa [Graph.unbhash, unbhashed, nodeOf, setRefcnt, hc, without] using hQ

lemma effect_tcpSetTimewaitTimer (hQ : Q () (g.edit i
    (some { n with state := .timeWait, refcnt := n.refcnt + 1 }) g.etable g.ltable g.btable
    (i :: g.timewait))) : Effect seen bad (tcpSetTimewaitTimer net.env i) g Q := by
  refine Effect.bind (effect_modifySk hn { n with state := .timeWait } (fun t ht => ?_) ?_)
  · rw [← ht]
    rfl
  refine Effect.bind (effect_modifyWorld (fun g => { g with timewait := i :: g.timewait }) (fun _ => rfl) ?_)
  refine effect_modifySk Graph.node_set_self { n with state := .timeWait, refcnt := n.refcnt + 1 }
    (fun t ht => ?_) ?_
  · have hr : t.sk.refcnt = n.refcnt := congrArg Node.refcnt ht
    rw [← hr]
    simp only [Node.mk.injEq, nodeOf, setRefcnt] at ht ⊢
    simp_all
  · simpa [Graph.edit, Graph.set] using hQ

lemma effect_getSock (hQ : Q () (g.set i (some { n with refcnt := n.refcnt + 1 }))) :
    Effect seen bad (getSock net.env i) g Q := by
  refine effect_modifySk hn _ (fun t ht => ?_) hQ
  rw [← ht]
  rfl

lemma effect_link {Q : Bool → Graph → Prop} (F : Graph → Graph) {f : TcpWorld → TcpWorld}
    (hf : ∀ w, graphOf (f w) = F (graphOf w))
    (hQ : Q true (F (g.set i (some { n with hashed := true, refcnt := n.refcnt + 1 })))) :
    Effect seen bad (do
      modifySk net.env i (fun t => setHashed true (setRefcnt (t.sk.refcnt + 1) t))
      modifyWorld net.env f
      return true) g Q := by
  refine Effect.bind (effect_modifySk hn _ (fun t ht => ?_) (Effect.bind
    (effect_modifyWorld F hf (effect_pure hQ))))
  rw [← ht]
  rfl

lemma effect_tcpHash_connection {Q : Bool → Graph → Prop}
    (hc : n.state ≠ .closed) (hl : n.state ≠ .listen) (hfail : Q false g)
    (hok : Q true (g.edit i (some { n with hashed := true, refcnt := n.refcnt + 1 })
      (i :: g.etable) g.ltable g.btable g.timewait)) :
    Effect seen bad (tcpHash net.env i) g Q := by
  refine effect_getSk hn fun t ht => ?_
  have hs : t.state = n.state := by rw [← ht]; rfl
  simp only [hs, hc, hl, if_false]
  refine effect_getWorld fun w _ => ?_
  split_ifs
  · exact effect_pure hfail
  · exact effect_link hn (fun g => { g with etable := i :: g.etable }) (fun _ => rfl) hok

lemma effect_tcpHash_listen {Q : Bool → Graph → Prop} (hl : n.state = .listen)
    (hok : Q true (g.edit i (some { n with hashed := true, refcnt := n.refcnt + 1 })
      g.etable (i :: g.ltable) g.btable g.timewait)) :
    Effect seen bad (tcpHash net.env i) g Q := by
  refine effect_getSk hn fun t ht => ?_
  have hs : t.state = n.state := by rw [← ht]; rfl
  simp only [hs, hl, reduceCtorEq, if_false, if_true]
  exact effect_link hn (fun g => { g with ltable := i :: g.ltable }) (fun _ => rfl) hok

end Tables

section Linked

/-- A sock whose flags say in which tables it is, and that would survive being taken off them. -/
structure Linked (g : Graph) (i : ℕ) (n : Node) : Prop where
  node : g.node i = some n
  enodup : g.etable.Nodup
  lnodup : g.ltable.Nodup
  apart : i ∈ g.ltable → i ∉ g.etable
  hashed : n.hashed = true ↔ i ∈ g.etable ∨ i ∈ g.ltable
  bhashed : n.bhashed = true ↔ i ∈ g.btable
  held : (n.hashed.toNat : ℤ) + n.bhashed.toNat < n.refcnt

lemma Sound.linked {K : Users} (h : Sound K g) (hn : g.node i = some n) (hi : 1 ≤ K.own i ∨ i ∈ g.timewait) : Linked g i n := by
  have hnd := List.nodup_append'.mp h.hashed.nodup
  refine ⟨hn, hnd.1, hnd.2.1, fun hl he => hnd.2.2 he hl, h.hashed.flag i n hn, h.bhashed.flag i n hn, ?_⟩
  have hr := h.refcnt_ge hn
  have hk := links_nonneg g i
  have ho : 0 ≤ K.own i := h.counted.own_nonneg i
  rcases hi with hi | hi
  · split_ifs at hr <;> omega
  · rw [if_pos hi] at hr
    omega

lemma off_eq : g.off i n true = ((g.set i (some { n with state := .closed })).unhash i
    { n with state := .closed }).unbhash i
      { n with state := .closed, hashed := false, refcnt := n.refcnt - n.hashed.toNat } := by
  simp [Graph.off, Graph.unhash, Graph.unbhash, Graph.edit, Graph.set]

variable (hl : Linked g i n)

include hl

lemma Linked.set (n' : Node) (hh : n'.hashed = n.hashed) (hb : n'.bhashed = n.bhashed)
    (hr : n'.refcnt = n.refcnt) : Linked (g.set i (some n')) i n' := by
  refine ⟨Graph.node_set_self, hl.enodup, hl.lnodup, hl.apart, hh ▸ hl.hashed, hb ▸ hl.bhashed, ?_⟩
  rw [hh, hb, hr]
  exact hl.held

lemma Linked.unhash : Linked (g.unhash i n) i { n with hashed := false, refcnt := n.refcnt - n.hashed.toNat } := by
  refine ⟨node_edit_self, hl.enodup.erase i, hl.lnodup.erase i, fun hm => absurd hm hl.lnodup.not_mem_erase, ?_, hl.bhashed, ?_⟩
  · simp [Graph.unhash, Graph.edit, hl.enodup.mem_erase_iff, hl.lnodup.mem_erase_iff]
  · have := hl.held
    simp only [Bool.toNat_false]
    omega

variable {Q : Unit → Graph → Prop}

lemma Linked.effect_unhash (hQ : Q () (g.unhash i n)) : Effect seen bad (tcpUnhash net.env i) g Q := by
  have hheld := hl.held
  refine effect_tcpUnhash hl.node (fun hh => ?_) hl.apart (fun hh => ?_) hQ
  · rw [hh, Bool.toNat_true] at hheld
    omega
  · have hf := hl.hashed
    rw [hh] at hf
    exact ⟨fun hm => by simp [hm] at hf, fun hm => by simp [hm] at hf⟩

lemma Linked.effect_unbhash (hQ : Q () (g.unbhash i n)) : Effect seen bad (tcpUnbhash net.env i) g Q := by
  have hheld := hl.held
  refine effect_tcpUnbhash hl.node (fun hh => ?_) (fun hh => ?_) hQ
  · rw [hh, Bool.toNat_true] at hheld
    omega
  · intro hm
    simp [hl.bhashed.mpr hm] at hh

lemma Linked.effect_shut (hQ : Q () (g.off i n true)) : Effect seen bad (do
    modifySk net.env i (fun t => { t with state := .closed })
    tcpUnhash net.env i
    tcpUnbhash net.env i) g Q := by
  rw [off_eq] at hQ
  have hl1 := hl.set { n with state := .closed } rfl rfl rfl
  refine Effect.bind (effect_modifySk hl.node { n with state := .closed } (fun t ht => ?_) ?_)
  · rw [← ht]
    rfl
  exact Effect.bind (hl1.effect_unhash (hl1.unhash.effect_unbhash hQ))

lemma Linked.effect_unlink (hQ : Q () (g.off i n true)) : Effect seen bad (do
    tcpUnhash net.env i
    tcpUnbhash net.env i
    modifySk net.env i (fun t => { t with state := .closed })) g Q := by
  have hoff : g.off i n true = ((g.unhash i n).unbhash i
      { n with hashed := false, refcnt := n.refcnt - n.hashed.toNat }).set i (some { n with
        state := .closed, hashed := false, bhashed := false
        refcnt := n.refcnt - n.hashed.toNat - n.bhashed.toNat }) := by
    simp [Graph.off, Graph.unhash, Graph.unbhash, Graph.edit, Graph.set]
  rw [hoff] at hQ
  refine Effect.bind (hl.effect_unhash (Effect.bind (hl.unhash.effect_unbhash ?_)))
  refine effect_modifySk node_edit_self _ (fun t ht => ?_) hQ
  simp only [nodeOf, Node.mk.injEq] at ht ⊢
  simp_all

end Linked

end Tapip.Tcp.Links
