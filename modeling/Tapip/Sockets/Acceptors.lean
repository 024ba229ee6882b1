import Tapip.Sockets.Invariants
import Tapip.Sockets.Moves
import Tapip.Sockets.Walk

/-! The threads that sleep in `tcp_accept`, and what a handshake that completes relies on. -/

namespace Tapip.Sockets.Inet

open Net.Pkb Foundation.Program Tcp Tcp.Connection Tcp.Acts Tcp.Links Relation

section Sleepers

def acceptors (h : Host) : List ℕ := h.calls.filterMap Call.acceptor

def Fewer (h h' : Host) : Prop := (acceptors h').Sublist (acceptors h)

lemma steady_acceptors (cfg : Config) {T : Host → Host → Prop} (hr : ∀ h h', acceptors h' = acceptors h → T h h')
    (ht : ∀ {h1 h2 h3}, T h1 h2 → T h2 h3 → T h1 h3) : Steady cfg False T where
  refl h := hr h h rfl
  trans := ht
  stack _ _ := hr _ _ rfl
  sockets _ _ _ := hr _ _ rfl
  setPort id nport := by
    intro h b h' hrun
    obtain ⟨⟨⟨b', d⟩, s⟩, -, hret⟩ := bind_eq_ok.mp hrun
    cases hret
    exact hr _ _ rfl
  sleep c hc := by
    intro h u h' hrun
    cases hrun
    exact hr _ _ (List.filterMap_cons_none (hc.resolve_right not_false))

lemma steady_same (cfg : Config) : Steady cfg False fun h h' => acceptors h' = acceptors h :=
  steady_acceptors cfg (fun _ _ h => h) fun h1 h2 => h2.trans h1

lemma steady_fewer (cfg : Config) : Steady cfg False Fewer := by
  refine steady_acceptors cfg (fun h h' hsame => ?_) fun h1 h2 => h2.trans h1
  rw [Fewer, hsame]

lemma fewer_erase (h : Host) (c : Call) : Fewer h { h with calls := h.calls.erase c } :=
  List.Sublist.filterMap _ List.erase_sublist

lemma acceptTurn_sleeps (cfg : Config) {k new i : ℕ} {u : Unit} {h h' : Host}
    (hrun : acceptTurn cfg k new i h = .ok (u, h')) : acceptors h' = acceptors h ∨
      acceptors h' = i :: acceptors h ∧ ∀ m, h'.stack.sock i = some m → m.waitAccept = true := by
  obtain ⟨r, h1, haccept, hrest⟩ := bind_inv hrun
  have hcalls : acceptors h1 = acceptors h := (steady_same cfg).onStack _ _ _ _ haccept
  cases r with
  | some newsk =>
    cases hrest
    exact .inl hcalls
  | none =>
    cases hrest
    refine .inr ⟨by rw [← hcalls]; rfl, fun m hm => ?_⟩
    obtain ⟨s0, j, t, hput, ⟨-, rfl, hwait⟩ | ⟨hnone, -⟩⟩ := tcpAccept_inv (onStack_inv haccept)
    · simp only [hput, sock_put, Option.some.injEq] at hm
      rwa [← hm]
    · simp at hnone

end Sleepers

section Watched

variable {R : View → View → Prop} {g g' : Shown} {p : ℕ}

structure Relinked (v v' : View) : Prop where
  recvWait : v'.recvWait = v.recvWait
  waitAccept : v'.waitAccept = v.waitAccept
  parent : v'.parent = v.parent ∨ ∃ q, v.parent = .sock q

lemma Relinked.refl (v : View) : Relinked v v := ⟨rfl, rfl, .inl rfl⟩

lemma past_of_act (ha : Act R g g') (hp : p < g.next) :
    p < g'.next ∧ ∀ v', g'.sock p = some v' → ∃ v, g.sock p = some v ∧ (R v v' ∨ Relinked v v') := by
  have hset : ∀ {i : ℕ} {o : Option View}, (∀ v', i = p → o = some v' → ∃ v, g.sock i = some v ∧
      (R v v' ∨ Relinked v v')) → ∀ v', Function.update g.sock i o p = some v' →
        ∃ v, g.sock p = some v ∧ (R v v' ∨ Relinked v v') := by
    intro i o hi v' hv'
    by_cases hip : p = i
    · subst hip
      rw [Function.update_self] at hv'
      exact hi v' rfl hv'
    · rw [Function.update_of_ne hip] at hv'
      exact ⟨v', hv', .inr (.refl v')⟩
  have hlink : ∀ {i : ℕ} {v w : View}, g.sock i = some v → Relinked v w → ∀ v', Function.update g.sock i (some w) p = some v' →
      ∃ v, g.sock p = some v ∧ (R v v' ∨ Relinked v v') :=
    fun hi hr => hset fun v' _ hv => ⟨_, hi, .inr (Option.some.inj hv ▸ hr)⟩
  cases ha with
  | set hi hr => exact ⟨hp, hset fun v' _ hv => ⟨_, hi, .inl (Option.some.inj hv ▸ hr)⟩⟩
  | free => exact ⟨hp, hset fun v' _ hv => by simp at hv⟩
  | alloc _ => exact ⟨Nat.lt_succ_of_lt hp, hset fun v' hnew _ => absurd hp (by omega)⟩
  | request _ _ => exact ⟨Nat.lt_succ_of_lt hp, hset fun v' hnew _ => absurd hp (by omega)⟩
  | hash hi _ _ => exact ⟨hp, hlink hi ⟨rfl, rfl, .inl rfl⟩⟩
  | listen hi _ => exact ⟨hp, hlink hi ⟨rfl, rfl, .inl rfl⟩⟩
  | unhash hi _ => exact ⟨hp, hlink hi ⟨rfl, rfl, .inl rfl⟩⟩
  | discard hi _ hq => exact ⟨hp, hlink hi ⟨rfl, rfl, .inr ⟨_, hq⟩⟩⟩
  | bhash hi _ _ => exact ⟨hp, hlink hi ⟨rfl, rfl, .inl rfl⟩⟩
  | unbhash hi _ => exact ⟨hp, hlink hi ⟨rfl, rfl, .inl rfl⟩⟩

def Kept (Q : View → Prop) (p : ℕ) (g : Shown) : Prop := p < g.next ∧ ∀ v, g.sock p = some v → Q v

lemma Kept.chain {Q : View → Prop} (hQ : ∀ {v v'}, R v v' ∨ Relinked v v' → Q v → Q v') (h : Kept Q p g)
    (hc : Chain R g g') : Kept Q p g' := by
  refine Chain.invariant hc (fun ha hg => ?_) h
  obtain ⟨hlt, hpast⟩ := past_of_act ha hg.1
  refine ⟨hlt, fun v' hv' => ?_⟩
  obtain ⟨v, hv, hr⟩ := hpast v' hv'
  exact hQ hr (hg.2 v hv)

def Awake (v v' : View) : Prop := v.waitAccept = true → v'.waitAccept = true

def Watched (p : ℕ) (g : Shown) : Prop := p < g.next ∧ ∀ v, g.sock p = some v → v.waitAccept = true

lemma Watched.chain (h : Watched p g) (hc : Chain Awake g g') : Watched p g' := by
  refine Kept.chain (Q := fun v => v.waitAccept = true) (fun hr hw => ?_) h hc
  rcases hr with hr | hr
  · exact hr hw
  · rwa [hr.waitAccept]

lemma fits_awake : Fits (fun _ => True) Awake where
  turn _ _ _ _ h := h
  shut _ _ h := h
  wait _ _ := rfl
  orphan _ _ _ _ h := h
  dead _ _ h := h

end Watched

section Embryos

variable {g g' : Shown}

def Fathered (v : View) : Prop := v.state = .synRecv → v.hashed = true → ∃ p, v.parent = .sock p

def Fathers (v v' : View) : Prop := Fathered v → Fathered v'

lemma fathered_act (h : ∀ i v, g.sock i = some v → Fathered v) (ha : Act Fathers g g') :
    ∀ i v, g'.sock i = some v → Fathered v := by
  have hset : ∀ {i : ℕ} {v' : View}, Fathered v' → ∀ j v, Function.update g.sock i (some v') j = some v → Fathered v := by
    intro i v' hv' j v hv
    by_cases hji : j = i
    · subst hji
      rw [Function.update_self] at hv
      exact Option.some.inj hv ▸ hv'
    · rw [Function.update_of_ne hji] at hv
      exact h j v hv
  cases ha with
  | set hi hr => exact hset (hr (h _ _ hi))
  | @free i =>
    intro j v hv
    by_cases hji : j = i
    · subst hji
      simp [Shown.set] at hv
    · simp only [Shown.set, Function.update_of_ne hji] at hv
      exact h j v hv
  | alloc hborn => exact hset fun _ hh => by simp [hborn.2.1] at hh
  | request _ _ => exact hset fun _ _ => ⟨_, rfl⟩
  | hash _ _ _ => exact hset fun hs => by cases hs
  | listen _ _ => exact hset fun hs => by cases hs
  | unhash _ _ => exact hset fun _ hh => by cases hh
  | discard _ _ _ => exact hset fun _ hh => by cases hh
  | @bhash i v _ hi _ _ =>
    have hv : Fathered v := h i v hi
    exact hset hv
  | @unbhash i v hi _ =>
    have hv : Fathered v := h i v hi
    exact hset hv

lemma fits_fathers : Fits (· ≠ .synRecv) Fathers where
  turn v st _ hlater _ hs := by
    simp only at hs
    simp [hs, later] at hlater
  shut v _ _ := nofun
  wait v h := h
  orphan v p hh _ _ _ hh' := by
    simp only at hh'
    simp [hh'] at hh
  dead v hs _ hs' := absurd hs' hs

end Embryos

section Handshake

structure Completes (seg : TcpSegment) (t : TcpSock) : Prop where
  state : t.state = .synRecv
  acceptable : seqCheck seg t = true
  rst : seg.rst = false
  syn : seg.syn = false
  ackBit : seg.ackBit = true
  una : t.sndUna ≤ seg.ack
  nxt : seg.ack ≤ t.sndNxt

/-- An orderly step in which no two threads accept on one socket, no SYN crosses ours, and a handshake
is completed only while a thread sleeps in `tcp_accept` or if the queue is full. -/
def Attended (h : Host) (e : Event) : Prop :=
  Orderly False False False h e ∧
    match e with
    | .accept k => ∀ so, h.sockets k = some so → ∀ i, so.sk = some i → i ∉ acceptors h
    | .segment _ seg => ∀ i, target h.stack.tcp seg = some i → ∀ t, h.stack.sock i = some t →
      (t.state = .synSent → ¬Crossing seg) ∧
      (Completes seg t → ∀ p ∈ up t.parent, ∀ m, h.stack.sock p = some m → m.acceptBacklog < m.backlog →
        p ∈ acceptors h)
    | _ => True

structure Ready (h : Host) : Prop where
  nodup : (acceptors h).Nodup
  waiting : ∀ p ∈ acceptors h, ∀ m, h.stack.sock p = some m → m.waitAccept = true
  fathered : ∀ i v, (shown h.stack).sock i = some v → Fathered v

variable {cfg : Config} {h h' : Host} {e : Event} {p i k new : ℕ} {u : Unit} {s : Local} {m : TcpSock}

lemma Ready.watched (H : Ready h) (hh : Holds ⟨False, False, False⟩ h) (hp : p ∈ acceptors h) :
    Watched p (shown h.stack) := by
  obtain ⟨c, hc, ha⟩ := List.mem_filterMap.mp hp
  obtain ⟨so, i, hso, hi, hj⟩ := hh.books.calls c hc
  have hpi : p = i := by
    cases c <;> simp only [Call.acceptor, Option.some.injEq, reduceCtorEq] at ha
    exact hj p (by simp [Call.subject, ha])
  obtain ⟨-, -, n, hn⟩ := hh.owned hso hi
  refine ⟨?_, fun v hv => ?_⟩
  · rw [hpi]
    exact hh.sound.counted.below i n hn
  · obtain ⟨t, ht, rfl⟩ := sock_of_shown hv
    exact H.waiting p hp t ht

lemma Watched.sock (hw : Watched p (shown s)) (hm : s.sock p = some m) : m.waitAccept = true :=
  hw.2 (view m) (shown_sock hm)

lemma Holds.waiting (hh : Holds ⟨False, False, False⟩ h) : Waiting (· ≠ .synRecv) h.stack := by
  intro i j t c ht hj hc
  have hn := node_of_sock hc
  have hm := node_of_sock ht
  obtain ⟨-, hs | hs | hs⟩ := (hh.sound.queued.kid j _ hn).accepting i _ hm hj <;>
    simp only [nodeOf] at hs <;> simp [hs]

section Step

variable (H : Ready h) (hh : Holds ⟨False, False, False⟩ h)

include H hh

lemma Ready.fathered_exec (ha : Attended h e)
    (hrun : exec cfg e h = .ok (u, h')) : ∀ i v, (shown h'.stack).sock i = some v → Fathered v := by
  refine Chain.invariant (I := fun g => ∀ i v, g.sock i = some v → Fathered v)
    (exec_moves cfg fits_fathers hh.waiting (fun _ _ _ _ _ hf => hf) ?_ hrun) (fun ha hg => fathered_act hg ha) H.fathered
  rintro pkb seg i t s1 rfl hl ht hs hcross
  obtain ⟨hi, t0, ht0, rfl⟩ := hh.sound.lookup hl ht
  exact absurd hcross ((ha.2 i hi t0 ht0).1 hs)

lemma Ready.watched_exec (he : ∀ k new i, e ≠ .wake (.accept k new i))
    (hrun : exec cfg e h = .ok (u, h')) (hp : p ∈ acceptors h) : Watched p (shown h'.stack) := by
  refine (H.watched hh hp).chain (exec_moves cfg fits_awake (fun _ _ _ _ _ _ _ => trivial) ?_ ?_ hrun)
  · exact fun k new i hw => absurd hw (he k new i)
  · exact fun _ _ _ _ _ _ _ _ _ _ hw => hw

lemma Ready.accept (ha : Attended h (.accept k))
    (hrun : exec cfg (.accept k) h = .ok (u, h')) : (acceptors h').Nodup ∧
      ∀ p ∈ acceptors h', ∀ m, h'.stack.sock p = some m → m.waitAccept = true := by
  have hold : ∀ p ∈ acceptors h, ∀ m, h'.stack.sock p = some m → m.waitAccept = true :=
    fun p hp m hm => (H.watched_exec hh (by simp) hrun hp).sock hm
  obtain ⟨i, h1, hopen, hrest⟩ := bind_inv hrun
  obtain ⟨rfl, so, hso, hi, -⟩ := opened_inv hopen
  obtain ⟨⟨⟩, h2, href, hrest⟩ := bind_inv hrest
  obtain ⟨new, h3, halloc, hturn⟩ := bind_inv hrest
  have hsame : acceptors h3 = acceptors h1 :=
    ((steady_same cfg).allocSocket _ _ _ halloc).trans ((steady_same cfg).getRef k _ _ _ href)
  rcases acceptTurn_sleeps cfg hturn with hcalls | ⟨hcalls, hwait⟩
  · rw [hcalls, hsame]
    exact ⟨H.nodup, hold⟩
  · rw [hcalls, hsame]
    refine ⟨List.nodup_cons.mpr ⟨ha.2 so hso i hi, H.nodup⟩, fun p hp m hm => ?_⟩
    rcases List.mem_cons.mp hp with rfl | hp
    · exact hwait m hm
    · exact hold p hp m hm

lemma Ready.acceptWoken (hc : .accept k new i ∈ h.calls)
    (hrun : acceptWoken cfg k new i { h with calls := h.calls.erase (.accept k new i) } = .ok (u, h')) :
    (acceptors h').Nodup ∧ ∀ p ∈ acceptors h', ∀ m, h'.stack.sock p = some m → m.waitAccept = true := by
  let h0 : Host := { h with calls := h.calls.erase (.accept k new i) }
  have hperm : (acceptors h).Perm (i :: acceptors h0) := (List.perm_cons_erase hc).filterMap _
  obtain ⟨hi, hnd⟩ := List.nodup_cons.mp (hperm.nodup_iff.mp H.nodup)
  obtain ⟨t, ht, hchain⟩ := acceptWoken_after cfg fits_awake (h := h0) (fun _ _ _ _ _ _ _ => trivial) hrun
  have hold : ∀ p ∈ acceptors h0, ∀ m, h'.stack.sock p = some m → m.waitAccept = true := by
    intro p hp m hm
    have hne : p ≠ i := fun he => hi (he ▸ hp)
    obtain ⟨hlt, hw⟩ := H.watched hh (hperm.mem_iff.mpr (List.mem_cons_of_mem i hp))
    have hput : Watched p (shown (h.stack.put i { t with waitAccept := false })) := by
      rw [shown_put]
      exact ⟨hlt, fun v hv => hw v (by simpa [Shown.set, Function.update_of_ne hne] using hv)⟩
    exact (hput.chain hchain).sock hm
  obtain ⟨⟨⟩, h1, hset, hrest⟩ := bind_inv hrun
  obtain ⟨so, h2, hget, hlast⟩ := bind_inv hrest
  have hsame : acceptors h2 = acceptors h0 :=
    ((steady_same cfg).getSocket k _ _ _ hget).trans ((steady_same cfg).onStack _ _ _ _ hset)
  split_ifs at hlast
  · have hcalls : acceptors h' = acceptors h2 :=
      (steady_same cfg).bind ((steady_same cfg).setSocket new none) (fun _ => (steady_same cfg).freeSocket k) _ _ _ hlast
    rw [hcalls, hsame]
    exact ⟨hnd, hold⟩
  · rcases acceptTurn_sleeps cfg hlast with hcalls | ⟨hcalls, hwait⟩
    · rw [hcalls, hsame]
      exact ⟨hnd, hold⟩
    · rw [hcalls, hsame]
      refine ⟨List.nodup_cons.mpr ⟨hi, hnd⟩, fun p hp m hm => ?_⟩
      rcases List.mem_cons.mp hp with rfl | hp
      · exact hwait m hm
      · exact hold p hp m hm

lemma Ready.exec (ha : Attended h e)
    (hrun : exec cfg e h = .ok (u, h')) : Ready h' := by
  have hfathered := H.fathered_exec hh ha hrun
  by_cases he : accepting e
  · cases e with
    | accept k =>
      obtain ⟨hnd, hwait⟩ := H.accept hh ha hrun
      exact ⟨hnd, hwait, hfathered⟩
    | wake c =>
      cases c with
      | accept k new i =>
        simp only [Inet.exec, wake] at hrun
        split_ifs at hrun with hc
        · obtain ⟨hnd, hwait⟩ := H.acceptWoken hh hc hrun
          exact ⟨hnd, hwait, hfathered⟩
        · cases hrun
          exact H
      | _ => exact absurd rfl he
    | _ => exact absurd he not_false
  · have hfewer : Fewer h h' := (steady_fewer cfg).exec fewer_erase he _ _ _ hrun
    refine ⟨H.nodup.sublist hfewer, fun p hp m hm => ?_, hfathered⟩
    refine (H.watched_exec hh ?_ hrun (hfewer.subset hp)).sock hm
    rintro k new i rfl
    simp [accepting] at he

end Step

lemma ready_of_reached (hr : Reached Attended h) : Ready h := by
  induction hr with
  | boot => exact ⟨by simp [acceptors, boot], by simp [acceptors, boot], by simp [shown, boot, Local.sock]⟩
  | step hr ha hrun ih => exact ih.exec (holds_of_reached (hr.mono fun _ _ h => h.1)) ha hrun

lemma tcpSynrecvAck_returns (net : Net) {t : TcpSock} (ht : s.sock i = some t) (hp : t.parent = .sock p)
    (hm : s.sock p = some m) (hlisten : m.state = .listen)
    (hwait : m.acceptBacklog < m.backlog → m.waitAccept = true) (hne : i ≠ p) :
    ∃ b s' t', tcpSynrecvAck net.env i s = .ok (b, s') ∧ s'.sock i = some t' := by
  rw [tcpSynrecvAck, bind_run (getSk_run ht)]
  simp only [hp]
  rw [bind_run (getSk_run hm), if_neg (by simp [hlisten])]
  by_cases hroom : m.acceptBacklog < m.backlog
  · let m' : TcpSock := { m with listenQueue := m.listenQueue.erase i, acceptQueue := i :: m.acceptQueue.erase i }
    let t' : TcpSock := { t with acceptBacklog := t.acceptBacklog + 1 }
    have hi : (s.put p m').sock i = some t := by rw [sock_put_of_ne hne, ht]
    have hp' : ((s.put p m').put i t').sock p = some m' := by rw [sock_put_of_ne hne.symm, sock_put]
    refine ⟨true, (s.put p m').put i t', t', ?_, sock_put⟩
    rw [if_neg (by omega), bind_run (modifySk_run _ hm), bind_run (modifySk_run _ hi),
      bind_run (getSk_run hp'), show m'.waitAccept = true from hwait hroom]
    rfl
  · rw [if_pos (by omega)]
    exact ⟨false, s, t, rfl, ht⟩

lemma checkAck_returns (net : Net) {seg : TcpSegment} {t : TcpSock} (ht : s.sock i = some t)
    (hc : Completes seg t) (hp : t.parent = .sock p) (hm : s.sock p = some m) (hlisten : m.state = .listen)
    (hwait : m.acceptBacklog < m.backlog → m.waitAccept = true) (hne : i ≠ p) :
    ∃ b s', checkAck net.env i seg s = .ok (b, s') := by
  obtain ⟨b, s1, t1, hrun, ht1⟩ := tcpSynrecvAck_returns net ht hp hm hlisten hwait hne
  have hacks : (decide (t.sndUna ≤ seg.ack) && decide (seg.ack ≤ t.sndNxt)) = true := by
    simp [hc.una, hc.nxt]
  rw [checkAck, bind_run (getSk_run ht)]
  simp only [hc.state, hacks, if_true]
  rw [bind_run hrun]
  cases b with
  | false => exact ⟨false, s1, rfl⟩
  | true =>
    rw [if_pos rfl, bind_run (modifySk_run _ ht1)]
    exact ⟨true, _, rfl⟩

theorem synrecv_ack_pointers (hr : Reached Attended h) {pkb : Pkbuf} {seg : TcpSegment} {t : TcpSock}
    (ha : Attended h (.segment pkb seg)) (hi : target h.stack.tcp seg = some i) (ht : h.stack.sock i = some t)
    (hc : Completes seg t) : ∃ p m, t.parent = .sock p ∧ h.stack.sock p = some m ∧ m.state = .listen ∧
      (m.acceptBacklog < m.backlog → m.waitAccept = true) ∧
      ∀ net : Net, ∃ b s', checkAck net.env i seg h.stack = .ok (b, s') := by
  have hh : Holds ⟨False, False, False⟩ h := holds_of_reached (hr.mono fun _ _ h => h.1)
  have H := ready_of_reached hr
  have hn := node_of_sock ht
  have hhashed : t.sk.hashed = true := (hh.sound.hashed.flag i _ hn).mpr (target_mem hi)
  obtain ⟨p, hp⟩ : ∃ p, t.parent = .sock p := H.fathered i (view t) (shown_sock ht) hc.state hhashed
  obtain ⟨-, n, hn', hlisten, -⟩ := (hh.sound.queued.kid i _ hn).embryo p hp hc.state
  obtain ⟨m, hm, rfl⟩ := sock_of_node rfl hn'
  have hwait : m.acceptBacklog < m.backlog → m.waitAccept = true := fun hroom =>
    H.waiting p ((ha.2 i hi t ht).2 hc p (by simp [hp, up]) m hm hroom) m hm
  refine ⟨p, m, hp, hm, hlisten, hwait, fun net => ?_⟩
  have hne : i ≠ p := by
    rintro rfl
    cases Option.mem_unique ht hm
    simp [nodeOf, hc.state] at hlisten
  exact checkAck_returns net ht hc hp hm hlisten hwait hne

instance (seg : TcpSegment) : Decidable (Crossing seg) := inferInstanceAs (Decidable (_ ∧ _ ∧ _))

instance (seg : TcpSegment) (t : TcpSock) : Decidable (Completes seg t) :=
  decidable_of_iff (t.state = .synRecv ∧ seqCheck seg t = true ∧ seg.rst = false ∧ seg.syn = false ∧
      seg.ackBit = true ∧ t.sndUna ≤ seg.ack ∧ seg.ack ≤ t.sndNxt)
    ⟨fun ⟨h1, h2, h3, h4, h5, h6, h7⟩ => ⟨h1, h2, h3, h4, h5, h6, h7⟩,
      fun h => ⟨h.state, h.acceptable, h.rst, h.syn, h.ackBit, h.una, h.nxt⟩⟩

instance (h : Host) : (e : Event) → Decidable (Attended h e)
  | .accept _ => inferInstanceAs (Decidable (_ ∧ ∀ _, _ = _ → ∀ _, _ = _ → _))
  | .segment _ _ => inferInstanceAs (Decidable (_ ∧ ∀ _, _ = _ → ∀ _, _ = _ → _))
  | .socket _ | .bind _ _ _ | .listen _ _ | .connect _ _ _ | .read _ _ | .write _ _ _ | .close _ | .wake _
  | .tick _ => inferInstanceAs (Decidable (_ ∧ True))

def attending : List Event :=
  [.socket 6, .bind 0 0x0100000a 0x0080, .listen 0 5, .accept 0,
    .segment noPkb { bareSyn 500 0 with ackBit := false }]

theorem synrecv_ack_pointers_attending : ∃ h t m, Reached Attended h ∧ h.stack.sock 1 = some t ∧
    Completes (bare 501 12345680) t ∧ t.parent = .sock 0 ∧ h.stack.sock 0 = some m ∧ m.state = .listen ∧
    m.acceptBacklog < m.backlog ∧ m.waitAccept = true := by
  obtain ⟨h, hr, ha, hi, t, ht, hc, hp, m, hm, hroom⟩ := exists_reached Attended attending
    (P := fun h => Attended h (.segment noPkb (bare 501 12345680)) ∧
      target h.stack.tcp (bare 501 12345680) = some 1 ∧ ∃ t, h.stack.sock 1 = some t ∧
      Completes (bare 501 12345680) t ∧ t.parent = .sock 0 ∧ ∃ m, h.stack.sock 0 = some m ∧
      m.acceptBacklog < m.backlog) (by decide +kernel)
  obtain ⟨p, m', hp', hm', hlisten, hwait, -⟩ := synrecv_ack_pointers hr ha hi ht hc
  cases Parent.sock.inj (hp.symm.trans hp')
  cases Option.mem_unique hm hm'
  exact ⟨h, t, m, hr, ht, hc, hp, hm, hlisten, hroom, hwait hroom⟩

def crossed : List Event :=
  [.socket 6, .connect 0 0x0200000a 0x5000, .segment noPkb { bareSyn 500 0 with ackBit := false }]

theorem synrecv_ack_null_pointer :
    (∃ h, Reached (fun _ _ => True) h ∧ (∃ t, h.stack.sock 0 = some t ∧ Completes (bare 501 12345680) t) ∧
      faults .nullPointer (exec everywhere (.segment noPkb (bare 501 12345680)) h) = true) ∧
    ∃ h, Reached (fun _ _ => True) h ∧ (∃ t, h.stack.sock 1 = some t ∧ Completes (bare 501 12345680) t) ∧
      faults .nullPointer (exec everywhere (.segment noPkb (bare 501 12345680)) h) = true :=
  ⟨exists_reached _ crossed (by decide +kernel), exists_reached _ answering (by decide +kernel)⟩

end Handshake

end Tapip.Sockets.Inet
