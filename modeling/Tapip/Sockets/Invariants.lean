import Tapip.Sockets.Upkeep
import Tapip.Tcp.Session

/-! What is true of the tables, the queues and the reference counts in every state of a run. -/

namespace Tapip.Sockets.Inet

open Net.Pkb Foundation.Hoare Tcp Tcp.Links

section Decide

variable {α : Type} {P : α → Prop} [DecidablePred P]

instance decidableForallSome : (o : Option α) → Decidable (∀ a, o = some a → P a)
  | none => isTrue nofun
  | some a => decidable_of_iff (P a) ⟨fun h _ ha => Option.some.inj ha ▸ h, fun h => h a rfl⟩

instance decidableExistsSome : (o : Option α) → Decidable (∃ a, o = some a ∧ P a)
  | none => isFalse nofun
  | some a => decidable_of_iff (P a) ⟨fun h => ⟨a, rfl, h⟩, fun ⟨_, ha, h⟩ => Option.some.inj ha ▸ h⟩

variable (h : Host) (k i : ℕ)

instance : Decidable (dialing h i) :=
  decidable_of_iff (∃ c ∈ h.calls, (∃ k ∈ [c.socket], c = .connect k i)) <| by
    simp only [dialing, List.mem_singleton, exists_eq_left]
    refine ⟨?_, fun ⟨k, hk⟩ => ⟨_, hk, rfl⟩⟩
    rintro ⟨c, hc, he⟩
    exact ⟨c.socket, he ▸ hc⟩

instance : Decidable (HeadOpen h i) :=
  decidable_of_iff (∀ t, h.stack.sock i = some t → ∀ c, t.acceptQueue.head? = some c →
    ∀ u, h.stack.sock c = some u → u.state ≠ .closed) <| by
    refine ⟨fun H t c rest u h1 h2 => H t h1 c (by simp [h2]) u, fun H t h1 c h2 u => ?_⟩
    obtain ⟨rest, hq⟩ : ∃ rest, t.acceptQueue = c :: rest := List.head?_eq_some_iff.mp h2
    exact H t c rest u h1 hq

instance : Decidable (Requests h k) :=
  decidable_of_iff (∀ so, h.sockets k = some so → so.refcnt ≤ 1 → ∀ i, so.sk = some i →
    ∀ t, h.stack.sock i = some t → t.state = .listen → ∀ c ∈ t.listenQueue,
      ∀ u, h.stack.sock c = some u → u.state = .synRecv)
    ⟨fun H so i t h1 h2 h3 h4 => H so h1 h2 i h3 t h4, fun H so h1 h2 i h3 t h4 => H so i t h1 h2 h3 h4⟩

instance (w : TcpWorld) (seg : TcpSegment) : Decidable (SynInWindow w seg) :=
  decidable_of_iff (∃ i, target w seg = some i ∧ ∃ t, w.socks i = some t ∧ t.state ≠ .closed ∧
    t.state ≠ .listen ∧ t.state ≠ .synSent ∧ seqCheck seg t = true ∧ seg.rst = false ∧ seg.syn = true)
    ⟨fun ⟨i, h1, t, h2⟩ => ⟨i, t, h1, h2⟩, fun ⟨i, t, h1, h2⟩ => ⟨i, h1, t, h2⟩⟩

instance (kept : ℕ → TcpSock → Prop) [∀ i t, Decidable (kept i t)] (w : TcpWorld) (seg : TcpSegment) :
    Decidable (ResetInWindow kept w seg) :=
  decidable_of_iff (∃ i, target w seg = some i ∧ ∃ t, w.socks i = some t ∧ kept i t ∧
    seqCheck seg t = true ∧ seg.rst = true)
    ⟨fun ⟨i, h1, t, h2⟩ => ⟨i, t, h1, h2⟩, fun ⟨i, t, h1, h2⟩ => ⟨i, h1, t, h2⟩⟩

instance (exact whole listening : Prop) [Decidable exact] [Decidable whole] [Decidable listening] :
    (e : Event) → Decidable (Orderly exact whole listening h e)
  | .listen k _ => decidable_of_iff (∀ so, h.sockets k = some so → ∀ i, so.sk = some i →
      ∀ t, h.stack.sock i = some t → t.state = .closed → ¬dialing h i ∧ (listening → t.bhashed = true))
      ⟨fun H so i t h1 h2 h3 => H so h1 i h2 t h3, fun H so h1 i h2 t h3 => H so i t h1 h2 h3⟩
  | .accept k => decidable_of_iff (exact → ∀ so, h.sockets k = some so → ∀ i, so.sk = some i → HeadOpen h i)
      ⟨fun H hex so i h1 h2 => H hex so h1 i h2, fun H hex so h1 i h2 => H hex so i h1 h2⟩
  | .close k => inferInstanceAs (Decidable (exact → Requests h k))
  | .wake c => decidable_of_iff (exact → Requests h c.socket ∧ ∀ i, c.acceptor = some i → HeadOpen h i) <| by
      refine forall_congr' fun _ => and_congr_right fun _ => ⟨fun H k new i hc => H i (by simp [hc]), ?_⟩
      intro H i hi
      cases c <;> simp only [Call.acceptor, Option.some.injEq, reduceCtorEq] at hi
      subst hi
      exact H _ _ _ rfl
  | .segment _ seg => inferInstanceAs (Decidable (_ ∧ _ ∧ _))
  | .tick delta => inferInstanceAs (Decidable (exact → List.IsChain _ _))
  | .socket _ | .bind _ _ _ | .connect _ _ _ | .read _ _ | .write _ _ _ => isTrue trivial

end Decide

section Scripts

def everywhere : Config where
  toNet := Session.online
  ipaddr _ := 0x0100000a
  localAddress _ := true

def play (ok : Host → Event → Prop) [∀ h e, Decidable (ok h e)] : List Event → Host → Option Host
  | [], h => some h
  | e :: es, h =>
    if ok h e then
      match exec everywhere e h with
      | .ok (_, h') => play ok es h'
      | .error _ => none
    else none

variable {ok : Host → Event → Prop} [∀ h e, Decidable (ok h e)]

lemma Reached.play {h h' : Host} {es : List Event} (hr : Reached ok h) (hp : play ok es h = some h') :
    Reached ok h' := by
  induction es generalizing h with
  | nil =>
    cases hp
    exact hr
  | cons e es ih =>
    simp only [Inet.play] at hp
    split_ifs at hp with hok
    split at hp
    · rename_i h1 hrun
      exact ih (hr.step hok hrun) hp
    · simp at hp

variable (ok) in
lemma exists_reached (es : List Event) {P : Host → Prop} [DecidablePred P]
    (hp : ∃ h, play ok es boot = some h ∧ P h) : ∃ h, Reached ok h ∧ P h := by
  obtain ⟨h, hplay, hP⟩ := hp
  exact ⟨h, Reached.boot.play hplay, hP⟩

def bare (seq ack : UInt32) : TcpSegment :=
  { Session.fromPeer seq ack [] with lastseq := seq, psh := false }

def bareSyn (seq ack : UInt32) : TcpSegment := { bare seq ack with syn := true, len := 1 }

def noPkb : Pkbuf := allocPkb 0 0

def dialled : List Event :=
  [.socket 6, .connect 0 0x0200000a 0x5000, .segment noPkb (bareSyn 500 12345680), .wake (.connect 0 0)]

def answering : List Event :=
  [.socket 6, .bind 0 0x0100000a 0x0080, .listen 0 5,
    .segment noPkb { bareSyn 500 0 with ackBit := false }]

def twoListeners : List Event :=
  [.socket 6, .bind 0 0x0100000a 0x0080, .listen 0 5, .accept 0, .segment noPkb { bareSyn 500 0 with ackBit := false },
    .segment noPkb { bareSyn 700 0 with ackBit := false, tcphdrSrc := 0x5100 }, .segment noPkb (bare 501 12345680),
    .socket 6, .bind 2 0x0100000a 0x0081, .listen 2 5]

lemma Orderly.weaken {exact whole listening : Prop} {h : Host} {e : Event} (ho : Orderly True True True h e) :
    Orderly exact whole listening h e := by
  cases e with
  | listen k _ => exact fun so i t hk hi ht hs => ⟨(ho so i t hk hi ht hs).1, fun _ => (ho so i t hk hi ht hs).2 trivial⟩
  | segment pkb seg => exact ⟨ho.1, fun _ => ho.2.1 trivial, fun _ => ho.2.2 trivial⟩
  | accept k | close k | wake c | tick delta => exact fun _ => ho trivial
  | socket _ | bind _ _ _ | connect _ _ _ | read _ _ | write _ _ _ => trivial

lemma reached_twoListeners (exact whole listening : Prop) : ∃ h, Reached (Orderly exact whole listening) h ∧
    ¬dialing h 2 ∧ (0 ∈ h.stack.tcp.ltable ∧ 3 ∈ h.stack.tcp.ltable) ∧
    (∃ m, h.stack.sock 0 = some m ∧ m.listenQueue = [2] ∧ m.acceptQueue = [1]) ∧
    (∃ t, h.stack.sock 1 = some t) ∧
    (∃ t, h.stack.sock 2 = some t ∧ t.state = .synRecv ∧ t.parent = .sock 0) ∧ ∃ m, h.stack.sock 3 = some m := by
  obtain ⟨h, hr, hh⟩ := exists_reached (Orderly True True True) twoListeners
    (P := fun h => ¬dialing h 2 ∧ (0 ∈ h.stack.tcp.ltable ∧ 3 ∈ h.stack.tcp.ltable) ∧
      (∃ m, h.stack.sock 0 = some m ∧ m.listenQueue = [2] ∧ m.acceptQueue = [1]) ∧
      (∃ t, h.stack.sock 1 = some t ∧ True) ∧
      (∃ t, h.stack.sock 2 = some t ∧ t.state = .synRecv ∧ t.parent = .sock 0) ∧
      ∃ m, h.stack.sock 3 = some m ∧ True) (by decide +kernel)
  simp only [and_true] at hh
  exact ⟨h, hr.mono fun _ _ ho => ho.weaken, hh⟩

end Scripts

section Tables

theorem tables_follow_state {h : Host} (hr : Reached (Orderly False False False) h) {i : ℕ} {t : TcpSock}
    (ht : h.stack.sock i = some t) (hd : ¬dialing h i) :
    (i ∈ h.stack.tcp.etable ↔ t.state ≠ .closed ∧ t.state ≠ .listen) ∧
      (i ∈ h.stack.tcp.ltable ↔ t.state = .listen) ∧
      (h.stack.tcp.etable ++ h.stack.tcp.ltable).count i ≤ 1 := by
  have hs := (holds_of_reached hr).sound.hashed
  have hp : Placed (dialing h i) (i ∈ h.stack.tcp.etable) (i ∈ h.stack.tcp.ltable) t.state :=
    hs.placed i (nodeOf t) (node_of_sock ht)
  have hnodup : (h.stack.tcp.etable ++ h.stack.tcp.ltable).Nodup := hs.nodup
  refine ⟨?_, ?_, List.nodup_iff_count_le_one.mp hnodup i⟩
  · cases hst : t.state <;> simp_all [Placed]
  · cases hst : t.state <;> simp_all [Placed]

theorem tables_follow_state_answering : ∃ h t, Reached (Orderly False False False) h ∧
    h.stack.sock 2 = some t ∧ ¬dialing h 2 ∧ t.state = .synRecv ∧ 2 ∈ h.stack.tcp.etable := by
  obtain ⟨h, hr, hd, -, -, -, ⟨t, ht, hst, -⟩, -⟩ := reached_twoListeners False False False
  exact ⟨h, t, hr, ht, hd, hst, (tables_follow_state hr ht hd).1.mpr (by simp [hst])⟩

-- A SYN in the window of a connection: the state is set, the tables are left as they are.
theorem closed_sock_in_table : ∃ h, Reached (fun _ _ => True) h ∧
    (¬dialing h 0 ∧ 0 ∈ h.stack.tcp.etable ∧ ∃ t, h.stack.sock 0 = some t ∧ t.state = .closed) :=
  exists_reached _ (dialled ++ [.segment noPkb (bareSyn 501 12345680)]) (by decide +kernel)

theorem listener_owns_port {h : Host} (hr : Reached (Orderly False False True) h) :
    (∀ i ∈ h.stack.tcp.ltable, i ∈ h.stack.tcp.btable) ∧
      ∀ i ∈ h.stack.tcp.ltable, ∀ j ∈ h.stack.tcp.ltable, ∀ t u, h.stack.sock i = some t →
        h.stack.sock j = some u → t.sk.skSport = u.sk.skSport → i = j := by
  have hs := (holds_of_reached hr).sound
  have hbound : ∀ {i n}, i ∈ h.stack.tcp.ltable → (seen h.stack).node i = some n → n.bhashed = true := by
    intro i n hi hn
    have hp : Placed (dialing h i) (i ∈ h.stack.tcp.etable) (i ∈ h.stack.tcp.ltable) n.state :=
      hs.hashed.placed i n hn
    refine hs.bhashed.bound trivial i n hn ?_
    cases hst : n.state <;> simp_all [Placed]
  refine ⟨fun i hi => ?_, fun i hi j hj t u ht hu hport => ?_⟩
  · obtain ⟨n, hn⟩ := hs.counted.listed_live (i := i) (.inr (.inl hi))
    exact (hs.bhashed.flag i n hn).mp (hbound hi hn)
  · have hn := node_of_sock ht
    have hm := node_of_sock hu
    exact hs.bhashed.distinct i j _ _ hn hm (hbound hi hn) (hbound hj hm) hport

theorem listener_owns_port_answering : ∃ h t u, Reached (Orderly False False True) h ∧ h.stack.sock 0 = some t ∧
    h.stack.sock 3 = some u ∧ 0 ∈ h.stack.tcp.btable ∧ 3 ∈ h.stack.tcp.btable ∧ t.sk.skSport ≠ u.sk.skSport := by
  obtain ⟨h, hr, -, ⟨h0, h3⟩, ⟨t, ht, -⟩, -, -, u, hu⟩ := reached_twoListeners False False True
  obtain ⟨hbound, halone⟩ := listener_owns_port hr
  exact ⟨h, t, u, hr, ht, hu, hbound 0 h0, hbound 3 h3, fun hp => absurd (halone 0 h0 3 h3 t u ht hu hp) (by decide)⟩

-- A refused connection gives the port back and keeps its number, with which the sock then listens.
theorem two_listeners_on_port : ∃ h, Reached (fun _ _ => True) h ∧
    (0 ∈ h.stack.tcp.ltable ∧ 0 ∉ h.stack.tcp.btable ∧ 1 ∈ h.stack.tcp.ltable ∧
      (h.stack.sock 0).map (fun t => t.sk.skSport) = some 0x0080 ∧
      (h.stack.sock 1).map (fun t => t.sk.skSport) = some 0x0080) :=
  exists_reached _ [.socket 6, .connect 0 0x0200000a 0x5000,
    .segment noPkb { bare 0 12345680 with rst := true }, .wake (.connect 0 0), .listen 0 5,
    .socket 6, .bind 1 0 0x0080, .listen 1 5] (by decide +kernel)

end Tables

section Queues

theorem listen_queue_half_open {h : Host} (hr : Reached (Orderly False True False) h) {p c : ℕ} {m : TcpSock}
    (hp : h.stack.sock p = some m) (hc : c ∈ m.listenQueue) :
    ∃ t, h.stack.sock c = some t ∧ t.state = .synRecv ∧ t.parent = .sock p := by
  have hs := (holds_of_reached hr).sound
  have hn := node_of_sock hp
  have href : c ∈ refs (nodeOf m) := by
    simp only [refs, List.mem_append]
    exact .inl (.inl hc)
  obtain ⟨n, hk⟩ := hs.counted.links_live (links_pos hn (hs.counted.below p _ hn) href)
  obtain ⟨hpar, hst⟩ := (hs.queued.kid c n hk).listening p _ hn hc
  obtain ⟨t, ht, rfl⟩ := Option.map_eq_some_iff.mp hk
  exact ⟨t, ht, hst.resolve_right fun hw => hw.1 trivial, hpar⟩

theorem listen_queue_half_open_answering : ∃ h m, Reached (Orderly False True False) h ∧
    h.stack.sock 0 = some m ∧ 2 ∈ m.listenQueue ∧
    ∃ t, h.stack.sock 2 = some t ∧ t.state = .synRecv ∧ t.parent = .sock 0 := by
  obtain ⟨h, hr, -, -, ⟨m, hm, hq, -⟩, -⟩ := reached_twoListeners False True False
  have hmem : 2 ∈ m.listenQueue := by simp [hq]
  exact ⟨h, m, hr, hm, hmem, listen_queue_half_open hr hm hmem⟩

-- A request that is reset leaves the table, not the queue.
theorem reset_request_in_queue : ∃ h, Reached (fun _ _ => True) h ∧
    ((∃ m, h.stack.sock 0 = some m ∧ m.state = .listen ∧ 1 ∈ m.listenQueue) ∧
      ∃ t, h.stack.sock 1 = some t ∧ t.state = .closed) :=
  exists_reached _ (answering ++ [.segment noPkb { bare 501 0 with rst := true }]) (by decide +kernel)

theorem queued_under_parent {h : Host} (hr : Reached (Orderly False False False) h) {i : ℕ} {m : TcpSock}
    (hm : h.stack.sock i = some m) : (m.listenQueue ++ m.acceptQueue).Nodup ∧
      (∀ c ∈ m.listenQueue ++ m.acceptQueue, ∃ t, h.stack.sock c = some t ∧ t.parent = .sock i) ∧
      ∀ p, m.parent = .sock p → m.state = .synRecv →
        ∃ t, h.stack.sock p = some t ∧ t.state = .listen ∧ i ∈ t.listenQueue := by
  have hs := (holds_of_reached hr).sound
  have hn := node_of_sock hm
  refine ⟨hs.queued.nodup i _ hn, fun c hc => ?_, fun p hp hst => ?_⟩
  · obtain ⟨n, hk⟩ := hs.counted.links_live (links_pos hn (hs.counted.below i _ hn) (List.mem_append_left _ hc))
    have hkid := hs.queued.kid c n hk
    obtain ⟨t, ht, rfl⟩ := Option.map_eq_some_iff.mp hk
    refine ⟨t, ht, ?_⟩
    rcases List.mem_append.mp hc with hc | hc
    · exact (hkid.listening i _ hn hc).1
    · exact (hkid.accepting i _ hn hc).1
  · obtain ⟨-, n, hk, hl, hq⟩ := (hs.queued.kid i _ hn).embryo p hp hst
    obtain ⟨t, ht, rfl⟩ := Option.map_eq_some_iff.mp hk
    exact ⟨t, ht, hl, hq⟩

theorem queued_under_parent_answering : ∃ h m t, Reached (Orderly False False False) h ∧ h.stack.sock 0 = some m ∧
    m.listenQueue = [2] ∧ m.acceptQueue = [1] ∧ (m.listenQueue ++ m.acceptQueue).Nodup ∧
    (∀ c ∈ [2, 1], ∃ u, h.stack.sock c = some u ∧ u.parent = .sock 0) ∧ h.stack.sock 2 = some t ∧ t.state = .synRecv ∧
    ∃ p, h.stack.sock 0 = some p ∧ p.state = .listen ∧ 2 ∈ p.listenQueue := by
  obtain ⟨h, hr, -, -, ⟨m, hm, hl, ha⟩, -, ⟨t, ht, hst, hp⟩, -⟩ := reached_twoListeners False False False
  obtain ⟨hnd, hkids, -⟩ := queued_under_parent hr hm
  rw [hl, ha] at hkids
  exact ⟨h, m, t, hr, hm, hl, ha, hnd, hkids, ht, hst, (queued_under_parent hr ht).2.2 0 hp hst⟩

end Queues

section Counts

/-- Who refers to a sock: tables, queues and other socks, and sockets. -/
def holders (h : Host) (i : ℕ) : ℤ := own h i + listed (seen h.stack) i + links (seen h.stack) i

theorem refcnt_eq_holders {h : Host} (hr : Reached (Orderly True False False) h) :
    (∀ i t, h.stack.sock i = some t → t.sk.refcnt = holders h i ∧ 0 < holders h i) ∧
      (∀ i, h.stack.sock i = none → holders h i = 0) ∧
      (∀ k new i, .handOver k new i ∈ h.calls → ∃ t, h.stack.sock i = some t) ∧
      ∀ cfg e, Orderly True False False h e → (∀ k ∈ e.handle, Opened h k) →
        exec cfg e h ≠ .error .useAfterFree := by
  have H := holds_of_reached hr
  have hs := H.sound
  have hsur : ∀ i, refcnts (seen h.stack) i = holders h i := by
    intro i
    have := congrFun (hs.counted.exact trivial) i
    simp only [surplus, Pi.sub_apply] at this
    simp only [holders]
    omega
  refine ⟨fun i t ht => ?_, fun i hi => ?_, fun k new i hm => ?_, fun cfg e ho hv => ?_⟩
  · have hn := node_of_sock ht
    have hc := hsur i
    simp only [refcnts, hn, Option.elim_some] at hc
    have hpos := hs.counted.pos i _ hn
    rw [← hc]
    exact ⟨rfl, hpos⟩
  · have hn : (seen h.stack).node i = none := by
      simp only [seen, graphOf, Option.map_eq_none_iff]
      exact hi
    rw [← hsur i]
    simp [refcnts, hn]
  · have hl : 1 ≤ lent h i := tally_pos (List.mem_filterMap.mpr ⟨_, hm, rfl⟩)
    obtain ⟨n, hn, -⟩ := hs.handed.state i ⟨trivial, hl⟩
    obtain ⟨t, ht, -⟩ := Option.map_eq_some_iff.mp hn
    exact ⟨t, ht⟩
  · have hstep : Runs (· = .useAfterFree) (exec cfg e) h fun _ => Holds ⟨True, False, False⟩ :=
      holds_exec cfg (fun _ he => he) (fun _ => trivial) H ho fun _ => hv
    exact hstep.no_fault rfl

theorem refcnt_eq_holders_answering : ∃ h t, Reached (Orderly True False False) h ∧
    h.stack.sock 2 = some t ∧ t.sk.refcnt = holders h 2 := by
  obtain ⟨h, hr, -, -, -, -, ⟨t, ht, -⟩, -⟩ := reached_twoListeners True False False
  exact ⟨h, t, hr, ht, ((refcnt_eq_holders hr).1 2 t ht).1⟩

-- A SYN in the window of a connection gives back a reference that nobody had taken.
theorem refcnt_below_holders : ∃ h, Reached (fun _ _ => True) h ∧
    ∃ t, h.stack.sock 0 = some t ∧ t.sk.refcnt < holders h 0 :=
  exists_reached _ (dialled ++ [.segment noPkb (bareSyn 501 12345680)]) (by decide +kernel)

theorem no_dangling_reference {h : Host} (hr : Reached (Orderly False False False) h) (i : ℕ) :
    (h.stack.sock i = none → holders h i = 0) ∧ h.stack.tcp.timewait.Nodup ∧
      ∀ t, h.stack.sock i = some t → holders h i ≤ t.sk.refcnt ∧
        (ending t.state ∨ i ∈ h.stack.tcp.timewait → own h i = 0 ∧ ∀ p, t.parent ≠ .sock p) := by
  have hs := (holds_of_reached hr).sound
  have ho := own_nonneg h i
  refine ⟨fun hi => ?_, hs.timed.nodup, fun t ht => ?_⟩
  · by_contra hne
    have hl := listed_nonneg (seen h.stack) i
    have hk := links_nonneg (seen h.stack) i
    have hpos : 1 ≤ own h i + listed (seen h.stack) i + links (seen h.stack) i := by
      simp only [holders] at hne
      omega
    obtain ⟨n, hn⟩ := hs.counted.live hpos
    obtain ⟨t, ht, -⟩ := Option.map_eq_some_iff.mp hn
    exact Option.some_ne_none t (ht.symm.trans hi)
  · have hn := node_of_sock ht
    refine ⟨hs.counted.refcnt_ge hn, fun hend => ?_⟩
    obtain ⟨hu, hp⟩ := hs.timed.settled i _ hn hend
    have hl := lent_nonneg h i
    dsimp only at hu
    exact ⟨by omega, hp⟩

theorem no_dangling_reference_answering : ∃ h t, Reached (Orderly False False False) h ∧
    h.stack.sock 1 = some t ∧ holders h 1 ≤ t.sk.refcnt := by
  obtain ⟨h, hr, -, -, -, ⟨t, ht⟩, -⟩ := reached_twoListeners False False False
  exact ⟨h, t, hr, ht, ((no_dangling_reference hr 1).2.2 t ht).1⟩

end Counts

end Tapip.Sockets.Inet
