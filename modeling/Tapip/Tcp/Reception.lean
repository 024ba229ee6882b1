import Tapip.Tcp.Effects

/-! A segment that comes in keeps the graph of socks sound. -/

namespace Tapip.Tcp.Links

open Net.Pkb Lib Foundation.Program Foundation.Hoare Text Connection

variable {s : Local} {t : TcpSock}

section Faults

variable {α β : Type} {e : Fault}

lemma bind_ne_error {x : Except Fault α} {f : α → Except Fault β} (hx : x ≠ .error e)
    (hf : ∀ a, f a ≠ .error e) : x >>= f ≠ .error e := by
  intro h
  rcases bind_eq_error.mp h with h | ⟨a, -, h⟩
  · exact hx h
  · exact hf a h

lemma writeLoop_ne_useAfterFree (fuel : ℕ) (buf : List UInt8) (len : ℤ) (c : Cbuf) :
    writeLoop fuel buf len c ≠ .error .useAfterFree := by
  induction fuel generalizing buf len c with
  | zero =>
    rw [writeLoop]
    split_ifs <;> simp
  | succ fuel ih =>
    rw [writeLoop]
    split_ifs
    · exact ih _ _ _
    · simp

lemma tcpWriteBuf_ne_useAfterFree (t : TcpSock) (data : List UInt8) (len : UInt32) :
    tcpWriteBuf t data len ≠ .error .useAfterFree := by
  refine bind_ne_error ?_ fun c => bind_ne_error ?_ fun p => ?_
  · simp only [rcvCbuf, allocCbuf]
    split
    · split_ifs <;> simp
    · simp
  · exact bind_ne_error (writeLoop_ne_useAfterFree _ _ _ _) fun _ => by simp
  · dsimp only
    split_ifs <;> simp

lemma trimTail_ne_useAfterFree (seg : TcpSegment) (rest : List TcpReassHead) :
    trimTail seg rest ≠ .error .useAfterFree := by
  induction rest with
  | nil => simp [trimTail]
  | cons trh rest ih =>
    simp only [trimTail]
    split_ifs
    all_goals first
      | exact bind_ne_error ih fun _ => by simp
      | simp

lemma writeReass_ne_useAfterFree (queue : List TcpReassHead) (t : TcpSock) (len : ℤ) :
    writeReass queue t len ≠ .error .useAfterFree := by
  induction queue generalizing t len with
  | nil => simp [writeReass]
  | cons trh queue ih =>
    simp only [writeReass]
    split_ifs
    · simp
    · refine bind_ne_error (tcpWriteBuf_ne_useAfterFree _ _ _) fun p => ?_
      split_ifs
      · simp
      · exact bind_ne_error (ih _ _) fun _ => by simp
    · simp

lemma tcpRecvText_ne_useAfterFree (t : TcpSock) (seg : TcpSegment) (pkb : Pkbuf) :
    tcpRecvText t seg pkb ≠ .error .useAfterFree := by
  have hreass : ∀ seg, tcpSegmentReass t seg pkb ≠ .error .useAfterFree := by
    intro seg
    simp only [tcpSegmentReass]
    split
    · simp
    · refine bind_ne_error (trimTail_ne_useAfterFree _ _) fun r => ?_
      split_ifs
      · simp
      · exact bind_ne_error (writeReass_ne_useAfterFree _ _ _) fun _ => by simp
  simp only [tcpRecvText]
  split_ifs
  · simp
  split
  · simp
  split_ifs
  · exact bind_ne_error (tcpWriteBuf_ne_useAfterFree _ _ _) fun _ => by simp
  · exact bind_ne_error (hreass _) fun _ => by simp

end Faults

variable {bad : Fault → Prop} {K : Users} {g : Graph} {i : ℕ} {n : Node} {seg : TcpSegment} {pkb : Pkbuf} {net : Net}

variable (hbad : ∀ e, bad e → e = .useAfterFree)

include hbad in
lemma not_bad {e : Fault} (he : e ≠ .useAfterFree) : ¬bad e := fun hb => he (hbad e hb)

section Live

variable (hn : g.node i = some n) {Q : Unit → Graph → Prop}

include hbad hn

lemma effect_drop (hQ : Q () g) : Effect seen bad (drop net.env i seg pkb) g Q := by
  refine effect_getSk hn fun t _ => ?_
  dsimp only
  split_ifs
  · exact Effect.bind (effect_tcpSendAck hn (not_bad hbad (by simp)) (effect_pure hQ))
  · exact effect_pure hQ

lemma effect_checkText {Q : TcpSegment → Graph → Prop} (hQ : ∀ seg', Q seg' g) :
    Effect seen bad (checkText net.env i seg pkb) g Q := by
  refine effect_getSk hn fun t ht => ?_
  split_ifs
  · intro s hs
    cases hr : tcpRecvText t seg pkb with
    | error e =>
      refine Runs.bind (runs_error (show liftExcept (.error e) s = .error e from rfl) ?_)
      apply not_bad hbad
      rintro rfl
      exact tcpRecvText_ne_useAfterFree t seg pkb hr
    | ok r =>
      refine Runs.bind (runs_ok (show liftExcept (.ok r) s = .ok (r, s) from rfl) ?_)
      have hnode : nodeOf r.tsk = n := by
        obtain ⟨_, _, _, _, _, _, _, he⟩ := tcpRecvText_receives hr
        rw [he, ← ht]
        rfl
      have hrest : Effect seen bad (do
          r.freed.forM net.env.freePkb
          pure r.seg : Prog Local TcpSegment) g Q := by
        intro s hs
        refine Runs.bind (runs_ok (freePkbs_run r.freed s) ?_)
        subst hs
        exact hQ _
      refine Effect.bind (effect_modifySk hn n (fun _ _ => hnode) ?_) s hs
      rw [set_self hn]
      dsimp only
      split_ifs
      · exact Effect.bind (effect_pure hrest)
      · exact hrest
  · exact effect_pure (hQ _)

end Live

section Arrival

variable (h : Sound K g) (hn : g.node i = some n)

include h hn

lemma sound_checkFin (hst : n.state ≠ .synRecv) : Effect seen bad (checkFin net.env i seg) g fun _ => Standing K i := by
  rw [checkFin]
  split_ifs
  · have hlast : ∀ {g' : Graph} {n' : Node}, Sound K g' →
        g'.node i = some n' → Effect seen bad (modifySk net.env i
          (fun t => { t with rcvNxt := seg.seq + 1, ackNow := true })) g' fun _ => Standing K i :=
      fun h' hn' => effect_touch hn' (fun _ => rfl) ⟨h', _, hn'⟩
    have hturn : ∀ {f : TcpSock → TcpSock} {a b : TcpState}, n.state = a → Turn a b →
        (b ≠ .finWait1 ∧ b ≠ .lastAck) → (∀ t, nodeOf (f t) = { nodeOf t with state := b }) →
        Effect seen bad (do
          modifySk net.env i f
          modifySk net.env i (fun t => { t with rcvNxt := seg.seq + 1, ackNow := true })) g fun _ => Standing K i := by
      intro f a b ha ht hb hf
      refine Effect.bind (effect_modifySk hn { n with state := b } (fun t hnt => ?_) ?_)
      · rw [hf, hnt]
      · refine hlast (h.turn hn ha ht fun hfin => ?_) Graph.node_set_self
        rcases hfin with hfin | hfin
        · exact absurd hfin hb.1
        · exact absurd hfin hb.2
    refine effect_getSk hn fun t ht => ?_
    have hs : t.state = n.state := by rw [← ht]; rfl
    rw [hs]
    cases hc : n.state with
    | synRecv => exact absurd hc hst
    | established => exact hturn hc .finished (by simp) fun _ => rfl
    | finWait1 => exact hturn hc .crossedFin (by simp) fun _ => rfl
    | timeWait => exact Effect.bind (effect_touch hn (fun _ => rfl) (hlast h hn))
    | finWait2 =>
      exact Effect.bind (effect_tcpSetTimewaitTimer hn (hlast (h.wait hn hc (.inr (.inl rfl))) node_edit_self))
    | _ => exact hlast h hn
  · exact effect_pure ⟨h, n, hn⟩

include hbad in
lemma sound_tcpSynrecvAck (hst : n.state = .synRecv) : Effect seen bad (tcpSynrecvAck net.env i) g fun joined g' =>
      if joined then ∃ p m, g.node p = some m ∧ n.parent = .sock p ∧ m.state = .listen ∧ p ≠ i ∧
        g' = g.set p (some { m with
          listenQueue := m.listenQueue.erase i, acceptQueue := i :: m.acceptQueue.erase i })
      else g' = g := by
  refine effect_getSk hn fun t ht => ?_
  have hpar : t.parent = n.parent := by rw [← ht]; rfl
  rw [hpar]
  cases hp : n.parent with
  | none => exact effect_fault (not_bad hbad (by simp))
  | dead => exact effect_fault (not_bad hbad (by simp))
  | sock p =>
    obtain ⟨-, m, hm, hl, -⟩ := (h.queued.kid i n hn).embryo p hp hst
    have hpi : p ≠ i := by
      rintro rfl
      cases Option.mem_unique hm hn
      simp [hl] at hst
    refine effect_getSk hm fun pt hpt => ?_
    have hps : pt.state = .listen := by rw [← hl, ← hpt]; rfl
    simp only [hps, ne_eq, not_true, if_false]
    split_ifs
    · exact effect_pure rfl
    · refine Effect.bind (effect_modifySk hm { m with
        listenQueue := m.listenQueue.erase i, acceptQueue := i :: m.acceptQueue.erase i } (fun t ht => ?_) ?_)
      · rw [← ht]
        rfl
      have hi : (g.set p (some { m with
          listenQueue := m.listenQueue.erase i, acceptQueue := i :: m.acceptQueue.erase i })).node i =
          some n := by
        rw [Graph.node_set_of_ne hpi.symm, hn]
      refine Effect.bind (effect_touch hi (fun _ => rfl) ?_)
      refine effect_getSk Graph.node_set_self fun pt _ => ?_
      cases pt.waitAccept with
      | false => exact Effect.bind (effect_fault (not_bad hbad (by simp)))
      | true => exact Effect.bind (effect_pure (effect_pure ⟨p, m, hm, rfl, hl, hpi, rfl⟩))

end Arrival

lemma join_eq {p : ℕ} {m : Node} (hpi : p ≠ i) (b : TcpState) : (g.set p (some { m with
      listenQueue := m.listenQueue.erase i, acceptQueue := i :: m.acceptQueue.erase i })).set i
        (some { n with state := b }) = g.join p i m n b := by
  simp only [Graph.join, Graph.both, Graph.set, Graph.edit, Graph.mk.injEq, and_true]
  exact Function.update_comm hpi _ _ _

def Checked (K : Users) (i : ℕ) (more : Bool) (g : Graph) : Prop :=
  Sound K g ∧ ∃ n, g.node i = some n ∧ (more = true → n.state ≠ .synRecv)

section Arrival

variable (h : Sound K g) (hn : g.node i = some n)

include hbad h hn

lemma sound_completes (hst : n.state = .synRecv) : Effect seen bad (do
      if ← tcpSynrecvAck net.env i then
        modifySk net.env i (fun t => { updateWindow { t with sndUna := seg.ack } seg with
          state := .established })
        return true
      else return false) g (Checked K i) := by
  refine Effect.bind ((sound_tcpSynrecvAck hbad h hn hst).mono fun joined g' hj => ?_)
  cases joined with
  | false =>
    rw [if_neg (by simp)] at hj
    subst hj
    exact effect_pure ⟨h, n, hn, by simp⟩
  | true =>
    rw [if_pos rfl] at hj
    obtain ⟨p, m, hm, hpar, hlis, hpi, rfl⟩ := hj
    refine Effect.bind (effect_modifySk (n := n) ?_ { n with state := .established } (fun t ht => ?_) ?_)
    · rw [Graph.node_set_of_ne hpi.symm, hn]
    · rw [← ht]
      rfl
    · rw [join_eq hpi]
      exact effect_pure ⟨h.join hm hn hlis hst hpar (.inl rfl), _, both_node_self hpi, by simp⟩

omit hbad in
lemma sound_lastAck (hown : 1 ≤ K.own i) (hst : n.state = .lastAck) : Effect seen bad (do
      modifySk net.env i (fun t => { t with state := .closed })
      tcpUnhash net.env i
      tcpUnbhash net.env i
      return false) g (Checked K i) := by
  have hsettled := h.timed.settled i n hn (.inl (by rw [hst]; trivial))
  have hoff := h.off hn (.inl hown) true (fun _ hd => hd) (fun _ _ hd => hd)
    (fun hs => absurd hs (by simp [hst])) (fun hi => hsettled.1 (h.handed.used i hi)) fun _ _ => hsettled.2
  have hshut := @Linked.effect_shut bad g i n net (h.linked hn (.inl hown))
    (fun _ g' => Effect seen bad (pure false) g' (Checked K i))
    (effect_pure ⟨hoff, _, node_edit_self, by simp⟩)
  simpa only [bind_assoc] using hshut.bind

lemma sound_checkAck (hown : 1 ≤ K.own i) : Effect seen bad (checkAck net.env i seg) g (Checked K i) := by
  obtain ⟨step, he⟩ := checkAck_eq net.env i seg
  rw [he]
  refine effect_getSk hn fun t ht => ?_
  have hs : t.state = n.state := by rw [← ht]; rfl
  have hdone : ∀ more : Bool, (more = true → n.state ≠ .synRecv) → Effect seen bad
      (pure more : Prog Local Bool) g (Checked K i) :=
    fun more hm => effect_pure ⟨h, n, hn, hm⟩
  have hwin : ∀ t, nodeOf (tcpUpdateWindow t seg) = nodeOf t := by
    intro t
    simp only [tcpUpdateWindow]
    split_ifs <;> rfl
  have hack : ∀ {x : Prog Local Bool} {Q}, Effect seen bad x g Q →
      Effect seen bad (modifySk net.env i (fun t => { t with sndUna := seg.ack }) >>= fun _ => x) g Q :=
    fun hx => Effect.bind (effect_touch hn (fun _ => rfl) hx)
  obtain ⟨x, hx⟩ := step t
  cases hx with
  | completes hst => exact sound_completes hbad h hn (hs ▸ hst)
  | outside => exact Effect.bind (effect_tcpSendReset (not_bad hbad (by simp)) (hdone false (by simp)))
  | forward hst =>
    refine hack (Effect.bind (effect_touch hn hwin (hdone true fun _ => ?_)))
    rcases hst with hst | hst <;> simp [← hs, hst]
  | finWait1 hst =>
    refine hack (Effect.bind (effect_modifySk hn { n with state := .finWait2 } (fun t ht => ?_) ?_))
    · rw [← ht]
      rfl
    · refine Effect.bind (effect_touch Graph.node_set_self hwin (effect_pure ⟨?_, _,
        Graph.node_set_self, by simp⟩))
      exact h.turn hn (hs ▸ hst) .acknowledged (by simp)
  | closing hst =>
    exact hack (Effect.bind (effect_tcpSetTimewaitTimer hn (effect_pure
      ⟨h.wait hn (hs ▸ hst) (.inr (.inr rfl)), _, node_edit_self, by simp⟩)))
  | lastAck hst => exact hack (sound_lastAck h hn hown (hs ▸ hst))
  | beyond => exact hdone false (by simp)
  | old hst =>
    refine Effect.bind (effect_touch hn hwin (hdone true fun _ he => ?_))
    simp [hs, he, acking] at hst
  | other hst => exact hdone true fun _ he => hst (by simp [hs, he])

end Arrival

lemma Linked.off_unhash (hl : Linked g i n) : (g.unhash i n).off i
    { n with hashed := false, refcnt := n.refcnt - n.hashed.toNat } true = g.off i n true := by
  have he : (g.etable.erase i).erase i = g.etable.erase i :=
    List.erase_of_not_mem (by simp [hl.enodup.mem_erase_iff])
  have hlt : (g.ltable.erase i).erase i = g.ltable.erase i :=
    List.erase_of_not_mem (by simp [hl.lnodup.mem_erase_iff])
  simp [Graph.off, Graph.unhash, Graph.edit, he, hlt]

section Arrival

variable (h : Sound K g) (hn : g.node i = some n) (hown : 1 ≤ K.own i)

include h hn hown

lemma sound_checkRst (hl : n.state ≠ .listen) (hh : ¬K.handed i)
    (hw : K.whole → n.state = .synRecv → ∀ p, n.parent ≠ .sock p) :
    Effect seen bad (checkRst net.env i) g fun _ => Standing K i := by
  have hlink := h.linked hn (.inl hown)
  have hoff : Sound K (g.off i n true) ∧
      ∃ n', (g.off i n true).node i = some n' :=
    ⟨h.off hn (.inl hown) true (fun _ hd => hd) (fun _ _ hd => hd) (fun hst => absurd hst hl) hh hw,
      _, node_edit_self⟩
  refine effect_getSk hn fun t _ => ?_
  dsimp only
  split_ifs
  · refine Effect.bind (hlink.effect_unhash (hlink.unhash.effect_shut ?_))
    rw [hlink.off_unhash]
    exact hoff
  · exact hlink.effect_shut hoff

include hbad

lemma sound_tcpArrive (hs : seen s = g) (ht : s.sock i = some t) (hl : n.state ≠ .listen)
    (hsyn : seqCheck seg t = true → seg.rst = false → seg.syn = false)
    (hrst : seqCheck seg t = true → seg.rst = true →
      ¬K.handed i ∧ (K.whole → t.state = .synRecv → ∀ p, t.parent ≠ .sock p)) :
    Runs bad (tcpArrive net.env pkb seg i) s fun _ s' =>
      Sound K (seen s') ∧ ∃ n', (seen s').node i = some n' := by
  have hdrop : ∀ {g' : Graph} (seg : TcpSegment), (Sound K g' ∧
      ∃ n', g'.node i = some n') → Effect seen bad (drop net.env i seg pkb) g' fun _ => Standing K i := by
    rintro g' seg ⟨h', n', hn'⟩
    exact effect_drop hbad hn' ⟨h', n', hn'⟩
  refine Runs.bind (runs_ok (getSk_run ht) ?_)
  refine (?_ : Effect seen bad _ g fun _ g' => Sound K g' ∧
    ∃ n', g'.node i = some n') s hs
  by_cases hc : seqCheck seg t = true
  · simp only [hc, Bool.not_true, Bool.false_eq_true, if_false]
    cases hr : seg.rst with
    | true =>
      obtain ⟨hh, hw⟩ := hrst hc hr
      have hnode : n = nodeOf t := by
        have hm := node_of_sock ht
        rw [hs, hn] at hm
        exact Option.some.inj hm
      exact Effect.bind ((sound_checkRst h hn hown hl hh (hnode ▸ hw)).mono fun _ _ hg => hdrop _ hg)
    | false =>
      have hpass : checkSyn net.env i seg = pure () := by
        rw [checkSyn, hsyn hc hr, if_neg (by simp)]
      rw [if_neg (by simp), hpass, pure_bind]
      split_ifs
      · exact hdrop seg ⟨h, n, hn⟩
      · refine Effect.bind ((sound_checkAck hbad h hn hown).mono fun more g' hg => ?_)
        obtain ⟨h', n', hn', hst⟩ := hg
        cases more with
        | false => exact hdrop seg ⟨h', n', hn'⟩
        | true =>
          refine Effect.bind (effect_checkText hbad hn' fun seg' => Effect.bind ?_)
          exact (sound_checkFin h' hn' (hst rfl)).mono fun _ _ hg => hdrop _ hg
  · rw [Bool.not_eq_true] at hc
    simp only [hc, Bool.not_false, if_true]
    cases seg.rst with
    | true => exact hdrop seg ⟨h, n, hn⟩
    | false => exact Effect.bind (effect_touch hn (fun _ => rfl) (hdrop seg ⟨h, n, hn⟩))

end Arrival

section Process

variable (h : Sound K g) (hn : g.node i = some n)

include hbad h hn

lemma sound_tcpSynsent (hst : n.state = .synSent) :
    Effect seen bad (tcpSynsent net.env pkb seg i) g fun _ => Standing K i := by
  have hturn : ∀ b, Turn .synSent b → Sound K
      (g.set i (some { n with state := b })) := by
    intro b hb
    refine h.turn hn hst hb fun hfin => ?_
    rcases hfin with rfl | rfl <;> cases hb
  have hdone : ∀ b, Turn .synSent b → Effect seen bad (net.env.freePkb pkb)
      (g.set i (some { n with state := b })) fun _ => Standing K i :=
    fun b hb => effect_pure ⟨hturn b hb, _, Graph.node_set_self⟩
  refine effect_getSk hn fun t ht => ?_
  dsimp only
  split_ifs
  · exact Effect.bind (effect_tcpSendReset (not_bad hbad (by simp)) (effect_pure ⟨h, n, hn⟩))
  · refine Effect.bind (effect_modifySk hn { n with state := .closed } (fun t ht => ?_) (hdone _ .refused))
    rw [← ht]
    rfl
  · exact effect_pure ⟨h, n, hn⟩
  · refine Effect.bind (effect_touch hn (fun _ => rfl) ?_)
    refine Effect.bind (effect_modifySk hn { n with state := .established } (fun t ht => ?_) ?_)
    · rw [← ht]
      rfl
    refine Effect.bind (effect_tcpSendAck Graph.node_set_self (not_bad hbad (by simp)) ?_)
    refine effect_getSk Graph.node_set_self fun t' _ => ?_
    cases t'.waitConnect with
    | false => exact Effect.bind (effect_fault (not_bad hbad (by simp)))
    | true => exact Effect.bind (effect_pure (hdone _ .connected))
  · refine Effect.bind (effect_touch hn (fun _ => rfl) ?_)
    refine Effect.bind (effect_modifySk hn { n with state := .synRecv } (fun t ht => ?_) ?_)
    · rw [← ht]
      rfl
    exact effect_tcpSendSynack Graph.node_set_self (not_bad hbad (by simp))
      ⟨hturn _ .crossed, _, Graph.node_set_self⟩
  · exact effect_pure ⟨h, n, hn⟩

end Process

section Listen

def request (seg : TcpSegment) : Node where
  state := .synRecv
  parent := .none
  listenQueue := []
  acceptQueue := []
  recvWait := false
  sport := seg.tcphdrDst
  dport := seg.tcphdrSrc
  hashed := false
  bhashed := false
  refcnt := 0

def embryo (seg : TcpSegment) (p : ℕ) : Node :=
  { request seg with parent := .sock p, hashed := true, refcnt := 2 }

lemma embryo_embryo (seg : TcpSegment) (p : ℕ) : Embryo p (embryo seg p) := ⟨rfl, rfl, rfl, rfl, rfl, rfl, rfl⟩

variable (h : Sound K g) (hn : g.node i = some n)

include h hn

lemma sound_tcpListenChildSock (hst : n.state = .listen) (hdial : ∀ j, K.dialing j → j < g.next) :
    Effect seen bad (tcpListenChildSock net.env i seg) g fun new g' =>
      Sound K g' ∧ (∃ n', g'.node i = some n') ∧
        ∀ c ∈ new, ∃ n', g'.node c = some n' := by
  have hfresh := h.fresh
  have hgrow := h.grow
  have hne : i ≠ g.next := (h.counted.below i n hn).ne
  have hnot : ∀ {P : ℕ → Prop}, (∀ j, P j → j < g.next) → ¬P g.next :=
    fun hP hp => absurd (hP _ hp) (lt_irrefl _)
  have hchild := hgrow.child (embryo_embryo seg i) hn hst hfresh (Nat.lt_succ_self _)
    (hnot h.dialed.below) (hnot hdial)
  refine effect_getWorld fun w hw => ?_
  have hnew : w.nextSock = g.next := congrArg Graph.next hw
  simp only [hnew]
  refine Effect.bind (effect_modifyWorld
    (fun g' => { g'.set g.next (some (request seg)) with next := g.next + 1 })
    (fun w => graphOf_alloc w _ _ _) ?_)
  have hstart : { g.set g.next (some (request seg)) with next := g.next + 1 } =
      g.grow.set g.next (some (request seg)) := rfl
  simp only [hstart]
  refine Effect.bind (effect_tcpHash_connection Graph.node_set_self (by simp [request])
    (by simp [request]) ?_ ?_)
  · refine Effect.bind (effect_modifyWorld (fun g' => g'.set g.next none)
      (fun w => graphOf_update w none) (effect_pure ?_))
    have hback : (g.grow.set g.next (some (request seg))).set g.next none = g.grow := by
      rw [Graph.set_set]
      have he : Function.update g.grow.node g.next none = g.grow.node :=
        Function.update_eq_self_iff.mpr hfresh.symm
      simp only [Graph.set, he]
    rw [hback]
    exact ⟨hgrow, ⟨n, hn⟩, by simp⟩
  · generalize hg1 : (g.grow.set g.next (some (request seg))).edit g.next _ _ _ _ _ = g1
    have hi1 : g1.node i = some n := by
      rw [← hg1, node_edit_of_ne hne, Graph.node_set_of_ne hne]
      exact hn
    have hc1 : g1.node g.next = some { request seg with hashed := true, refcnt := 1 } := by
      rw [← hg1, node_edit_self]
      rfl
    refine Effect.bind (effect_getSock hi1 ?_)
    refine Effect.bind (effect_modifySk (n := { request seg with hashed := true, refcnt := 1 }) ?_
      { request seg with parent := .sock i, hashed := true, refcnt := 1 } (fun t ht => ?_) ?_)
    · rw [Graph.node_set_of_ne hne.symm, hc1]
    · simp only [nodeOf, Node.mk.injEq, request] at ht ⊢
      simp_all
    refine Effect.bind (effect_modifySk (n := { n with refcnt := n.refcnt + 1 }) ?_
      { n with listenQueue := g.next :: n.listenQueue, refcnt := n.refcnt + 1 } (fun t ht => ?_) ?_)
    · rw [Graph.node_set_of_ne hne, Graph.node_set_self]
    · simp only [nodeOf, Node.mk.injEq] at ht ⊢
      simp_all
    refine Effect.bind (effect_getSock
      (n := { request seg with parent := .sock i, hashed := true, refcnt := 1 }) ?_ (effect_pure ?_))
    · rw [Graph.node_set_of_ne hne.symm, Graph.node_set_self]
    have hend : (((g1.set i (some { n with refcnt := n.refcnt + 1 })).set g.next
        (some { request seg with parent := .sock i, hashed := true, refcnt := 1 })).set i
        (some { n with listenQueue := g.next :: n.listenQueue, refcnt := n.refcnt + 1 })).set g.next
        (some { request seg with parent := .sock i, hashed := true, refcnt := 1 + 1 }) =
        g.grow.child i g.next n (embryo seg i) := by
      rw [set_set_set_set hne, ← hg1]
      simp [Graph.child, Graph.both, Graph.set, Graph.edit, embryo]
    exact hend ▸ ⟨hchild, ⟨_, both_node_parent⟩, fun c hc => by
      cases hc
      exact ⟨_, both_node_self hne⟩⟩

include hbad

lemma sound_tcpListen (hst : n.state = .listen) (hdial : ∀ j, K.dialing j → j < g.next) :
    Effect seen bad (tcpListen net.env pkb seg i) g fun _ => Standing K i := by
  rw [tcpListen]
  split_ifs
  · exact effect_pure ⟨h, n, hn⟩
  · exact Effect.bind (effect_tcpSendReset (not_bad hbad (by simp)) (effect_pure ⟨h, n, hn⟩))
  · exact effect_pure ⟨h, n, hn⟩
  · refine Effect.bind ((sound_tcpListenChildSock h hn hst hdial).mono fun new g' hg => ?_)
    obtain ⟨h', hi, hnew⟩ := hg
    cases new with
    | none => exact effect_pure ⟨h', hi⟩
    | some c =>
      obtain ⟨k, hc⟩ := hnew c rfl
      refine Effect.bind (effect_allocNewIss fun iss => ?_)
      refine Effect.bind (effect_touch hc (fun _ => rfl) ?_)
      refine Effect.bind (effect_tcpSendSynack hc (not_bad hbad (by simp)) ?_)
      exact Effect.bind (effect_touch hc (fun _ => rfl) (effect_pure ⟨h', hi⟩))

end Listen

include hbad in
lemma sound_tcpProcess (h : Sound K (seen s)) (ht : s.sock i = some t) (hown : 1 ≤ K.own i)
    (hdial : ∀ j, K.dialing j → j < (seen s).next)
    (hsyn : t.state ≠ .closed → t.state ≠ .listen → t.state ≠ .synSent → seqCheck seg t = true →
      seg.rst = false → seg.syn = false)
    (hrst : seqCheck seg t = true → seg.rst = true →
      ¬K.handed i ∧ (K.whole → t.state = .synRecv → ∀ p, t.parent ≠ .sock p)) :
    Runs bad (tcpProcess net.env pkb seg (some i)) s fun _ s' =>
      Sound K (seen s') ∧ ∃ n', (seen s').node i = some n' := by
  have hn := node_of_sock ht
  refine Runs.bind (runs_ok (getSk_run ht) ?_)
  cases hc : t.state with
  | closed =>
    have hrun : tcpClosed net.env (some i) pkb seg s = .ok ((), s) := rfl
    exact runs_ok hrun ⟨h, _, hn⟩
  | listen => exact sound_tcpListen hbad h hn hc hdial s rfl
  | synSent => exact sound_tcpSynsent hbad h hn hc s rfl
  | _ =>
    refine sound_tcpArrive hbad h hn hown rfl ht ?_ (hsyn (by simp [hc]) (by simp [hc]) (by simp [hc])) hrst
    change t.state ≠ _
    simp [hc]

section Lookup

def target (w : TcpWorld) (seg : TcpSegment) : Option ℕ :=
  match w.etable.find? (fun id => (w.socks id).any (fun t => t.sk.skSaddr = seg.iphdrDst &&
    t.sk.skDaddr = seg.iphdrSrc && t.sk.skSport = seg.tcphdrDst && t.sk.skDport = seg.tcphdrSrc)) with
  | some id => some id
  | none => w.ltable.find? (fun id => (w.socks id).any (fun t =>
    (t.sk.skSaddr = 0 || t.sk.skSaddr = seg.iphdrDst) && t.sk.skSport = seg.tcphdrDst))

def grabbed (s : Local) (id : ℕ) : Local :=
  match s.sock id with
  | none => s
  | some t => s.put id (setRefcnt (t.sk.refcnt + 1) t)

lemma lookupChain_run {l : List ℕ} (hl : ∀ id ∈ l, ∃ t, s.sock id = some t)
    (isMatch : TcpSock → Bool) : lookupChain net.env isMatch l s =
      .ok (l.find? (fun id => (s.sock id).any isMatch),
        (l.find? (fun id => (s.sock id).any isMatch)).elim s (grabbed s)) := by
  induction l with
  | nil => rfl
  | cons id l ih =>
    obtain ⟨t, ht⟩ := hl id (by simp)
    rw [lookupChain, bind_run (getSk_run ht), List.find?_cons]
    cases hm : isMatch t with
    | true =>
      simp only [ht, Option.any_some, hm, if_true]
      rw [getSock, bind_run (modifySk_run _ ht)]
      simp [grabbed, ht]
    | false =>
      simp only [ht, Option.any_some, hm, Bool.false_eq_true, if_false]
      exact ih fun j hj => hl j (by simp [hj])

lemma tcpLookupSock_run (he : ∀ id ∈ s.tcp.etable, ∃ t, s.sock id = some t)
    (hl : ∀ id ∈ s.tcp.ltable, ∃ t, s.sock id = some t) :
    tcpLookupSock net.env seg.iphdrSrc seg.iphdrDst seg.tcphdrSrc seg.tcphdrDst s =
      .ok (target s.tcp seg, (target s.tcp seg).elim s (grabbed s)) := by
  have hrun := @lookupChain_run s net s.tcp.etable he (fun t => t.sk.skSaddr = seg.iphdrDst &&
    t.sk.skDaddr = seg.iphdrSrc && t.sk.skSport = seg.tcphdrDst && t.sk.skDport = seg.tcphdrSrc)
  rw [tcpLookupSock, bind_run (show tcpLookupSockEstablish net.env seg.iphdrSrc seg.iphdrDst
    seg.tcphdrSrc seg.tcphdrDst s = _ from hrun), target]
  simp only [Local.sock] at hrun ⊢
  cases s.tcp.etable.find? _ with
  | some id => rfl
  | none => exact lookupChain_run hl _

lemma target_mem {w : TcpWorld} (h : target w seg = some i) : i ∈ w.etable ∨ i ∈ w.ltable := by
  rw [target] at h
  split at h
  · rename_i id hid
    cases h
    exact .inl (List.mem_of_find?_eq_some hid)
  · exact .inr (List.mem_of_find?_eq_some h)

variable {s' : Local} (h : Sound K (seen s))

include h

lemma Sound.listed_sock (hm : i ∈ s.tcp.etable ∨ i ∈ s.tcp.ltable) : ∃ t, s.sock i = some t := by
  obtain ⟨n, hn⟩ := h.counted.listed_live (hm.elim .inl fun hl => .inr (.inl hl))
  obtain ⟨t, ht, -⟩ := sock_of_node rfl hn
  exact ⟨t, ht⟩

lemma Sound.lookup_run : tcpLookupSock net.env seg.iphdrSrc seg.iphdrDst seg.tcphdrSrc seg.tcphdrDst s =
    .ok (target s.tcp seg, (target s.tcp seg).elim s (grabbed s)) :=
  tcpLookupSock_run (fun _ hm => h.listed_sock (.inl hm)) fun _ hm => h.listed_sock (.inr hm)

lemma Sound.grabbed_target (hi : target s.tcp seg = some i) :
    ∃ t, s.sock i = some t ∧ grabbed s i = s.put i (setRefcnt (t.sk.refcnt + 1) t) := by
  obtain ⟨t, ht⟩ := h.listed_sock (target_mem hi)
  exact ⟨t, ht, by rw [grabbed, ht]⟩

lemma Sound.lookup {t : TcpSock} (hl : tcpLookupSock net.env seg.iphdrSrc seg.iphdrDst seg.tcphdrSrc
    seg.tcphdrDst s = .ok (some i, s')) (ht : s'.sock i = some t) :
    target s.tcp seg = some i ∧ ∃ t0, s.sock i = some t0 ∧ t = setRefcnt (t0.sk.refcnt + 1) t0 := by
  rw [h.lookup_run] at hl
  obtain ⟨hi, rfl⟩ := ok_inj hl
  obtain ⟨t0, ht0, hgrab⟩ := h.grabbed_target hi
  rw [hi, Option.elim_some, hgrab, sock_put] at ht
  exact ⟨hi, t0, ht0, (Option.some.inj ht).symm⟩

end Lookup

def SynInWindow (w : TcpWorld) (seg : TcpSegment) : Prop :=
  ∃ i t, target w seg = some i ∧ w.socks i = some t ∧ t.state ≠ .closed ∧ t.state ≠ .listen ∧
    t.state ≠ .synSent ∧ seqCheck seg t = true ∧ seg.rst = false ∧ seg.syn = true

def ResetInWindow (kept : ℕ → TcpSock → Prop) (w : TcpWorld) (seg : TcpSegment) : Prop :=
  ∃ i t, target w seg = some i ∧ w.socks i = some t ∧ kept i t ∧ seqCheck seg t = true ∧ seg.rst = true

include hbad in
theorem sound_tcpRecv (h : Sound K (seen s))
    (hdial : ∀ j, K.dialing j → j < (seen s).next) (hsyn : ¬SynInWindow s.tcp seg)
    (hrst : ¬ResetInWindow (fun i _ => K.handed i) s.tcp seg)
    (hwhole : K.whole → ¬ResetInWindow (fun _ t => t.state = .synRecv ∧ t.parent ≠ .none) s.tcp seg) :
    Runs bad (tcpRecv net.env pkb seg) s fun _ s' =>
      Sound K (seen s') := by
  refine Runs.bind (runs_ok h.lookup_run ?_)
  cases ht : target s.tcp seg with
  | none =>
    refine (?_ : Effect seen bad _ (seen s) fun _ g' => Sound K g') s rfl
    exact Effect.bind (Effect.bind (effect_tcpSendReset (not_bad hbad (by simp)) (effect_pure (effect_pure h))))
  | some i =>
    obtain ⟨t, hi, hgrab⟩ := h.grabbed_target ht
    have hn := node_of_sock hi
    have hseen : seen (grabbed s i) = (seen s).set i (some { nodeOf t with refcnt := (nodeOf t).refcnt + 1 }) := by
      rw [hgrab]
      exact graphOf_update s.tcp _
    have hg := h.grab hn
    rw [← hseen] at hg
    have hown : 1 ≤ (K.hold i 1).own i := h.one_le_hold
    have hi' : (grabbed s i).sock i = some (setRefcnt (t.sk.refcnt + 1) t) := hgrab ▸ sock_put
    refine Runs.bind ((sound_tcpProcess hbad hg hi' hown ?_ ?_ ?_).mono fun _ s' hs' => ?_)
    · rw [hseen]
      exact hdial
    · intro h1 h2 h3 h4 h5
      by_contra hs
      exact hsyn ⟨i, t, ht, hi, h1, h2, h3, h4, h5, by simpa using hs⟩
    · intro h1 h2
      refine ⟨fun hh => hrst ⟨i, t, ht, hi, hh, h1, h2⟩, fun hw hst p hp => ?_⟩
      have hpar : t.parent ≠ .none := by
        rw [show t.parent = .sock p from hp]
        simp
      exact hwhole hw ⟨i, t, ht, hi, ⟨hst, hpar⟩, h1, h2⟩
    · obtain ⟨h', n', hn'⟩ := hs'
      have hrel := h'.release hn' hown
      rw [K.hold_back] at hrel
      exact effect_freeSock hn' hrel s' rfl

end Tapip.Tcp.Links
