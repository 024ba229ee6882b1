import Tapip.Sockets.Holders

/-! Every step of a host keeps the graph of its socks sound. -/

namespace Tapip.Sockets.Inet

open Foundation.Program Foundation.Hoare Foundation.Tally Tcp Tcp.Connection Tcp.Links

variable {s s' : Local} {n : Node}

variable {bad : Fault → Prop} {T : Terms} {α : Type} {h h' : Host} {k i : ℕ} {so : Socket}

section Host

variable {Q : α → Host → Prop}

lemma runs_onStack {x : Prog Local α} {S : α → Local → Prop} (hx : Runs bad x h.stack S)
    (hQ : ∀ a s, S a s → Q a { h with stack := s }) : Runs bad (onStack x) h Q := by
  cases hr : x h.stack with
  | error e =>
    rw [Runs, hr] at hx
    refine runs_error ?_ hx
    simp [onStack, hr, Except.map]
  | ok p =>
    have hrun : onStack x h = .ok (p.1, { h with stack := p.2 }) := by
      simp [onStack, hr, Except.map]
    exact runs_ok hrun (hQ _ _ (hx.elim hr))

lemma runs_effect {x : Prog Local α} {S : α → Graph → Prop} (hx : Effect seen bad x (seen h.stack) S)
    (hQ : ∀ a s, S a (seen s) → Q a { h with stack := s }) : Runs bad (onStack x) h Q :=
  runs_onStack (hx h.stack rfl) hQ

lemma runs_getSocket {Q : Socket → Host → Prop} (hk : h.sockets k = some so) (hQ : Q so h) :
    Runs bad (getSocket k) h Q := by
  have hrun : getSocket k h = .ok (so, h) := by simp [getSocket, hk]
  exact runs_ok hrun hQ

lemma runs_setSocket {Q : Unit → Host → Prop} (o : Option Socket)
    (hQ : Q () (h.put k o)) : Runs bad (setSocket k o) h Q :=
  runs_ok rfl hQ

def Opened (h : Host) (k : ℕ) : Prop := ∃ so, h.sockets k = some so ∧ so.dead = false

lemma runs_opened {Q : ℕ → Host → Prop} (hbad : ∀ e, bad e → e = .useAfterFree) (hv : bad .useAfterFree → Opened h k)
    (hQ : ∀ so i, h.sockets k = some so → so.dead = false → so.sk = some i → Q i h) :
    Runs bad (opened k) h Q := by
  cases hk : h.sockets k with
  | none =>
    refine runs_error (bind_run_error (show getSocket k h = .error .useAfterFree by simp [getSocket, hk])) ?_
    intro hb
    obtain ⟨so, hso, -⟩ := hv hb
    simp [hk] at hso
  | some so =>
    refine Runs.bind (runs_getSocket hk ?_)
    cases hd : so.dead with
    | true =>
      refine runs_error (e := .useAfterFree) (by rw [if_pos rfl]; rfl) fun hb => ?_
      obtain ⟨so', hso, hd'⟩ := hv hb
      cases Option.mem_unique hk hso
      simp [hd] at hd'
    | false =>
      rw [if_neg (by simp)]
      cases hs : so.sk with
      | none => exact runs_error (e := .nullPointer) rfl (not_bad hbad (by simp))
      | some i => exact runs_pure (hQ so i hk hd hs)

end Host

/-- `T.exact` is whether every reference must be accounted for, `T.listening` whether listening socks
must be bound. -/
abbrev users (T : Terms) (o l : ℕ → ℤ) (d : ℕ → Prop) : Users :=
  { T with own := o, used := fun i => 1 ≤ o i + l i, handed := fun i => T.exact ∧ 1 ≤ l i, dialing := d }

structure Holds (T : Terms) (h : Host) : Prop where
  books : Books h
  sound : Sound (users T (own h) (lent h) (dialing h)) (seen h.stack)

lemma Holds.of_books {o l : ℕ → ℤ} {d : ℕ → Prop} (hb : Books h) (ho : own h = o) (hl : lent h = l)
    (hd : dialing h = d) (hs : Sound (users T o l d) (seen h.stack)) : Holds T h := by
  subst ho hl hd
  exact ⟨hb, hs⟩

lemma Holds.congr (H : Holds T h) (hb : Books h') (ho : own h' = own h)
    (hl : lent h' = lent h) (hd : dialing h' = dialing h) (hs : seen h'.stack = seen h.stack) :
    Holds T h' := by
  refine .of_books hb ho hl hd ?_
  rw [hs]
  exact H.sound

lemma Holds.restack (H : Holds T h) (hs : seen s = seen h.stack) : Holds T { h with stack := s } :=
  H.congr (H.books.stack s h.defport) rfl rfl rfl hs

lemma Holds.owned (H : Holds T h) (hk : h.sockets k = some so) (hi : so.sk = some i) :
    1 ≤ own h i ∧ used h i ∧ ∃ n, (seen h.stack).node i = some n := by
  have ho := own_pos hk (H.books.below k so hk) hi
  have hl := lent_nonneg h i
  exact ⟨ho, by rw [used]; omega, H.sound.counted.own_live ho⟩

lemma Holds.dialing_used (H : Holds T h) : ∀ j, dialing h j → used h j := by
  rintro j ⟨k, hk⟩
  obtain ⟨so, i, hso, hi, hj⟩ := H.books.calls _ hk
  cases hj j rfl
  exact (H.owned hso hi).2.1

def Requests (h : Host) (k : ℕ) : Prop :=
  ∀ so i t, h.sockets k = some so → so.refcnt ≤ 1 → so.sk = some i → h.stack.sock i = some t →
    t.state = .listen → ∀ c ∈ t.listenQueue, ∀ u, h.stack.sock c = some u → u.state = .synRecv

section Free

variable (cfg : Config) (hbad : ∀ e, bad e → e = .useAfterFree)

include hbad

lemma sound_inetClose (H : Holds T (during h (holding k i))) (hk : h.sockets k = some so)
    (hi : so.sk = some i) (hr : so.refcnt - 1 ≤ 0) (hreq : T.exact → Requests h k) :
    Effect seen bad (inetClose cfg so) (seen h.stack) fun _ g' =>
      Sound (users T (own (h.put k none)) (lent h) (dialing h)) g' := by
  obtain ⟨-, hown⟩ := H.books.shut hk hi hr
  obtain ⟨ho, hu, n, hn⟩ := H.owned hk hi
  rw [own_during] at ho
  have hsingle := H.books.single i
  rw [own_during, lent_holding] at hsingle
  have hused : ∀ j, used (h.put k none) j ↔
      1 ≤ own h j - (Pi.single i 1 : ℕ → ℤ) j + lent h j := by
    intro j
    rw [used, hown]
    rfl
  have hsound : Sound { users T (own h) (lent h) (dialing h) with
      used := used (h.put k none) } (seen h.stack) := by
    have hs := H.sound
    rw [dialing_holding] at hs
    refine hs.retire (fun j hj => ?_) fun j hj => ⟨by rwa [lent_holding], ?_⟩
    · have hle : 0 ≤ (Pi.single i 1 : ℕ → ℤ) j := by
        by_cases hji : j = i <;> simp [hji]
      rw [hused] at hj
      simp only [own_during, lent_holding]
      omega
    · have hnn := own_nonneg (h.put k none) j
      rw [used]
      exact le_add_of_nonneg_of_le hnn hj.2
  have hrel : own h + Pi.single i (-1) = own (h.put k none) := by
    rw [hown, Pi.single_neg, sub_eq_add_neg]
  rw [inetClose, hi]
  refine Effect.bind ((sound_tcpClose hbad hsound hn ?_ ho (H.sound.timed.adopted i n hn hu)
    ?_ ?_).mono fun _ g' hg => ?_)
  · simp only [hused, Pi.single_eq_same]
    omega
  · intro j hji hnu
    have hnn := own_nonneg h j
    have hln := lent_nonneg h j
    simp only [hused, Pi.single_eq_of_ne hji] at hnu ⊢
    omega
  · intro hex hst c hc m hm
    obtain ⟨t, ht, rfl⟩ := sock_of_node rfl hn
    obtain ⟨u, hu, rfl⟩ := sock_of_node rfl hm
    exact hreq hex so i t hk (by omega) hi ht hst c hc u hu
  · obtain ⟨h1, n', hn'⟩ := hg
    have h2 := h1.release hn' ho
    simp only [Users.hold, hrel] at h2
    exact effect_freeSock hn' h2

lemma holds_freeSocket (H : Holds T (during h (holding k i)))
    (hreq : T.exact → Requests h k) : Runs bad (freeSocket cfg k) h fun _ => Holds T := by
  obtain ⟨so, j, hk, hi, hj⟩ := H.books.calls _ List.mem_cons_self
  cases hj i rfl
  refine Runs.bind (runs_getSocket hk ?_)
  split_ifs with hr
  · refine Runs.bind (runs_effect (sound_inetClose cfg hbad H hk hi hr hreq) fun _ s hs => ?_)
    exact runs_setSocket none ⟨(H.books.shut hk hi hr).1.stack s h.defport, hs⟩
  · have hi' : ({ so with refcnt := so.refcnt - 1 } : Socket).sk = some i := hi
    exact runs_setSocket _ (H.congr (H.books.leave hk hi hi' (by simp only; omega))
      (Books.own_modify (h := during h (holding k i)) hk hi hi' H.books)
      (lent_holding h k i).symm (dialing_holding h k i).symm rfl)

end Free

lemma holds_socket (H : Holds T h) (protocol : ℕ) : Runs bad (socket protocol) h fun _ => Holds T := by
  have hid : ¬used h h.stack.tcp.nextSock := fun hu => lt_irrefl _ (H.sound.dialed.below _ hu)
  obtain ⟨hb, ho⟩ := H.books.made (Int.le_of_lt_add_one (not_le.mp hid))
  have hused : ∀ j, j ≠ h.stack.tcp.nextSock → (used (made h h.stack.tcp.nextSock) j ↔ used h j) := by
    intro j hj
    rw [used, used, ho, Pi.add_apply, Pi.single_eq_of_ne hj, add_zero]
    rfl
  have hborn : Sound { (users T (own h) (lent h) (dialing h)).hold h.stack.tcp.nextSock 1 with
      used := used (made h h.stack.tcp.nextSock) } ((seen h.stack).grow.set h.stack.tcp.nextSock (some (nodeOf newSock))) :=
    H.sound.grow.born H.sound.fresh (Nat.lt_succ_self _) hused rfl rfl rfl rfl rfl rfl rfl
      fun hd => hid (H.dialing_used _ hd)
  simp only [Users.hold, ← ho] at hborn
  rw [socket]
  split_ifs
  · exact runs_pure H
  · refine Runs.bind (runs_ok rfl (Runs.bind (runs_ok rfl (runs_setSocket _ ?_))))
    have hseen : seen { h.stack with tcp := { h.stack.tcp with
        socks := Function.update h.stack.tcp.socks h.stack.tcp.nextSock (some newSock)
        nextSock := h.stack.tcp.nextSock + 1
        tcpId := h.stack.tcp.tcpId + 1 } } =
        (seen h.stack).grow.set h.stack.tcp.nextSock (some (nodeOf newSock)) :=
      graphOf_alloc h.stack.tcp newSock _ _
    rw [← hseen] at hborn
    have hend : ∀ s : Local, Sound (users T (own (made h h.stack.tcp.nextSock)) (lent h) (dialing h)) (seen s) →
        Holds T { made h h.stack.tcp.nextSock with stack := s } :=
      fun s hs => ⟨hb.stack s h.defport, hs⟩
    have := hend _ hborn
    simpa [made, Host.put] using this

def gotten (h : Host) (k : ℕ) (so : Socket) : Host :=
  h.put k (some { so with refcnt := so.refcnt + 1 })

lemma getRef_run (hk : h.sockets k = some so) : getRef k h = .ok ((), gotten h k so) := by
  rw [getRef, bind_run (show getSocket k h = .ok (so, h) by simp [getSocket, hk])]
  rfl

lemma Books.gotten (hb : Books h) (hk : h.sockets k = some so) (hi : so.sk = some i) :
    Books (during (gotten h k so) (holding k i)) :=
  hb.enter hk hi hi (by simp only; omega)

lemma own_gotten (hb : Books h) (hk : h.sockets k = some so) (hi : so.sk = some i) : own (gotten h k so) = own h :=
  hb.own_modify hk hi hi

section User

variable (cfg : Config) (hbad : ∀ e, bad e → e = .useAfterFree) (H : Holds T h)

lemma runs_getSk {Q : TcpSock → Host → Prop} (hn : (seen h.stack).node i = some n)
    (hQ : ∀ t, h.stack.sock i = some t → nodeOf t = n → Q t h) :
    Runs bad (onStack (getSk cfg.env i)) h Q := by
  obtain ⟨t, ht, hnt⟩ := sock_of_node rfl hn
  exact runs_onStack (S := fun t' s => t' = t ∧ s = h.stack) (runs_ok (getSk_run ht) ⟨rfl, rfl⟩)
    fun _ _ ⟨h1, h2⟩ => h1 ▸ h2 ▸ hQ t ht hnt

lemma runs_setAddr {Q : Unit → Host → Prop} {f : Sock → Sock}
    (hn : (seen h.stack).node i = some n) (hf : ∀ t : TcpSock, nodeOf { t with sk := f t.sk } = nodeOf t)
    (hQ : ∀ s, seen s = seen h.stack → Q () { h with stack := s }) :
    Runs bad (setAddr cfg i f) h Q :=
  runs_effect (effect_touch (Q := fun _ g' => g' = seen h.stack) hn hf rfl) fun _ s hs => hQ s hs

include hbad H

lemma runs_setPort {Q : Bool → Host → Prop} (hu : used h i)
    (hn : (seen h.stack).node i = some n) (hs : n.sport = 0) (nport : UInt16)
    (hQ : ∀ ok s d n', Holds T { h with stack := s, defport := d } →
      (seen s).node i = some n' → n'.dport = n.dport → (ok = true → n'.sport ≠ 0) →
      Q ok { h with stack := s, defport := d }) : Runs bad (setPort cfg i nport) h Q := by
  have hx := sound_tcpSetSport cfg.toNet hbad H.sound hn hu hs nport h.defport h.stack rfl
  cases hr : tcpSetSport cfg.env i nport h.defport h.stack with
  | error e =>
    rw [Runs, hr] at hx
    refine runs_error ?_ hx
    simp [setPort, hr]
  | ok p =>
    obtain ⟨⟨ok, d⟩, s⟩ := p
    obtain ⟨hsound, n', hn', -, hd, hok⟩ := hx.elim hr
    have hrun : setPort cfg i nport h = .ok (ok, { h with stack := s, defport := d }) := by
      simp [setPort, hr]
    exact runs_ok hrun (hQ ok s d n' ⟨H.books.stack s d, hsound⟩ hn' hd hok)

lemma holds_bind (hv : bad .useAfterFree → Opened h k) (saddr : UInt32) (sport : UInt16) :
    Runs bad (bind cfg k saddr sport) h fun _ => Holds T := by
  refine Runs.bind (runs_opened hbad hv fun so i hk _ hi => ?_)
  obtain ⟨-, hu, n, hn⟩ := H.owned hk hi
  refine Runs.bind (runs_getSk cfg hn fun t _ ht => ?_)
  split_ifs with hs
  · exact runs_pure H
  · exact runs_pure H
  · rw [not_not] at hs
    have hsport : n.sport = 0 := by rw [← ht]; exact hs
    have hnd : ¬dialing h i := fun hd => (H.sound.dialed.ports i n hn hd).1 hsport
    refine Runs.bind (runs_setAddr cfg hn (fun _ => rfl) fun s1 hs1 => ?_)
    have H1 := H.restack hs1
    refine Runs.bind (runs_setPort cfg hbad H1 (h := { h with stack := s1 }) hu (hs1 ▸ hn) hsport sport
      fun ok s d n' H2 hn' _ _ => ?_)
    cases ok with
    | false =>
      rw [if_neg (by simp)]
      exact runs_setAddr cfg hn' (fun _ => rfl) fun s3 hs3 => H2.restack hs3
    | true =>
      rw [if_pos rfl]
      have hre := H2.sound.readdress hn' n'.sport 0 (fun _ => rfl) fun hd => absurd hd hnd
      refine runs_effect (effect_modifySk (Q := fun _ g' => g' = _) hn' { n' with dport := 0 }
        (fun t ht => ?_) rfl) fun _ s3 hs3 => ⟨H2.books.stack s3 d, ?_⟩
      · rw [← ht]
        rfl
      · rw [hs3]
        exact hre

lemma holds_listen (hv : bad .useAfterFree → Opened h k) (backlog : ℤ)
    (hc : ∀ so i t, h.sockets k = some so → so.sk = some i → h.stack.sock i = some t → t.state = .closed →
      ¬dialing h i ∧ (T.listening → t.bhashed = true)) :
    Runs bad (listen cfg k backlog) h fun _ => Holds T := by
  refine Runs.bind (runs_opened hbad hv fun so i hk _ hi => ?_)
  obtain ⟨-, hu, n, hn⟩ := H.owned hk hi
  obtain ⟨t, ht, rfl⟩ := sock_of_node rfl hn
  split_ifs
  · exact runs_pure H
  · refine Runs.bind (runs_effect (sound_tcpOpsListen H.sound hn hu (hc so i t hk hi ht) backlog)
      fun _ s hs => runs_pure ⟨H.books.stack s h.defport, hs⟩)

lemma holds_write (hv : bad .useAfterFree → Opened h k) (buf : List UInt8) (len : ℤ) :
    Runs bad (write cfg k buf len) h fun _ => Holds T := by
  refine Runs.bind (runs_opened hbad hv fun so i hk _ hi => ?_)
  obtain ⟨-, -, n, hn⟩ := H.owned hk hi
  split_ifs
  · exact runs_pure H
  · exact Runs.bind (runs_effect (effect_tcpSendBuf (Q := fun _ g' => g' = seen h.stack) hbad hn
      buf len fun _ => rfl) fun _ s hs => runs_pure (H.restack hs))

lemma runs_autobind {Q : Bool → Host → Prop} {t : TcpSock} (hu : used h i)
    (hn : (seen h.stack).node i = some n) (ht : nodeOf t = n)
    (hQ : ∀ ok s d n', Holds T { h with stack := s, defport := d } →
      (seen s).node i = some n' → n'.dport = n.dport → (ok = true → n'.sport ≠ 0) →
      Q ok { h with stack := s, defport := d }) : Runs bad (autobind cfg i t) h Q := by
  have hs : t.sk.skSport = n.sport := by rw [← ht]; rfl
  rw [autobind, hs]
  split_ifs with h0
  · exact runs_setPort cfg hbad H hu hn h0 0 hQ
  · exact runs_pure (hQ true h.stack h.defport n H hn rfl fun _ => h0)

lemma holds_connect (hv : bad .useAfterFree → Opened h k) (daddr : UInt32) (dport : UInt16) :
    Runs bad (connect cfg k daddr dport) h fun _ => Holds T := by
  refine Runs.bind (runs_opened hbad hv fun so i hk _ hi => ?_)
  obtain ⟨-, hu, n, hn⟩ := H.owned hk hi
  refine Runs.bind (runs_getSk cfg hn fun t _ ht => ?_)
  split_ifs with hc
  · exact runs_pure H
  · push Not at hc
    have hdport : n.dport = 0 := by rw [← ht]; exact hc.2.2
    have hnd : ¬dialing h i := fun hd => (H.sound.dialed.ports i n hn hd).2 hdport
    refine Runs.bind (runs_autobind cfg hbad H hu hn ht fun ok s d n' H1 hn1 _ hok => ?_)
    cases ok with
    | false => exact runs_pure H1
    | true =>
      simp only [Bool.not_true, Bool.false_eq_true, if_false]
      cases cfg.route daddr with
      | none => exact runs_pure H1
      | some rt =>
        refine Runs.bind (runs_setAddr cfg hn1 (fun _ => rfl) fun s2 hs2 => ?_)
        have H2 := H1.restack hs2
        rw [← hs2] at hn1
        have hconnect : Effect seen bad (tcpConnect cfg.env i daddr dport) (seen s2)
            fun ok g' => Sound (users T (own h) (lent h)
              (if ok then fun j => dialing h j ∨ j = i else dialing h)) g' ∧ ∃ n', g'.node i = some n' := by
          refine sound_tcpConnect hbad H2.sound hn1 hu hnd (fun j hj => ?_) (.inr rfl) (hok rfl)
            daddr hc.1
          rw [or_iff_left hj]
          rfl
        refine Runs.bind (runs_effect hconnect fun ok s3 hs3 => ?_)
        obtain ⟨hsound, n3, hn3⟩ := hs3
        cases ok with
        | false => exact runs_pure ⟨H.books.stack s3 d, hsound⟩
        | true =>
          rw [if_pos rfl] at hsound ⊢
          have hsleep : Effect seen bad (sleepOn cfg.env i) (seen s3) fun _ g' => g' = seen s3 := by
            refine effect_getSk hn3 fun t _ => ?_
            split_ifs
            · exact effect_pure rfl
            · exact effect_fault (not_bad hbad (by simp))
          refine Runs.bind (runs_effect hsleep fun _ s4 hs4 => ?_)
          rw [← hs4] at hsound
          have hb := H.books.stack s4 d
          have hbooks : Books (during (gotten { h with stack := s4, defport := d } k so) (.connect k i)) := by
            refine (hb.gotten hk hi).trade rfl (fun so' j h1 h2 => ?_) (by simp [Call.reserved])
              (by simp [Call.handed])
            obtain rfl : { so with refcnt := so.refcnt + 1 } = so' := by simpa [gotten] using h1
            simpa [Call.subject, hi] using h2
          exact Runs.bind (runs_ok (getRef_run (h := { h with stack := s4, defport := d }) hk)
            (runs_ok rfl (.of_books hbooks (own_gotten hb hk hi) (lent_during_of_none rfl)
              (dialing_connect _ _ _) hsound)))

end User

def HeadOpen (h : Host) (i : ℕ) : Prop :=
  ∀ t c rest u, h.stack.sock i = some t → t.acceptQueue = c :: rest → h.stack.sock c = some u →
    u.state ≠ .closed

def Alike (s s' : Local) : Prop :=
  ∀ i t, s'.sock i = some t → ∃ t', s.sock i = some t' ∧ t'.state = t.state ∧
    t'.listenQueue = t.listenQueue ∧ t'.acceptQueue = t.acceptQueue

lemma alike_of_seen (hs : seen s' = seen s) : Alike s s' := by
  intro i t ht
  have hn := node_of_sock ht
  obtain ⟨t', ht', he⟩ := sock_of_node hs.symm hn
  exact ⟨t', ht', congrArg Node.state he, congrArg Node.listenQueue he, congrArg Node.acceptQueue he⟩

lemma alike_of_refcnt (hn : (seen s).node i = some n)
    (hs : seen s' = (seen s).set i (some { n with refcnt := r })) : Alike s s' := by
  intro j t ht
  have hj := node_of_sock ht
  rw [hs] at hj
  by_cases hji : j = i
  · subst hji
    rw [Graph.node_set_self] at hj
    obtain ⟨t', ht', rfl⟩ := sock_of_node rfl hn
    have he := Option.some.inj hj
    have hstate := congrArg Node.state he
    have hlisten := congrArg Node.listenQueue he
    have haccept := congrArg Node.acceptQueue he
    exact ⟨t', ht', hstate, hlisten, haccept⟩
  · rw [Graph.node_set_of_ne hji] at hj
    obtain ⟨t', ht', he⟩ := sock_of_node rfl hj
    exact ⟨t', ht', congrArg Node.state he, congrArg Node.listenQueue he, congrArg Node.acceptQueue he⟩

lemma HeadOpen.congr (hc : HeadOpen h i) (ha : Alike h.stack s) : HeadOpen { h with stack := s } i := by
  intro t c rest u ht hq hu
  obtain ⟨t', ht', -, -, hq'⟩ := ha i t ht
  obtain ⟨u', hu', hs', -⟩ := ha c u hu
  rw [← hs']
  exact hc t' c rest u' ht' (hq'.trans hq) hu'

lemma Requests.congr (hr : Requests h k) (ha : Alike h.stack s) : Requests { h with stack := s } k := by
  intro so i t hk hle hi ht hst c hm u hu
  obtain ⟨t', ht', hs', hl', -⟩ := ha i t ht
  obtain ⟨u', hu', hs'', -⟩ := ha c u hu
  rw [← hs'']
  exact hr so i t' hk hle hi ht' (hs'.trans hst) c (hl' ▸ hm) u' hu'

lemma Requests.other (hr : Requests h k) (hne : k ≠ new) : Requests (h.put new o) k := by
  intro so i t hk
  rw [show (h.put new o).sockets k = h.sockets k from
    Function.update_of_ne hne _ _] at hk
  exact hr so i t hk

section Accept

variable (cfg : Config) (hbad : ∀ e, bad e → e = .useAfterFree) (hx : bad .useAfterFree → T.exact)
  {new : ℕ}

include hbad hx

lemma holds_acceptTurn (H : Holds T (during h (.accept k new i))) (hc : T.exact → HeadOpen h i) :
    Runs bad (acceptTurn cfg k new i) h fun _ => Holds T := by
  obtain ⟨so, j, hk, hi, hj⟩ := H.books.calls _ List.mem_cons_self
  cases hj i rfl
  obtain ⟨ho, hu, n, hn⟩ := H.owned hk hi
  have hl : lent (during h (.accept k new i)) = lent h := lent_during_of_none rfl
  have hd : dialing (during h (.accept k new i)) = dialing h := dialing_during (by simp)
  have hsound := sound_tcpAccept cfg.toNet hbad H.sound hn hu ho H.dialing_used hx fun hex c rest hq m hm => by
    obtain ⟨t, ht, rfl⟩ := sock_of_node rfl hn
    obtain ⟨u, hu, rfl⟩ := sock_of_node rfl hm
    exact hc hex t c rest u ht hq hu
  refine Runs.bind (runs_effect hsound fun r s hs => ?_)
  obtain ⟨hs, hnew⟩ := hs
  cases r with
  | none =>
    have hs' : Sound (users T (own h) (lent h) (dialing h)) (seen s) := by
      simpa [hl, hd] using hs
    exact runs_ok rfl (.of_books (H.books.stack s h.defport) rfl hl hd hs')
  | some newsk =>
    have hfree := hnew newsk rfl
    simp only [hl, own_during] at hfree
    have hbooks : Books (during { h with stack := s } (.handOver k new newsk)) := by
      refine (H.books.stack s h.defport).trade (h := { h with stack := s }) rfl (by simp [Call.subject])
        (fun m hm => ?_) fun m hm => ?_
      · obtain rfl : new = m := by simpa [Call.reserved] using hm
        refine ⟨H.books.reserved _ List.mem_cons_self new rfl, ?_⟩
        have hnd := H.books.distinct
        simp only [calls_during, List.filterMap_cons, Call.reserved] at hnd
        exact (List.nodup_cons.mp hnd).1
      · obtain rfl : newsk = m := by simpa [Call.handed] using hm
        exact Int.le_of_lt_add_one (not_le.mp hfree)
    have hone : ∀ j, tally id (Call.handOver k new newsk).handed.toList j = if j = newsk then 1 else 0 := by
      intro j
      simp [Call.handed, Pi.single_apply]
    have hu' : (fun j => used (during h (.accept k new i)) j ∨ some j = some newsk) =
        fun j => 1 ≤ own h j + (lent h + tally id (Call.handOver k new newsk).handed.toList) j := by
      funext j
      have hj := own_nonneg h j
      have hlj := lent_nonneg h j
      rw [used, hl, own_during, Pi.add_apply, hone, Option.some.injEq, eq_iff_iff]
      split_ifs <;> omega
    have hh' : (fun j => (T.exact ∧ 1 ≤ lent (during h (.accept k new i)) j) ∨ T.exact ∧ some j = some newsk) =
        fun j => T.exact ∧ 1 ≤ (lent h + tally id (Call.handOver k new newsk).handed.toList) j := by
      funext j
      have hlj := lent_nonneg h j
      rw [hl, Pi.add_apply, hone, Option.some.injEq, eq_iff_iff, ← and_or_left]
      refine and_congr_right fun _ => ?_
      split_ifs <;> omega
    have hs' : Sound (users T (own h) (lent h + tally id (Call.handOver k new newsk).handed.toList) (dialing h))
        (seen s) := by
      rw [users, ← hu', ← hh', ← hd]
      exact hs
    exact runs_ok rfl (.of_books hbooks rfl (lent_during _ _) (dialing_during (by simp)) hs')

lemma holds_accept (H : Holds T h) (hv : bad .useAfterFree → Opened h k)
    (hc : T.exact → ∀ so i, h.sockets k = some so → so.sk = some i → HeadOpen h i) :
    Runs bad (accept cfg k) h fun _ => Holds T := by
  refine Runs.bind (runs_opened hbad hv fun so i hk _ hi => ?_)
  refine Runs.bind (runs_ok (getRef_run hk) (Runs.bind (runs_ok rfl ?_)))
  refine holds_acceptTurn cfg hbad hx ?_ fun hex => hc hex so i hk hi
  have hb := H.books.gotten hk hi
  obtain ⟨hb1, ho1⟩ := hb.alloc
  have hne : k ≠ h.nextSocket := (H.books.below k so hk).ne
  refine .of_books (hb1.trade (h := (gotten h k so).add unowned) rfl (fun so' j h1 h2 => ?_) (fun m hm => ?_) (by simp [Call.handed]))
    (ho1.trans (own_gotten H.books hk hi)) (lent_during_of_none rfl) (dialing_during (by simp)) H.sound
  · obtain rfl : { so with refcnt := so.refcnt + 1 } = so' := by simpa [gotten, hne] using h1
    simpa [Call.subject, hi] using h2
  · obtain rfl : (gotten h k so).nextSocket = m := by simpa [Call.reserved] using hm
    exact ⟨Function.update_self _ _ _, H.books.unreserved⟩

lemma holds_acceptWoken (H : Holds T (during h (.accept k new i)))
    (hc : T.exact → HeadOpen h i) (hreq : T.exact → Requests h k) :
    Runs bad (acceptWoken cfg k new i) h fun _ => Holds T := by
  obtain ⟨so, j, hk, hi, hj⟩ := H.books.calls _ List.mem_cons_self
  cases hj i rfl
  obtain ⟨-, -, n, hn⟩ := H.owned hk hi
  refine Runs.bind (runs_effect (effect_touch (Q := fun _ g' => g' = seen h.stack) hn
    (fun _ => rfl) rfl) fun _ s hs => ?_)
  have H1 : Holds T (during { h with stack := s } (.accept k new i)) := H.restack hs
  have ha := alike_of_seen hs
  refine Runs.bind (runs_getSocket hk ?_)
  split_ifs
  · obtain ⟨hb, ho, hne⟩ := H1.books.deliver (o := none) rfl hk hi (by simp [owned]) (by simp)
    refine Runs.bind (runs_setSocket none (holds_freeSocket (i := i) cfg hbad ?_ fun hex =>
      ((hreq hex).congr ha).other hne))
    have hsound := H1.sound
    rw [show dialing (during { h with stack := s } (.accept k new i)) = dialing h from dialing_during (by simp)]
      at hsound
    exact .of_books hb (ho.trans (add_zero _)) (lent_during_of_none rfl) (dialing_holding _ _ _) hsound
  · exact holds_acceptTurn cfg hbad hx H1 fun hex => (hc hex).congr ha

lemma holds_handOver (H : Holds T (during h (.handOver k new i))) (hreq : T.exact → Requests h k) :
    Runs bad (handOver cfg k new i) h fun _ => Holds T := by
  obtain ⟨so, j, hk, hi, -⟩ := H.books.calls _ List.mem_cons_self
  have hl : lent (during h (.handOver k new i)) = lent h + Pi.single i 1 := by
    simp [lent_during, Call.handed]
  have hd : dialing (during h (.handOver k new i)) = dialing h := dialing_during (by simp)
  cases hn : (seen h.stack).node i with
  | none =>
    refine Runs.bind (runs_effect (S := fun _ _ => False) (effect_dead hn fun hb => ?_)
      fun _ _ hno => hno.elim)
    obtain ⟨n, hn', -⟩ := H.sound.handed.state i ⟨hx hb, by simpa [hl] using lent_nonneg h i⟩
    rw [stack_during, hn] at hn'
    cases hn'
  | some n =>
    have hgrab := H.sound.grab hn
    have hsingle := H.books.single i
    rw [hl, own_during] at hsingle
    have hfree : own h i + lent h i ≤ 0 := by
      simp only [Pi.add_apply, Pi.single_eq_same] at hsingle
      omega
    refine Runs.bind (runs_effect (effect_getSock (Q := fun _ g' => g' = (seen h.stack).set i
      (some { n with refcnt := n.refcnt + 1 })) hn rfl) fun _ s hs => ?_)
    rw [stack_during, ← hs, own_during, hd] at hgrab
    have hb := H.books.stack s h.defport
    obtain ⟨hb1, ho, hne⟩ := hb.deliver (h := { h with stack := s }) (o := some ⟨some i, false, 1⟩) rfl hk hi (by
        intro j hj
        obtain rfl : i = j := by simpa [owned, eq_comm] using hj
        exact hfree) (by simp)
    refine Runs.bind (runs_setSocket _ (holds_freeSocket (i := j) cfg hbad ?_ fun hex => ?_))
    · have hone : tally id (owned (some ⟨some i, false, 1⟩)) = (Pi.single i 1 : ℕ → ℤ) := by simp [owned]
      rw [hone] at ho
      have hsound : Sound (users T (own h + Pi.single i 1) (lent h) (dialing h)) (seen s) := by
        have hnn : ∀ m, 0 ≤ (own h + Pi.single i 1 : ℕ → ℤ) m := by
          intro m
          have := own_nonneg h m
          by_cases hmi : m = i
          · subst hmi
            simp only [Pi.add_apply, Pi.single_eq_same]
            omega
          · simpa [hmi] using this
        refine hgrab.retire (fun m hm => ?_) fun m hm => ⟨⟨hm.1, ?_⟩, ?_⟩
        · simp only [Users.hold, hl, Pi.add_apply] at hm ⊢
          omega
        · have := hm.2
          rw [hl]
          by_cases hmi : m = i
          · subst hmi
            simp only [Pi.add_apply, Pi.single_eq_same]
            omega
          · simpa [hmi] using this
        · exact le_add_of_nonneg_of_le (hnn m) hm.2
      exact .of_books hb1 ho (lent_holding _ _ _) (dialing_holding _ _ _) hsound
    · exact ((hreq hex).congr (alike_of_refcnt hn hs)).other hne

end Accept

section Woken

variable (cfg : Config) (hbad : ∀ e, bad e → e = .useAfterFree)

include hbad

lemma holds_connectWoken (H : Holds T (during h (.connect k i))) :
    Runs bad (connectWoken cfg k i) h fun _ => Holds T := by
  obtain ⟨so, j, hk, hi, hj⟩ := H.books.calls _ List.mem_cons_self
  cases hj i rfl
  obtain ⟨ho, hu, n, hn⟩ := H.owned hk hi
  have hl : lent (during h (.connect k i)) = lent h := lent_during_of_none rfl
  have hsound := H.sound
  rw [dialing_connect] at hsound
  refine Runs.bind (runs_getSocket hk ?_)
  refine Runs.bind (runs_effect (sound_tcpConnectWoken hsound hn ho hu (.inr rfl)
    (fun j hj => .inl hj) (fun j hji hj => hj.resolve_right hji) so.dead) fun _ s hs => ?_)
  obtain ⟨hs, n', hn', hst⟩ := hs
  have hb : Books (during { h with stack := s } (holding k i)) :=
    (H.books.stack s h.defport).release (h := { h with stack := s }) (c := .connect k i) fun so' h1 => by
      cases Option.mem_unique hk h1
      exact hi
  refine holds_freeSocket (i := i) cfg hbad (.of_books hb rfl (lent_during_of_none rfl)
    (dialing_holding _ _ _) ?_) fun hex so' i' t hk' hle hi' ht hlis => ?_
  · rw [hl] at hs
    exact hs
  · cases Option.mem_unique hk hk'
    cases Option.mem_unique hi hi'
    obtain ⟨t', ht', rfl⟩ := sock_of_node rfl hn'
    cases Option.mem_unique ht' ht
    exact absurd hlis hst

lemma holds_readEnds (H : Holds T (during h (holding k i))) (hreq : T.exact → Requests h k)
    (len : ℤ) (r : Recv) : Runs bad (readEnds cfg k i len r) h fun _ => Holds T := by
  cases r with
  | returns ret => exact holds_freeSocket cfg hbad H hreq
  | sleeps rlen =>
    have hend : Books (during h (.read k i len rlen)) → Holds T (during h (.read k i len rlen)) := by
      intro hb
      refine H.congr hb rfl ?_ ?_ rfl
      · rw [lent_holding, lent_during_of_none rfl]
      · rw [dialing_holding, dialing_during (by simp)]
    refine runs_ok rfl (hend ?_)
    · refine H.books.trade rfl (fun so j h1 h2 => ?_) (by simp [Call.reserved]) (by simp [Call.handed])
      obtain ⟨so', j', hk, hi, hj⟩ := H.books.calls _ List.mem_cons_self
      cases Option.mem_unique hk h1
      cases Option.mem_unique hi h2
      exact hj

lemma holds_readWoken (len rlen : ℤ) (H : Holds T (during h (.read k i len rlen))) (hreq : T.exact → Requests h k) :
    Runs bad (readWoken cfg k i len rlen) h fun _ => Holds T := by
  obtain ⟨so, j, hk, hi, hj⟩ := H.books.calls _ List.mem_cons_self
  cases hj i rfl
  obtain ⟨-, -, n, hn⟩ := H.owned hk hi
  refine Runs.bind (runs_getSocket hk ?_)
  refine Runs.bind (runs_effect (effect_tcpRecvBufWoken (Q := fun _ g' => g' = seen h.stack) hbad hn
    len rlen so.dead fun _ => rfl) fun r s hs => ?_)
  refine holds_readEnds cfg hbad ?_ (fun hex => (hreq hex).congr (alike_of_seen hs)) len r
  have hb : Books (during { h with stack := s } (holding k i)) :=
    (H.books.stack s h.defport).release (h := { h with stack := s }) (c := .read k i len rlen) fun so' h1 => by
      cases Option.mem_unique hk h1
      exact hi
  have hl : lent (during h (.read k i len rlen)) = lent h := lent_during_of_none rfl
  have hd : dialing (during h (.read k i len rlen)) = dialing h := dialing_during (by simp)
  have hlh : lent (during { h with stack := s } (holding k i)) = lent h := lent_holding _ _ _
  have hdh : dialing (during { h with stack := s } (holding k i)) = dialing h := dialing_holding _ _ _
  exact H.congr hb rfl (hlh.trans hl.symm) (hdh.trans hd.symm) hs

lemma holds_read (H : Holds T h) (hv : bad .useAfterFree → Opened h k) (len : ℤ) :
    Runs bad (read cfg k len) h fun _ => Holds T := by
  refine Runs.bind (runs_opened hbad hv fun so i hk hd hi => ?_)
  obtain ⟨-, -, n, hn⟩ := H.owned hk hi
  split_ifs
  · exact runs_pure H
  · refine Runs.bind (runs_ok (getRef_run hk) ?_)
    refine Runs.bind (runs_effect (effect_tcpRecvBuf (Q := fun _ g' => g' = seen h.stack) hbad hn
      len fun _ => rfl) fun r s hs => ?_)
    have hb := (H.books.stack s h.defport).gotten (h := { h with stack := s }) hk hi
    have ho : own (gotten { h with stack := s } k so) = own h := own_gotten (H.books.stack s h.defport) hk hi
    refine holds_readEnds cfg hbad (H.congr hb ho (lent_holding _ _ _) (dialing_holding _ _ _) hs) ?_ len r
    intro hex so' i' t hk' hle
    obtain rfl : { so with refcnt := so.refcnt + 1 } = so' := by simpa [gotten] using hk'
    have hc := H.books.count k so hk
    rw [hd] at hc
    simp only [Bool.not_false, Bool.toNat_true] at hc
    simp only at hle
    omega

lemma holds_close (H : Holds T h) (hv : bad .useAfterFree → Opened h k)
    (hreq : T.exact → Requests h k) : Runs bad (close cfg k) h fun _ => Holds T := by
  refine Runs.bind (runs_opened hbad hv fun so i hk hd hi => ?_)
  refine Runs.bind (runs_getSocket hk (Runs.bind (runs_setSocket _ ?_)))
  have hi' : ({ so with dead := true } : Socket).sk = some i := hi
  refine holds_freeSocket (i := i) cfg hbad (H.congr (H.books.enter hk hi hi' ?_)
    (H.books.own_modify hk hi hi') (lent_holding _ _ _) (dialing_holding _ _ _) rfl) fun hex => ?_
  · simp [hd]
  · intro so' i' t hk' hle
    obtain rfl : { so with dead := true } = so' := by simpa using hk'
    exact hreq hex so i' t hk hle

end Woken

def Orderly (exact whole listening : Prop) (h : Host) : Event → Prop
  | .listen k _ => ∀ so i t, h.sockets k = some so → so.sk = some i → h.stack.sock i = some t →
      t.state = .closed → ¬dialing h i ∧ (listening → t.bhashed = true)
  | .accept k => exact → ∀ so i, h.sockets k = some so → so.sk = some i → HeadOpen h i
  | .close k => exact → Requests h k
  | .wake c => exact → Requests h c.socket ∧ ∀ k new i, c = .accept k new i → HeadOpen h i
  | .segment _ seg => ¬SynInWindow h.stack.tcp seg ∧
      (exact → ¬ResetInWindow (fun i _ => 1 ≤ lent h i) h.stack.tcp seg) ∧
      (whole → ¬ResetInWindow (fun _ t => t.state = .synRecv ∧ t.parent ≠ .none) h.stack.tcp seg)
  | .tick delta => exact → Timer.Apart (Timer.survives h.stack delta) h.stack.tcp.timewait
  | _ => True

def Event.handle : Event → Option ℕ
  | .bind k _ _ | .listen k _ | .connect k _ _ | .accept k | .read k _ | .write k _ _ | .close k => some k
  | _ => none

section Step

variable (cfg : Config) (hbad : ∀ e, bad e → e = .useAfterFree) (hx : bad .useAfterFree → T.exact)

include hbad hx

lemma holds_wake (H : Holds T h) (ho : Orderly T.exact T.whole T.listening h (.wake c)) :
    Runs bad (wake cfg c) h fun _ => Holds T := by
  by_cases hc : c ∈ h.calls
  · have hrun : wake cfg c h = goOn cfg c { h with calls := h.calls.erase c } := by
      simp only [wake, hc, if_true]
    have hperm : (c :: h.calls.erase c).Perm h.calls := (List.perm_cons_erase hc).symm
    have H' : Holds T (during { h with calls := h.calls.erase c } c) := by
      refine H.congr (H.books.wake hc) rfl (tally_perm id (hperm.filterMap _)) ?_ rfl
      funext j
      simp only [dialing, during, hperm.mem_iff]
    have hgo : Runs bad (goOn cfg c) { h with calls := h.calls.erase c } fun _ => Holds T := by
      cases c with
      | connect k i => exact holds_connectWoken cfg hbad H'
      | accept k new i =>
        exact holds_acceptWoken cfg hbad hx H' (fun hex => (ho hex).2 k new i rfl) fun hex => (ho hex).1
      | handOver k new i => exact holds_handOver cfg hbad hx H' fun hex => (ho hex).1
      | read k i len rlen => exact holds_readWoken cfg hbad len rlen H' fun hex => (ho hex).1
    rw [Runs, hrun]
    exact hgo
  · have hrun : wake cfg c h = .ok ((), h) := by simp only [wake, hc, if_false]
    exact runs_ok hrun H

theorem holds_exec (H : Holds T h) (ho : Orderly T.exact T.whole T.listening h e)
    (hv : bad .useAfterFree → ∀ k ∈ e.handle, Opened h k) :
    Runs bad (exec cfg e) h fun _ => Holds T := by
  cases e with
  | socket protocol => exact holds_socket H protocol
  | bind k saddr sport => exact holds_bind cfg hbad H (fun hb => hv hb k rfl) saddr sport
  | listen k backlog => exact holds_listen cfg hbad H (fun hb => hv hb k rfl) backlog ho
  | connect k daddr dport => exact holds_connect cfg hbad H (fun hb => hv hb k rfl) daddr dport
  | accept k => exact holds_accept cfg hbad hx H (fun hb => hv hb k rfl) ho
  | read k len => exact holds_read cfg hbad H (fun hb => hv hb k rfl) len
  | write k buf len => exact holds_write cfg hbad H (fun hb => hv hb k rfl) buf len
  | close k => exact holds_close cfg hbad H (fun hb => hv hb k rfl) ho
  | wake c => exact holds_wake cfg hbad hx H ho
  | segment pkb seg =>
    refine runs_onStack (sound_tcpRecv hbad H.sound (fun j hj => ?_) ho.1 ?_ ho.2.2)
      fun _ s hs => ⟨H.books.stack s h.defport, hs⟩
    · exact H.sound.dialed.below j (H.dialing_used j hj)
    · rintro ⟨i, t, h1, h2, ⟨hex, h3⟩, h4⟩
      exact ho.2.1 hex ⟨i, t, h1, h2, h3, h4⟩
  | tick delta =>
    exact runs_onStack (sound_tcpTimewaitTimer H.sound ho) fun _ s hs => ⟨H.books.stack s h.defport, hs⟩

end Step

lemma holds_boot : Holds T boot := by
  have hnone : ∀ i, (seen boot.stack).node i = none := fun _ => rfl
  have hown : own boot = 0 := by simp [own, boot]
  have hlent : lent boot = 0 := by simp [lent, boot]
  have hdial : dialing boot = fun _ => False := by
    funext i
    simp [dialing, boot]
  have hs : surplus (seen boot.stack) = 0 := by
    funext i
    simp [surplus, refcnts, listed, links, seen, graphOf, boot]
  have hbooks : Books boot := by
    refine ⟨?_, ?_, ?_, ?_, ?_, ?_⟩ <;> simp [boot, own, lent]
  have htables : (seen boot.stack).etable = [] ∧ (seen boot.stack).ltable = [] ∧
      (seen boot.stack).btable = [] ∧ (seen boot.stack).timewait = [] := ⟨rfl, rfl, rfl, rfl⟩
  refine .of_books hbooks hown hlent hdial ⟨⟨?_, le_rfl, ?_, ?_, ?_⟩, ⟨?_, ?_, ?_⟩,
    ⟨?_, ?_, ?_, ?_, ?_⟩, ⟨?_, ?_, ?_, ?_⟩, ⟨?_, ?_⟩, ⟨?_, ?_⟩, ⟨?_, ?_, ?_⟩⟩
  all_goals simp [hnone, hs, htables]

theorem holds_of_reached {exact whole listening : Prop} (hr : Reached (Orderly exact whole listening) h) :
    Holds ⟨exact, whole, listening⟩ h := by
  induction hr with
  | boot => exact holds_boot
  | @step h h' e cfg _ ho hrun ih =>
    have hstep : Runs (fun _ => False) (exec cfg e) h fun _ => Holds ⟨exact, whole, listening⟩ :=
      holds_exec cfg nofun nofun ih ho nofun
    exact hstep.elim hrun

end Tapip.Sockets.Inet
