import Tapip.Tcp.Acts

/-! The steps the calls of the users and the timer are made of. -/

namespace Tapip.Tcp.Acts

open Foundation.Program Foundation.Linked Text Connection Relation Timer

structure Allows (R : View → View → Prop) : Prop where
  turn : ∀ v st, idles v.state = false → later st = true → R v { v with state := st }
  shut : ∀ v, v.hashed = false → R v { v with state := .closed }
  wait : ∀ v, R v { v with waitAccept := true }
  orphan : ∀ v p, v.hashed = false → v.parent = .sock p → R v { v with parent := .none }

variable {net : Net} {R : View → View → Prop} {s s' : Local} {t t' : TcpSock} {i j : ℕ}

section Connect

lemma does_tcpConnect (i : ℕ) (daddr : UInt32) (dport : UInt16) : Does R (tcpConnect net.env i daddr dport) := by
  intro s b s' hrun
  obtain ⟨t, s0, rfl, h, hrest⟩ := getSk_bind_inv hrun
  split_ifs at hrest with hs
  · exact does_pure _ _ _ hrest
  · obtain ⟨iss, s1, hiss, hrest⟩ := bind_inv hrest
    have hsame := still_allocNewIss _ _ _ hiss
    obtain ⟨t1, ht1, hv1⟩ := sock_of_shown (hsame ▸ shown_sock h)
    have hs1 : t1.state = .closed := (congrArg View.state hv1).trans (not_not.mp hs)
    obtain ⟨⟨⟩, s2, hset, hrest⟩ := bind_inv hrest
    rw [modifySk_run _ ht1] at hset
    cases hset
    rw [← hsame]
    obtain ⟨b', s3, hhash, hlast⟩ := bind_inv hrest
    rcases tcpHash_acts sock_put (by simp) hhash with ⟨rfl, rfl⟩ | ⟨rfl, hnew, hlinked, -⟩
    · -- the state is CLOSED again
      obtain ⟨⟨⟩, s4, hback, hret⟩ := bind_inv hlast
      cases hret
      rw [modifySk_run _ sock_put] at hback
      cases hback
      rw [put_put, shown_put_same ht1 (by simp [view, hs1])]
    · have hstill : Still (do
          modifySk net.env i (fun t => { t with waitConnect := true })
          tcpSendSyn net.env i
          return true : Prog Local Bool) :=
        Still.bind (still_modifySk (fun _ => by rfl) i) fun _ =>
          Still.bind (still_tcpSendSyn i) fun _ => still_pure _
      rw [shown_put] at hlinked
      simp only [Shown.set, Function.update_idem] at hlinked
      rw [hstill _ _ _ hlast, hlinked]
      exact .single (@Act.hash R (shown s1) i (view t1) (shown_sock ht1) hs1 hnew)

lemma does_unlink (ha : Allows R) (i : ℕ) : Does R (do
    tcpUnhash net.env i
    tcpUnbhash net.env i
    modifySk net.env i (fun t => { t with state := .closed }) : Prog Local Unit) := by
  intro s u s' hrun
  have hread := hrun
  obtain ⟨⟨⟩, s1, hunhash, hrest⟩ := bind_inv hrun
  obtain ⟨t, -, -, h, -⟩ := getSk_bind_inv hunhash
  obtain ⟨h1, t1, ht1, hv1⟩ := tcpUnhash_acts (R := R) h hunhash
  obtain ⟨⟨⟩, s2, hunbhash, hset⟩ := bind_inv hrest
  obtain ⟨h2, hv2⟩ := tcpUnbhash_acts (R := R) ht1 hunbhash
  obtain ⟨t2, ht2, -⟩ := modifySk_inv hset
  have hfree : (view t2).hashed = false := by rw [hv2 t2 ht2, hv1]
  exact (h1.trans h2).trans (modifySk_acts ht2 (ha.shut _ hfree) hset).1

lemma does_tcpConnectWoken (ha : Allows R) (i : ℕ) (err : Bool) : Does R (tcpConnectWoken net.env i err) := by
  refine Does.bind (still_modifySk (fun _ => by rfl) i).does fun _ => Does.bind (still_getSk i).does fun t => ?_
  split_ifs
  · intro s b s' hrun
    obtain ⟨⟨⟩, s1, h1, hrest⟩ := bind_inv hrun
    obtain ⟨⟨⟩, s2, h2, hrest⟩ := bind_inv hrest
    obtain ⟨⟨⟩, s3, h3, hret⟩ := bind_inv hrest
    cases hret
    exact does_unlink ha i _ () _ (by rw [bind_run h1, bind_run h2, h3])
  · exact does_pure

lemma tcpSetSport_acts {nport defport : UInt16} {r : Bool × UInt16} (h : s.sock i = some t)
    (h0 : t.sk.skSport = 0) (hrun : tcpSetSport net.env i nport defport s = .ok (r, s')) :
    Chain R (shown s) (shown s') := by
  obtain ⟨w, s0, hget, hrest⟩ := bind_inv hrun
  cases hget
  obtain ⟨⟨port, defport'⟩, s1, hport, hlast⟩ := bind_inv hrest
  have hs1 : s1 = s := by
    simp only [Tcp.liftExcept] at hport
    cases hc : Ports.choosePort (tcpPortUsed (net.env.world s)) (net.env.world s).bfree defport nport with
    | error e => simp [hc, Except.map] at hport
    | ok p =>
      simp only [hc, Except.map, Except.ok.injEq, Prod.mk.injEq] at hport
      exact hport.2.symm
  subst hs1
  simp only at hlast
  split_ifs at hlast with hp
  · exact does_pure _ _ _ hlast
  · obtain ⟨⟨⟩, s2, hfree, hlast⟩ := bind_inv hlast
    have hsame : shown s2 = shown s1 := 
      still_modifyWorld (fun _ => by exact ⟨rfl, rfl, rfl, rfl, rfl⟩) _ _ _ hfree
    have h2 : s2.sock i = some t := by rw [(shown_modify hfree fun _ => ⟨rfl, rfl⟩).2, h]
    obtain ⟨⟨⟩, s3, hset, hlast⟩ := bind_inv hlast
    rw [modifySk_run _ h2] at hset
    cases hset
    obtain ⟨⟨⟩, s4, hbhash, hret⟩ := bind_inv hlast
    cases hret
    obtain ⟨⟨⟩, s5, hset, hworld⟩ := bind_inv hbhash
    rw [modifySk_run _ sock_put] at hset
    cases hset
    obtain ⟨hlinked, -⟩ := shown_modify hworld fun _ => ⟨rfl, rfl⟩
    rw [shown_put, shown_put] at hlinked
    simp only [Shown.set, Function.update_idem] at hlinked
    rw [← hsame, hlinked]
    exact .single (.bhash (shown_sock h2) h0 hp)

end Connect

section Accept

lemma does_tcpOpsListen (i : ℕ) (backlog : ℤ) : Does R (tcpOpsListen net.env i backlog) := by
  intro s b s' hrun
  obtain ⟨t, s0, rfl, h, hrest⟩ := getSk_bind_inv hrun
  split_ifs at hrest with h0 hmax hs hl
  · exact does_pure _ _ _ hrest
  · exact does_pure _ _ _ hrest
  · exact does_pure _ _ _ hrest
  · obtain ⟨⟨⟩, s1, hset, hlast⟩ := bind_inv hrest
    rw [modifySk_run _ h] at hset
    cases hset
    have hclosed : t.state = .closed := by
      by_contra hne
      exact hs ⟨hne, hl⟩
    obtain ⟨b', s2, hhash, hret⟩ := bind_inv hlast
    cases hret
    rw [tcpHash, bind_run (getSk_run sock_put), if_neg (by simp), if_pos rfl] at hhash
    obtain ⟨⟨⟩, s3, hset, hlast⟩ := bind_inv hhash
    rw [modifySk_run _ sock_put] at hset
    cases hset
    obtain ⟨⟨⟩, s4, hworld, hret⟩ := bind_inv hlast
    cases hret
    obtain ⟨hlinked, -⟩ := shown_modify hworld fun _ => ⟨rfl, rfl⟩
    rw [shown_put, shown_put] at hlinked
    simp only [Shown.set, Function.update_idem] at hlinked
    rw [hlinked]
    exact .single (.listen (shown_sock h) hclosed)
  · obtain ⟨⟨⟩, s1, hset, hret⟩ := bind_inv hrest
    rw [modifySk_run _ h] at hset
    cases hset
    cases hret
    rw [shown_put_same h (by simp [view, not_not.mp hl])]

lemma still_sleepOn (i : ℕ) : Still (sleepOn net.env i) := by
  refine Still.bind (still_getSk i) fun t => ?_
  split_ifs
  · exact still_pure _
  · exact still_fault

lemma tcpAccept_inv {r : Option ℕ} (hrun : tcpAccept net.env i s = .ok (r, s')) :
    ∃ (s0 : Local) (j : ℕ) (t' : TcpSock), s' = s0.put j t' ∧
      (r = none ∧ j = i ∧ t'.waitAccept = true ∨ r = some j ∧ t'.parent = .dead) := by
  obtain ⟨t, s0, -, hbody⟩ := bind_inv hrun
  cases hq : t.acceptQueue with
  | nil =>
    simp only [hq] at hbody
    obtain ⟨⟨⟩, s1, -, hlast⟩ := bind_inv hbody
    obtain ⟨⟨⟩, s2, hset, hret⟩ := bind_inv hlast
    cases hret
    obtain ⟨t1, -, rfl⟩ := modifySk_inv hset
    exact ⟨_, _, _, rfl, .inl ⟨rfl, rfl, rfl⟩⟩
  | cons new rest =>
    simp only [hq] at hbody
    obtain ⟨⟨⟩, s1, -, hlast⟩ := bind_inv hbody
    obtain ⟨⟨⟩, s2, -, hlast⟩ := bind_inv hlast
    obtain ⟨c, s3, -, hlast⟩ := bind_inv hlast
    cases hp : c.parent with
    | sock p =>
      simp only [hp] at hlast
      obtain ⟨⟨⟩, s4, -, hlast⟩ := bind_inv hlast
      obtain ⟨⟨⟩, s5, hset, hret⟩ := bind_inv hlast
      cases hret
      obtain ⟨c5, -, rfl⟩ := modifySk_inv hset
      exact ⟨_, _, _, rfl, .inr ⟨rfl, rfl⟩⟩
    | none =>
      simp only [hp] at hlast
      obtain ⟨_, _, hnull, -⟩ := bind_inv hlast
      simp [fault] at hnull
    | dead =>
      simp only [hp] at hlast
      obtain ⟨_, _, hnull, -⟩ := bind_inv hlast
      simp [fault] at hnull

lemma tcpAccept_acts {r : Option ℕ} (ha : Allows R) (h : s.sock i = some t)
    (hdead : ∀ j ∈ t.acceptQueue, ∀ c, s.sock j = some c → R (view c) { view c with parent := .dead })
    (hrun : tcpAccept net.env i s = .ok (r, s')) : Chain R (shown s) (shown s') := by
  rw [tcpAccept, bind_run (getSk_run h)] at hrun
  cases hq : t.acceptQueue with
  | nil =>
    simp only [hq] at hrun
    obtain ⟨⟨⟩, s1, hsleep, hrest⟩ := bind_inv hrun
    have hsame := still_sleepOn i _ _ _ hsleep
    obtain ⟨⟨⟩, s2, hset, hret⟩ := bind_inv hrest
    cases hret
    obtain ⟨t1, ht1, -⟩ := modifySk_inv hset
    rw [← hsame]
    exact (modifySk_acts ht1 (ha.wait _) hset).1
  | cons new rest =>
    simp only [hq] at hrun
    obtain ⟨⟨⟩, s1, hset, hrest⟩ := bind_inv hrun
    have hsame : shown s1 = shown s := still_modifySk (fun _ => by rfl) i _ _ _ hset
    obtain ⟨⟨⟩, s2, hfree, hrest⟩ := bind_inv hrest
    obtain ⟨c, s3, rfl, hc, hmatch⟩ := getSk_bind_inv hrest
    have h2 : Chain R (shown s) (shown s3) := hsame ▸ does_freeSock new _ _ _ hfree
    refine h2.trans ?_
    cases hp : c.parent with
    | sock p =>
      simp only [hp] at hmatch
      obtain ⟨⟨⟩, s4, hup, hlast⟩ := bind_inv hmatch
      obtain ⟨⟨⟩, s5, hset', hret⟩ := bind_inv hlast
      cases hret
      obtain ⟨c4, hc4, -⟩ := modifySk_inv hset'
      obtain ⟨c3, hc3, hv3⟩ := freeSock_survivor hup hc4
      obtain ⟨c2, hc2, hv2⟩ := freeSock_survivor hfree hc3
      obtain ⟨c1, hc1, hv1⟩ := sock_of_shown (hsame ▸ shown_sock hc2)
      have hr : R (view c4) { view c4 with parent := .dead } := by
        rw [← hv3, ← hv2, ← hv1]
        exact hdead new (by simp [hq]) c1 hc1
      exact (does_freeSock p _ _ _ hup).trans (modifySk_acts hc4 hr hset').1
    | none =>
      simp only [hp] at hmatch
      obtain ⟨_, _, hnull, -⟩ := bind_inv hmatch
      simp [fault] at hnull
    | dead =>
      simp only [hp] at hmatch
      obtain ⟨_, _, hnull, -⟩ := bind_inv hmatch
      simp [fault] at hnull

end Accept

section Close

lemma discard_acts {p : ℕ} {u : Unit} (ha : Allows R) (h : s.sock i = some t) (hp : t.parent = .sock p) (hrun : (do
      modifySk net.env i (fun t => { t with parent := .none })
      tcpUnhash net.env i : Prog Local Unit) s = .ok (u, s')) : Chain R (shown s) (shown s') := by
  obtain ⟨⟨⟩, s1, hset, hunhash⟩ := bind_inv hrun
  have hset' := hset
  rw [modifySk_run _ h] at hset'
  cases hset'
  obtain ⟨t0, ht0, -, rfl⟩ := tcpUnhash_inv hunhash
  rw [sock_put] at ht0
  cases ht0
  cases hh : t.sk.hashed with
  | false =>
    simp only [unhashed, hh, Bool.false_eq_true, if_false, edited_self sock_put]
    exact (modifySk_acts h (ha.orphan _ p hh hp) hset).1
  | true =>
    simp only [edited_put, shown_edited, Option.map_some, view_unhashed]
    exact .single (@Act.discard R (shown s) i p (view t) (shown_sock h) hh hp)

lemma does_tcpClearListenQueue (ha : Allows R) (i fuel : ℕ) : Does R (tcpClearListenQueue net.env i fuel) := by
  induction fuel with
  | zero => exact does_pure
  | succ fuel ih =>
    rw [tcpClearListenQueue]
    refine Does.bind (still_getSk i).does fun t => ?_
    cases t.listenQueue with
    | nil => exact does_pure
    | cons child rest =>
      refine Does.bind (still_modifySk (fun _ => by rfl) i).does fun _ => ?_
      intro s u s' hrun
      obtain ⟨c, s0, rfl, hc, hbody⟩ := getSk_bind_inv hrun
      split_ifs at hbody with hs
      · cases hp : c.parent with
        | sock p =>
          simp only [hp] at hbody
          obtain ⟨⟨⟩, s1, hup, hrest⟩ := bind_inv hbody
          obtain ⟨⟨⟩, s2, hset, hrest⟩ := bind_inv hrest
          obtain ⟨⟨⟩, s3, hunhash, hrest⟩ := bind_inv hrest
          obtain ⟨c1, hc1, -⟩ := modifySk_inv hset
          have hp1 : c1.parent = .sock p := by
            rw [← hp]
            exact congrArg View.parent (freed_view (shown_sock hc) hup hc1)
          have h1 := does_freeSock (R := R) p _ _ _ hup
          have h3 := discard_acts (u := ()) ha hc1 hp1 (by rw [bind_run hset, hunhash])
          exact (h1.trans h3).trans (Does.bind (does_freeSock child) (fun _ => ih) _ _ _ hrest)
        | none =>
          simp only [hp] at hbody
          obtain ⟨_, _, hnull, -⟩ := bind_inv hbody
          simp [fault] at hnull
        | dead =>
          simp only [hp] at hbody
          obtain ⟨_, _, hnull, -⟩ := bind_inv hbody
          simp [fault] at hnull
      · exact ih _ _ _ hbody

lemma sendFin_acts {st : TcpState} {u : Unit} (ha : Allows R) (h : s.sock i = some t) (hl : idles t.state = false)
    (hst : later st = true) (hrun : sendFin net.env i st s = .ok (u, s')) : Chain R (shown s) (shown s') := by
  obtain ⟨⟨⟩, s1, hset, hrest⟩ := bind_inv hrun
  have hstill : Still (do
      tcpSendFin net.env i
      modifySk net.env i (fun t => { t with sndNxt := t.sndNxt + 1 }) : Prog Local Unit) :=
    Still.bind (still_tcpSendFin i) fun _ => still_modifySk (fun _ => by rfl) i
  rw [hstill _ _ _ hrest]
  exact (turn_acts ha.turn st h hl hst rfl hset).1

lemma does_tcpClose (ha : Allows R) (i : ℕ) : Does R (tcpClose net.env i) := by
  have hend : Still (freeText net i) := by
    rw [freeText_eq]
    exact still_modifySk (fun _ => by rfl) i
  intro s u s' hrun
  obtain ⟨t, s0, rfl, h, hbody⟩ := getSk_bind_inv hrun
  cases hs : t.state <;> simp only [hs] at hbody
  case listen =>
    obtain ⟨⟨⟩, s1, hclear, hrest⟩ := bind_inv hbody
    obtain ⟨⟨⟩, s2, h2, hrest⟩ := bind_inv hrest
    obtain ⟨⟨⟩, s3, h3, hrest⟩ := bind_inv hrest
    obtain ⟨⟨⟩, s4, h4, hrest⟩ := bind_inv hrest
    have h1 := does_tcpClearListenQueue ha i _ _ _ _ hclear
    have hunlink := does_unlink ha i s1 () s4 (by rw [bind_run h2, bind_run h3, h4])
    exact (h1.trans hunlink).trans (hend.does _ _ _ hrest)
  case established | closeWait =>
    obtain ⟨⟨⟩, s1, hfin, hrest⟩ := bind_inv hbody
    exact (sendFin_acts ha h (by simp [hs, idles]) rfl hfin).trans (hend.does _ _ _ hrest)
  all_goals exact hend.does _ _ _ hbody

end Close

section Receive

lemma still_recvGoOn {len rlen : ℤ} {loop : ℤ → Prog Local Recv} (hl : ∀ r, Still (loop r)) :
    Still (recvGoOn net.env i len loop rlen) := by
  refine Still.bind (still_getSk i) fun t => ?_
  split_ifs
  · exact still_pure _
  · exact still_fault
  · exact Still.bind (still_modifySk (fun _ => by rfl) i) fun _ => still_pure _
  · exact hl _

lemma view_tcpReadBuf {buf : List UInt8} {len : ℤ} (h : tcpReadBuf t len = .ok (buf, t')) : view t' = view t := by
  rw [tcpReadBuf] at h
  cases hr : Lib.readCbuf t.rcvBuf len with
  | error e => simp [hr, bind, Except.bind] at h
  | ok p =>
    simp only [hr, bind, Except.bind, pure, Except.pure, Except.ok.injEq, Prod.mk.injEq] at h
    obtain ⟨-, rfl⟩ := h
    rfl

lemma still_recvLoop (len : ℤ) (fuel : ℕ) (rlen : ℤ) : Still (recvLoop net.env i len fuel rlen) := by
  induction fuel generalizing rlen with
  | zero =>
    rw [recvLoop]
    split_ifs
    · exact still_fault
    · exact still_pure _
  | succ fuel ih =>
    rw [recvLoop]
    split_ifs
    · intro s r s' hrun
      obtain ⟨t, s0, rfl, ht, hrest⟩ := getSk_bind_inv hrun
      obtain ⟨⟨buf, t1⟩, s1, hread, hlast⟩ := bind_inv hrest
      obtain ⟨rfl, htext⟩ := liftExcept_inv hread
      dsimp only at hlast
      rw [bind_run (modifySk_run _ ht)] at hlast
      rw [still_recvGoOn (fun r => ih r) _ _ _ hlast, shown_put_same ht (view_tcpReadBuf htext)]
    · exact still_pure _

lemma still_tcpRecvBuf (i : ℕ) (len : ℤ) : Still (tcpRecvBuf net.env i len) := by
  refine Still.bind (still_getSk i) fun t => ?_
  split_ifs
  · exact still_recvLoop len _ 0
  · exact still_pure _

lemma still_tcpRecvBufWoken (i : ℕ) (len rlen : ℤ) (err : Bool) : Still (tcpRecvBufWoken net.env i len rlen err) := by
  rw [tcpRecvBufWoken]
  split_ifs
  · exact still_pure _
  · exact still_pure _
  · exact still_recvGoOn fun r => still_recvLoop len _ r

end Receive

section Timer

lemma does_timewaitExpire (ha : Allows R) (i : ℕ) : Does R (timewaitExpire net.env i) := by
  have hend : Does R (do
      tcpUnhash net.env i
      modifySk net.env i (fun t => { t with state := .closed })
      freeSock net.env i : Prog Local Unit) := by
    intro s u s' hrun
    obtain ⟨⟨⟩, s1, hunhash, hrest⟩ := bind_inv hrun
    have hread := hunhash
    obtain ⟨t, -, -, h, -⟩ := getSk_bind_inv hread
    obtain ⟨h1, t1, ht1, hv1⟩ := tcpUnhash_acts (R := R) h hunhash
    obtain ⟨⟨⟩, s2, hset, hfree⟩ := bind_inv hrest
    have h2 := (modifySk_acts ht1 (ha.shut (view t1) (by rw [hv1])) hset).1
    exact (h1.trans h2).trans (does_freeSock i _ _ _ hfree)
  refine Does.bind (still_getSk i).does fun t => ?_
  split_ifs
  · exact Does.bind (does_tcpUnbhash i) fun _ => hend
  · exact hend

lemma does_timewaitLoop (ha : Allows R) (delta : ℤ) (fuel : ℕ) (pprev : Link ℕ) (next : Option ℕ) (timers : Links ℕ) :
    Does R (timewaitLoop net.env delta fuel pprev next timers) := by
  induction fuel generalizing pprev next timers with
  | zero =>
    cases next with
    | none => exact does_pure
    | some j => exact still_fault.does
  | succ fuel ih =>
    cases next with
    | none => exact does_pure
    | some j =>
      rw [timewaitLoop]
      refine Does.bind (still_modifySk (fun _ => by rfl) j).does fun _ =>
        Does.bind (still_getSk j).does fun t => ?_
      split_ifs
      · exact Does.bind (does_timewaitExpire ha j) fun _ => ih _ _ _
      · exact ih _ _ _

lemma does_tcpTimewaitTimer (ha : Allows R) (delta : ℤ) : Does R (tcpTimewaitTimer net.env delta) :=
  Does.bind (still_getWorld).does fun _ => Does.bind (does_timewaitLoop ha delta _ _ _ _) fun _ =>
    (still_modifyWorld fun _ => by exact ⟨rfl, rfl, rfl, rfl, rfl⟩).does

end Timer

end Tapip.Tcp.Acts
