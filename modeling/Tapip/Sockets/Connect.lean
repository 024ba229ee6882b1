import Tapip.Sockets.Invariants
import Tapip.Sockets.Walk

/-! What a failed `inet_connect` leaves behind (socket/inet.c, tcp/tcp_sock.c). -/

namespace Tapip.Sockets.Inet

open Net.ByteOrder Foundation.Program Tcp Tcp.Connection

variable {inUse : UInt16 → Bool} {port defport nport : UInt16} {net : Net} {ok : Bool} {s s' : Local}

def routed (cfg : Config) (id : ℕ) (daddr : UInt32) (dport : UInt16) : Prog Host Bool :=
  match cfg.route daddr with
  | none => return false
  | some rt => do
    setAddr cfg id (fun sk => { sk with skDst := some rt, skSaddr := cfg.ipaddr rt })
    if ← onStack (tcpConnect cfg.env id daddr dport) then
      onStack (sleepOn cfg.env id)
      return true
    else return false

def inetConnect (cfg : Config) (id : ℕ) (daddr : UInt32) (dport : UInt16) : Prog Host Bool := do
  let tsk ← onStack (getSk cfg.env id)
  if dport = 0 ∨ daddr = 0 ∨ tsk.sk.skDport ≠ 0 then return false
  else if !(← autobind cfg id tsk) then return false
  else routed cfg id daddr dport

lemma connect_eq (cfg : Config) (k : ℕ) (daddr : UInt32) (dport : UInt16) : connect cfg k daddr dport = (do
      let id ← opened k
      if ← inetConnect cfg id daddr dport then
        getRef k
        sleep (.connect k id)) := by
  simp only [connect, inetConnect, routed, bind_assoc]
  congr 1
  funext id
  congr 1
  funext tsk
  split_ifs
  · rfl
  · rw [bind_assoc]
    congr 1
    funext ok
    cases ok with
    | false => rfl
    | true =>
      simp only [Bool.not_true, Bool.false_eq_true, if_false]
      cases cfg.route daddr with
      | none => rfl
      | some rt =>
        simp only [bind_assoc]
        congr 1
        funext _
        congr 1
        funext ok
        cases ok <;> simp

/-- A call that returns -1, at once or after it has slept; what happens meanwhile does not set the
remote port of the sock. -/
inductive Fails (cfg : Config) (id : ℕ) (daddr : UInt32) (dport : UInt16) (h : Host) : Host → Prop
  | early {h' : Host} : inetConnect cfg id daddr dport h = .ok (false, h') → Fails cfg id daddr dport h h'
  | late {h1 h2 h' : Host} {cfg' : Config} {err : Bool} : inetConnect cfg id daddr dport h = .ok (true, h1) →
      (∀ u, h2.stack.sock id = some u → ∃ t, h1.stack.sock id = some t ∧ u.sk.skDport = t.sk.skDport) →
      onStack (tcpConnectWoken cfg'.env id err) h2 = .ok (false, h') →
      Fails cfg id daddr dport h h'

def visible (h : Host) (id : ℕ) :
    Option (UInt32 × UInt32 × UInt16 × UInt16 × TcpState) × Bool × Bool × Bool :=
  ((h.stack.sock id).map fun t => (t.sk.skSaddr, t.sk.skDaddr, t.sk.skSport, t.sk.skDport, t.state),
    h.stack.tcp.btable.contains id, h.stack.tcp.ltable.contains id, h.stack.tcp.etable.contains id)

section Defport

open Tcp.Ports

lemma skipUsed_inRange {fuel : ℕ} {r : UInt16} (hp : InRange port)
    (h : skipUsed inUse fuel port = some r) : InRange r := by
  induction fuel generalizing port with
  | zero => simp [skipUsed] at h
  | succ fuel ih =>
    rw [skipUsed] at h
    split_ifs at h
    · exact ih hp.next h
    · cases h
      exact hp

lemma choosePort_inRange {bfree : ℤ} {defport' : UInt16}
    (hd : InRange defport) (h : choosePort inUse bfree defport nport = .ok (port, defport')) :
    InRange defport' ∧ (nport = 0 → (port = 0 ↔ bfree ≤ 0)) := by
  simp only [choosePort, tcpGetPort] at h
  split_ifs at h with h1 h2 h3
  · cases h
    exact ⟨hd, fun h0 => absurd h0 h1⟩
  · cases h
    exact ⟨hd, fun h0 => absurd h0 h1⟩
  · cases h
    exact ⟨hd, fun _ => by simp [h3]⟩
  · split at h
    · simp at h
    · rename_i r hr
      cases h
      have hrange := skipUsed_inRange hd hr
      refine ⟨hrange.next, fun _ => ⟨fun h0 => ?_, fun hb => absurd hb h3⟩⟩
      have hzero : r = 0 := by
        rw [← htons_htons r, h0]
        rfl
      rw [hzero, inRange_iff] at hrange
      simp at hrange

lemma tcpSetSport_inv {id : ℕ} {d : UInt16} (hrun : tcpSetSport net.env id nport defport s = .ok ((ok, d), s')) :
    ∃ port, choosePort (tcpPortUsed s.tcp) s.tcp.bfree defport nport = .ok (port, d) ∧
      (ok = true ↔ port ≠ 0) ∧ (port = 0 → s' = s) ∧
      (port ≠ 0 → ∃ t, s.sock id = some t ∧ s'.sock id = some { t with
        sk := { t.sk with skSport := port, refcnt := t.sk.refcnt + 1 }, bhashed := true }) := by
  obtain ⟨w, s1, hw, hrun⟩ := bind_inv hrun
  cases hw
  obtain ⟨⟨port, d'⟩, s2, hlift, hrest⟩ := bind_inv hrun
  obtain ⟨rfl, hch⟩ := liftExcept_inv hlift
  simp only at hrest
  split_ifs at hrest with hz
  · obtain ⟨hbd, rfl⟩ := ok_inj hrest
    obtain ⟨rfl, rfl⟩ := Prod.mk.inj hbd
    exact ⟨port, hch, by simp [hz], fun _ => rfl, fun h => absurd hz h⟩
  · obtain ⟨⟨⟩, s3, hfree, hrest⟩ := bind_inv hrest
    cases hfree
    obtain ⟨⟨⟩, s4, hport, hrest⟩ := bind_inv hrest
    obtain ⟨t, -, -, ht, -⟩ := getSk_bind_inv hport
    rw [modifySk_run _ ht] at hport
    cases hport
    obtain ⟨⟨⟩, s6, hlink, hret⟩ := bind_inv hrest
    rw [Tcp.tcpBhash, bind_run (modifySk_run _ sock_put)] at hlink
    cases hlink
    obtain ⟨hbd, rfl⟩ := ok_inj hret
    obtain ⟨rfl, rfl⟩ := Prod.mk.inj hbd
    refine ⟨port, hch, by simp [hz], fun h => absurd h hz, fun _ => ⟨t, ht, ?_⟩⟩
    simp [Local.sock, Net.env, Local.put, setRefcnt]

def Ranged (h h' : Host) : Prop := InRange h.defport → InRange h'.defport

lemma steady_ranged (cfg : Config) : Steady cfg True Ranged where
  refl _ hd := hd
  trans h1 h2 hd := h2 (h1 hd)
  stack _ _ hd := hd
  sockets _ _ _ hd := hd
  setPort id nport := by
    intro h ok h' hrun hd
    obtain ⟨⟨⟨b, d⟩, s⟩, hset, hret⟩ := bind_eq_ok.mp hrun
    cases hret
    obtain ⟨port, hport, -⟩ := tcpSetSport_inv hset
    exact (choosePort_inRange hd hport).1
  sleep c _ := by
    intro h u h' hrun hd
    cases hrun
    exact hd

lemma Reached.defport_inRange {ok : Host → Event → Prop} {h : Host} (hr : Reached ok h) : InRange h.defport := by
  induction hr with
  | boot => exact ⟨by decide, by decide⟩
  | @step h h' e cfg _ _ hrun ih => exact (steady_ranged cfg).exec (fun _ _ hd => hd) (fun _ => trivial) h () h' hrun ih

end Defport

section Failure

open Tcp.Ports

variable {cfg : Config} {id : ℕ} {daddr : UInt32} {dport : UInt16} {h h' : Host} {t : TcpSock}

/-- The failed call has not got past the check of its arguments or an autobind that finds no port; or
the sock was bound before and, if there is a route, is not CLOSED and has the address of that route
already. -/
def Untouched (cfg : Config) (h : Host) (t : TcpSock) (daddr : UInt32) (dport : UInt16) : Prop :=
  dport = 0 ∨ daddr = 0 ∨ t.sk.skDport ≠ 0 ∨ (t.sk.skSport = 0 ∧ h.stack.tcp.bfree ≤ 0) ∨
    (t.sk.skSport ≠ 0 ∧ ∀ rt, cfg.route daddr = some rt → t.state ≠ .closed ∧ t.sk.skSaddr = cfg.ipaddr rt)

lemma setPort_spec (ht : h.stack.sock id = some t) (hd : InRange h.defport) (hrun : setPort cfg id 0 h = .ok (ok, h')) :
    (ok = true ↔ 0 < h.stack.tcp.bfree) ∧ (ok = false → h'.stack = h.stack) ∧
      (ok = true → ∃ t', h'.stack.sock id = some t' ∧ t'.sk.skDport = t.sk.skDport ∧ t'.sk.skSport ≠ 0) := by
  obtain ⟨⟨⟨b, d⟩, s⟩, hset, hret⟩ := bind_eq_ok.mp hrun
  cases hret
  obtain ⟨port, hport, hb, hkeep, hbound⟩ := tcpSetSport_inv hset
  have hzero := (choosePort_inRange hd hport).2 rfl
  refine ⟨?_, fun hf => ?_, fun htrue => ?_⟩
  · rw [hb, Ne, hzero, not_le]
  · refine hkeep ?_
    by_contra hne
    simp [hb.mpr hne] at hf
  · obtain ⟨t0, ht0, hs⟩ := hbound (hb.mp htrue)
    cases Option.mem_unique ht ht0
    exact ⟨_, hs, rfl, hb.mp htrue⟩

def ports (t : TcpSock) : UInt16 × UInt16 := (t.sk.skSport, t.sk.skDport)

lemma tcpConnect_spec (ht : s.sock id = some t) (hrun : tcpConnect net.env id daddr dport s = .ok (ok, s')) :
    (t.state ≠ .closed ∧ ok = false ∧ s' = s) ∨
      (t.state = .closed ∧ ∀ t', s'.sock id = some t' → ports t' = (t.sk.skSport, dport)) := by
  rw [tcpConnect, bind_run (getSk_run ht)] at hrun
  by_cases hst : t.state = .closed
  · rw [if_neg (not_not.mpr hst)] at hrun
    refine .inr ⟨hst, fun t' ht' => ?_⟩
    obtain ⟨iss, s1, hiss, hrun⟩ := bind_inv hrun
    cases hiss
    obtain ⟨⟨⟩, s2, hset, hrest⟩ := bind_inv hrun
    obtain ⟨t1, ht1, rfl⟩ := modifySk_inv hset
    cases Option.mem_unique ht ht1
    have hkeep : ∀ ok, Respects (Keeps id (Same ports) fun _ => True) (do
        if !ok then
          modifySk net.env id (fun t => { t with state := .closed })
          return false
        else
          modifySk net.env id (fun t => { t with waitConnect := true })
          tcpSendSyn net.env id
          return true : Prog Local Bool) := by
      intro ok
      split_ifs
      · exact Keeps.bind (keeps_modifySk fun _ => rfl) fun _ => keeps_pure _
      · exact Keeps.bind (keeps_modifySk fun _ => rfl) fun _ =>
          Keeps.bind (keeps_tcpSendSyn (fun _ _ => rfl) (fun _ _ => trivial) id) fun _ => keeps_pure _
    have hhash : Respects (Keeps id (Same ports) (fun _ => True)) (tcpHash net.env id) :=
      keeps_tcpHash (fun _ _ => rfl) (fun _ _ => rfl) id
    have hall := Keeps.bind hhash hkeep
    obtain ⟨t2, ht2, hsame⟩ := (hall _ _ _ hrest).1 t' ht'
    rw [sock_put] at ht2
    cases ht2
    exact hsame
  · rw [if_pos hst] at hrun
    cases hrun
    exact .inl ⟨hst, rfl, rfl⟩

lemma visible_congr (hs : h'.stack = h.stack) : visible h' id = visible h id := by
  simp only [visible, hs]

lemma visible_ne (ht : h.stack.sock id = some t)
    (hne : ∀ t', h'.stack.sock id = some t' → ports t' ≠ ports t ∨ t'.sk.skSaddr ≠ t.sk.skSaddr) :
    visible h' id ≠ visible h id := by
  intro hv
  have hmap := congrArg Prod.fst hv
  simp only [visible, ht, Option.map_some] at hmap
  obtain ⟨t', ht', he⟩ := Option.map_eq_some_iff.mp hmap
  simp only [Prod.mk.injEq] at he
  rcases hne t' ht' with h1 | h1
  · exact h1 (by simp [ports, he])
  · exact h1 he.1

lemma route_spec (ht : h.stack.sock id = some t) (hrun : routed cfg id daddr dport h = .ok (ok, h')) :
    (ok = false ∧ cfg.route daddr = none ∧ h'.stack = h.stack) ∨
      (∃ rt, cfg.route daddr = some rt ∧ t.state ≠ .closed ∧ ok = false ∧
        h'.stack = h.stack.put id { t with sk := { t.sk with skDst := some rt, skSaddr := cfg.ipaddr rt } }) ∨
      (∃ rt, cfg.route daddr = some rt ∧ t.state = .closed ∧
        ∀ t', h'.stack.sock id = some t' → ports t' = (t.sk.skSport, dport)) := by
  rw [routed] at hrun
  cases hr : cfg.route daddr with
  | none =>
    rw [hr] at hrun
    cases hrun
    exact .inl ⟨rfl, rfl, rfl⟩
  | some rt =>
    rw [hr] at hrun
    obtain ⟨⟨⟩, h1, haddr, hrest⟩ := bind_inv hrun
    obtain ⟨t0, ht0, hs1⟩ := modifySk_inv (onStack_inv haddr)
    cases Option.mem_unique ht ht0
    have ht1 : h1.stack.sock id = some { t with
        sk := { t.sk with skDst := some rt, skSaddr := cfg.ipaddr rt } } := by rw [hs1, sock_put]
    obtain ⟨b, h2, hconn, hlast⟩ := bind_inv hrest
    have hend : ok = b ∧ h'.stack = h2.stack := by
      cases b with
      | false =>
        cases hlast
        exact ⟨rfl, rfl⟩
      | true =>
        obtain ⟨⟨⟩, h3, hsleep, hret⟩ := bind_inv hlast
        cases hret
        obtain ⟨u, s1, rfl, -, hwait⟩ := getSk_bind_inv (onStack_inv hsleep)
        split_ifs at hwait
        · exact ⟨rfl, (ok_inj hwait).2.symm⟩
        · simp [fault] at hwait
    obtain ⟨rfl, hstack⟩ := hend
    rcases tcpConnect_spec ht1 (onStack_inv hconn) with ⟨hst, rfl, hs2⟩ | ⟨hst, hports⟩
    · exact .inr (.inl ⟨rt, rfl, hst, rfl, by rw [hstack, hs2, hs1]⟩)
    · refine .inr (.inr ⟨rt, rfl, hst, fun t' ht' => ?_⟩)
      rw [hstack] at ht'
      exact hports t' ht'

lemma inetConnect_spec (ht : h.stack.sock id = some t) (hd : InRange h.defport)
    (hrun : inetConnect cfg id daddr dport h = .ok (ok, h')) :
    (ok = false → (visible h' id = visible h id ↔ Untouched cfg h t daddr dport)) ∧
      (ok = true → ¬Untouched cfg h t daddr dport ∧ t.sk.skDport = 0 ∧
        ∀ t', h'.stack.sock id = some t' → t'.sk.skDport ≠ 0) := by
  rw [inetConnect, bind_run (show onStack (getSk cfg.env id) h = .ok (t, h) by
    simp only [onStack, getSk_run ht, Except.map])] at hrun
  split_ifs at hrun with hargs
  · cases hrun
    refine ⟨fun _ => iff_of_true rfl ?_, by simp⟩
    exact hargs.imp_right fun h1 => h1.imp_right Or.inl
  push Not at hargs
  obtain ⟨hdp, hda, hz⟩ := hargs
  obtain ⟨bound, h1, hbind, hrest⟩ := bind_inv hrun
  rw [autobind] at hbind
  by_cases hsp : t.sk.skSport = 0
  · rw [if_pos hsp] at hbind
    obtain ⟨hfree, hsame, hport⟩ := setPort_spec ht hd hbind
    cases bound with
    | false =>
      cases hrest
      have hb : h.stack.tcp.bfree ≤ 0 := by
        rw [← not_lt, ← hfree]
        simp
      exact ⟨fun _ => iff_of_true (visible_congr (hsame rfl)) (by simp [Untouched, hsp, hb]), by simp⟩
    | true =>
      have hb : 0 < h.stack.tcp.bfree := hfree.mp rfl
      have hnot : ¬Untouched cfg h t daddr dport := by simp [Untouched, hdp, hda, hz, hsp, hb]
      obtain ⟨t1, ht1, hd1, hs1⟩ := hport rfl
      have hports : ∀ t', h'.stack.sock id = some t' → t'.sk.skSport ≠ 0 ∧ (ok = true → t'.sk.skDport ≠ 0) := by
        intro t' ht'
        rcases route_spec ht1 hrest with ⟨rfl, -, hs⟩ | ⟨rt, -, -, rfl, hs⟩ | ⟨rt, -, -, hp⟩
        · rw [hs, ht1] at ht'
          cases ht'
          exact ⟨hs1, by simp⟩
        · rw [hs, sock_put] at ht'
          cases ht'
          exact ⟨hs1, by simp⟩
        · obtain ⟨h1, h2⟩ := Prod.mk.inj (hp t' ht')
          exact ⟨h1 ▸ hs1, fun _ => h2 ▸ hdp⟩
      refine ⟨fun _ => iff_of_false (visible_ne ht fun t' ht' => .inl fun he => ?_) hnot,
        fun hok => ⟨hnot, hz, fun t' ht' => (hports t' ht').2 hok⟩⟩
      exact (hports t' ht').1 ((Prod.mk.inj he).1.trans hsp)
  · rw [if_neg hsp] at hbind
    cases hbind
    rcases route_spec ht hrest with ⟨rfl, hr, hs⟩ | ⟨rt, hr, hst, rfl, hs⟩ | ⟨rt, hr, hst, hp⟩
    · refine ⟨fun _ => iff_of_true (visible_congr hs) ?_, by simp⟩
      simp [Untouched, hsp, hr]
    · refine ⟨fun _ => ?_, by simp⟩
      have htables : h'.stack.tcp.btable = h.stack.tcp.btable ∧ h'.stack.tcp.ltable = h.stack.tcp.ltable ∧
          h'.stack.tcp.etable = h.stack.tcp.etable := by
        rw [hs]
        exact ⟨rfl, rfl, rfl⟩
      have hsock := congrArg (fun s => Local.sock s id) hs
      simp only [sock_put] at hsock
      simp only [visible, htables, hsock, ht, Option.map_some, Prod.mk.injEq, Option.some.injEq,
        and_true, Untouched, hdp, hda, hz, hsp, hr, hst, ne_eq, not_true, not_false_iff, false_and, false_or,
        true_and, forall_eq']
      exact eq_comm
    · have hnot : ¬Untouched cfg h t daddr dport := by simp [Untouched, hdp, hda, hz, hsp, hr, hst]
      have hport : ∀ t', h'.stack.sock id = some t' → t'.sk.skDport ≠ 0 := fun t' ht' =>
        (Prod.mk.inj (hp t' ht')).2 ▸ hdp
      refine ⟨fun _ => iff_of_false (visible_ne ht fun t' ht' => .inl fun he => ?_) hnot, fun _ => ⟨hnot, hz, hport⟩⟩
      exact hport t' ht' ((Prod.mk.inj he).2.trans hz)

theorem failed_connect_unchanged_iff (hr : Reached (fun _ _ => True) h) (ht : h.stack.sock id = some t)
    (hf : Fails cfg id daddr dport h h') :
    visible h' id = visible h id ↔ Untouched cfg h t daddr dport := by
  cases hf with
  | early hrun => exact (inetConnect_spec ht hr.defport_inRange hrun).1 rfl
  | @late h1 h2 _ cfg' err hrun hmeanwhile hwoken =>
    obtain ⟨hnot, hz, hport⟩ := (inetConnect_spec ht hr.defport_inRange hrun).2 rfl
    refine iff_of_false (visible_ne ht fun t' ht' => .inl fun he => ?_) hnot
    have hkeep : Respects (Keeps id (Same ports) fun _ => True) (tcpConnectWoken cfg'.env id err) := by
      refine Keeps.bind (keeps_modifySk fun _ => rfl) fun _ => Keeps.bind (keeps_getSk id) fun t => ?_
      split_ifs
      · exact Keeps.bind (keeps_tcpUnhash (fun _ _ => rfl) (fun _ _ => rfl) id) fun _ =>
          Keeps.bind (keeps_tcpUnbhash (R := Same ports) (fun _ _ => rfl) (fun _ => rfl) id) fun _ =>
            Keeps.bind (keeps_modifySk fun _ => rfl) fun _ => keeps_pure _
      · exact keeps_pure _
    obtain ⟨u, hu, hsame⟩ := (hkeep _ _ _ (onStack_inv hwoken)).1 t' ht'
    obtain ⟨t1, ht1, hdport⟩ := hmeanwhile u hu
    have hend : t'.sk.skDport = t1.sk.skDport := (Prod.mk.inj hsame).2.trans hdport
    exact hport t1 ht1 (hend.symm.trans ((Prod.mk.inj he).2.trans hz))

def unrouted : Config := { everywhere with route := fun _ => none }

theorem failed_connect_unchanged_iff_bound : ∃ h h' t, Reached (fun _ _ => True) h ∧
    h.stack.sock 0 = some t ∧ Fails unrouted 0 0x0200000a 0x5000 h h' ∧ visible h' 0 = visible h 0 := by
  obtain ⟨h, hr, ⟨t, ht, hsp⟩, hrun⟩ := exists_reached (fun _ _ => True) [.socket 6, .bind 0 0x0100000a 0x0080]
    (P := fun h => (∃ t, h.stack.sock 0 = some t ∧ t.sk.skSport ≠ 0) ∧
      outcome (inetConnect unrouted 0 0x0200000a 0x5000) h = some false) (by decide +kernel)
  have hf := Fails.early (run_of_outcome hrun)
  exact ⟨h, _, t, hr, ht, hf, (failed_connect_unchanged_iff hr ht hf).mpr (by simp [Untouched, hsp, unrouted])⟩

-- The port that the call has bound stays bound.
theorem failed_connect_keeps_port : ∃ h h', Reached (fun _ _ => True) h ∧
    Fails unrouted 0 0x0200000a 0x5000 h h' ∧ 0 ∉ h.stack.tcp.btable ∧ 0 ∈ h'.stack.tcp.btable := by
  obtain ⟨h, hr, hrun, hb, hb'⟩ := exists_reached (fun _ _ => True) [.socket 6]
    (P := fun h => outcome (inetConnect unrouted 0 0x0200000a 0x5000) h = some false ∧ 0 ∉ h.stack.tcp.btable ∧
      0 ∈ (finalState (inetConnect unrouted 0 0x0200000a 0x5000) h).stack.tcp.btable) (by decide +kernel)
  exact ⟨h, _, hr, .early (run_of_outcome hrun), hb, hb'⟩

end Failure

end Tapip.Sockets.Inet
