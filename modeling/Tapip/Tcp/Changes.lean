import Mathlib.Logic.Relation
import Tapip.Tcp.Order

/-! What a segment can do to the variables of its connection. -/

namespace Tapip.Tcp.Changes

open Net.Pkb Foundation.Program Text Connection Relation

variable {b : Bool} {pkb : Pkbuf} {seg' : TcpSegment} {f : TcpSock → TcpSock} {u : Unit}

def tcb (t : TcpSock) : TcpSock :=
  { tcpAllocSock with
    sk := { tcpAllocSock.sk with recvWait := t.sk.recvWait }
    push := t.push
    rcvBuf := t.rcvBuf
    rcvReass := t.rcvReass
    sndUna := t.sndUna
    sndNxt := t.sndNxt
    iss := t.iss
    rcvNxt := t.rcvNxt
    rcvWnd := t.rcvWnd
    irs := t.irs
    state := t.state }

structure Alike (t t' : TcpSock) : Prop where
  recvWait : t'.sk.recvWait = t.sk.recvWait
  push : t'.push = t.push
  rcvBuf : t'.rcvBuf = t.rcvBuf
  rcvReass : t'.rcvReass = t.rcvReass
  sndUna : t'.sndUna = t.sndUna
  sndNxt : t'.sndNxt = t.sndNxt
  iss : t'.iss = t.iss
  rcvNxt : t'.rcvNxt = t.rcvNxt
  rcvWnd : t'.rcvWnd = t.rcvWnd
  irs : t'.irs = t.irs
  state : t'.state = t.state

lemma alike {t t' : TcpSock} (h : Same tcb t t') : Alike t t' := by
  have hfield : ∀ {β : Type} (f : TcpSock → β), f (tcb t') = f (tcb t) := fun f => congrArg f h
  exact ⟨hfield fun t => t.sk.recvWait, hfield TcpSock.push, hfield TcpSock.rcvBuf,
    hfield TcpSock.rcvReass, hfield TcpSock.sndUna, hfield TcpSock.sndNxt, hfield TcpSock.iss,
    hfield TcpSock.rcvNxt, hfield TcpSock.rcvWnd, hfield TcpSock.irs, hfield TcpSock.state⟩

def ackedState : TcpState → TcpState
  | .finWait1 => .finWait2
  | .closing => .timeWait
  | .lastAck => .closed
  | st => st

inductive Change (seg : TcpSegment) : TcpSock → TcpSock → Prop
  | aside {t t' : TcpSock} : Same tcb t t' → Change seg t t'
  | cut {t : TcpSock} : seg.rst = true ∨ seg.syn = true → Change seg t { t with state := .closed }
  | syn {t : TcpSock} : t.state = .synSent → seg.syn = true →
      (seg.ackBit = true → t.iss < seg.ack ∧ seg.ack ≤ t.sndNxt) →
      Change seg t { synsentSyn seg t with
        state := if (synsentSyn seg t).sndUna > t.iss then .established else .synRecv }
  | completed {t : TcpSock} : t.state = .synRecv → t.sndUna ≤ seg.ack → seg.ack ≤ t.sndNxt →
      Change seg t { t with sndUna := seg.ack, state := .established }
  | acked {t : TcpSock} : t.state ∈ [.established, .closeWait, .finWait1, .closing, .lastAck] →
      acksNew t seg = true → Change seg t { t with sndUna := seg.ack, state := ackedState t.state }
  | text {t : TcpSock} {pkb : Pkbuf} {r : Received} : receives t.state = true → seg.syn = false →
      hasText seg = true → tcpRecvText t seg pkb = .ok r → Change seg t r.tsk
  | fin {t : TcpSock} {n : UInt32} : seg.fin = true → (seg.syn = true → t.state = .closed) →
      Change seg t { finState t with rcvNxt := n }

abbrev Alters (seg : TcpSegment) : TcpSock → TcpSock → Prop := ReflTransGen (Change seg)

lemma Alters.invariant {seg : TcpSegment} {I : TcpSock → Prop} {t t' : TcpSock}
    (h : Alters seg t t') (hi : ∀ {t t'}, Change seg t t' → I t → I t') (ht : I t) : I t' := by
  induction h with
  | refl => exact ht
  | tail _ hc ih => exact hi hc ih

variable {net : Net} {id : ℕ} {s s' : Local} {t t' : TcpSock}

section Walk

def Moves {α : Type} (id : ℕ) (R : TcpSock → TcpSock → Prop) (x : Prog Local α) : Prop :=
  Respects (Keeps id R (fun _ => True)) x

variable {R : TcpSock → TcpSock → Prop} {seg : TcpSegment} {α β : Type}

lemma Moves.of_answers {x : Prog Local α} (h : Respects (Keeps id R (Answers seg)) x) : Moves id R x :=
  fun s a s' hrun => (h s a s' hrun).imp (fun hr => hr) fun _ => trivial

lemma Moves.alters {x : Prog Local α} (h : Moves id (Same tcb) x) : Moves id (Alters seg) x :=
  fun s a s' hrun => (h s a s' hrun).imp (fun hr => .single (.aside hr)) fun _ => trivial

section Aside

lemma blind_tcb : Blind (Same tcb) :=
  ⟨fun _ _ => rfl, fun _ _ => rfl, fun _ => rfl, fun _ _ => rfl, fun _ _ => rfl, fun _ _ _ => rfl, fun _ _ => rfl⟩

lemma aside_tcpUnhash (j : ℕ) : Moves id (Same tcb) (tcpUnhash net.env j) :=
  keeps_tcpUnhash (fun _ _ => rfl) (fun _ _ => rfl) j

lemma aside_tcpUnbhash (j : ℕ) : Moves id (Same tcb) (tcpUnbhash net.env j) :=
  keeps_tcpUnbhash (R := Same tcb) (fun _ _ => rfl) (fun _ => rfl) j

lemma aside_freeSock (j : ℕ) : Moves id (Same tcb) (freeSock net.env j) :=
  keeps_freeSock j fun _ _ => rfl

lemma aside_tcpHash (j : ℕ) : Moves id (Same tcb) (tcpHash net.env j) :=
  keeps_tcpHash (fun _ _ => rfl) (fun _ _ => rfl) j

lemma aside_getSock (j : ℕ) : Moves id (Same tcb) (getSock net.env j) :=
  keeps_modifySk fun _ => rfl

lemma aside_tcpSendReset (seg : TcpSegment) : Moves id (Same tcb) (tcpSendReset net.env seg) :=
  .of_answers (keeps_tcpSendReset (fun _ _ => rfl) seg)

lemma aside_tcpSendAck (j : ℕ) (seg : TcpSegment) : Moves id (Same tcb) (tcpSendAck net.env j (some seg)) :=
  .of_answers (keeps_tcpSendAck (fun _ _ => rfl) j seg)

lemma aside_tcpSendSynack (j : ℕ) (seg : TcpSegment) : Moves id (Same tcb) (tcpSendSynack net.env j seg) :=
  .of_answers (keeps_tcpSendSynack (fun _ _ => rfl) j seg)

lemma aside_drop (j : ℕ) (seg : TcpSegment) (pkb : Pkbuf) : Moves id (Same tcb) (drop net.env j seg pkb) :=
  .of_answers (keeps_drop blind_tcb j seg pkb)

lemma tcb_tcpUpdateWindow (t : TcpSock) (seg : TcpSegment) : tcb (tcpUpdateWindow t seg) = tcb t := by
  rw [tcpUpdateWindow]
  split_ifs <;> rfl

end Aside

lemma blind_alters : Blind (Alters seg) where
  refcnt _ _ := .single (.aside rfl)
  hashed _ _ := .single (.aside rfl)
  bhashed _ := .single (.aside rfl)
  dst _ _ := .single (.aside rfl)
  parent _ _ := .single (.aside rfl)
  queues _ _ _ := .single (.aside rfl)
  backlog _ _ := .single (.aside rfl)

lemma alters_checkRst (j : ℕ) (h : seg.rst = true) : Moves id (Alters seg) (checkRst net.env j) :=
  keeps_checkRst blind_alters (fun _ => .single (.cut (.inl h))) j

lemma alters_checkSyn (j : ℕ) (seg : TcpSegment) : Moves id (Alters seg) (checkSyn net.env j seg) :=
  .of_answers (keeps_checkSyn blind_alters (fun h _ => .single (.cut (.inr h))) j)

lemma alters_checkAck (seg : TcpSegment) : Moves id (Alters seg) (checkAck net.env id seg) := by
  intro s b s' hrun
  obtain ⟨t, s0, rfl, h, -⟩ := getSk_bind_inv hrun
  obtain ⟨x, hx, hrest⟩ := checkAck_inv h hrun
  have hwindow : Moves id (Alters seg) (do
      modifySk net.env id (fun t => tcpUpdateWindow t seg)
      return true : Prog Local Bool) :=
    Keeps.bind (keeps_modifySk fun t => .single (.aside (tcb_tcpUpdateWindow t seg))) fun _ => keeps_pure _
  have hack : ∀ {st : TcpState}, t.state ∈ acking → acksNew t seg = true → ackedState t.state = st →
      Alters seg t { t with sndUna := seg.ack, state := st } := by
    rintro st hs hnew rfl
    exact .single (.acked hs hnew)
  cases hx with
  | completes hs hlo hhi =>
    obtain ⟨b', s1, hsyn, hlast⟩ := bind_inv hrest
    have hk : Keeps id (Same tcb) (fun _ => True) s0 s1 := keeps_tcpSynrecvAck blind_tcb id _ _ _ hsyn
    have hk' : Keeps id (Alters seg) (fun _ => True) s0 s1 := hk.imp (fun hr => .single (.aside hr)) fun h => h
    cases b' with
    | false => exact hk'.trans (keeps_pure _ _ _ _ hlast)
    | true =>
      obtain ⟨⟨⟩, s2, hset, hret⟩ := bind_inv hlast
      cases hret
      obtain ⟨t1, ht1, rfl⟩ := modifySk_inv hset
      have hside := hk.rel h ht1
      obtain ⟨-, -, -, -, huna, hnxt, -, -, -, -, hst⟩ := alike hside
      refine hk'.trans (keeps_put ht1 ?_)
      exact .tail (.single (.completed (hst.trans hs) (huna ▸ hlo) (hnxt ▸ hhi))) (.aside rfl)
  | outside => exact Keeps.bind (aside_tcpSendReset seg).alters (fun _ => keeps_pure _) _ _ _ hrest
  | forward hs hnew =>
    have hst : ackedState t.state = t.state := by rcases hs with hs | hs <;> rw [hs] <;> rfl
    rw [bind_run (modifySk_run _ h)] at hrest
    exact (keeps_put h (hack (by simpa [acking] using hs.imp_right .inl) hnew hst)).trans (hwindow _ _ _ hrest)
  | finWait1 hs hnew =>
    rw [bind_run (modifySk_run _ h), bind_run (modifySk_run _ sock_put), put_put] at hrest
    exact (keeps_put h (hack (by simp [hs, acking]) hnew (by rw [hs]; rfl))).trans (hwindow _ _ _ hrest)
  | closing hs hnew =>
    obtain ⟨s1, htimer, hsent, hsock⟩ :=
      ends_tcpSetTimewaitTimer sock_put
    rw [bind_run (modifySk_run _ h), bind_run htimer] at hrest
    cases hrest
    exact keeps_of_sock h hsent hsock ((hack (by simp [hs, acking]) hnew (by rw [hs]; rfl)).tail (.aside rfl))
  | lastAck hs hnew =>
    rw [bind_run (modifySk_run _ h), bind_run (modifySk_run _ sock_put), put_put] at hrest
    have hclosed := hack (by simp [hs, acking]) hnew (show ackedState t.state = .closed by rw [hs]; rfl)
    exact (keeps_put h hclosed).trans <| Keeps.bind (aside_tcpUnhash id).alters (fun _ => Keeps.bind (aside_tcpUnbhash id).alters
      fun _ => keeps_pure _) _ _ _ hrest
  | old => exact hwindow _ _ _ hrest
  | beyond | other => exact keeps_pure _ _ _ _ hrest

lemma alters_checkText (hsyn : seg.syn = true → ∀ t, s.sock id = some t → t.state = .closed)
    (hrun : checkText net.env id seg pkb s = .ok (seg', s')) :
    Keeps id (Alters seg) (fun _ => True) s s' := by
  obtain ⟨t, -, -, h, -⟩ := getSk_bind_inv hrun
  obtain ⟨t1, htext, rfl⟩ := checkText_inv h hrun
  refine keeps_put h ?_
  obtain ⟨r, hr, htxt, hrecv, rfl, -⟩ | ⟨rfl, -⟩ := texted_inv htext
  · have hno : seg.syn = false := by
      by_contra hs
      simp [hsyn (by simpa using hs) t h, receives] at hr
    exact .single (.text hr hno htxt hrecv)
  · exact .refl

lemma checkText_fin (hrun : checkText net.env id seg pkb s = .ok (seg', s')) : seg'.fin = seg.fin := by
  obtain ⟨t, -, -, h, -⟩ := getSk_bind_inv hrun
  obtain ⟨t1, htext, -⟩ := checkText_inv h hrun
  exact (texted_cutOf htext).fin

lemma alters_checkFin (hfin : seg'.fin = seg.fin) (hsyn : seg.syn = true → ∀ t, s.sock id = some t → t.state = .closed)
    (hrun : checkFin net.env id seg' s = .ok ((), s')) :
    Keeps id (Alters seg) (fun _ => True) s s' := by
  cases hf : seg'.fin with
  | false =>
    simp only [checkFin, hf, Bool.false_eq_true, if_false] at hrun
    exact keeps_pure _ _ _ _ hrun
  | true =>
    have hread := hrun
    simp only [checkFin, hf, if_true] at hread
    obtain ⟨t, -, -, h, -⟩ := getSk_bind_inv hread
    obtain ⟨s1, hrun1, hsent, hsock⟩ := ends_checkFin seg' h
    obtain ⟨-, rfl⟩ := ok_inj (hrun1.symm.trans hrun)
    refine keeps_of_sock h hsent hsock ?_
    simp only [finished, hf, if_true]
    exact .tail (.single (.fin (hfin ▸ hf) fun hs => hsyn hs t h)) (.aside rfl)

lemma closed_after_syn {s1 s2 : Local} (hs : seg.syn = true) (hsyn : checkSyn net.env id seg s = .ok ((), s1))
    (hack : checkAck net.env id seg s1 = .ok (b, s2)) {t : TcpSock}
    (ht : s2.sock id = some t) : t.state = .closed := by
  obtain ⟨t1, s3, rfl, ht1, hrest⟩ := getSk_bind_inv hack
  have hc : t1.state = .closed := Order.checkSyn_closed hs hsyn t1 ht1
  simp only [hc] at hrest
  cases hrest
  exact Option.mem_unique ht1 ht ▸ hc

lemma checkText_closed (h : s.sock id = some t) (hc : t.state = .closed)
    (hrun : checkText net.env id seg pkb s = .ok (seg', s')) : s' = s := by
  rw [checkText_run seg pkb h] at hrun
  simp only [texted, hc, receives, Bool.false_and, Bool.false_eq_true, if_false, Except.map] at hrun
  cases hrun
  exact put_self h

lemma alters_tcpArrive (pkb : Pkbuf) (seg : TcpSegment) : Moves id (Alters seg) (tcpArrive net.env pkb seg id) := by
  have hdrop : Moves id (Alters seg) (drop net.env id seg pkb) := (aside_drop id seg pkb).alters
  refine Keeps.bind (keeps_getSk id) fun t => ?_
  split_ifs with _ _ hrst
  · exact Keeps.bind (keeps_modifySk fun _ => .single (.aside rfl)) fun _ => hdrop
  · exact hdrop
  · exact Keeps.bind (alters_checkRst id hrst) fun _ => hdrop
  · exact Keeps.bind (alters_checkSyn id seg) fun _ => hdrop
  · intro s u s' hrun
    obtain ⟨⟨⟩, s1, hsyn, hrest⟩ := bind_inv hrun
    obtain ⟨b, s2, hack, hrest⟩ := bind_inv hrest
    refine (alters_checkSyn id seg _ _ _ hsyn).trans ((alters_checkAck seg _ _ _ hack).trans ?_)
    split_ifs at hrest
    · exact hdrop _ _ _ hrest
    · obtain ⟨seg', s3, htext, hrest⟩ := bind_inv hrest
      obtain ⟨⟨⟩, s4, hfin, hlast⟩ := bind_inv hrest
      have hclosed : seg.syn = true → ∀ t, s2.sock id = some t → t.state = .closed :=
        fun hs t ht => closed_after_syn hs hsyn hack ht
      have hstays : seg.syn = true → ∀ t, s3.sock id = some t → t.state = .closed := by
        intro hs t ht
        obtain ⟨t2, -, -, ht2, -⟩ := getSk_bind_inv htext
        rw [checkText_closed ht2 (hclosed hs t2 ht2) htext] at ht
        exact hclosed hs t ht
      exact (alters_checkText hclosed htext).trans ((alters_checkFin (checkText_fin htext)
        hstays hfin).trans ((aside_drop id seg' pkb).alters _ _ _ hlast))

lemma syn_acks (h : ¬(seg.ackBit && (decide (seg.ack ≤ t.iss) || decide (seg.ack > t.sndNxt))) = true)
    (hbit : seg.ackBit = true) : t.iss < seg.ack ∧ seg.ack ≤ t.sndNxt := by
  simpa [hbit, UInt32.not_le, UInt32.not_lt] using h

lemma alters_tcpSynsent (pkb : Pkbuf) (seg : TcpSegment) (h : s.sock id = some t) (hs : t.state = .synSent)
    (hrun : tcpSynsent net.env pkb seg id s = .ok ((), s')) :
    Keeps id (Alters seg) (fun _ => True) s s' := by
  have hfree : Moves id (Alters seg) (net.env.freePkb pkb) := keeps_pure _
  rw [tcpSynsent, bind_run (getSk_run h)] at hrun
  split_ifs at hrun with hbad hrst hbit hsyn hacked
  · exact Keeps.bind (aside_tcpSendReset seg).alters (fun _ => hfree) _ _ _ hrun
  · exact Keeps.bind (keeps_modifySk fun _ => .single (.cut (.inl hrst))) (fun _ => hfree) _ _ _ hrun
  · exact hfree _ _ _ hrun
  · have hchange := @Change.syn seg t hs hsyn (syn_acks hbad)
    rw [if_pos hacked] at hchange
    rw [bind_run (modifySk_run _ h), bind_run (modifySk_run _ sock_put), put_put] at hrun
    have hend : Moves id (Alters seg) (do
        tcpSendAck net.env id (some seg)
        wakeUp (← getSk net.env id).waitConnect
        net.env.freePkb pkb : Prog Local Unit) :=
      Keeps.bind (aside_tcpSendAck id seg).alters fun _ => Keeps.bind (keeps_getSk id) fun _ =>
        Keeps.bind (keeps_wakeUp _) fun _ => hfree
    exact (keeps_put h (.tail (.single hchange) (.aside rfl))).trans (hend _ _ _ hrun)
  · have hchange := @Change.syn seg t hs hsyn (syn_acks hbad)
    rw [if_neg hacked] at hchange
    rw [bind_run (modifySk_run _ h), bind_run (modifySk_run _ sock_put), put_put] at hrun
    exact (keeps_put h (.single hchange)).trans ((aside_tcpSendSynack id seg).alters _ _ _ hrun)
  · exact hfree _ _ _ hrun

lemma tcpProcess_alters (h : s.sock id = some t) (hl : t.state ≠ .listen)
    (hrun : tcpProcess net.env pkb seg (some id) s = .ok ((), s')) :
    Keeps id (Alters seg) (fun _ => True) s s' := by
  rw [tcpProcess, bind_run (getSk_run h)] at hrun
  cases hs : t.state <;> simp only [hs] at hrun hl
  case closed => exact keeps_pure _ _ _ _ hrun
  case listen => exact absurd rfl hl
  case synSent => exact alters_tcpSynsent pkb seg h hs hrun
  all_goals exact alters_tcpArrive pkb seg _ _ _ hrun

end Walk

section At

variable {P : Sent → Prop}

def At (id : ℕ) (t : TcpSock) (s : Local) : Prop := ∀ t', s.sock id = some t' → Same tcb t t'

lemma at_self (h : s.sock id = some t) : At id t s := by
  intro t' ht'
  cases Option.mem_unique h ht'
  rfl

lemma At.congr {t1 : TcpSock} (h : At id t s) (ht : tcb t = tcb t1) : At id t1 s :=
  fun t' ht' => (h t' ht').trans ht

lemma At.keeps (h : At id t s) (hk : Keeps id (Same tcb) P s s') : At id t s' := by
  intro t' ht'
  obtain ⟨t1, ht1, hside⟩ := hk.1 t' ht'
  exact hside.trans (h t1 ht1)

lemma At.modify (h : At id t s) (hf : ∀ t, tcb (f t) = tcb (f (tcb t)))
    (hrun : modifySk net.env id f s = .ok (u, s')) : At id (f t) s' := by
  obtain ⟨t1, ht1, rfl⟩ := modifySk_inv hrun
  intro t' ht'
  rw [sock_put] at ht'
  cases ht'
  have hside : tcb t1 = tcb t := h t1 ht1
  rw [Same, hf t1, hside, ← hf t]

lemma At.aside {j : ℕ} (h : At id t s)
    (hrun : modifySk net.env j f s = .ok (u, s')) (hf : ∀ t, tcb (f t) = tcb t) : At id t s' :=
  h.keeps (keeps_modifySk (R := Same tcb) (P := fun _ => True) hf _ _ _ hrun)

def closed (t : TcpSock) : TcpSock :=
  let t := match t.state with
    | .established => { t with state := .finWait1, sndNxt := t.sndNxt + 1 }
    | .closeWait => { t with state := .lastAck, sndNxt := t.sndNxt + 1 }
    | _ => t
  { t with rcvBuf := none, rcvReass := [] }

lemma sendFin_at {st : TcpState} (h : At id t s) (hrun : sendFin net.env id st s = .ok (u, s')) :
    At id { t with state := st, sndNxt := t.sndNxt + 1 } s' := by
  obtain ⟨⟨⟩, s1, hstate, hrest⟩ := bind_inv hrun
  obtain ⟨⟨⟩, s2, hsend, hlast⟩ := bind_inv hrest
  have h1 : At id { t with state := st } s1 := h.modify (fun _ => rfl) hstate
  have h2 : At id { t with state := st } s2 :=
    h1.keeps (keeps_tcpSendFin (fun _ _ => rfl) (fun _ _ => trivial) id _ _ _ hsend)
  exact h2.modify (fun _ => rfl) hlast

lemma tcpClose_at (h : s.sock id = some t) (hl : t.state ≠ .listen)
    (hrun : tcpClose net.env id s = .ok (u, s')) : At id (closed t) s' := by
  have hend : ∀ {t1 : TcpSock} {s1 : Local}, At id t1 s1 →
      freeText net id s1 = .ok (u, s') → At id { t1 with rcvBuf := none, rcvReass := [] } s' := by
    intro t1 s1 h1 hrest
    rw [freeText_eq] at hrest
    exact h1.modify (fun _ => rfl) hrest
  rw [tcpClose, bind_run (getSk_run h)] at hrun
  cases hs : t.state <;> simp only [hs] at hrun hl
  case listen => exact absurd rfl hl
  case established | closeWait =>
    obtain ⟨⟨⟩, s1, hfin, hrest⟩ := bind_inv hrun
    simpa only [closed, hs] using hend (sendFin_at (at_self h) hfin) hrest
  all_goals simpa only [closed, hs] using hend (at_self h) hrun

end At

end Tapip.Tcp.Changes
