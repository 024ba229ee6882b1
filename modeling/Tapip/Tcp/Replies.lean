import Tapip.Tcp.Arrival

/-! Where the answers to a segment go, while no segment has to wait for the text in front of it. -/

namespace Tapip.Tcp.Replies

open Net.Pkb Foundation.Program Text Connection Session Arrival

variable {seg' : TcpSegment} {t : TcpSock} {f : TcpSock → TcpSock} {text : Bool}

def Clear (s : Local) : Prop := ∀ i t, s.sock i = some t → t.rcvReass = []

/-- Text, or a PSH flag, for a sock that takes text begins at or before `rcv_nxt`. -/
def InSequence (net : Net) (s : Local) (seg : TcpSegment) : Prop :=
  ∀ i s1 t, tcpLookupSock net.env seg.iphdrSrc seg.iphdrDst seg.tcphdrSrc seg.tcphdrDst s =
      .ok (some i, s1) → s1.sock i = some t → takesText t.state = true → hasText seg = true →
    seg.seq ≤ t.rcvNxt

inductive Reached (net : Net) (ok : Local → TcpSegment → Prop) : Local → Prop
  | start {s : Local} : Clear s → Reached net ok s
  | segment {s s' : Local} {seg : TcpSegment} {pkb : Pkbuf} : Reached net ok s → ok s seg →
      tcpRecv net.env pkb seg s = .ok ((), s') → Reached net ok s'
  | connect {s s' : Local} {id : ℕ} {daddr : UInt32} {dport : UInt16} {done : Bool} : Reached net ok s →
      tcpConnect net.env id daddr dport s = .ok (done, s') → Reached net ok s'
  | send {s s' : Local} {id : ℕ} {buf : List UInt8} {len n : ℤ} : Reached net ok s →
      tcpSendBuf net.env id buf len s = .ok (n, s') → Reached net ok s'
  | read {s : Local} {id : ℕ} {tsk tsk' : TcpSock} {buf : List UInt8} {len : ℤ} : Reached net ok s →
      s.sock id = some tsk → tcpReadBuf tsk len = .ok (buf, tsk') → Reached net ok (s.put id tsk')
  | pushed {s : Local} {id : ℕ} {tsk : TcpSock} : Reached net ok s → s.sock id = some tsk →
      Reached net ok (s.put id (tcpEndPush tsk))
  | close {s s' : Local} {id : ℕ} : Reached net ok s → tcpClose net.env id s = .ok ((), s') →
      Reached net ok s'

variable {tsk : TcpSock} {seg : TcpSegment} {pkb : Pkbuf}

section Text

structure SameHeader (seg seg' : TcpSegment) : Prop where
  src : seg'.iphdrSrc = seg.iphdrSrc
  dst : seg'.iphdrDst = seg.iphdrDst
  sport : seg'.tcphdrSrc = seg.tcphdrSrc
  dport : seg'.tcphdrDst = seg.tcphdrDst

lemma SameHeader.answers {seg : TcpSegment} (h : SameHeader seg seg') {e : Sent}
    (he : Answers seg' e) : Answers seg e :=
  ⟨he.saddr.trans h.dst, he.daddr.trans h.src, he.src.trans h.dport, he.dst.trans h.sport, he.data⟩

lemma tcpRecvText_inSequence (hq : tsk.rcvReass = []) (hseq : seg.seq ≤ tsk.rcvNxt)
    (h : tcpRecvText tsk seg pkb = .ok r) : r.tsk.rcvReass = [] ∧ SameHeader seg r.seg := by
  simp only [tcpRecvText] at h
  split_ifs at h
  · cases h
    exact ⟨hq, rfl, rfl, rfl, rfl⟩
  split at h
  · cases h
    exact ⟨hq, rfl, rfl, rfl, rfl⟩
  rename_i seg' hadj
  obtain ⟨d, h1, -, -, hge, hd, he⟩ := adjacentSegmentHead_spec hadj
  have hnxt : tsk.rcvNxt = seg'.seq := by
    cases hd with
    | inl h0 =>
      have hle : seg.seq.toNat ≤ tsk.rcvNxt.toNat := hseq
      apply UInt32.toNat_inj.mp
      omega
    | inr h0 => exact h0.1.symm
  simp only [hnxt, hq, List.isEmpty_nil, Bool.and_true, decide_true, if_true] at h
  obtain ⟨⟨rlen, tsk'⟩, hw, h⟩ := bind_eq_ok.mp h
  cases h
  obtain ⟨_, _, _, rfl⟩ := tcpWriteBuf_writes hw
  refine ⟨hq, ?_⟩
  rw [he]
  exact ⟨rfl, rfl, rfl, rfl⟩

lemma texted_inSequence (hq : tsk.rcvReass = [])
    (hseq : receives tsk.state = true → hasText seg = true → seg.seq ≤ tsk.rcvNxt)
    (h : texted tsk seg pkb = .ok (t, seg')) : t.rcvReass = [] ∧ SameHeader seg seg' := by
  obtain ⟨r, hst, htext, hr, rfl, rfl⟩ | ⟨rfl, rfl⟩ := texted_inv h
  · exact tcpRecvText_inSequence hq (hseq hst htext) hr
  · exact ⟨hq, rfl, rfl, rfl, rfl⟩

end Text

variable {net : Net} {P : Sent → Prop}

section Steps

def Emptied (t t' : TcpSock) : Prop := t.rcvReass = [] → t'.rcvReass = []

instance : IsPreorder TcpSock Emptied where
  refl _ h := h
  trans _ _ _ h h' := fun h0 => h' (h h0)

lemma Emptied.of_recvSide {t' : TcpSock} (h : recvSide t' = recvSide t) : Emptied t t' := by
  intro hq
  have hr : t'.rcvReass = t.rcvReass := congrArg (fun p => p.2.1) h
  rw [hr, hq]

def Tidy (P : Sent → Prop) (s s' : Local) : Prop :=
  Clear s → Clear s' ∧ ∃ new, s'.sent = s.sent ++ new ∧ ∀ e ∈ new, P e

variable {α β : Type}

lemma Tidy.trans {a b c : Local} (h : Tidy P a b) (h' : Tidy P b c) : Tidy P a c := by
  intro ha
  obtain ⟨hb, n1, e1, p1⟩ := h ha
  obtain ⟨hc, n2, e2, p2⟩ := h' hb
  refine ⟨hc, n1 ++ n2, by rw [e2, e1, List.append_assoc], ?_⟩
  intro e he
  cases List.mem_append.mp he with
  | inl he => exact p1 e he
  | inr he => exact p2 e he

lemma tidy_of_keeps {s s' : Local} (h : ∀ id, Keeps id Emptied P s s') : Tidy P s s' := by
  intro hc
  refine ⟨fun i t' ht' => ?_, (h 0).2⟩
  obtain ⟨t, ht, he⟩ := (h i).1 t' ht'
  exact he (hc i t ht)

lemma Tidy.of_keeps {x : Prog Local α} (h : ∀ id, Respects (Keeps id Emptied P) x) : Respects (Tidy P) x :=
  fun s a s' hrun => tidy_of_keeps fun id => h id s a s' hrun

lemma Tidy.of_touches {x : Prog Local α} (h : ∀ id, Respects (Keeps id Touches P) x) : Respects (Tidy P) x :=
  .of_keeps fun id s a s' hrun => (h id s a s' hrun).imp (fun ht => .of_recvSide ht.recv) fun he => he

lemma Tidy.bind {x : Prog Local α} {f : α → Prog Local β} (hx : Respects (Tidy P) x)
    (hf : ∀ a, Respects (Tidy P) (f a)) : Respects (Tidy P) (x >>= f) :=
  Respects.bind (fun h h' => h.trans h') hx hf

lemma tidy_pure (a : α) : Respects (Tidy P) (pure a : Prog Local α) :=
  .of_keeps fun _ => keeps_pure a

lemma tidy_getSk (j : ℕ) : Respects (Tidy P) (getSk net.env j) :=
  .of_keeps fun _ => keeps_getSk j

lemma tidy_modifySk (j : ℕ) (hf : ∀ t, Emptied t (f t)) : Respects (Tidy P) (modifySk net.env j f) :=
  .of_keeps fun _ => keeps_modifySk hf

lemma tidy_newSock (new : ℕ) (child : Option TcpSock) {f : TcpWorld → TcpWorld}
    (hf : ∀ w, (f w).socks = Function.update w.socks new child)
    (hchild : ∀ t ∈ child, t.rcvReass = []) :
    Respects (Tidy P) (modifyWorld net.env f) := by
  intro s a s' h hc
  cases h
  refine ⟨fun i t ht => ?_, [], by simp [Net.env], by simp⟩
  simp only [Local.sock, Net.env, hf, Function.update_apply] at ht
  split_ifs at ht
  · exact hchild t ht
  · exact hc i t ht

lemma tidy_tcpListenChildSock (id : ℕ) (seg : TcpSegment) : Respects (Tidy P) (tcpListenChildSock net.env id seg) := by
  apply Tidy.bind (.of_keeps fun _ => keeps_getWorld)
  intro w
  refine Tidy.bind (tidy_newSock w.nextSock (some _) (fun _ => rfl) fun t ht => ?_) fun _ => ?_
  · cases ht
    rfl
  apply Tidy.bind (.of_touches fun _ => keeps_tcpHash blind_touches.refcnt blind_touches.hashed _)
  intro hashed
  split_ifs
  · refine Tidy.bind (tidy_newSock w.nextSock none (fun w => ?_) (by simp)) fun _ => tidy_pure _
    rfl
  · apply Tidy.bind (.of_touches fun _ => touches_getSock id)
    intro _
    refine Tidy.bind (tidy_modifySk _ fun _ h => h) fun _ => ?_
    refine Tidy.bind (tidy_modifySk _ fun _ h => h) fun _ => ?_
    exact Tidy.bind (.of_touches fun _ => touches_getSock _) fun _ => tidy_pure _

lemma tidy_allocNewIss : Respects (Tidy P) (allocNewIss net.env) :=
  Tidy.bind (.of_keeps fun _ => keeps_getWorld) fun _ =>
    Tidy.bind (.of_keeps fun _ => keeps_modifyWorld fun _ => rfl) fun _ => tidy_pure _

lemma tidy_tcpListen (pkb : Pkbuf) (seg : TcpSegment) (id : ℕ) :
    Respects (Tidy (Answers seg)) (tcpListen net.env pkb seg id) := by
  have hfree : Respects (Tidy (Answers seg)) (net.env.freePkb pkb) := tidy_pure _
  rw [tcpListen]
  split_ifs
  · exact hfree
  · exact Tidy.bind (.of_touches fun _ => touches_tcpSendReset seg) fun _ => hfree
  · exact hfree
  · apply Tidy.bind (tidy_tcpListenChildSock id seg)
    intro child
    cases child with
    | none => exact hfree
    | some new =>
      apply Tidy.bind (tidy_allocNewIss)
      intro iss
      refine Tidy.bind (tidy_modifySk _ fun _ h => h) fun _ => ?_
      apply Tidy.bind (.of_touches fun _ => keeps_tcpSendSynack blind_touches.dst new seg)
      intro _
      exact Tidy.bind (tidy_modifySk _ fun _ h => h) fun _ => hfree

lemma tidy_tcpSynsent (pkb : Pkbuf) (seg : TcpSegment) (id : ℕ) :
    Respects (Tidy (Answers seg)) (tcpSynsent net.env pkb seg id) := by
  have hfree : Respects (Tidy (Answers seg)) (net.env.freePkb pkb) := tidy_pure _
  apply Tidy.bind (tidy_getSk id)
  intro tsk
  split_ifs
  · exact Tidy.bind (.of_touches fun _ => touches_tcpSendReset seg) fun _ => hfree
  · exact Tidy.bind (.of_touches fun _ => touches_close id) fun _ => hfree
  · exact hfree
  · refine Tidy.bind (tidy_modifySk _ fun _ h => h) fun _ => ?_
    refine Tidy.bind (tidy_modifySk _ fun _ h => h) fun _ => ?_
    apply Tidy.bind (.of_touches fun _ => keeps_tcpSendAck blind_touches.dst id seg)
    intro _
    apply Tidy.bind (tidy_getSk id)
    intro t
    exact Tidy.bind (.of_touches fun _ => keeps_wakeUp _) fun _ => hfree
  · refine Tidy.bind (tidy_modifySk _ fun _ h => h) fun _ => ?_
    refine Tidy.bind (tidy_modifySk _ fun _ h => h) fun _ => ?_
    exact .of_touches fun _ => keeps_tcpSendSynack blind_touches.dst id seg
  · exact hfree

lemma tidy_checkFin (j : ℕ) (seg : TcpSegment) : Respects (Tidy P) (checkFin net.env j seg) := by
  rw [checkFin]
  split_ifs
  · have hend : Respects (Tidy P) (modifySk net.env j
        (fun t => { t with rcvNxt := seg.seq + 1, ackNow := true })) :=
      tidy_modifySk j fun _ h => h
    apply Tidy.bind (tidy_getSk j)
    intro t
    cases t.state <;> simp only
    case finWait2 =>
      exact Tidy.bind (.of_touches fun _ => touches_tcpSetTimewaitTimer j) fun _ => hend
    case synRecv | established | finWait1 | timeWait =>
      exact Tidy.bind (tidy_modifySk j fun _ h => h) fun _ => hend
    all_goals exact hend
  · exact tidy_pure _

end Steps

variable {s s' : Local}

section Arrive

variable {id : ℕ}

structure Before (text : Bool) (t t' : TcpSock) : Prop where
  recv : recvSide t' = recvSide t
  text : text = false → takesText t'.state = true → takesText t.state = true

instance (text : Bool) : IsPreorder TcpSock (Before text) where
  refl _ := ⟨rfl, fun _ h => h⟩
  trans _ _ _ h h' := ⟨h'.recv.trans h.recv, fun hno ht => h.text hno (h'.text hno ht)⟩

lemma before_of_touches (h : Respects (Keeps id Touches P) x) : Respects (Keeps id (Before text) P) x :=
  fun s a s' hrun => (h s a s' hrun).imp (fun ht => ⟨ht.recv, fun _ => ht.text⟩) fun he => he

lemma before_modifySk (j : ℕ) (hf : ∀ t, Before text t (f t)) :
    Respects (Keeps id (Before text) P) (modifySk net.env j f) := keeps_modifySk hf

lemma before_tcpUpdateWindow (t : TcpSock) (seg : TcpSegment) : Before text t (tcpUpdateWindow t seg) := by
  rw [tcpUpdateWindow]
  split_ifs
  · exact ⟨rfl, fun _ h => h⟩
  · exact ⟨rfl, fun _ h => h⟩

lemma before_checkAck {j : ℕ} {b : Bool} (h : s.sock j = some tsk) (hrun : checkAck net.env j seg s = .ok (b, s')) :
    Keeps id (Before (takesText tsk.state)) (Answers seg) s s' := by
  obtain ⟨x, hx, hrest⟩ := checkAck_inv h hrun
  generalize htext : takesText tsk.state = text
  have hwindow : Respects (Keeps id (Before text) (Answers seg)) (do
      modifySk net.env j (fun t => tcpUpdateWindow t seg)
      return true : Prog Local Bool) :=
    Keeps.bind (before_modifySk j fun t => before_tcpUpdateWindow t seg) fun _ => keeps_pure _
  have hack : Respects (Keeps id (Before text) (Answers seg))
      (modifySk net.env j (fun t => { t with sndUna := seg.ack })) :=
    before_modifySk j fun _ => ⟨rfl, fun _ h => h⟩
  refine (?_ : Respects _ x) _ _ _ hrest
  cases hx with
  | completes hs =>
    have hopen : ∀ t : TcpSock, Before text t { updateWindow { t with sndUna := seg.ack } seg with
        state := .established } := by
      intro t
      refine ⟨rfl, fun hno => ?_⟩
      rw [← htext, hs] at hno
      cases hno
    apply Keeps.bind (before_of_touches (keeps_tcpSynrecvAck blind_touches j))
    intro b
    split_ifs
    · exact Keeps.bind (before_modifySk j hopen) fun _ => keeps_pure _
    · exact keeps_pure _
  | outside => exact Keeps.bind (before_of_touches (touches_tcpSendReset seg)) fun _ => keeps_pure _
  | forward => exact Keeps.bind hack fun _ => hwindow
  | finWait1 hs =>
    have hfin : ∀ t : TcpSock, Before text t { t with state := .finWait2 } := by
      intro t
      refine ⟨rfl, fun hno => ?_⟩
      rw [← htext, hs] at hno
      cases hno
    exact Keeps.bind hack fun _ => Keeps.bind (before_modifySk j hfin) fun _ => hwindow
  | closing =>
    exact Keeps.bind hack fun _ => Keeps.bind (before_of_touches (touches_tcpSetTimewaitTimer j))
      fun _ => keeps_pure _
  | lastAck =>
    exact Keeps.bind hack fun _ => Keeps.bind (before_of_touches (touches_close j)) fun _ =>
      Keeps.bind (before_of_touches (touches_tcpUnhash j)) fun _ =>
      Keeps.bind (before_of_touches (touches_tcpUnbhash j)) fun _ => keeps_pure _
  | old => exact hwindow
  | beyond | other => exact keeps_pure _

lemma takesText_of_receives {state : TcpState} (h : receives state = true) : takesText state = true := by
  cases state <;> first | rfl | cases h

lemma checkText_inSequence (h : s.sock id = some tsk) (hc : Clear s)
    (hseq : receives tsk.state = true → hasText seg = true → seg.seq ≤ tsk.rcvNxt)
    (hrun : checkText net.env id seg pkb s = .ok (seg', s')) :
    Clear s' ∧ s'.sent = s.sent ∧ SameHeader seg seg' := by
  obtain ⟨t1, ht, rfl⟩ := checkText_inv h hrun
  obtain ⟨hq, hsame⟩ := texted_inSequence (hc id tsk h) hseq ht
  refine ⟨fun i t hi => ?_, rfl, hsame⟩
  simp only [Local.sock, Local.put, Function.update_apply] at hi
  split_ifs at hi
  · cases hi
    exact hq
  · exact hc i t hi

lemma afterAck_replies (h : s.sock id = some tsk)
    (hseq : receives tsk.state = true → hasText seg = true → seg.seq ≤ tsk.rcvNxt)
    (hrun : (do
      let seg ← checkText net.env id seg pkb
      checkFin net.env id seg
      drop net.env id seg pkb : Prog Local Unit) s = .ok ((), s')) :
    Tidy (Answers seg) s s' := by
  intro hc
  obtain ⟨seg', s1, htext, hrest⟩ := bind_inv hrun
  obtain ⟨hc1, hsent, hsame⟩ := checkText_inSequence h hc hseq htext
  have htail : Respects (Tidy (Answers seg')) (do
      checkFin net.env id seg'
      drop net.env id seg' pkb : Prog Local Unit) :=
    Tidy.bind (tidy_checkFin id seg') fun _ => .of_touches fun _ => keeps_drop blind_touches id seg' pkb
  obtain ⟨hc', new, hnew, hback⟩ := htail s1 () s' hrest hc1
  exact ⟨hc', new, by rw [hnew, hsent], fun e he => hsame.answers (hback e he)⟩

lemma tcpArrive_replies (h : s.sock id = some tsk)
    (hseq : takesText tsk.state = true → hasText seg = true → seg.seq ≤ tsk.rcvNxt)
    (hrun : tcpArrive net.env pkb seg id s = .ok ((), s')) : Tidy (Answers seg) s s' := by
  have hdrop : Respects (Tidy (Answers seg)) (drop net.env id seg pkb) :=
    .of_touches fun _ => keeps_drop blind_touches id seg pkb
  have hnow : Respects (Tidy (Answers seg)) (modifySk net.env id (fun t => { t with ackNow := true })) :=
    tidy_modifySk id fun _ h => h
  have hsyn : Respects (Tidy (Answers seg)) (checkSyn net.env id seg) :=
    .of_touches fun _ => touches_checkSyn id seg
  rw [tcpArrive, bind_run (getSk_run h)] at hrun
  split_ifs at hrun
  · exact Tidy.bind hnow (fun _ => hdrop) _ _ _ hrun
  · exact hdrop _ _ _ hrun
  · exact Tidy.bind (.of_touches fun _ => touches_checkRst id) (fun _ => hdrop) _ _ _ hrun
  · exact Tidy.bind hsyn (fun _ => hdrop) _ _ _ hrun
  obtain ⟨⟨⟩, s1, hrun1, hrun⟩ := bind_inv hrun
  have hk1 := @touches_checkSyn net id id seg s () s1 hrun1
  have ht1 := hsyn s () s1 hrun1
  obtain ⟨b, s2, hack, hrun⟩ := bind_inv hrun
  obtain ⟨t1, hsock1⟩ : ∃ t1, s1.sock id = some t1 := by
    obtain ⟨t1, s0, hget, -⟩ := bind_inv hack
    exact ⟨t1, (getSk_inv hget).1⟩
  have ht2 : Tidy (Answers seg) s1 s2 := by
    apply tidy_of_keeps
    intro i
    exact (before_checkAck hsock1 hack).imp (fun hb => .of_recvSide hb.recv) fun he => he
  refine (ht1.trans ht2).trans ?_
  split_ifs at hrun
  · exact hdrop _ _ _ hrun
  obtain ⟨t2, hsock2⟩ : ∃ t2, s2.sock id = some t2 := by
    obtain ⟨seg', s3, htext, -⟩ := bind_inv hrun
    obtain ⟨t2, s0, hget, -⟩ := bind_inv htext
    exact ⟨t2, (getSk_inv hget).1⟩
  refine afterAck_replies hsock2 (fun hr htext => ?_) hrun
  have htouch := hk1.rel h hsock1
  have hbefore := (@before_checkAck _ _ net _ _ id _ _ hsock1 hack).rel hsock1 hsock2
  have hnxt : t2.rcvNxt = tsk.rcvNxt := congrArg (fun p => p.2.2) (hbefore.recv.trans htouch.recv)
  rw [hnxt]
  refine hseq (htouch.text ?_) htext
  cases htakes : takesText t1.state with
  | true => rfl
  | false => rw [← htakes]; exact hbefore.text htakes (takesText_of_receives hr)

lemma tcpProcess_replies {found : Option ℕ}
    (hseq : ∀ i t, found = some i → s.sock i = some t → takesText t.state = true → hasText seg = true →
      seg.seq ≤ t.rcvNxt)
    (hrun : tcpProcess net.env pkb seg found s = .ok ((), s')) : Tidy (Answers seg) s s' := by
  have hfree : Respects (Tidy (Answers seg)) (net.env.freePkb pkb) := tidy_pure _
  cases found with
  | none =>
    exact Tidy.bind (.of_touches fun _ => touches_tcpSendReset seg) (fun _ => hfree) _ _ _ hrun
  | some i =>
    obtain ⟨t, -, -, hsock, -⟩ := getSk_bind_inv hrun
    rw [tcpProcess, bind_run (getSk_run hsock)] at hrun
    cases hs : t.state <;> simp only [hs] at hrun
    case closed => exact hfree _ _ _ hrun
    case listen => exact tidy_tcpListen pkb seg i _ _ _ hrun
    case synSent => exact tidy_tcpSynsent pkb seg i _ _ _ hrun
    all_goals exact tcpArrive_replies hsock (hseq i t rfl hsock) hrun

lemma tcpRecv_replies (hseq : InSequence net s seg)
    (hrun : tcpRecv net.env pkb seg s = .ok ((), s')) : Tidy (Answers seg) s s' := by
  obtain ⟨found, s1, hlookup, hrun⟩ := bind_inv hrun
  obtain ⟨⟨⟩, s2, hprocess, hrun⟩ := bind_inv hrun
  have h1 : Tidy (Answers seg) s s1 :=
    Tidy.of_touches (fun _ => touches_tcpLookupSock _ _ _ _) _ _ _ hlookup
  have h2 : Tidy (Answers seg) s1 s2 := by
    refine tcpProcess_replies (fun i t hi ht htakes htext => ?_) hprocess
    exact hseq i s1 t (hi ▸ hlookup) ht htakes htext
  refine (h1.trans h2).trans ?_
  cases found with
  | none => exact tidy_pure _ _ _ _ hrun
  | some i => exact Tidy.of_touches (fun _ => touches_freeSock i) _ _ _ hrun

end Arrive

section User

lemma tidy_tcpConnect (id : ℕ) (daddr : UInt32) (dport : UInt16) :
    Respects (Tidy (fun _ => True)) (tcpConnect net.env id daddr dport) := by
  apply Tidy.bind (tidy_getSk id)
  intro t
  split_ifs
  · exact tidy_pure _
  apply Tidy.bind (tidy_allocNewIss)
  intro iss
  refine Tidy.bind (tidy_modifySk id fun _ h => h) fun _ => ?_
  apply Tidy.bind (.of_touches fun _ => keeps_tcpHash blind_touches.refcnt blind_touches.hashed id)
  intro hashed
  split_ifs
  · exact Tidy.bind (.of_touches fun _ => touches_close id) fun _ => tidy_pure _
  · refine Tidy.bind (tidy_modifySk id fun _ h => h) fun _ => ?_
    have hsyn : Respects (Tidy (fun _ => True)) (tcpSendSyn net.env id) :=
      Tidy.bind (tidy_pure _) fun _ => Tidy.bind (tidy_getSk id) fun _ =>
        .of_keeps fun _ => keeps_tcpSendOut (fun _ _ h => h) _ _ _ fun _ _ _ => trivial
    exact Tidy.bind hsyn fun _ => tidy_pure _

lemma tidy_tcpSendBuf (id : ℕ) (buf : List UInt8) (len : ℤ) :
    Respects (Tidy (fun _ => True)) (tcpSendBuf net.env id buf len) := by
  apply Tidy.bind (tidy_getSk id)
  intro t
  split_ifs
  · exact .of_keeps fun _ =>
      keeps_tcpSendText (fun _ _ h => h) (fun _ _ h => h) (fun _ _ => trivial) id buf len
  · exact tidy_pure _

lemma tidy_sendFin (id : ℕ) (state : TcpState) : Respects (Tidy (fun _ => True)) (sendFin net.env id state) := by
  refine Tidy.bind (tidy_modifySk id fun _ h => h) fun _ => ?_
  apply Tidy.bind (.of_keeps fun _ => keeps_tcpSendFin (fun _ _ h => h) (fun _ _ => trivial) id)
  intro _
  exact tidy_modifySk id fun _ h => h

lemma tidy_tcpClose (id : ℕ) : Respects (Tidy (fun _ => True)) (tcpClose net.env id) := by
  have hend : Respects (Tidy (fun _ => True)) (freeText net id) := by
    rw [freeText_eq]
    exact tidy_modifySk id fun _ _ => rfl
  apply Tidy.bind (tidy_getSk id)
  intro t
  cases t.state <;> simp only
  case listen =>
    apply Tidy.bind (.of_touches fun _ => keeps_tcpClearListenQueue blind_touches id _)
    intro _
    apply Tidy.bind (.of_touches fun _ => touches_tcpUnhash id)
    intro _
    apply Tidy.bind (.of_touches fun _ => touches_tcpUnbhash id)
    intro _
    exact Tidy.bind (.of_touches fun _ => touches_close id) fun _ => hend
  case established | closeWait => exact Tidy.bind (tidy_sendFin id _) fun _ => hend
  all_goals exact hend

end User

section Reached

lemma Clear.put (h : Clear s) {id : ℕ} (ht : t.rcvReass = []) : Clear (s.put id t) := by
  intro i t' hi
  simp only [Local.sock, Local.put, Function.update_apply] at hi
  split_ifs at hi
  · cases hi
    exact ht
  · exact h i t' hi

lemma Reached.clear (h : Reached net (InSequence net) s) : Clear s := by
  induction h with
  | start h => exact h
  | segment _ hseq hrun ih => exact (tcpRecv_replies hseq hrun ih).1
  | connect _ hrun ih => exact (tidy_tcpConnect _ _ _ _ _ _ hrun ih).1
  | send _ hrun ih => exact (tidy_tcpSendBuf _ _ _ _ _ _ hrun ih).1
  | @read s id tsk tsk' buf len _ hs hrun ih =>
    obtain ⟨⟨bytes, curlen, rcvBuf⟩, -, hrun⟩ := bind_eq_ok.mp hrun
    cases hrun
    exact ih.put (ih id tsk hs)
  | @pushed s id tsk _ hs ih =>
    apply ih.put
    rw [tcpEndPush]
    split_ifs
    · exact ih id tsk hs
    · exact ih id tsk hs
  | close _ hrun ih => exact (tidy_tcpClose _ _ _ _ hrun ih).1

theorem answers_to_sender {seg : TcpSegment} {pkb : Pkbuf} (h : Reached net (InSequence net) s)
    (hseq : InSequence net s seg) (hrun : tcpRecv net.env pkb seg s = .ok ((), s')) :
    ∃ new, s'.sent = s.sent ++ new ∧ ∀ e ∈ new, e.daddr = seg.iphdrSrc ∧ e.out.dst = seg.tcphdrSrc ∧
      e.saddr = seg.iphdrDst ∧ e.out.src = seg.tcphdrDst := by
  obtain ⟨-, new, hnew, hback⟩ := tcpRecv_replies hseq hrun h.clear
  refine ⟨new, hnew, fun e he => ?_⟩
  have hanswer := hback e he
  exact ⟨hanswer.daddr, hanswer.dst, hanswer.saddr, hanswer.src⟩

lemma inSequence_of_lookup (id : ℕ)
    (hrun : outcome (tcpLookupSock net.env seg.iphdrSrc seg.iphdrDst seg.tcphdrSrc seg.tcphdrDst) s =
      some (some id))
    (hnxt : ((finalState (tcpLookupSock net.env seg.iphdrSrc seg.iphdrDst seg.tcphdrSrc
      seg.tcphdrDst) s).sock id).all (fun t => takesText t.state → hasText seg → seg.seq ≤ t.rcvNxt) = true) :
    InSequence net s seg := by
  intro i s1 t hlookup ht htakes htext
  rw [run_of_outcome hrun] at hlookup
  obtain ⟨hi, rfl⟩ := ok_inj hlookup
  cases hi
  rw [ht] at hnxt
  simpa [htakes, htext] using hnxt

end Reached

def arrived (s : Local) (seg : TcpSegment) : Local :=
  finalState (tcpRecv online.env (allocPkb 0 0) seg) s

def connected : Local := arrived dialled synAckSegment

lemma reached_connected (hok : ok dialled synAckSegment) : Reached online ok connected := by
  have h0 : Reached online ok beforeConnect := by
    refine .start fun i t hi => ?_
    simp only [Local.sock, beforeConnect] at hi
    split_ifs at hi
    cases hi
    rfl
  have hdial : tcpConnect online.env 0 0x0200000a 0x5000 beforeConnect = .ok (true, dialled) :=
    run_of_outcome (by decide +kernel)
  have h1 : Reached online ok dialled := h0.connect hdial
  exact @Reached.segment _ _ _ _ _ (allocPkb 0 0) h1 hok (run_of_outcome (by decide +kernel))

theorem answers_to_sender_connected : Reached online (InSequence online) connected ∧
    (arrived connected (fromPeer 501 101 [1])).sent ≠ connected.sent ∧
    ∃ new, (arrived connected (fromPeer 501 101 [1])).sent = connected.sent ++ new ∧
      ∀ e ∈ new, e.daddr = 0x0200000a ∧ e.out.dst = 0x5000 ∧ e.saddr = 0x0100000a ∧ e.out.src = 0x0080 := by
  have h : Reached online (InSequence online) connected :=
    reached_connected (inSequence_of_lookup 0 (by decide +kernel) (by decide +kernel))
  exact ⟨h, by decide +kernel, answers_to_sender h (inSequence_of_lookup 0 (by decide +kernel) (by decide +kernel))
      (run_of_outcome (by decide +kernel))⟩

-- The three bytes wait, and `tcp_reass_head` lies over the addresses the ACK is then made from.
theorem answers_to_overlay : ∃ s s' seg pkb, Reached online (fun _ _ => True) s ∧
    tcpRecv online.env pkb seg s = .ok ((), s') ∧ seg.iphdrSrc = 0x0200000a ∧
    seg.iphdrDst = 0x0100000a ∧ s'.sent.drop s.sent.length =
      [⟨0x01000000, 0x00030000, ⟨0x0080, 0x5000, 101, 501, false, false, false, false, true, 4096, []⟩⟩] :=
  ⟨connected, arrived connected (fromPeer 510 101 [1, 2, 3]), fromPeer 510 101 [1, 2, 3], allocPkb 0 0,
    reached_connected trivial, run_of_outcome (by decide +kernel), rfl, rfl, by decide +kernel⟩

end Tapip.Tcp.Replies
