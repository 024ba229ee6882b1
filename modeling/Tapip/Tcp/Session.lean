import Tapip.Tcp.Connection
import Tapip.Tcp.ReassQueue

/-! A connection that receives the peer's stream and its FIN. -/

namespace Tapip.Tcp.Session

open Net.Pkb Lib Foundation.Program Text Connection Tcp.Stream

structure OfStream (irs : UInt32) (S : List UInt8) (seg : TcpSegment) : Prop where
  rst : seg.rst = false
  syn : seg.syn = false
  carries : Carries irs S seg.seq seg.dlen seg.text
  short : seg.dlen.toNat < 2 ^ 16
  fin : seg.fin = true → seg.seq.toNat + seg.dlen.toNat = irs.toNat + 1 + S.length

structure Opened (irs : UInt32) (tsk : TcpSock) : Prop where
  rcvNxt : tsk.rcvNxt.toNat = irs.toNat + 1
  buf : BufWf tsk
  held : held tsk = []
  rcvReass : tsk.rcvReass = []

/-- Segments of the stream that pass the sequence check and meet `ok`, and calls of the user, while
the sock takes text. The list is what has left the buffer: read, or thrown away by closing. -/
inductive Reached (net : Net) (id : ℕ) (irs : UInt32) (S : List UInt8)
    (ok : TcpSock → TcpSegment → Prop) : Local → List UInt8 → Prop
  | start {s : Local} {tsk : TcpSock} : s.sock id = some tsk → receives tsk.state = true →
      Opened irs tsk → Reached net id irs S ok s []
  | segment {s s' : Local} {got : List UInt8} {tsk : TcpSock} {seg : TcpSegment} {pkb : Pkbuf} :
      Reached net id irs S ok s got → s.sock id = some tsk → receives tsk.state = true →
      OfStream irs S seg → seqCheck seg tsk = true → ok tsk seg →
      tcpProcess net.env pkb seg (some id) s = .ok ((), s') → Reached net id irs S ok s' got
  | read {s : Local} {got buf : List UInt8} {tsk tsk' : TcpSock} {len : ℤ} :
      Reached net id irs S ok s got → s.sock id = some tsk → receives tsk.state = true →
      tcpReadBuf tsk len = .ok (buf, tsk') → Reached net id irs S ok (s.put id tsk') (got ++ buf)
  | pushed {s : Local} {got : List UInt8} {tsk : TcpSock} :
      Reached net id irs S ok s got → s.sock id = some tsk → receives tsk.state = true →
      Reached net id irs S ok (s.put id (tcpEndPush tsk)) got
  | send {s s' : Local} {got buf : List UInt8} {tsk : TcpSock} {len n : ℤ} :
      Reached net id irs S ok s got → s.sock id = some tsk → receives tsk.state = true →
      tcpSendBuf net.env id buf len s = .ok (n, s') → Reached net id irs S ok s' got
  | close {s s' : Local} {got : List UInt8} {tsk : TcpSock} :
      Reached net id irs S ok s got → s.sock id = some tsk → receives tsk.state = true →
      tcpClose net.env id s = .ok ((), s') → Reached net id irs S ok s' (got ++ held tsk)

section Steps

variable {net : Net} {id : ℕ} {s s' : Local} {tsk : TcpSock}

def recvSide (tsk : TcpSock) : Option Cbuf × List TcpReassHead × UInt32 :=
  (tsk.rcvBuf, tsk.rcvReass, tsk.rcvNxt)

lemma tcpSendBuf_recvSide {buf : List UInt8} {len n : ℤ} (h : s.sock id = some tsk)
    (hrun : tcpSendBuf net.env id buf len s = .ok (n, s')) {t' : TcpSock}
    (ht' : s'.sock id = some t') : recvSide t' = recvSide tsk := by
  have hk : Respects (Keeps id (Same recvSide) (fun _ => True)) (tcpSendBuf net.env id buf len) := by
    refine Keeps.bind (keeps_getSk id) fun t => ?_
    split_ifs
    · exact keeps_tcpSendText (fun _ _ => rfl) (fun _ _ => rfl) (fun _ _ => trivial) id buf len
    · exact keeps_pure _
  have he := (hk s n s' hrun).rel h ht'
  exact he

lemma tcpClose_recvSide (h : s.sock id = some tsk) (hr : receives tsk.state = true)
    (hrun : tcpClose net.env id s = .ok ((), s')) {t' : TcpSock} (ht' : s'.sock id = some t') :
    recvSide t' = (none, [], tsk.rcvNxt) := by
  have hend : ∀ {s1 : Local}, Keeps id (Same TcpSock.rcvNxt) (fun _ => True) s s1 →
      freeText net id s1 = .ok ((), s') → recvSide t' = (none, [], tsk.rcvNxt) := by
    intro s1 hk hrest
    rw [freeText_eq] at hrest
    obtain ⟨t1, ht1, rfl⟩ := modifySk_inv hrest
    rw [sock_put] at ht'
    cases ht'
    have he := hk.rel h ht1
    have hnxt : t1.rcvNxt = tsk.rcvNxt := he
    simp [recvSide, hnxt]
  rw [tcpClose, bind_run (getSk_run h)] at hrun
  cases hs : tsk.state <;> simp only [hs, receives, Bool.false_eq_true] at hr hrun
  case established =>
    obtain ⟨⟨⟩, s1, hfin, hrest⟩ := bind_inv hrun
    have hkeep : Respects (Keeps id (Same TcpSock.rcvNxt) (fun _ => True)) (sendFin net.env id .finWait1) :=
      Keeps.bind (keeps_modifySk fun _ => rfl) fun _ =>
        Keeps.bind (keeps_tcpSendFin (fun _ _ => rfl) (fun _ _ => trivial) id) fun _ =>
          keeps_modifySk fun _ => rfl
    exact hend (hkeep s () s1 hfin) hrest
  case finWait1 | finWait2 => exact hend (Keeps.refl s) hrun

def windowAt (tsk : TcpSock) (seg : TcpSegment) : UInt32 :=
  if tsk.state ≠ .finWait2 ∧ windowNewer tsk seg = true then seg.wnd else tsk.sndWnd

lemma acked_spec (hr : receives tsk.state = true) (h : acked tsk seg = some t) :
    receives t.state = true ∧ t.sndWnd = windowAt tsk seg ∧ t.sndUp = tsk.sndUp ∧ recvSide t = recvSide tsk := by
  have hupd : ∀ t0 : TcpSock, windowNewer t0 seg = windowNewer tsk seg → t0.sndWnd = tsk.sndWnd →
      tsk.state ≠ .finWait2 → (tcpUpdateWindow t0 seg).sndWnd = windowAt tsk seg := by
    intro t0 h1 h2 h3
    simp only [tcpUpdateWindow, windowAt, h1]
    split_ifs <;> simp_all [updateWindow]
  have hkeep : ∀ t0 : TcpSock, (tcpUpdateWindow t0 seg).state = t0.state ∧
      (tcpUpdateWindow t0 seg).sndUp = t0.sndUp ∧
      recvSide (tcpUpdateWindow t0 seg) = recvSide t0 := by
    intro t0
    simp only [tcpUpdateWindow]
    split_ifs <;> exact ⟨rfl, rfl, rfl⟩
  simp only [acked] at h
  split_ifs at h with h1 h2 h3
  · cases h
    exact ⟨hr, by simp [windowAt, h1], rfl, rfl⟩
  · cases h
    obtain ⟨k1, k2, k3⟩ := hkeep (acknowledge tsk seg)
    refine ⟨?_, hupd _ ?_ rfl h1, k2, k3⟩
    · rw [k1]
      simp only [acknowledge]
      split_ifs
      · rfl
      · exact hr
    · simp only [acksNew, Bool.and_eq_true, decide_eq_true_eq] at h2
      have hle : tsk.sndUna ≤ seg.ack := UInt32.le_of_lt h2.1
      simp [windowNewer, acknowledge, hle]
      rfl
  · cases h
    obtain ⟨k1, k2, k3⟩ := hkeep tsk
    exact ⟨k1 ▸ hr, hupd tsk rfl rfl h1, k2, k3⟩

lemma answered_sock {t : TcpSock} (seg : TcpSegment) (h : s.sock id = some t) :
    ∃ dst, (answered net s id t seg).sock id = some (setDst dst t) := by
  simp only [answered]
  split_ifs
  · exact ⟨_, by rw [sock_emitted, sock_put]⟩
  · exact ⟨t.sk.skDst, h⟩

lemma receives_finished (h : receives (finished t seg).state = true) : seg.fin = false := by
  by_contra hf
  simp only [Bool.not_eq_false] at hf
  cases hs : t.state <;> simp_all [finished, finState, receives, setRefcnt]

end Steps

section Invariant

variable {net : Net} {id : ℕ} {irs : UInt32} {S got : List UInt8} {ok : TcpSock → TcpSegment → Prop}
  {s : Local}

lemma Reached.invariant {I : TcpSock → List UInt8 → Prop}
    (hside : ∀ {t t' : TcpSock} {got}, recvSide t' = recvSide t → I t got → I t' got)
    (hstart : ∀ {t : TcpSock}, Opened irs t → I t [])
    (harrive : ∀ {t t' : TcpSock} {seg seg' : TcpSegment} {pkb got}, receives t.state = true →
      OfStream irs S seg → ok t seg → I t got → arrived t seg pkb = .ok (t', seg') →
      receives t'.state = true → I t' got)
    (hread : ∀ {t t' : TcpSock} {len buf got}, I t got → tcpReadBuf t len = .ok (buf, t') → I t' (got ++ buf))
    (hclose : ∀ {t : TcpSock} {got}, I t got → I { t with rcvBuf := none, rcvReass := [] } (got ++ held t))
    (h : Reached net id irs S ok s got) {tsk : TcpSock} (hs : s.sock id = some tsk)
    (hr : receives tsk.state = true) : I tsk got := by
  induction h generalizing tsk with
  | start h _ ho =>
    cases Option.mem_unique h hs
    exact hstart ho
  | @segment s s' got t seg pkb _ h hrt hseg hc hok hrun ih =>
    obtain ⟨e, -, he⟩ | ⟨t', seg', s1, harr, hsock, -, hok'⟩ :=
      tcpProcess_run net pkb h hrt hc hseg.rst hseg.syn
    · simp [he] at hrun
    · obtain ⟨-, rfl⟩ := ok_inj (hrun.symm.trans hok')
      obtain ⟨dst, hdst⟩ := answered_sock seg' hsock
      cases Option.mem_unique hdst hs
      exact hside (t := t') rfl (harrive hrt hseg hok (ih h hrt) harr hr)
  | read _ h hrt hrun ih =>
    rw [sock_put] at hs
    cases hs
    exact hread (ih h hrt) hrun
  | @pushed s got t _ h hrt ih =>
    rw [sock_put] at hs
    cases hs
    refine hside ?_ (ih h hrt)
    simp only [tcpEndPush]
    split_ifs <;> rfl
  | send _ h hrt hrun ih => exact hside (tcpSendBuf_recvSide h hrun hs) (ih h hrt)
  | @close s s' got t _ h hrt hrun ih =>
    exact hside (t := { t with rcvBuf := none, rcvReass := [] })
      (tcpClose_recvSide h hrt hrun hs) (hclose (ih h hrt))

end Invariant

lemma tcpProcess_offline {id : ℕ} {s : Local} {tsk t : TcpSock} {seg seg' : TcpSegment} {pkb : Pkbuf}
    (h : s.sock id = some tsk) (hr : receives tsk.state = true) (hc : seqCheck seg tsk = true)
    (hrst : seg.rst = false) (hsyn : seg.syn = false) (harr : arrived tsk seg pkb = .ok (t, seg')) :
    ∃ s', tcpProcess offline.env pkb seg (some id) s = .ok ((), s') ∧ s'.sock id = some t := by
  obtain ⟨e, he, -⟩ | ⟨t1, seg1, s1, harr1, hsock, -, hrun⟩ :=
    tcpProcess_run offline pkb h hr hc hrst hsyn
  · simp [he] at harr
  · obtain ⟨rfl, rfl⟩ := ok_inj (harr.symm.trans harr1)
    refine ⟨_, hrun, ?_⟩
    have hdst : dstOf offline t seg'.iphdrSrc = t.sk.skDst := by
      cases hd : t.sk.skDst <;> simp [dstOf, offline, hd]
    simp only [answered, hdst]
    split_ifs
    · rw [sock_emitted, sock_put]
      rfl
    · exact hsock

def oneSock (tsk : TcpSock) : Local where
  tcp := ⟨fun id => if id = 0 then some tsk else none, 1, [0], [], [], 0, 0, 0, []⟩
  sent := []

def online : Net := ⟨fun _ => some ⟨0, 0, 0, 0, 0, 1⟩, fun _ => 1500⟩

def boundSock : TcpSock :=
  { tcpAllocSock with
    sk := { tcpAllocSock.sk with skSaddr := 0x0100000a, skSport := 0x0080, refcnt := 2 }
    bhashed := true }

def fromPeer (seq ack : UInt32) (text : List UInt8) : TcpSegment :=
  { textSegment seq text with
    ack := ack
    wnd := 8192
    iphdrSrc := 0x0200000a
    iphdrDst := 0x0100000a
    tcphdrSrc := 0x5000
    tcphdrDst := 0x0080 }

def synAckSegment : TcpSegment := { fromPeer 500 101 [] with syn := true, len := 1, lastseq := 500 }

def beforeConnect : Local where
  tcp := ⟨fun id => if id = 0 then some boundSock else none, 1, [], [], [0], 0, 99, 1, []⟩
  sent := []

def dialled : Local := finalState (tcpConnect online.env 0 0x0200000a 0x5000) beforeConnect

lemma sock_of_isSome {s : Local} (h : (s.sock 0).isSome = true) : s.sock 0 = some ((s.sock 0).getD boundSock) := by
  obtain ⟨t, ht⟩ := Option.isSome_iff_exists.mp h
  rw [ht]
  rfl

end Tapip.Tcp.Session
