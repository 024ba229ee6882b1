import Tapip.Tcp.In
import Tapip.Tcp.Session
import Tapip.Tcp.Timer

/-! Answers to a segment that only acknowledges. -/

namespace Tapip.Tcp.PureAck

open Net.Pkb Foundation.Program Text Connection Session

structure AcksOnly (tsk : TcpSock) (seg : TcpSegment) : Prop where
  acceptable : seqCheck seg tsk = true
  rst : seg.rst = false
  syn : seg.syn = false
  fin : seg.fin = false
  dlen : seg.dlen = 0
  lastseq : seg.lastseq = seg.seq
  ackBit : seg.ackBit = true
  una : tsk.sndUna ≤ seg.ack
  nxt : seg.ack ≤ tsk.sndNxt

def hashRefs (tsk : TcpSock) : ℤ :=
  (if tsk.sk.hashed then 1 else 0) + (if tsk.bhashed then 1 else 0)

-- Whoever looked the sock up holds a reference besides those of the tables.
def Held (tsk : TcpSock) : Prop := hashRefs tsk < tsk.sk.refcnt

/-- Whatever the routing table and the other socks are, the segment is taken and nothing is sent. -/
def Silent (id : ℕ) (tsk : TcpSock) (seg : TcpSegment) : Prop :=
  ∀ (net : Net) (pkb : Pkbuf) (s : Local), s.sock id = some tsk →
    ∃ s', tcpProcess net.env pkb seg (some id) s = .ok ((), s') ∧ s'.sent = s.sent

def answerSide (tsk : TcpSock) : Bool × Bool × Option RtEntry :=
  (tsk.ackNow, tsk.ackDelay, tsk.sk.skDst)

def provokes (tsk : TcpSock) (seg : TcpSegment) : Bool :=
  receives tsk.state && seg.psh && decide (tsk.rcvWnd ≠ 0)

section Run

variable {net : Net} {id : ℕ} {s : Local} {tsk : TcpSock} {seg : TcpSegment}

lemma unhashed_side (tsk : TcpSock) :
    answerSide (unhashed tsk) = answerSide tsk ∧ (unhashed tsk).state = tsk.state := by
  simp only [unhashed]
  split_ifs <;> exact ⟨rfl, rfl⟩

lemma unbhashed_side (tsk : TcpSock) :
    answerSide (unbhashed tsk) = answerSide tsk ∧ (unbhashed tsk).state = tsk.state := by
  simp only [unbhashed]
  split_ifs <;> exact ⟨rfl, rfl⟩

lemma Held.one_lt (hh : Held tsk) (h : tsk.sk.hashed = true ∨ tsk.bhashed = true) : 1 < tsk.sk.refcnt := by
  simp only [Held, hashRefs] at hh
  rcases h with h | h
  · simp only [h, if_true] at hh
    split_ifs at hh <;> omega
  · simp only [h, if_true] at hh
    split_ifs at hh <;> omega

lemma Held.unhashed (hh : Held tsk) : Held (unhashed tsk) := by
  simp only [Connection.unhashed]
  split_ifs with hk
  · simp only [Held, hashRefs, hk, if_true] at hh
    change (0 : ℤ) + (if tsk.bhashed = true then 1 else 0) < tsk.sk.refcnt - 1
    omega
  · exact hh

lemma ends_tcpUnhash (h : s.sock id = some tsk) (hh : Held tsk) : Ends id (tcpUnhash net.env id) s () (unhashed tsk) :=
  ⟨_, Timer.tcpUnhash_run h fun hk => hh.one_lt (.inl hk), rfl, Timer.sock_edited⟩

lemma ends_tcpUnbhash (h : s.sock id = some tsk) (hh : Held tsk) :
    Ends id (tcpUnbhash net.env id) s () (unbhashed tsk) :=
  ⟨_, Timer.tcpUnbhash_run h fun hk => hh.one_lt (.inr hk), rfl, Timer.sock_edited⟩

lemma tcpUpdateWindow_side (t : TcpSock) (seg : TcpSegment) :
    answerSide (tcpUpdateWindow t seg) = answerSide t ∧ (tcpUpdateWindow t seg).state = t.state := by
  simp only [tcpUpdateWindow]
  split_ifs <;> exact ⟨rfl, rfl⟩

lemma late_cases (hsync : synchronized tsk.state = true) (hr : receives tsk.state = false) :
    tsk.state = .closeWait ∨ tsk.state = .closing ∨ tsk.state = .lastAck ∨ tsk.state = .timeWait := by
  cases hs : tsk.state <;> simp_all [synchronized, receives]

def lateAcked (tsk : TcpSock) (seg : TcpSegment) : TcpSock :=
  match tsk.state with
  | .timeWait => tsk
  | .closing =>
    if acksNew tsk seg then setRefcnt (tsk.sk.refcnt + 1)
      { tsk with sndUna := seg.ack, state := .timeWait, timewait := some TCP_TIMEWAIT_TIMEOUT }
    else tcpUpdateWindow tsk seg
  | .lastAck =>
    if acksNew tsk seg then unbhashed (unhashed { tsk with sndUna := seg.ack, state := .closed })
    else tcpUpdateWindow tsk seg
  | _ =>
    if acksNew tsk seg then tcpUpdateWindow { tsk with sndUna := seg.ack } seg
    else tcpUpdateWindow tsk seg

lemma ends_checkAck (h : s.sock id = some tsk) (hsync : synchronized tsk.state = true)
    (hr : receives tsk.state = false) (hnxt : seg.ack ≤ tsk.sndNxt) (hh : Held tsk) :
    ∃ b, Ends id (checkAck net.env id seg) s b (lateAcked tsk seg) := by
  have hgt : ¬ seg.ack > tsk.sndNxt := UInt32.not_lt.mpr hnxt
  have hupd : ∀ {s1 : Local} {t : TcpSock}, s1.sock id = some t → Ends id (do
      modifySk net.env id (fun t => tcpUpdateWindow t seg)
      return true : Prog Local Bool) s1 true (tcpUpdateWindow t seg) :=
    fun h1 => (ends_modifySk h1).bind fun h2 => ends_pure h2
  rcases late_cases hsync hr with hs | hs | hs | hs
  · refine ⟨true, (ends_getSk h).bind fun h1 => ?_⟩
    simp only [lateAcked, hs, hgt, if_false, reduceCtorEq]
    split_ifs
    · exact (ends_modifySk h1).bind fun h2 => hupd (by simpa only [hs] using h2)
    · exact hupd h1
  · by_cases hnew : acksNew tsk seg = true
    · refine ⟨false, (ends_getSk h).bind fun h1 => ?_⟩
      simp only [lateAcked, hs, hnew, if_true]
      exact (ends_modifySk h1).bind fun h2 => (ends_tcpSetTimewaitTimer h2).bind fun h3 =>
        ends_pure h3
    · refine ⟨true, (ends_getSk h).bind fun h1 => ?_⟩
      simp only [lateAcked, hs, hnew, hgt, if_false]
      exact hupd h1
  · by_cases hnew : acksNew tsk seg = true
    · refine ⟨false, (ends_getSk h).bind fun h1 => ?_⟩
      simp only [lateAcked, hs, hnew, if_true, reduceCtorEq, if_false]
      exact (ends_modifySk h1).bind fun h2 => (ends_modifySk h2).bind fun h3 =>
        (ends_tcpUnhash h3 hh).bind fun h4 =>
        (ends_tcpUnbhash h4 (Held.unhashed hh)).bind fun h5 => ends_pure h5
    · refine ⟨true, (ends_getSk h).bind fun h1 => ?_⟩
      simp only [lateAcked, hs, hnew, hgt, if_false]
      exact hupd h1
  · refine ⟨true, (ends_getSk h).bind fun h1 => ?_⟩
    simp only [lateAcked, hs]
    exact ends_pure h1

lemma lateAcked_side (hsync : synchronized tsk.state = true) (hr : receives tsk.state = false) :
    answerSide (lateAcked tsk seg) = answerSide tsk ∧ receives (lateAcked tsk seg).state = false := by
  have hupd : ∀ t : TcpSock, answerSide t = answerSide tsk → t.state = tsk.state →
      answerSide (tcpUpdateWindow t seg) = answerSide tsk ∧ receives (tcpUpdateWindow t seg).state = false := by
    intro t h1 h2
    obtain ⟨h3, h4⟩ := tcpUpdateWindow_side t seg
    exact ⟨h3.trans h1, by rw [h4, h2]; exact hr⟩
  rcases late_cases hsync hr with hs | hs | hs | hs <;> simp only [lateAcked, hs]
  · split_ifs
    · exact hupd _ rfl hs.symm
    · exact hupd tsk rfl rfl
  · split_ifs
    · exact ⟨rfl, rfl⟩
    · exact hupd tsk rfl rfl
  · split_ifs
    · let t : TcpSock := { tsk with sndUna := seg.ack, state := .closed }
      obtain ⟨h1, h2⟩ := unhashed_side t
      obtain ⟨h3, h4⟩ := unbhashed_side (unhashed t)
      exact ⟨h3.trans h1, by rw [h4, h2]; rfl⟩
    · exact hupd tsk rfl rfl
  · exact ⟨trivial, hs ▸ hr⟩

lemma tcpProcess_late (pkb : Pkbuf) (h : s.sock id = some tsk) (hsync : synchronized tsk.state = true)
    (hr : receives tsk.state = false) (hseg : AcksOnly tsk seg) (hh : Held tsk) :
    ∃ s', s'.sent = s.sent ∧ tcpProcess net.env pkb seg (some id) s =
      .ok ((), answered net s' id (lateAcked tsk seg) seg) := by
  have harrive : tcpProcess net.env pkb seg (some id) s = tcpArrive net.env pkb seg id s := by
    rw [tcpProcess, bind_run (getSk_run h)]
    rcases late_cases hsync hr with hs | hs | hs | hs <;> simp only [hs]
  obtain ⟨b, s1, hack, hsent, hs1⟩ := ends_checkAck h hsync hr hseg.nxt hh
  refine ⟨s1, hsent, ?_⟩
  rw [harrive, tcpArrive, bind_run (getSk_run h)]
  simp only [hseg.acceptable, hseg.rst, hseg.ackBit, Bool.not_true, Bool.false_eq_true, if_false]
  rw [bind_run (show checkSyn net.env id seg s = .ok ((), s) by simp [checkSyn, hseg.syn]), bind_run hack]
  have hdrop : drop net.env id seg pkb s1 =
      .ok ((), answered net s1 id (lateAcked tsk seg) seg) := drop_run hs1 hseg.rst
  cases b with
  | false => exact hdrop
  | true =>
    have htext : checkText net.env id seg pkb s1 = .ok (seg, s1) := by
      rw [checkText_run seg pkb hs1]
      simp [texted, (lateAcked_side hsync hr).2, Except.map, put_self hs1]
    simp only [Bool.not_true, Bool.false_eq_true, if_false]
    rw [bind_run htext, bind_run (show checkFin net.env id seg s1 = .ok ((), s1) by
      simp [checkFin, hseg.fin])]
    exact hdrop

lemma acked_side {t : TcpSock} (h : acked tsk seg = some t) :
    answerSide t = answerSide tsk ∧ t.rcvWnd = tsk.rcvWnd ∧ t.rcvNxt = tsk.rcvNxt := by
  have hupd : ∀ t : TcpSock, (tcpUpdateWindow t seg).rcvWnd = t.rcvWnd ∧
      (tcpUpdateWindow t seg).rcvNxt = t.rcvNxt := by
    intro t
    simp only [tcpUpdateWindow]
    split_ifs <;> exact ⟨rfl, rfl⟩
  simp only [acked] at h
  split_ifs at h
  · cases h
    exact ⟨rfl, rfl, rfl⟩
  · cases h
    exact ⟨(tcpUpdateWindow_side _ seg).1, hupd (acknowledge tsk seg)⟩
  · cases h
    exact ⟨(tcpUpdateWindow_side _ seg).1, hupd tsk⟩

lemma tcpRecvText_empty {pkb : Pkbuf} {t : TcpSock} (hge : t.rcvNxt ≤ seg.seq)
    (hw : t.rcvWnd ≠ 0) {r : Received} (h : tcpRecvText t seg pkb = .ok r) :
    ackDue r.tsk = true ∧ r.tsk.sk.skDst = t.sk.skDst := by
  have hadj : adjacentSegmentHead t.rcvNxt seg = some seg := by
    simp [adjacentSegmentHead, UInt32.not_lt.mpr hge]
  simp only [tcpRecvText, hw, hadj, if_false] at h
  split_ifs at h
  · obtain ⟨⟨rlen, t'⟩, hwrite, h⟩ := bind_eq_ok.mp h
    cases h
    obtain ⟨_, _, _, rfl⟩ := tcpWriteBuf_writes hwrite
    exact ⟨by simp [ackDue], rfl⟩
  · obtain ⟨r', hreass, h⟩ := bind_eq_ok.mp h
    cases h
    obtain ⟨_, _, _, _, _, _, _, he⟩ := tcpSegmentReass_receives hreass
    exact ⟨by simp [ackDue], by rw [he]⟩

lemma arrived_acksOnly (pkb : Pkbuf) (hr : receives tsk.state = true) (hseg : AcksOnly tsk seg) :
    (∃ e, arrived tsk seg pkb = .error e ∧ provokes tsk seg = true) ∨
      ∃ t seg', arrived tsk seg pkb = .ok (t, seg') ∧ t.sk.skDst = tsk.sk.skDst ∧
        ackDue t = (ackDue tsk || provokes tsk seg) := by
  have hgt : ¬ seg.ack > tsk.sndNxt := UInt32.not_lt.mpr hseg.nxt
  obtain ⟨t, ht⟩ : ∃ t, acked tsk seg = some t := by
    simp only [acked, hgt, if_false]
    split_ifs <;> exact ⟨_, rfl⟩
  obtain ⟨hside, hwnd, hrnxt⟩ := acked_side ht
  obtain ⟨hr', -⟩ := acked_spec hr ht
  obtain ⟨hnow, hdelay, hdst⟩ : t.ackNow = tsk.ackNow ∧ t.ackDelay = tsk.ackDelay ∧ t.sk.skDst = tsk.sk.skDst := by
    simpa [answerSide] using hside
  have hge : t.rcvNxt ≤ seg.seq := by
    have hacc := hseg.acceptable
    simp only [seqCheck, Bool.and_eq_true, decide_eq_true_eq, hseg.lastseq] at hacc
    rw [hrnxt]
    exact hacc.2
  have hdue : ackDue t = ackDue tsk := by simp only [ackDue, hnow, hdelay]
  have harr : arrived tsk seg pkb = (texted t seg pkb).map (fun p => (finished p.1 p.2, p.2)) := by
    simp [arrived, hseg.ackBit, ht]
  have hfin : ∀ {t : TcpSock} {seg' : TcpSegment}, seg'.fin = seg.fin → finished t seg' = t := by
    intro t seg' h
    simp [finished, h, hseg.fin]
  have htext : hasText seg = seg.psh := by simp [hasText, hseg.dlen]
  by_cases hpush : seg.psh = true ∧ t.rcvWnd ≠ 0
  · have hprov : provokes tsk seg = true := by simp [provokes, hr, hpush.1, ← hwnd, hpush.2]
    cases hrun : tcpRecvText t seg pkb with
    | error e =>
      exact .inl ⟨e, by simp [harr, texted, hr', htext, hpush.1, hrun, Except.map], hprov⟩
    | ok r =>
      obtain ⟨hflag, hdst'⟩ := tcpRecvText_empty hge hpush.2 hrun
      refine .inr ⟨r.tsk, r.seg, ?_, hdst'.trans hdst, by simp [hflag, hprov]⟩
      simp [harr, texted, hr', htext, hpush.1, hrun, Except.map, hfin (tcpRecvText_cutOf hrun).fin]
  · have hprov : provokes tsk seg = false := by
      simp only [provokes, hr, ← hwnd, Bool.true_and, Bool.and_eq_false_imp]
      simpa using hpush
    have hquiet : texted t seg pkb = .ok (t, seg) := by
      simp only [texted, hr', htext, Bool.true_and]
      split_ifs with hp
      · have hw : t.rcvWnd = 0 := by simpa [hp] using hpush
        simp [tcpRecvText, hw, Except.map]
      · rfl
    refine .inr ⟨t, seg, ?_, hdst, by rw [hdue, hprov, Bool.or_false]⟩
    simp [harr, hquiet, Except.map, hfin rfl]

variable (net) in
lemma tcpProcess_acksOnly (pkb : Pkbuf) (h : s.sock id = some tsk)
    (hsync : synchronized tsk.state = true) (hseg : AcksOnly tsk seg) (hh : Held tsk) :
    (∃ e, tcpProcess net.env pkb seg (some id) s = .error e ∧ provokes tsk seg = true) ∨
      ∃ t seg' s', s'.sent = s.sent ∧ t.sk.skDst = tsk.sk.skDst ∧ ackDue t = (ackDue tsk || provokes tsk seg) ∧
        tcpProcess net.env pkb seg (some id) s = .ok ((), answered net s' id t seg') := by
  cases hr : receives tsk.state with
  | false =>
    obtain ⟨s', hsent, hrun⟩ := tcpProcess_late pkb h hsync hr hseg hh
    obtain ⟨hnow, hdelay, hdst⟩ : (lateAcked tsk seg).ackNow = tsk.ackNow ∧
        (lateAcked tsk seg).ackDelay = tsk.ackDelay ∧ (lateAcked tsk seg).sk.skDst = tsk.sk.skDst := by
      simpa [answerSide] using (lateAcked_side hsync hr).1
    refine .inr ⟨_, seg, s', hsent, hdst, ?_, hrun⟩
    simp [ackDue, hnow, hdelay, provokes, hr]
  | true =>
    obtain ⟨e, he, hrun⟩ | ⟨t, seg', s', ht, -, hsent, hrun⟩ :=
      tcpProcess_run net pkb h hr hseg.acceptable hseg.rst hseg.syn
    · obtain ⟨e', -, hprov⟩ | ⟨t, seg', ht, -⟩ := arrived_acksOnly pkb hr hseg
      · exact .inl ⟨e, hrun, hprov⟩
      · simp [ht] at he
    · obtain ⟨e', he, -⟩ | ⟨t', seg1, ht', hdst, hdue⟩ := arrived_acksOnly pkb hr hseg
      · simp [ht] at he
      · obtain ⟨rfl, rfl⟩ := ok_inj (ht.symm.trans ht')
        exact .inr ⟨t, seg', s', hsent, hdst, hdue, hrun⟩

end Run

theorem silent_iff {id : ℕ} {tsk : TcpSock} {seg : TcpSegment}
    (hsync : synchronized tsk.state = true) (hseg : AcksOnly tsk seg) (hh : Held tsk) :
    Silent id tsk seg ↔ tsk.ackNow = false ∧ tsk.ackDelay = false ∧
      ¬ (receives tsk.state = true ∧ seg.psh = true ∧ tsk.rcvWnd ≠ 0) := by
  have hiff : (ackDue tsk || provokes tsk seg) = false ↔ tsk.ackNow = false ∧ tsk.ackDelay = false ∧
      ¬ (receives tsk.state = true ∧ seg.psh = true ∧ tsk.rcvWnd ≠ 0) := by
    simp [ackDue, provokes, and_assoc]
  rw [← hiff]
  constructor
  · intro hsilent
    by_contra hdue
    simp only [Bool.not_eq_false] at hdue
    let net : Net := ⟨fun _ => some ⟨0, 0, 0, 0, 0, 0⟩, fun _ => 1500⟩
    let s : Local := (oneSock tsk).put id tsk
    have hs : s.sock id = some tsk := sock_put
    obtain ⟨s1, hrun, hsame⟩ := hsilent net (allocPkb 0 0) s hs
    obtain ⟨e, he, -⟩ | ⟨t, seg', s', hsent, hdst, ht, hrun'⟩ :=
      tcpProcess_acksOnly net (allocPkb 0 0) hs hsync hseg hh
    · simp [he] at hrun
    · obtain ⟨-, rfl⟩ := ok_inj (hrun.symm.trans hrun')
      have hroute : (dstOf net t seg'.iphdrSrc).isSome = true := by
        simp only [dstOf, net]
        split <;> rfl
      rw [answered_sent, hsent, ht, hdue, hroute] at hsame
      simp at hsame
  · intro hquiet net pkb s hs
    obtain ⟨e, -, hprov⟩ | ⟨t, seg', s', hsent, -, ht, hrun⟩ :=
      tcpProcess_acksOnly net pkb hs hsync hseg hh
    · simp [hprov] at hquiet
    · refine ⟨_, hrun, ?_⟩
      rw [answered_sent, hsent, ht, hquiet]
      simp

def ackSegment : TcpSegment := { fromPeer 502 101 [] with psh := false, lastseq := 502 }

theorem silent_iff_established : ∃ tsk : TcpSock, tsk.state = .established ∧ Held tsk ∧
    AcksOnly tsk ackSegment ∧ Silent 0 tsk ackSegment := by
  let tsk : TcpSock := { boundSock with state := .established, sndUna := 101, sndNxt := 101, rcvNxt := 502 }
  have hseg : AcksOnly tsk ackSegment :=
    ⟨by decide, rfl, rfl, rfl, rfl, rfl, rfl, by decide, by decide⟩
  have hheld : Held tsk := show hashRefs tsk < tsk.sk.refcnt by decide
  exact ⟨tsk, rfl, hheld, hseg, (silent_iff rfl hseg hheld).mpr ⟨rfl, rfl, by decide⟩⟩

/-- The user connects, one byte arrives and is acknowledged; then an ACK alone is acknowledged too. -/
theorem ack_is_acked : ∃ s1 s2 s3 s4 : Local, ∃ tsk : TcpSock,
    tcpConnect online.env 0 0x0200000a 0x5000 beforeConnect = .ok (true, s1) ∧
      tcpRecv online.env (allocPkb 0 0) synAckSegment s1 = .ok ((), s2) ∧
      tcpRecv online.env (allocPkb 0 0) (fromPeer 501 101 [1]) s2 = .ok ((), s3) ∧
      s3.sock 0 = some tsk ∧ tsk.state = .established ∧ AcksOnly tsk ackSegment ∧
      tcpProcess online.env (allocPkb 0 0) ackSegment (some 0) s3 = .ok ((), s4) ∧
      s4.sent.length = s3.sent.length + 1 := by
  let s1 := finalState (tcpConnect online.env 0 0x0200000a 0x5000) beforeConnect
  let s2 := finalState (tcpRecv online.env (allocPkb 0 0) synAckSegment) s1
  let s3 := finalState (tcpRecv online.env (allocPkb 0 0) (fromPeer 501 101 [1])) s2
  let s4 := finalState (tcpProcess online.env (allocPkb 0 0) ackSegment (some 0)) s3
  have hsock : s3.sock 0 = some ((s3.sock 0).getD boundSock) := sock_of_isSome (by decide +kernel)
  exact ⟨s1, s2, s3, s4, (s3.sock 0).getD boundSock, run_of_outcome (by decide +kernel),
    run_of_outcome (by decide +kernel), run_of_outcome (by decide +kernel), hsock, by decide +kernel,
    ⟨by decide +kernel, rfl, rfl, rfl, rfl, rfl, rfl, by decide +kernel, by decide +kernel⟩,
    run_of_outcome (by decide +kernel), by decide +kernel⟩

end Tapip.Tcp.PureAck
