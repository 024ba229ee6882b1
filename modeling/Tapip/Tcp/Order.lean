import Tapip.Tcp.Session

/-! The assertions of `tcp_segment_reass` along a connection. -/

namespace Tapip.Tcp.Order

open Net.Pkb Foundation.Program Text Connection Tcp.Stream ReassQueue Session

section Avoid

variable {net : Net} {id : ℕ}

lemma avoids_getSk (j : ℕ) : Avoids .assertion (getSk net.env j) := by
  intro s
  simp only [getSk]
  split <;> simp

lemma avoids_modifyWorld (f : TcpWorld → TcpWorld) : Avoids .assertion (modifyWorld net.env f) := by
  intro s
  simp [modifyWorld]

lemma avoids_modifySk (j : ℕ) (f : TcpSock → TcpSock) : Avoids .assertion (modifySk net.env j f) :=
  (avoids_getSk j).bind fun _ => avoids_modifyWorld _

lemma avoids_freeSock (j : ℕ) : Avoids .assertion (freeSock net.env j) := by
  refine (avoids_getSk j).bind fun t => ?_
  split_ifs
  · exact avoids_modifyWorld _
  · exact avoids_modifySk j _

lemma avoids_tcpUnhash (j : ℕ) : Avoids .assertion (tcpUnhash net.env j) := by
  have hend : Avoids .assertion (do let _ ← getSk net.env j : Prog Local Unit) :=
    (avoids_getSk j).bind fun _ => Avoids.pure _
  refine (avoids_getSk j).bind fun t => ?_
  split_ifs
  · exact (avoids_modifySk j _).bind fun _ => (avoids_modifyWorld _).bind fun _ =>
      (avoids_freeSock j).bind fun _ => hend
  · exact hend

lemma avoids_tcpUnbhash (j : ℕ) : Avoids .assertion (tcpUnbhash net.env j) := by
  refine (avoids_getSk j).bind fun t => ?_
  split_ifs
  · exact (avoids_modifySk j _).bind fun _ => (avoids_modifyWorld _).bind fun _ => avoids_freeSock j
  · exact Avoids.pure _

lemma avoids_tcpSendReset (seg : TcpSegment) : Avoids .assertion (tcpSendReset net.env seg) := by
  intro s
  simp only [tcpSendReset]
  split_ifs
  · simp
  · rw [bind_run (show net.env.allocPkb _ s = .ok (_, s) from rfl), tcpSendOut, bind_run (pure_run _)]
    dsimp only
    rw [tcpRoute, bind_run_eq (bind_run (pure_run _))]
    cases hr : net.route seg.iphdrSrc <;> simp [Net.env, hr]

lemma tcpProcess_rst_ne_assertion {s : Local} {tsk : TcpSock} {seg : TcpSegment} (pkb : Pkbuf)
    (h : s.sock id = some tsk) (hr : receives tsk.state = true) (hc : seqCheck seg tsk = true)
    (hrst : seg.rst = true) : tcpProcess net.env pkb seg (some id) s ≠ .error .assertion := by
  have hcheck : Avoids .assertion (checkRst net.env id) := by
    refine (avoids_getSk id).bind fun t => ?_
    have hend : Avoids .assertion (do
        modifySk net.env id (fun t => { t with state := .closed })
        tcpUnhash net.env id
        tcpUnbhash net.env id : Prog Local Unit) :=
      (avoids_modifySk id _).bind fun _ => (avoids_tcpUnhash id).bind fun _ => avoids_tcpUnbhash id
    split_ifs
    · exact (avoids_tcpUnhash id).bind fun _ => hend
    · exact hend
  have hdrop : Avoids .assertion (drop net.env id seg pkb) := by
    refine (avoids_getSk id).bind fun t => ?_
    simp only [tcpSendAck, hrst, if_true]
    split_ifs
    · exact (Avoids.pure _).bind fun _ => Avoids.pure _
    · exact Avoids.pure _
  rw [tcpProcess_of_receives seg pkb h hr, tcpArrive, bind_run (getSk_run h)]
  simp only [hc, hrst, Bool.not_true, Bool.false_eq_true, if_false, if_true]
  exact hcheck.bind (fun _ => hdrop) s

lemma checkSyn_closed {s s' : Local} {seg : TcpSegment} (hsyn : seg.syn = true)
    (h : checkSyn net.env id seg s = .ok ((), s')) :
    ∀ t', s'.sock id = some t' → t'.state = .closed := by
  intro t' ht'
  simp only [checkSyn, hsyn, if_true] at h
  obtain ⟨⟨⟩, s1, -, h⟩ := bind_inv h
  obtain ⟨t, s2, -, h⟩ := bind_inv h
  have hend : ∀ {s3 : Local}, (do
      modifySk net.env id (fun t => { t with state := .closed })
      freeSock net.env id : Prog Local Unit) s3 = .ok ((), s') → t'.state = .closed := by
    intro s3 h
    obtain ⟨⟨⟩, s4, hm, hf⟩ := bind_inv h
    obtain ⟨t3, -, -, ht3, -⟩ := getSk_bind_inv hm
    rw [modifySk_run _ ht3] at hm
    cases hm
    have hk : Respects (Keeps id (Same TcpSock.state) (fun _ => True)) (freeSock net.env id) :=
      keeps_freeSock id fun _ _ => rfl
    obtain ⟨t4, ht4, he⟩ := (hk _ _ _ hf).1 t' ht'
    rw [sock_put] at ht4
    cases ht4
    exact he
  split_ifs at h
  · obtain ⟨⟨⟩, s3, -, h⟩ := bind_inv h
    exact hend h
  · exact hend h

lemma tcpProcess_syn_ne_assertion {s : Local} {tsk : TcpSock} {seg : TcpSegment} (pkb : Pkbuf)
    (h : s.sock id = some tsk) (hr : receives tsk.state = true) (hc : seqCheck seg tsk = true)
    (hrst : seg.rst = false) (hsyn : seg.syn = true) :
    tcpProcess net.env pkb seg (some id) s ≠ .error .assertion := by
  have hcheck : Avoids .assertion (checkSyn net.env id seg) := by
    simp only [checkSyn, hsyn, if_true]
    refine (avoids_tcpSendReset seg).bind fun _ => (avoids_getSk id).bind fun t => ?_
    have hend : Avoids .assertion (do
        modifySk net.env id (fun t => { t with state := .closed })
        freeSock net.env id : Prog Local Unit) :=
      (avoids_modifySk id _).bind fun _ => avoids_freeSock id
    split_ifs
    · exact (avoids_tcpUnhash id).bind fun _ => hend
    · exact hend
  rw [tcpProcess_of_receives seg pkb h hr, tcpArrive, bind_run (getSk_run h)]
  simp only [hc, hrst, Bool.not_true, Bool.false_eq_true, if_false]
  cases hrun : checkSyn net.env id seg s with
  | error e =>
    rw [bind_run_error hrun, ← hrun]
    exact hcheck s
  | ok p =>
    obtain ⟨⟨⟩, s1⟩ := p
    rw [bind_run hrun]
    cases hs1 : s1.sock id with
    | none =>
      have hget : getSk net.env id s1 = .error .useAfterFree := by
        simp only [Local.sock] at hs1
        simp [getSk, Net.env, hs1]
      have hdrop : drop net.env id seg pkb s1 = .error .useAfterFree := bind_run_error hget
      have hack : checkAck net.env id seg s1 = .error .useAfterFree := bind_run_error hget
      split_ifs
      · simp [hdrop]
      · rw [bind_run_error hack]
        simp
    | some t =>
      have hclosed := checkSyn_closed hsyn hrun t hs1
      split_ifs
      · simp [drop_run hs1 hrst]
      · have hack : checkAck net.env id seg s1 = .ok (true, s1) := by
          rw [checkAck, bind_run (getSk_run hs1)]
          simp [hclosed]
        have htext : checkText net.env id seg pkb s1 = .ok (seg, s1) := by
          rw [checkText_run seg pkb hs1]
          simp [texted, hclosed, receives, Except.map, put_self hs1]
        obtain ⟨s2, hfin, -, hs2⟩ := ends_checkFin seg hs1
        rw [bind_run hack]
        simp only [Bool.not_true, Bool.false_eq_true, if_false]
        rw [bind_run htext, bind_run hfin, drop_run hs2 hrst]
        simp

end Avoid

section Order

variable {net : Net} {id : ℕ} {irs : UInt32} {S got : List UInt8} {s : Local} {tsk : TcpSock}
  {seg : TcpSegment}

def Gapless (tsk : TcpSock) (seg : TcpSegment) : Prop :=
  hasText seg = true → Fits (windowAt tsk seg) tsk seg

lemma arrived_inOrder (pkb : Pkbuf) (hS : irs.toNat + 1 + S.length < 2 ^ 32)
    (hr : receives tsk.state = true) (hq : InOrder tsk.rcvNxt tsk.rcvReass) (hw : BufWf tsk)
    (hseg : OfStream irs S seg) (hok : Gapless tsk seg) :
    arrived tsk seg pkb ≠ .error .assertion ∧ ∀ t seg', arrived tsk seg pkb = .ok (t, seg') →
      receives t.state = true → InOrder t.rcvNxt t.rcvReass ∧ BufWf t := by
  simp only [arrived]
  split_ifs
  · refine ⟨by simp, fun t seg' h _ => ?_⟩
    cases h
    exact ⟨hq, hw⟩
  cases hk : acked tsk seg with
  | none =>
    refine ⟨by simp, fun t seg' h _ => ?_⟩
    cases h
    exact ⟨hq, hw⟩
  | some t1 =>
    obtain ⟨hr1, hwnd, hup, hside⟩ := acked_spec hr hk
    obtain ⟨hbuf, hreass, hnxt⟩ : t1.rcvBuf = tsk.rcvBuf ∧ t1.rcvReass = tsk.rcvReass ∧ t1.rcvNxt = tsk.rcvNxt := by
      simpa [recvSide] using hside
    have hq1 : InOrder t1.rcvNxt t1.rcvReass := by rw [hnxt, hreass]; exact hq
    have hw1 : BufWf t1 := by rw [BufWf, hbuf]; exact hw
    have hdone : ∀ {t2 : TcpSock} {seg2 : TcpSegment}, InOrder t2.rcvNxt t2.rcvReass ∧ BufWf t2 →
        receives (finished t2 seg2).state = true →
        InOrder (finished t2 seg2).rcvNxt (finished t2 seg2).rcvReass ∧ BufWf (finished t2 seg2) := by
      intro t2 seg2 hi h
      have hf := receives_finished h
      simpa [finished, hf] using hi
    simp only [texted, hr1, Bool.true_and]
    split_ifs with ht
    · have hfits : Fits t1.sndWnd t1 seg := by
        have := hok ht
        rw [hwnd]
        exact ⟨by simpa [startOf, hreass, hnxt] using this.last,
          by simpa [startOf, hreass, hnxt, hup] using this.head⟩
      obtain ⟨o, ho, hle, -⟩ := hseg.carries
      obtain ⟨hne, hkeep⟩ := InOrder.tcpRecvText pkb hq1 hw1 hfits (by omega) hseg.carries.length
      cases hrun : tcpRecvText t1 seg pkb with
      | error e =>
        refine ⟨?_, by simp [Except.map]⟩
        rintro h
        obtain rfl : e = .assertion := by simpa [Except.map] using h
        exact hne hrun
      | ok r =>
        refine ⟨by simp [Except.map], fun t seg' h hrt => ?_⟩
        obtain ⟨rfl, rfl⟩ : finished r.tsk r.seg = t ∧ r.seg = seg' := by simpa [Except.map] using h
        exact hdone (hkeep r hrun) hrt
    · refine ⟨by simp [Except.map], fun t seg' h hrt => ?_⟩
      obtain ⟨rfl, rfl⟩ : finished t1 seg = t ∧ seg = seg' := by simpa [Except.map] using h
      exact hdone ⟨hq1, hw1⟩ hrt

lemma Reached.inOrder (hS : irs.toNat + 1 + S.length < 2 ^ 32)
    (h : Reached net id irs S Gapless s got) (hs : s.sock id = some tsk)
    (hr : receives tsk.state = true) : InOrder tsk.rcvNxt tsk.rcvReass ∧ BufWf tsk := by
  refine h.invariant (I := fun t _ => InOrder t.rcvNxt t.rcvReass ∧ BufWf t) ?_ ?_ ?_ ?_ ?_ hs hr
  · intro t t' _ hside hi
    obtain ⟨hbuf, hreass, hnxt⟩ : t'.rcvBuf = t.rcvBuf ∧ t'.rcvReass = t.rcvReass ∧ t'.rcvNxt = t.rcvNxt := by
      simpa [recvSide] using hside
    rw [BufWf, hbuf, hreass, hnxt]
    exact hi
  · intro t ho
    exact ⟨by rw [ho.rcvReass]; exact InOrder.nil _, ho.buf⟩
  · intro t t' seg seg' pkb _ hrt hseg hok hi harr hrt'
    exact (arrived_inOrder pkb hS hrt hi.1 hi.2 hseg hok).2 t' seg' harr hrt'
  · intro t t' len buf _ hi hrun
    obtain ⟨hw, -, hreass, hnxt⟩ := tcpReadBuf_spec hi.2 hrun
    exact ⟨by rw [hreass, hnxt]; exact hi.1, hw⟩
  · intro t _ hi
    exact ⟨InOrder.nil _, by simp [BufWf]⟩

theorem tcpProcess_ne_assertion (pkb : Pkbuf) (hS : irs.toNat + 1 + S.length < 2 ^ 32)
    (h : Reached net id irs S Gapless s got) (hs : s.sock id = some tsk)
    (hr : receives tsk.state = true) (hc : seqCheck seg tsk = true)
    (hseg : seg.rst = true ∨ seg.syn = true ∨ OfStream irs S seg ∧ Gapless tsk seg) :
    tcpProcess net.env pkb seg (some id) s ≠ .error .assertion := by
  cases hrst : seg.rst with
  | true => exact tcpProcess_rst_ne_assertion pkb hs hr hc hrst
  | false =>
    cases hsyn : seg.syn with
    | true => exact tcpProcess_syn_ne_assertion pkb hs hr hc hrst hsyn
    | false =>
      obtain ⟨hseg, hok⟩ : OfStream irs S seg ∧ Gapless tsk seg := by simpa [hrst, hsyn] using hseg
      obtain ⟨hq, hw⟩ := Reached.inOrder hS h hs hr
      have harr := (arrived_inOrder pkb hS hr hq hw hseg hok).1
      obtain ⟨e, he, hrun⟩ | ⟨t, seg', s', -, -, -, hrun⟩ := tcpProcess_run net pkb hs hr hc hrst hsyn
      · rw [hrun]
        rintro h
        cases Except.error.inj h
        exact harr he
      · simp [hrun]

end Order

theorem tcpProcess_ne_assertion_gap : ∃ s : Local, ∃ tsk : TcpSock,
    Reached offline 0 100 [1, 2, 3, 4, 5, 6] Gapless s [] ∧ s.sock 0 = some tsk ∧
      tsk.rcvReass.map TcpReassHead.seq = [103, 105] ∧
      tcpProcess offline.env (allocPkb 2 0) (textSegment 101 [1, 2]) (some 0) s ≠ .error .assertion := by
  have h0 : Reached offline 0 100 [1, 2, 3, 4, 5, 6] Gapless (oneSock freshSock) [] :=
    .start rfl rfl ⟨rfl, by simp [BufWf, freshSock, tcpAllocSock], rfl, rfl⟩
  have h1 := @Reached.segment _ _ _ _ _ _ _ _ _ (textSegment 105 [5, 6]) (allocPkb 0 0) h0 rfl rfl
    ⟨rfl, rfl, ⟨4, rfl, by decide, rfl⟩, by decide, by simp [textSegment]⟩ rfl
    (fun _ => ⟨by simp [freshSock, tcpAllocSock], by simp [freshSock, tcpAllocSock]⟩) rfl
  have h2 := @Reached.segment _ _ _ _ _ _ _ _ _ (textSegment 103 [3, 4]) (allocPkb 1 0) h1 rfl rfl
    ⟨rfl, rfl, ⟨2, rfl, by decide, rfl⟩, by decide, by simp [textSegment]⟩ rfl
    (fun _ => ⟨by decide, by decide⟩) rfl
  exact ⟨_, _, h2, rfl, rfl, tcpProcess_ne_assertion (allocPkb 2 0) (by decide) h2 rfl rfl rfl
    (.inr (.inr ⟨⟨rfl, rfl, ⟨0, rfl, by decide, rfl⟩, by decide, by simp [textSegment]⟩,
      fun _ => ⟨by decide, by decide⟩⟩))⟩

-- The second segment begins inside the first and goes behind it untrimmed; then the gap is filled.
theorem tcpProcess_assertion : ∃ s : Local, ∃ tsk : TcpSock, ∃ seg : TcpSegment,
    Reached offline 0 100 [1, 2, 3, 4, 5, 6, 7, 8, 9] (fun _ _ => True) s [] ∧
      s.sock 0 = some tsk ∧ tsk.state = .established ∧
      OfStream 100 [1, 2, 3, 4, 5, 6, 7, 8, 9] seg ∧ seqCheck seg tsk = true ∧
      tcpProcess offline.env (allocPkb 2 0) seg (some 0) s = .error .assertion := by
  have h0 : Reached offline 0 100 [1, 2, 3, 4, 5, 6, 7, 8, 9] (fun _ _ => True) (oneSock freshSock) [] :=
    .start rfl rfl ⟨rfl, by simp [BufWf, freshSock, tcpAllocSock], rfl, rfl⟩
  have h1 := @Reached.segment _ _ _ _ _ _ _ _ _ (textSegment 105 [5, 6, 7]) (allocPkb 0 0) h0 rfl rfl
    ⟨rfl, rfl, ⟨4, rfl, by decide, rfl⟩, by decide, by simp [textSegment]⟩ rfl trivial rfl
  have h2 := @Reached.segment _ _ _ _ _ _ _ _ _ (textSegment 106 [6, 7, 8, 9]) (allocPkb 1 0) h1
    rfl rfl ⟨rfl, rfl, ⟨5, rfl, by decide, rfl⟩, by decide, by simp [textSegment]⟩ rfl trivial rfl
  exact ⟨_, _, textSegment 101 [1, 2, 3, 4], h2, rfl, rfl,
    ⟨rfl, rfl, ⟨0, rfl, by decide, rfl⟩, by decide, by simp [textSegment]⟩, rfl,
    faults_iff.mp (by decide +kernel)⟩

end Tapip.Tcp.Order
