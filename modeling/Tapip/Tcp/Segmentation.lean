import Tapip.Tcp.SendWindow

/-! How `tcp_send_text` cuts a write into segments, and what an ACK between two of them does. -/

namespace Tapip.Tcp.Segmentation

open Net.Pkb Foundation.Bytes Foundation.Program Text Connection Session SendWindow

section Turn

variable {σ : Type} (env : TcpEnv σ)

/-- One turn of the loop of `tcp_send_text`, with the new `segsize` and `slen`. -/
def sendTextTurn (id : ℕ) (buf : List UInt8) (len segsize slen : ℤ) : Prog σ (ℤ × ℤ) := do
  let segsize := min segsize (len - slen)
  let pkb ← env.allocPkb (ETH_HRD_SZ + IP_TCP_HRD_SZ + segsize)
  let tsk ← getSk env id
  modifySk env id (takeCredit segsize)
  let slen' := slen + segsize
  tcpSendOut env (some id) pkb
    (textOf tsk (slice buf slen.toNat segsize.toNat) (decide (slen' ≥ len))) none
  return (segsize, slen')

lemma sendTextLoop_succ {id : ℕ} {buf : List UInt8} {len segsize slen : ℤ} (fuel : ℕ) (h : slen < len) :
    sendTextLoop env id buf len (fuel + 1) segsize slen =
      sendTextTurn env id buf len segsize slen >>= fun r => sendTextLoop env id buf len fuel r.1 r.2 := by
  rw [sendTextLoop, if_pos h]
  simp only [sendTextTurn, bind_assoc, pure_bind]

end Turn

def payload : List UInt8 := List.replicate 1461 0

def offered : Local :=
  finalState (tcpProcess online.env (allocPkb 0 0) { synAckSegment with wnd := 1461 } (some 0)) dialled

def halfway : Local := finalState (sendTextTurn online.env 0 payload 1461 1460 0) offered

def answered (wnd : UInt32) : Local :=
  finalState (tcpProcess online.env (allocPkb 0 0) (windowSegment 1561 wnd) (some 0)) halfway

def written (wnd : UInt32) : Local :=
  finalState (sendTextTurn online.env 0 payload 1461 1460 1460) (answered wnd)

variable {net : Net} {id : ℕ} {s : Local} {t : TcpSock}

section Write

structure Segmented (max : ℕ) (seq : UInt32) (text : List UInt8) (segs : List OutTcp) : Prop where
  text : segs.flatMap (·.data) = text
  seq : ∀ before o after, segs = before ++ o :: after →
    o.seq = seq + UInt32.ofNat (before.flatMap (·.data)).length
  size : ∀ o ∈ segs, 1 ≤ o.data.length ∧ o.data.length ≤ max
  psh : ∀ before o after, segs = before ++ o :: after → (o.psh = true ↔ after = [])

variable {max : ℕ} {seq : UInt32} {text : List UInt8} {segs : List OutTcp} {o : OutTcp}

lemma segmented_nil (max : ℕ) (seq : UInt32) : Segmented max seq [] [] :=
  ⟨rfl, by simp, by simp, by simp⟩

lemma Segmented.eq_nil_iff (h : Segmented max seq text segs) : segs = [] ↔ text = [] := by
  constructor
  · rintro rfl
    exact h.text.symm
  · rintro rfl
    by_contra hne
    obtain ⟨o, ho⟩ := List.exists_mem_of_ne_nil segs hne
    have hdata := List.flatMap_eq_nil_iff.mp h.text o ho
    have hsize := (h.size o ho).1
    simp [hdata] at hsize

lemma Segmented.cons (h : Segmented max (seq + UInt32.ofNat o.data.length) text segs) (hseq : o.seq = seq)
    (hsize : 1 ≤ o.data.length ∧ o.data.length ≤ max) (hpsh : o.psh = true ↔ text = []) :
    Segmented max seq (o.data ++ text) (o :: segs) := by
  refine ⟨by simp [h.text], ?_, ?_, ?_⟩
  · intro before o' after hsplit
    cases before with
    | nil =>
      obtain ⟨rfl, -⟩ := List.cons.inj hsplit
      simp [hseq]
    | cons o1 before =>
      obtain ⟨rfl, hrest⟩ := List.cons.inj hsplit
      rw [h.seq before o' after hrest]
      simp [UInt32.ofNat_add, UInt32.add_assoc]
  · intro o' ho'
    rcases List.mem_cons.mp ho' with rfl | ho'
    · exact hsize
    · exact h.size o' ho'
  · intro before o' after hsplit
    cases before with
    | nil =>
      obtain ⟨rfl, rfl⟩ := List.cons.inj hsplit
      rw [hpsh, h.eq_nil_iff]
    | cons o1 before =>
      exact h.psh before o' after (List.cons.inj hsplit).2

variable {rt : RtEntry} {buf : List UInt8}

lemma tcpSendOut_run (pkb : Pkbuf) (out : OutTcp) (h : s.sock id = some t) (hd : t.sk.skDst = some rt) :
    tcpSendOut net.env (some id) pkb out none s =
      .ok ((), emitted s (some rt) t.sk.skSaddr t.sk.skDaddr out) := by
  have hdst : dstOf net t t.sk.skDaddr = some rt := by simp [dstOf, hd]
  have hself : setDst (some rt) t = t := by rw [← hd]; rfl
  have hroute := @tcpRoute_run net s id t t.sk.skDaddr h
  rw [hdst, hself, put_self h] at hroute
  simp only [tcpSendOut]
  rw [bind_run (getSk_run h), bind_run (pure_run _)]
  dsimp only
  rw [bind_run hroute]
  rfl

lemma sendTextTurn_run (h : s.sock id = some t) (hd : t.sk.skDst = some rt) (hsize : size = min segsize (len - slen))
    (hout : o = textOf t (slice buf slen.toNat size.toNat) (decide (slen + size ≥ len))) :
    sendTextTurn net.env id buf len segsize slen s = .ok ((size, slen + size),
        emitted (s.put id (takeCredit size t)) (some rt) t.sk.skSaddr t.sk.skDaddr o) := by
  subst hout hsize
  rw [sendTextTurn, bind_run (show net.env.allocPkb _ s = .ok (_, s) from rfl),
    bind_run (getSk_run h), bind_run (modifySk_run _ h)]
  have hd' : (takeCredit (min segsize (len - slen)) t).sk.skDst = some rt := hd
  rw [bind_run (tcpSendOut_run _ _ sock_put hd')]
  rfl

lemma ofInt_natCast (n : ℕ) : UInt32.ofInt n = UInt32.ofNat n := by
  apply UInt32.toNat_inj.mp
  simp only [UInt32.ofInt, UInt32.toNat_ofNat']
  omega

lemma takeCredit_zero (t : TcpSock) : takeCredit 0 t = t := by
  simp [takeCredit, UInt32.ofInt]

lemma takeCredit_takeCredit (a b : ℤ) (t : TcpSock) : takeCredit b (takeCredit a t) = takeCredit (a + b) t := by
  have hwnd : t.sndWnd - UInt32.ofInt a - UInt32.ofInt b = t.sndWnd - UInt32.ofInt (a + b) := by
    rw [UInt32.ofInt_add]
    grind
  simp only [takeCredit, hwnd, UInt32.ofInt_add, UInt32.add_assoc]

def Writes (id : ℕ) (max : ℕ) (t : TcpSock) (text : List UInt8) (n : ℤ) (s s' : Local) : Prop :=
  ∃ segs, Segmented max t.sndNxt text segs ∧
    s'.sent = s.sent ++ segs.map (⟨t.sk.skSaddr, t.sk.skDaddr, ·⟩) ∧ s'.sock id = some (takeCredit n t)

lemma writes_nil (h : s.sock id = some t) :
    Writes id max t (slice buf slen.toNat (slen - slen).toNat) (slen - slen) s s := by
  refine ⟨[], ?_, by simp, by rw [sub_self, takeCredit_zero, h]⟩
  simpa [slice] using segmented_nil max t.sndNxt

lemma Writes.cons (hw : Writes id max (takeCredit size t) text n
      (emitted (s.put id (takeCredit size t)) (some rt) t.sk.skSaddr t.sk.skDaddr o) s')
    (hseq : o.seq = t.sndNxt) (hdata : size = o.data.length)
    (hsize : 1 ≤ o.data.length ∧ o.data.length ≤ max) (hpsh : o.psh = true ↔ text = []) :
    Writes id max t (o.data ++ text) (size + n) s s' := by
  obtain ⟨segs, hsegs, hsent, hsock⟩ := hw
  refine ⟨o :: segs, ?_, ?_, by rw [hsock, takeCredit_takeCredit]⟩
  · apply Segmented.cons _ hseq hsize hpsh
    have hnxt : (takeCredit size t).sndNxt = t.sndNxt + UInt32.ofNat o.data.length := by
      simp [takeCredit, hdata, ofInt_natCast]
    rwa [hnxt] at hsegs
  · simpa [emitted, takeCredit] using hsent

lemma slice_turn {len slen size : ℤ} (hslen : 0 ≤ slen) (hpos : 0 ≤ size) (hle : slen + size ≤ len) :
    slice buf slen.toNat size.toNat ++ slice buf (slen + size).toNat (len - (slen + size)).toNat =
      slice buf slen.toNat (len - slen).toNat := by
  rw [show (slen + size).toNat = slen.toNat + size.toNat by omega, slice_append]
  congr 1
  omega

lemma slice_eq_nil_iff {len slen : ℤ} (hslen : 0 ≤ slen) (hle : slen ≤ len) (hlen : len ≤ buf.length) :
    slice buf slen.toNat (len - slen).toNat = [] ↔ slen = len := by
  rw [← List.length_eq_zero_iff, slice_length]
  omega

lemma sendTextLoop_writes {len segsize slen : ℤ} {fuel : ℕ} (h : s.sock id = some t)
    (hd : t.sk.skDst = some rt) (hpos : 0 < segsize) (hmax : segsize ≤ max) (hslen : 0 ≤ slen)
    (hle : slen ≤ len) (hlen : len ≤ buf.length) (hfuel : len - slen ≤ fuel) :
    ∃ s', sendTextLoop net.env id buf len fuel segsize slen s = .ok (len, s') ∧
      Writes id max t (slice buf slen.toNat (len - slen).toNat) (len - slen) s s' := by
  induction fuel generalizing segsize slen s t with
  | zero =>
    obtain rfl : slen = len := by omega
    exact ⟨s, by rw [sendTextLoop_done _ (by omega)]; rfl, writes_nil h⟩
  | succ fuel ih =>
    by_cases hlt : slen < len
    · obtain ⟨size, hsize⟩ : ∃ size, size = min segsize (len - slen) := ⟨_, rfl⟩
      obtain ⟨out, hout⟩ : ∃ out, out = textOf t (slice buf slen.toNat size.toNat)
          (decide (slen + size ≥ len)) := ⟨_, rfl⟩
      have hdata : out.data.length = size.toNat := by
        rw [hout, textOf, slice_length]
        omega
      have ht : (emitted (s.put id (takeCredit size t)) (some rt) t.sk.skSaddr t.sk.skDaddr out).sock id =
          some (takeCredit size t) := by simp
      have hrest : slen + size ≤ len := by omega
      obtain ⟨s', hloop, hw⟩ :=
        @ih _ _ size (slen + size) ht hd (by omega) (by omega) (by omega) hrest (by omega)
      rw [sendTextLoop_succ _ fuel hlt, bind_run (sendTextTurn_run h hd hsize hout)]
      refine ⟨s', hloop, ?_⟩
      have hpsh : out.psh = true ↔ slice buf (slen + size).toNat (len - (slen + size)).toNat = [] := by
        rw [slice_eq_nil_iff (by omega) hrest hlen, hout, textOf, decide_eq_true_iff]
        omega
      have hw' := hw.cons (by rw [hout]; rfl) (by omega) (by omega) hpsh
      rwa [hout, textOf, slice_turn hslen (by omega) hrest,
        show size + (len - (slen + size)) = len - slen by ring] at hw'
    · obtain rfl : slen = len := by omega
      exact ⟨s, by rw [sendTextLoop_done _ hlt]; rfl, writes_nil h⟩

/-- `tcp_send_text` returns the number of octets the window allows, and has sent just these. -/
def Cuts (net : Net) (id : ℕ) (buf : List UInt8) (rt : RtEntry) (t : TcpSock) (s : Local) : Prop :=
  ∃ n segs s', n = min buf.length t.sndWnd.toNat ∧
    tcpSendText net.env id buf buf.length s = .ok ((n : ℤ), s') ∧
    s'.sent = s.sent ++ segs.map (⟨t.sk.skSaddr, t.sk.skDaddr, ·⟩) ∧
    Segmented (net.mtu rt - 40).toNat t.sndNxt (buf.take n) segs ∧
    s'.sock id = some { t with
      sndNxt := t.sndNxt + UInt32.ofNat n
      sndWnd := t.sndWnd - UInt32.ofNat n }

lemma tcpSendText_run (len : ℤ) (h : s.sock id = some t) (hd : t.sk.skDst = some rt) :
    tcpSendText net.env id buf len s =
      (sendTextLoop net.env id buf (min len (toInt t.sndWnd)) (min len (toInt t.sndWnd)).toNat
        (net.mtu rt - 40) 0 >>= fun slen => if slen = 0 then do
          tcpSendAck net.env id none
          return -1
        else return slen) s := by
  rw [tcpSendText, bind_run (getSk_run h)]
  simp only [hd]
  rw [bind_run (show net.env.netMtu rt s = .ok (net.mtu rt, s) from rfl)]
  rfl

lemma tcpSendText_negative {len : ℤ} (h : s.sock id = some t) (hd : t.sk.skDst = some rt)
    (hwnd : ¬ t.sndWnd.toNat < 2 ^ 31) : tcpSendText net.env id buf len s = .error .nullPointer := by
  have hlt := t.sndWnd.toNat_lt
  have hneg : toInt t.sndWnd < 0 := by
    rw [toInt, if_neg hwnd]
    omega
  rw [tcpSendText_run len h hd, sendTextLoop_done _ (by omega), bind_run (pure_run _)]
  rfl

lemma cuts_of_lt (h : s.sock id = some t) (hd : t.sk.skDst = some rt) (hmtu : 40 < net.mtu rt)
    (hwnd : 0 < t.sndWnd.toNat) (hbuf : 0 < buf.length) (hlt : t.sndWnd.toNat < 2 ^ 31) :
    Cuts net id buf rt t s := by
  obtain ⟨n, hn⟩ : ∃ n, n = min buf.length t.sndWnd.toNat := ⟨_, rfl⟩
  have hlen : min (buf.length : ℤ) (toInt t.sndWnd) = n := by
    rw [toInt, if_pos hlt]
    omega
  have hmax : net.mtu rt - 40 ≤ ((net.mtu rt - 40).toNat : ℤ) := by omega
  obtain ⟨s', hloop, segs, hsegs, hsent, hsock⟩ := @sendTextLoop_writes net _ _ _ _ _ buf n _ 0 n h hd
    (by omega) hmax le_rfl (by omega) (by omega) (by omega)
  refine ⟨n, segs, s', hn, ?_, hsent, ?_, ?_⟩
  · rw [tcpSendText_run _ h hd, hlen, Int.toNat_natCast, bind_run hloop, if_neg (by omega)]
    rfl
  · simpa [slice] using hsegs
  · simpa [takeCredit, ofInt_natCast] using hsock

theorem cuts_iff (h : s.sock id = some t) (hd : t.sk.skDst = some rt) (hmtu : 40 < net.mtu rt)
    (hwnd : 0 < t.sndWnd.toNat) (hbuf : 0 < buf.length) :
    Cuts net id buf rt t s ↔ t.sndWnd.toNat < 2 ^ 31 := by
  refine ⟨?_, cuts_of_lt h hd hmtu hwnd hbuf⟩
  rintro ⟨n, segs, s', -, hrun, -⟩
  by_contra hge
  rw [tcpSendText_negative h hd hge] at hrun
  cases hrun

theorem cuts_offered : Cuts online 0 payload ⟨0, 0, 0, 0, 0, 1⟩ ((offered.sock 0).getD boundSock) offered :=
  (cuts_iff (sock_of_isSome (by decide +kernel)) (by decide +kernel) (by decide) (by decide +kernel)
    (by decide +kernel)).mpr (by decide +kernel)

/-- After that ACK and that segment, a write of one octet ends in the null segment of the probe. -/
theorem cuts_not_written : ∃ t, (written 0).sock 0 = some t ∧ t.sk.skDst = some ⟨0, 0, 0, 0, 0, 1⟩ ∧
    0 < t.sndWnd.toNat ∧ tcpSendText online.env 0 [7] 1 (written 0) = .error .nullPointer ∧
    ¬ Cuts online 0 [7] ⟨0, 0, 0, 0, 0, 1⟩ t (written 0) := by
  have ht := @sock_of_isSome (written 0) (by decide +kernel)
  have hd : ((written 0).sock 0 |>.getD boundSock).sk.skDst = some ⟨0, 0, 0, 0, 0, 1⟩ := by decide +kernel
  have hfault : ∀ len, tcpSendText online.env 0 [7] len (written 0) = .error .nullPointer :=
    fun _ => tcpSendText_negative ht hd (by decide +kernel)
  refine ⟨_, ht, hd, by decide +kernel, hfault 1, ?_⟩
  rintro ⟨n, segs, s', -, hrun, -⟩
  rw [hfault] at hrun
  cases hrun

end Write

section Interleaved

inductive Phase
  | idle
  | sending (buf : List UInt8) (len segsize slen : ℤ)

/-- Writes on the sock, turn by turn, with segments in between; a write begins on a device whose MTU
meets `okMtu`, and every segment meets `okSeg`. What loopback delivers inside `tcp_send_out` comes
after the subtraction of that turn, so it stands between two turns as well. -/
inductive Run (net : Net) (id : ℕ) (okMtu : ℤ → Prop)
    (okSeg : Phase → Local → TcpSock → TcpSegment → Prop) : Local → Phase → Prop
  | start {s : Local} {t : TcpSock} : s.sock id = some t → t.state ≠ .listen → t.sndWnd.toNat < 65536 →
      Run net id okMtu okSeg s .idle
  | begin {s : Local} {t : TcpSock} {rt : RtEntry} (buf : List UInt8) (len : ℤ) :
      Run net id okMtu okSeg s .idle → s.sock id = some t → t.sk.skDst = some rt → okMtu (net.mtu rt) →
      Run net id okMtu okSeg s (.sending buf (min len (toInt t.sndWnd)) (net.mtu rt - IP_TCP_HRD_SZ) 0)
  | turn {s s' : Local} {buf : List UInt8} {len segsize slen segsize' slen' : ℤ} :
      Run net id okMtu okSeg s (.sending buf len segsize slen) → slen < len →
      sendTextTurn net.env id buf len segsize slen s = .ok ((segsize', slen'), s') →
      Run net id okMtu okSeg s' (.sending buf len segsize' slen')
  | finish {s : Local} {buf : List UInt8} {len segsize slen : ℤ} :
      Run net id okMtu okSeg s (.sending buf len segsize slen) → ¬ slen < len →
      Run net id okMtu okSeg s .idle
  | segment {s s' : Local} {ph : Phase} {t : TcpSock} {seg : TcpSegment} {pkb : Pkbuf} :
      Run net id okMtu okSeg s ph → s.sock id = some t → seg.wnd.toNat < 65536 → okSeg ph s t seg →
      tcpProcess net.env pkb seg (some id) s = .ok ((), s') → Run net id okMtu okSeg s' ph
  | elsewhere {s s' : Local} {ph : Phase} : Run net id okMtu okSeg s ph → s'.sock id = s.sock id →
      Run net id okMtu okSeg s' ph

def Phase.left : Phase → ℤ
  | .idle => 0
  | .sending _ len _ slen => len - slen

/-- A window taken during a write covers what the write still has to send. -/
def Leaves (net : Net) (id : ℕ) (ph : Phase) (s : Local) (t : TcpSock) (seg : TcpSegment) : Prop :=
  takesWindow net s id t seg = true → ph.left ≤ seg.wnd.toNat

structure Covers (ph : Phase) (t : TcpSock) : Prop where
  state : t.state ≠ .listen
  wnd : t.sndWnd.toNat < 65536
  left : ph.left ≤ t.sndWnd.toNat
  segsize : ∀ buf len segsize slen, ph = .sending buf len segsize slen → 0 < segsize

variable {s' : Local} {ph : Phase}

lemma sendTextTurn_inv (hsize : size = min segsize (len - slen))
    (hrun : sendTextTurn net.env id buf len segsize slen s = .ok (r, s')) :
    r = (size, slen + size) ∧ ∃ t, s.sock id = some t ∧
      ∀ t', s'.sock id = some t' → Same sendSide (takeCredit size t) t' := by
  subst hsize
  obtain ⟨pkb, s1, halloc, hrest⟩ := bind_inv hrun
  cases halloc
  obtain ⟨t, s2, rfl, ht, hrest'⟩ := getSk_bind_inv hrest
  rw [bind_run (modifySk_run _ ht)] at hrest'
  obtain ⟨⟨⟩, s3, hsend, hend⟩ := bind_inv hrest'
  obtain ⟨rfl, rfl⟩ := ok_inj hend
  refine ⟨rfl, t, ht, fun t' ht' => ?_⟩
  have hout : Keeps id (Same sendSide) (fun _ => True) (s2.put id (takeCredit (min segsize (len - slen)) t)) s3 :=
    keeps_tcpSendOut (fun _ _ => rfl) _ _ _ (fun _ _ _ => trivial) _ _ _ hsend
  obtain ⟨t1, ht1, hside⟩ := hout.1 t' ht'
  rw [sock_put] at ht1
  cases ht1
  exact hside

lemma Covers.turn {buf : List UInt8} {len segsize slen : ℤ} {r : ℤ × ℤ}
    (hc : ∀ t, s.sock id = some t → Covers (.sending buf len segsize slen) t) (hlt : slen < len)
    (hrun : sendTextTurn net.env id buf len segsize slen s = .ok (r, s')) (ht : s'.sock id = some t) :
    Covers (.sending buf len r.1 r.2) t := by
  obtain ⟨rfl, t0, ht0, hside⟩ := sendTextTurn_inv rfl hrun
  obtain ⟨hstate, hwnd, hleft, hseg⟩ := hc t0 ht0
  have hpos := hseg _ _ _ _ rfl
  set size := min segsize (len - slen) with hsize
  simp only [Phase.left] at hleft
  have hcredit := @takeCredit_sndWnd t0 size (by omega) (by omega)
  obtain ⟨-, hwnd', hstate'⟩ : t.sndNxt = (takeCredit size t0).sndNxt ∧
      t.sndWnd = (takeCredit size t0).sndWnd ∧ t.state = (takeCredit size t0).state := by
    simpa [Same, sendSide] using hside t ht
  rw [← hwnd'] at hcredit
  refine ⟨by rw [hstate']; exact hstate, by omega, ?_, ?_⟩
  · simp only [Phase.left]
    omega
  · rintro _ _ _ _ ⟨⟩
    omega

lemma Covers.segment {seg : TcpSegment} {pkb : Pkbuf} {t' : TcpSock} (hc : Covers ph t)
    (ht : s.sock id = some t) (hseg : seg.wnd.toNat < 65536) (hok : Leaves net id ph s t seg)
    (hrun : tcpProcess net.env pkb seg (some id) s = .ok ((), s')) (ht' : s'.sock id = some t') :
    Covers ph t' := by
  obtain ⟨t0, ht0, hw⟩ := (tcpProcess_moves ht hc.state hrun).1 t' ht'
  have hstate : t'.state ≠ .listen := fun hl => hc.state (hw.listen hl)
  by_cases htake : takesWindow net s id t seg = true
  · have hwnd := hw.wnd
    rw [if_pos htake] at hwnd
    exact ⟨hstate, hwnd ▸ hseg, hwnd ▸ hok htake, hc.segsize⟩
  · have hwnd := hw.wnd
    rw [if_neg htake] at hwnd
    exact ⟨hstate, hwnd ▸ hc.wnd, hwnd ▸ hc.left, hc.segsize⟩

lemma Run.covers (h : Run net id (40 < ·) (Leaves net id) s ph) (ht : s.sock id = some t) : Covers ph t := by
  induction h generalizing t with
  | start hs hstate hwnd =>
    cases Option.mem_unique hs ht
    exact ⟨hstate, hwnd, by simp [Phase.left], by simp⟩
  | @begin s t0 rt buf len _ hs hd hmtu ih =>
    cases Option.mem_unique hs ht
    have hint := toInt_le t0.sndWnd
    refine ⟨(ih ht).state, (ih ht).wnd, ?_, ?_⟩
    · simp only [Phase.left]
      omega
    · rintro _ _ _ _ ⟨⟩
      simp only [IP_TCP_HRD_SZ]
      omega
  | turn _ hlt hrun ih => exact Covers.turn (fun _ => ih) hlt hrun ht
  | finish _ _ ih => exact ⟨(ih ht).state, (ih ht).wnd, by simp [Phase.left], by simp⟩
  | segment _ hs hwnd hok hrun ih => exact (ih hs).segment hs hwnd hok hrun ht
  | elsewhere _ hsame ih => exact ih (hsame ▸ ht)

theorem window_covers (h : Run net id (40 < ·) (Leaves net id) s ph) (ht : s.sock id = some t) :
    t.sndWnd.toNat < 65536 ∧ ∀ buf len segsize slen, ph = .sending buf len segsize slen → slen < len →
      0 < min segsize (len - slen) ∧ min segsize (len - slen) ≤ t.sndWnd.toNat := by
  have hc := h.covers ht
  refine ⟨hc.wnd, ?_⟩
  rintro buf len segsize slen rfl hlt
  have hpos := hc.segsize _ _ _ _ rfl
  have hleft := hc.left
  simp only [Phase.left] at hleft
  omega

lemma run_written (h0 : okSeg .idle dialled ((dialled.sock 0).getD boundSock) { synAckSegment with wnd := 1461 })
    (h1 : okSeg (.sending payload 1461 1460 1460) halfway ((halfway.sock 0).getD boundSock)
      (windowSegment 1561 wnd))
    (hwnd : wnd.toNat < 65536)
    (hack : outcome (tcpProcess online.env (allocPkb 0 0) (windowSegment 1561 wnd) (some 0)) halfway =
      some ())
    (hlast : outcome (sendTextTurn online.env 0 payload 1461 1460 1460) (answered wnd) = some (1, 1461)) :
    Run online 0 (40 < ·) okSeg (written wnd) (.sending payload 1461 1 1461) := by
  have hstart : Run online 0 (40 < ·) okSeg dialled .idle :=
    .start (sock_of_isSome (by decide +kernel)) (by decide +kernel) (by decide +kernel)
  have hoffer : Run online 0 (40 < ·) okSeg offered .idle :=
    hstart.segment (sock_of_isSome (by decide +kernel)) (by decide +kernel) h0 (run_of_outcome (by decide +kernel))
  have hbegin : Run online 0 (40 < ·) okSeg offered (.sending payload 1461 1460 0) :=
    @Run.begin _ _ _ _ _ _ ⟨0, 0, 0, 0, 0, 1⟩ payload 1461 hoffer (sock_of_isSome (by decide +kernel))
      (by decide +kernel) (by decide)
  have hturn : Run online 0 (40 < ·) okSeg halfway (.sending payload 1461 1460 1460) :=
    hbegin.turn (by decide) (run_of_outcome (by decide +kernel))
  have hanswer : Run online 0 (40 < ·) okSeg (answered wnd) (.sending payload 1461 1460 1460) :=
    hturn.segment (sock_of_isSome (by decide +kernel)) hwnd h1 (run_of_outcome hack)
  exact hanswer.turn (by decide) (run_of_outcome hlast)

theorem window_covers_last : ∃ s ph t, Run online 0 (40 < ·) (Leaves online 0) s ph ∧ s.sock 0 = some t ∧
    t.sndWnd.toNat < 65536 := by
  have hrun : Run online 0 (40 < ·) (Leaves online 0) (written 1) (.sending payload 1461 1 1461) :=
    run_written (by intro _; decide +kernel) (by intro _; decide +kernel) (by decide) (by decide +kernel)
      (by decide +kernel)
  have ht := @sock_of_isSome (written 1) (by decide +kernel)
  exact ⟨_, _, _, hrun, ht, (window_covers hrun ht).1⟩

/-- The ACK of the first segment closes the window, and the second segment takes one octet from it. -/
theorem window_wraps : ∃ s ph t, Run online 0 (40 < ·) (fun _ _ _ _ => True) s ph ∧ s.sock 0 = some t ∧
    t.sndWnd.toNat = 2 ^ 32 - 1 :=
  ⟨_, _, _, @run_written _ 0 trivial trivial (by decide) (by decide +kernel) (by decide +kernel),
    sock_of_isSome (by decide +kernel), by decide +kernel⟩

end Interleaved

end Tapip.Tcp.Segmentation
