import Tapip.Tcp.Arrival
import Tapip.Tcp.Order

/-! The window the peer has opened and the text the stack sends into it. -/

namespace Tapip.Tcp.SendWindow

open Net.Pkb Foundation.Bytes Foundation.Program Text Connection Session Arrival

variable {t t' : TcpSock} {size len segsize slen m : ℤ} {s' : Local} {f : TcpSock → TcpSock} {b : Bool}
  {pkb : Pkbuf}

def acceptable (tsk : TcpSock) (seg : TcpSegment) : Bool :=
  seqCheck seg tsk && !seg.rst && !seg.syn && seg.ackBit

def takesWindow (net : Net) (s : Local) (id : ℕ) (tsk : TcpSock) (seg : TcpSegment) : Bool :=
  match tsk.state with
  | .synSent =>
    !(seg.ackBit && (decide (seg.ack ≤ tsk.iss) || decide (seg.ack > tsk.sndNxt))) && !seg.rst &&
      seg.syn && decide ((synsentSyn seg tsk).sndUna > tsk.iss)
  | .synRecv =>
    acceptable tsk seg && decide (tsk.sndUna ≤ seg.ack) && decide (seg.ack ≤ tsk.sndNxt) &&
      (outcome (tcpSynrecvAck net.env id) s == some true)
  | .established | .closeWait | .finWait1 => acceptable tsk seg && windowNewer tsk seg
  | .closing | .lastAck => acceptable tsk seg && !acksNew tsk seg && windowNewer tsk seg
  | _ => false

def edge (seg : TcpSegment) : ℕ := seg.ack.toNat + seg.wnd.toNat

def top (edges : List ℕ) : ℕ := edges.foldr max 0

/-- One connection from its handshake on: segments and calls of `tcp_send_text`. The list has the
right edge of every window the stack has taken; where it takes one, `ok` holds. -/
inductive Run (net : Net) (id : ℕ) (ok : List ℕ → TcpSock → TcpSegment → Prop) :
    Local → List ℕ → Prop
  | start {s : Local} {tsk : TcpSock} : s.sock id = some tsk →
      tsk.state = .synSent ∨ tsk.state = .synRecv → tsk.sndWnd = 0 →
      (∀ e ∈ s.sent, e.out.data = []) → Run net id ok s []
  | update {s s' : Local} {edges : List ℕ} {tsk : TcpSock} {seg : TcpSegment} {pkb : Pkbuf} :
      Run net id ok s edges → s.sock id = some tsk → takesWindow net s id tsk seg = true →
      ok edges tsk seg → edge seg < 2 ^ 32 →
      tcpProcess net.env pkb seg (some id) s = .ok ((), s') → Run net id ok s' (edge seg :: edges)
  | segment {s s' : Local} {edges : List ℕ} {tsk : TcpSock} {seg : TcpSegment} {pkb : Pkbuf} :
      Run net id ok s edges → s.sock id = some tsk → takesWindow net s id tsk seg = false →
      tcpProcess net.env pkb seg (some id) s = .ok ((), s') → Run net id ok s' edges
  | send {s s' : Local} {edges : List ℕ} {buf : List UInt8} {len n : ℤ} :
      Run net id ok s edges → tcpSendText net.env id buf len s = .ok (n, s') →
      Run net id ok s' edges

def Covered (edges : List ℕ) (tsk : TcpSock) (seg : TcpSegment) : Prop :=
  tsk.sndNxt.toNat + seg.wnd.toNat ≤ max (edge seg) (top edges)

instance (edges : List ℕ) (tsk : TcpSock) (seg : TcpSegment) : Decidable (Covered edges tsk seg) :=
  inferInstanceAs (Decidable (_ ≤ _))

variable {net : Net} {id : ℕ}

section Send

structure Conserves (t t' : TcpSock) : Prop where
  credit : t'.sndNxt.toNat + t'.sndWnd.toNat = t.sndNxt.toNat + t.sndWnd.toNat
  state : t'.state = t.state

instance : IsPreorder TcpSock Conserves where
  refl _ := ⟨rfl, rfl⟩
  trans _ _ _ h h' := ⟨h'.credit.trans h.credit, h'.state.trans h.state⟩

def sendSide (t : TcpSock) : UInt32 × UInt32 × TcpState := (t.sndNxt, t.sndWnd, t.state)

lemma Conserves.of_same (h : Same sendSide t t') : Conserves t t' := by
  obtain ⟨hnxt, hwnd, hstate⟩ : t'.sndNxt = t.sndNxt ∧ t'.sndWnd = t.sndWnd ∧ t'.state = t.state := by
    simpa [Same, sendSide] using h
  exact ⟨by rw [hnxt, hwnd], hstate⟩

def Below (n : ℕ) (e : Sent) : Prop := e.out.seq.toNat + e.out.data.length ≤ n

variable {buf : List UInt8} {n : ℕ}

lemma toNat_ofInt_size (hpos : 0 ≤ size) (hlt : size < 2 ^ 32) : (UInt32.ofInt size).toNat = size.toNat := by
  simp only [UInt32.ofInt, UInt32.toNat_ofNat']
  omega

lemma takeCredit_sndWnd (hpos : 0 ≤ size) (hle : size ≤ t.sndWnd.toNat) :
    ((takeCredit size t).sndWnd.toNat : ℤ) = t.sndWnd.toNat - size := by
  have hlt := t.sndWnd.toNat_lt
  have hsize := toNat_ofInt_size hpos (by omega)
  have hle' : UInt32.ofInt size ≤ t.sndWnd := by
    rw [UInt32.le_iff_toNat_le, hsize]
    omega
  simp only [takeCredit, UInt32.toNat_sub_of_le _ _ hle', hsize]
  omega

lemma takeCredit_conserves (hpos : 0 ≤ size) (hle : size ≤ t.sndWnd.toNat)
    (hn : t.sndNxt.toNat + t.sndWnd.toNat < 2 ^ 32) :
    Conserves t (takeCredit size t) ∧ ((takeCredit size t).sndWnd.toNat : ℤ) = t.sndWnd.toNat - size := by
  have hnxt : (takeCredit size t).sndNxt.toNat = t.sndNxt.toNat + size.toNat := by
    simp only [takeCredit, UInt32.toNat_add, toNat_ofInt_size hpos (by omega)]
    omega
  have hwnd := takeCredit_sndWnd hpos hle
  exact ⟨⟨by omega, rfl⟩, hwnd⟩

lemma sendTextLoop_done (fuel : ℕ) (h : ¬ slen < len) :
    sendTextLoop net.env id buf len fuel segsize slen = pure slen := by
  cases fuel <;> rw [sendTextLoop, if_neg h]

lemma turns_keeps {s : Local} (hn : n < 2 ^ 32) (hrun : Turns net id buf len m s' segsize slen s)
    (hcredit : ∀ t, s.sock id = some t → len - slen ≤ t.sndWnd.toNat ∧ t.sndNxt.toNat + t.sndWnd.toNat ≤ n) :
    Keeps id Conserves (Below n) s s' := by
  induction hrun with
  | done => exact Keeps.refl s'
  | @turn segsize slen size s s1 t pkb hlt hsize ht hsend hrest ih =>
    have hpos := (Turns.turn hlt hsize ht hsend hrest).segsize_pos hlt
    obtain ⟨hle, hbound⟩ := hcredit t ht
    obtain ⟨hcons, hleft⟩ := @takeCredit_conserves t size (by omega) (by omega) (by omega)
    have hout : Keeps id (Same sendSide) (Below n) (s.put id (takeCredit size t)) s1 := by
      refine keeps_tcpSendOut (fun _ _ => rfl) _ _ _ (fun _ _ _ => ?_) _ _ _ hsend
      have hdata : (slice buf slen.toNat size.toNat).length ≤ size.toNat := by simp
      simp only [Below, textOf, finOf]
      omega
    refine ((keeps_put ht hcons).trans (hout.imp Conserves.of_same fun h => h)).trans (ih fun t' ht' => ?_)
    obtain ⟨hnxt, hwnd, -⟩ : t'.sndNxt = (takeCredit size t).sndNxt ∧
        t'.sndWnd = (takeCredit size t).sndWnd ∧ t'.state = (takeCredit size t).state := by
      simpa [Same, sendSide] using hout.rel sock_put ht'
    have hsum := hcons.credit
    rw [hnxt, hwnd]
    omega

lemma tcpSendText_keeps {s : Local} (hn : n < 2 ^ 32)
    (hcredit : ∀ t, s.sock id = some t → t.sndWnd = 0 ∨ t.sndNxt.toNat + t.sndWnd.toNat ≤ n)
    (hrun : tcpSendText net.env id buf len s = .ok (m, s')) :
    Keeps id Conserves (Below n) s s' ∧ ∀ t, s.sock id = some t → t.sndNxt.toNat + t.sndWnd.toNat ≤ n := by
  obtain ⟨t, segsize, ht, hm, hturns⟩ := tcpSendText_inv hrun
  have hlen : 0 < min len (toInt t.sndWnd) := by
    cases hturns with
    | done => exact absurd rfl hm
    | turn hlt => exact hlt
  have hint := toInt_le t.sndWnd
  have hbound : t.sndNxt.toNat + t.sndWnd.toNat ≤ n := by
    rcases hcredit t ht with hz | hb
    · rw [hz] at hint hlen
      simp only [UInt32.toNat_zero] at hint
      omega
    · exact hb
  refine ⟨turns_keeps hn hturns fun t' ht' => ?_, fun t' ht' => ?_⟩
  · cases Option.mem_unique ht ht'
    omega
  · cases Option.mem_unique ht ht'
    exact hbound

end Send

variable {s : Local}

section Arrival

structure SameWindow (t t' : TcpSock) : Prop where
  nxt : t'.sndNxt = t.sndNxt
  wnd : t'.sndWnd = t.sndWnd
  listen : t'.state = .listen → t.state = .listen

instance : IsPreorder TcpSock SameWindow where
  refl _ := ⟨rfl, rfl, fun h => h⟩
  trans _ _ _ h h' := ⟨h'.nxt.trans h.nxt, h'.wnd.trans h.wnd, fun hl => h.listen (h'.listen hl)⟩

def NoText (e : Sent) : Prop := e.out.data = []

def Quiet {α : Type} (id : ℕ) (x : Prog Local α) : Prop := Respects (Keeps id SameWindow NoText) x

variable {α β : Type}

lemma quiet_pure {a : α} : Quiet id (pure a : Prog Local α) := keeps_pure a

lemma Quiet.bind {x : Prog Local α} {f : α → Prog Local β} (hx : Quiet id x) (hf : ∀ a, Quiet id (f a)) :
    Quiet id (x >>= f) := Keeps.bind hx hf

lemma quiet_getSk (j : ℕ) : Quiet id (getSk net.env j) := keeps_getSk j

lemma quiet_modifySk (j : ℕ) (hf : ∀ t, SameWindow t (f t)) : Quiet id (modifySk net.env j f) := keeps_modifySk hf

lemma SameWindow.of_touches (h : Touches t t') : SameWindow t t' :=
  ⟨h.nxt, h.wnd, h.listen⟩

lemma Quiet.of_touches {x : Prog Local α} (h : Respects (Keeps id Touches NoText) x) : Quiet id x :=
  fun s a s' hrun => (h s a s' hrun).imp SameWindow.of_touches fun he => he

lemma Quiet.of_answers {seg : TcpSegment} {x : Prog Local α}
    (h : Respects (Keeps id Touches (Answers seg)) x) : Quiet id x :=
  fun s a s' hrun => (h s a s' hrun).imp SameWindow.of_touches Answers.data

lemma quiet_tcpUnhash (j : ℕ) : Quiet id (tcpUnhash net.env j) :=
  .of_touches (touches_tcpUnhash j)

lemma quiet_tcpUnbhash (j : ℕ) : Quiet id (tcpUnbhash net.env j) :=
  .of_touches (touches_tcpUnbhash j)

lemma quiet_close (j : ℕ) : Quiet id (modifySk net.env j (fun t => { t with state := .closed })) :=
  .of_touches (touches_close j)

lemma quiet_checkRst (j : ℕ) : Quiet id (checkRst net.env j) :=
  .of_touches (touches_checkRst j)

lemma quiet_tcpSendReset (seg : TcpSegment) : Quiet id (tcpSendReset net.env seg) :=
  .of_answers (touches_tcpSendReset seg)

lemma quiet_tcpSendAck (j : ℕ) (seg : TcpSegment) : Quiet id (tcpSendAck net.env j (some seg)) :=
  .of_answers (keeps_tcpSendAck blind_touches.dst j seg)

lemma quiet_checkSyn (j : ℕ) (seg : TcpSegment) : Quiet id (checkSyn net.env j seg) :=
  .of_answers (touches_checkSyn j seg)

lemma quiet_tcpSetTimewaitTimer (j : ℕ) : Quiet id (tcpSetTimewaitTimer net.env j) :=
  .of_touches (touches_tcpSetTimewaitTimer j)

lemma quiet_tcpSynrecvAck (j : ℕ) : Quiet id (tcpSynrecvAck net.env j) :=
  .of_touches (keeps_tcpSynrecvAck blind_touches j)

lemma quiet_drop (j : ℕ) (seg : TcpSegment) (pkb : Pkbuf) : Quiet id (drop net.env j seg pkb) :=
  .of_answers (keeps_drop blind_touches j seg pkb)

lemma quiet_checkFin (j : ℕ) (seg : TcpSegment) : Quiet id (checkFin net.env j seg) := by
  rw [checkFin]
  split_ifs
  · have hend : Quiet id (modifySk net.env j (fun t => { t with rcvNxt := seg.seq + 1, ackNow := true })) :=
      quiet_modifySk j fun _ => ⟨rfl, rfl, fun h => h⟩
    refine (quiet_getSk j).bind fun t => ?_
    cases t.state <;> simp only
    case finWait2 => exact (quiet_tcpSetTimewaitTimer j).bind fun _ => hend
    case synRecv | established | finWait1 =>
      exact Quiet.bind (quiet_modifySk j fun _ => ⟨rfl, rfl, by simp⟩) fun _ => hend
    case timeWait =>
      exact Quiet.bind (quiet_modifySk j fun _ => ⟨rfl, rfl, fun h => h⟩) fun _ => hend
    all_goals exact hend
  · exact quiet_pure

lemma quiet_checkText (seg : TcpSegment) (pkb : Pkbuf) : Quiet id (checkText net.env id seg pkb) := by
  rintro s seg' s' hrun
  obtain ⟨t, -, -, ht, -⟩ := getSk_bind_inv hrun
  obtain ⟨t1, htext, rfl⟩ := checkText_inv ht hrun
  refine ⟨fun t' ht' => ⟨t, ht, ?_⟩, [], by simp, by simp⟩
  rw [sock_put] at ht'
  cases ht'
  obtain ⟨r, -, -, hr, rfl, -⟩ | ⟨rfl, -⟩ := texted_inv htext
  · obtain ⟨_, _, _, _, _, _, _, he⟩ := tcpRecvText_receives hr
    simp only [he]
    exact ⟨rfl, rfl, fun h => h⟩
  · exact ⟨rfl, rfl, fun h => h⟩

structure Window (tsk : TcpSock) (wnd : UInt32) (t : TcpSock) : Prop where
  nxt : t.sndNxt = tsk.sndNxt
  wnd : t.sndWnd = wnd
  listen : t.state = .listen → tsk.state = .listen

def Moves (id : ℕ) (tsk : TcpSock) (wnd : UInt32) (s s' : Local) : Prop :=
  Keeps id (fun _ t' => Window tsk wnd t') NoText s s'

variable {s1 s2 : Local} {tsk : TcpSock} {wnd : UInt32} {seg : TcpSegment}

lemma Moves.of_keeps (h : s.sock id = some tsk) (hk : Keeps id SameWindow NoText s s1) :
    Moves id tsk tsk.sndWnd s s1 := by
  refine ⟨fun t' ht' => ?_, hk.2⟩
  have hsame := hk.rel h ht'
  exact ⟨tsk, h, hsame.nxt, hsame.wnd, hsame.listen⟩

lemma Moves.keeps (hm : Moves id tsk wnd s s1) (hk : Keeps id SameWindow NoText s1 s2) : Moves id tsk wnd s s2 :=
  hm.comp hk fun hw hs => ⟨hs.nxt.trans hw.nxt, hs.wnd.trans hw.wnd, fun hl => hw.listen (hs.listen hl)⟩

lemma Moves.put (h : s.sock id = some tsk) (hw : Window tsk wnd t) : Moves id tsk wnd s (s.put id t) := keeps_put h hw

lemma windowNewer_acked (h : acksNew tsk seg = true) (hu : t.sndUna = seg.ack)
    (hn : t.sndNxt = tsk.sndNxt) (h1 : t.sndWl1 = tsk.sndWl1) (h2 : t.sndWl2 = tsk.sndWl2) :
    windowNewer t seg = windowNewer tsk seg := by
  simp only [acksNew, Bool.and_eq_true, decide_eq_true_eq] at h
  have hle : tsk.sndUna ≤ seg.ack := UInt32.le_of_lt h.1
  simp [windowNewer, hu, hn, h1, h2, hle]

lemma window_tcpUpdateWindow (hn : t.sndNxt = tsk.sndNxt) (hw : t.sndWnd = tsk.sndWnd)
    (hl : t.state = .listen → tsk.state = .listen) (hnewer : windowNewer t seg = windowNewer tsk seg) :
    Window tsk (if windowNewer tsk seg then seg.wnd else tsk.sndWnd) (tcpUpdateWindow t seg) := by
  simp only [tcpUpdateWindow, hnewer]
  split_ifs
  · exact ⟨hn, rfl, hl⟩
  · exact ⟨hn, hw, hl⟩

lemma not_windowNewer (h : seg.ack > tsk.sndNxt) : windowNewer tsk seg = false := by
  have hle : ¬ seg.ack ≤ tsk.sndNxt := UInt32.not_le.mpr h
  simp [windowNewer, hle]

lemma Moves.set (h : s.sock id = some tsk)
    (hk : Keeps id SameWindow NoText s s1) (hrun : modifySk net.env id f s1 = .ok ((), s2))
    (hf : ∀ t, (f t).sndNxt = t.sndNxt ∧ (f t).sndWnd = wnd ∧ (f t).state ≠ .listen) :
    Moves id tsk wnd s s2 := by
  obtain ⟨t1, ht1, rfl⟩ := modifySk_inv hrun
  have hsame := hk.rel h ht1
  obtain ⟨hnxt, hwnd, hstate⟩ := hf t1
  refine ⟨fun t' ht' => ⟨tsk, h, ?_⟩, hk.2⟩
  rw [sock_put] at ht'
  cases ht'
  exact ⟨hnxt.trans hsame.nxt, hwnd, fun hl => absurd hl hstate⟩

lemma checkAck_moves (h : s.sock id = some tsk) (hacc : acceptable tsk seg = true)
    (hs : tsk.state ≠ .synSent) (hrun : checkAck net.env id seg s = .ok (b, s1)) :
    Moves id tsk (if takesWindow net s id tsk seg then seg.wnd else tsk.sndWnd) s s1 := by
  obtain ⟨x, hx, hrest⟩ := checkAck_inv h hrun
  have hack : Quiet id (modifySk net.env id (fun t => { t with sndUna := seg.ack })) :=
    quiet_modifySk id fun _ => ⟨rfl, rfl, fun h => h⟩
  have hquiet : takesWindow net s id tsk seg = false → Quiet id x →
      Moves id tsk (if takesWindow net s id tsk seg then seg.wnd else tsk.sndWnd) s s1 := by
    intro ht hx
    simp only [ht, Bool.false_eq_true, if_false]
    exact Moves.of_keeps h (hx _ _ _ hrest)
  cases hx with
  | completes hst hlo hhi =>
    obtain ⟨b', s2, hsyn, hlast⟩ := bind_inv hrest
    have hout : outcome (tcpSynrecvAck net.env id) s = some b' := by simp [outcome, hsyn]
    have hk : Keeps id SameWindow NoText s s2 := quiet_tcpSynrecvAck id s b' s2 hsyn
    have ht : takesWindow net s id tsk seg = b' := by
      simp [takesWindow, hst, hacc, hlo, hhi, hout]
    rw [ht]
    cases b' with
    | true =>
      obtain ⟨⟨⟩, s3, hset, hret⟩ := bind_inv hlast
      cases hret
      exact Moves.set h hk hset fun _ => ⟨rfl, rfl, by simp⟩
    | false =>
      cases hlast
      exact Moves.of_keeps h hk
  | outside hst hno =>
    refine hquiet ?_ ((quiet_tcpSendReset seg).bind fun _ => quiet_pure)
    simp only [takesWindow, hst, ← Bool.decide_and, Bool.and_assoc]
    simp [hno]
  | forward hst hnew =>
    have ht : takesWindow net s id tsk seg = windowNewer tsk seg := by
      rcases hst with hst | hst <;> simp [takesWindow, hst, hacc]
    rw [bind_run (modifySk_run _ h), bind_run (modifySk_run _ sock_put), put_put] at hrest
    cases hrest
    rw [ht]
    exact Moves.put h (window_tcpUpdateWindow rfl rfl (fun h => h) (windowNewer_acked hnew rfl rfl rfl rfl))
  | finWait1 hst hnew =>
    have ht : takesWindow net s id tsk seg = windowNewer tsk seg := by simp [takesWindow, hst, hacc]
    rw [bind_run (modifySk_run _ h), bind_run (modifySk_run _ sock_put), put_put,
      bind_run (modifySk_run _ sock_put), put_put] at hrest
    cases hrest
    rw [ht]
    exact Moves.put h (window_tcpUpdateWindow rfl rfl (by simp) (windowNewer_acked hnew rfl rfl rfl rfl))
  | closing hst hnew =>
    refine hquiet (by simp [takesWindow, hst, hnew]) ?_
    exact hack.bind fun _ => (quiet_tcpSetTimewaitTimer id).bind fun _ => quiet_pure
  | lastAck hst hnew =>
    refine hquiet (by simp [takesWindow, hst, hnew]) ?_
    exact hack.bind fun _ => (quiet_close id).bind fun _ => (quiet_tcpUnhash id).bind
      fun _ => (quiet_tcpUnbhash id).bind fun _ => quiet_pure
  | beyond hst _ hgt =>
    refine hquiet ?_ quiet_pure
    have hno := not_windowNewer hgt
    cases hstate : tsk.state <;> simp_all [takesWindow, acking]
  | old hst hnew _ =>
    have ht : takesWindow net s id tsk seg = windowNewer tsk seg := by
      cases hstate : tsk.state <;> simp_all [takesWindow, acking]
    rw [bind_run (modifySk_run _ h)] at hrest
    cases hrest
    rw [ht]
    exact Moves.put h (window_tcpUpdateWindow rfl rfl (fun h => h) rfl)
  | other hst =>
    refine hquiet ?_ quiet_pure
    cases hstate : tsk.state <;> simp_all [takesWindow, acking]

lemma not_takesWindow (hs : tsk.state ≠ .synSent) (hacc : acceptable tsk seg = false) :
    takesWindow net s id tsk seg = false := by
  cases hstate : tsk.state <;> simp_all [takesWindow]

lemma quiet_afterAck (b : Bool) (seg : TcpSegment) (pkb : Pkbuf) : Quiet id (if !b then drop net.env id seg pkb else do
      let seg ← checkText net.env id seg pkb
      checkFin net.env id seg
      drop net.env id seg pkb : Prog Local Unit) := by
  split_ifs
  · exact quiet_drop id seg pkb
  · exact (quiet_checkText seg pkb).bind fun seg' => (quiet_checkFin id seg').bind fun _ =>
      quiet_drop id seg' pkb

lemma tcpArrive_moves (h : s.sock id = some tsk) (hs : tsk.state ≠ .synSent)
    (hrun : tcpArrive net.env pkb seg id s = .ok ((), s1)) :
    Moves id tsk (if takesWindow net s id tsk seg then seg.wnd else tsk.sndWnd) s s1 := by
  have hquiet : acceptable tsk seg = false → Keeps id SameWindow NoText s s1 →
      Moves id tsk (if takesWindow net s id tsk seg then seg.wnd else tsk.sndWnd) s s1 := by
    intro hacc hk
    simp only [not_takesWindow hs hacc, Bool.false_eq_true, if_false]
    exact Moves.of_keeps h hk
  have hdrop : Quiet id (drop net.env id seg pkb) := quiet_drop id seg pkb
  rw [tcpArrive, bind_run (getSk_run h)] at hrun
  cases hseq : seqCheck seg tsk with
  | false =>
    refine hquiet (by simp [acceptable, hseq]) ?_
    simp only [hseq, Bool.not_false, if_true] at hrun
    split_ifs at hrun
    · have hnow : Quiet id (modifySk net.env id (fun t => { t with ackNow := true })) :=
        quiet_modifySk id fun _ => ⟨rfl, rfl, fun h => h⟩
      exact (hnow.bind fun _ => hdrop) _ _ _ hrun
    · exact hdrop _ _ _ hrun
  | true =>
    simp only [hseq, Bool.not_true, Bool.false_eq_true, if_false] at hrun
    cases hrst : seg.rst with
    | true =>
      simp only [hrst, if_true] at hrun
      exact hquiet (by simp [acceptable, hrst]) (((quiet_checkRst id).bind fun _ => hdrop) _ _ _ hrun)
    | false =>
      simp only [hrst, Bool.false_eq_true, if_false] at hrun
      obtain ⟨⟨⟩, s2, hsyn, hrest⟩ := bind_inv hrun
      cases hs' : seg.syn with
      | true =>
        -- the sock is closed or gone: the rest of the segment finds nothing to do
        have hk : Keeps id SameWindow NoText s s2 := quiet_checkSyn id seg s () s2 hsyn
        refine hquiet (by simp [acceptable, hs']) (hk.trans ?_)
        split_ifs at hrest
        · exact hdrop _ _ _ hrest
        · obtain ⟨b, s3, hack, hend⟩ := bind_inv hrest
          obtain ⟨t, s4, rfl, ht, hack'⟩ := getSk_bind_inv hack
          simp only [Order.checkSyn_closed hs' hsyn t ht] at hack'
          obtain ⟨-, rfl⟩ := ok_inj hack'
          exact quiet_afterAck b seg pkb _ _ _ hend
      | false =>
        simp only [checkSyn, hs', Bool.false_eq_true, if_false] at hsyn
        cases hsyn
        split_ifs at hrest with hbit
        · refine hquiet ?_ (hdrop _ _ _ hrest)
          simp only [Bool.not_eq_true'] at hbit
          simp [acceptable, hbit]
        · obtain ⟨b, s3, hack, hend⟩ := bind_inv hrest
          simp only [Bool.not_eq_true', Bool.not_eq_false] at hbit
          have hacc : acceptable tsk seg = true := by simp [acceptable, hseq, hrst, hs', hbit]
          exact (checkAck_moves h hacc hs hack).keeps (quiet_afterAck b seg pkb _ _ _ hend)

lemma tcpSynsent_moves (h : s.sock id = some tsk) (hs : tsk.state = .synSent)
    (hrun : tcpSynsent net.env pkb seg id s = .ok ((), s1)) :
    Moves id tsk (if takesWindow net s id tsk seg then seg.wnd else tsk.sndWnd) s s1 := by
  have hfree : Quiet id (net.env.freePkb pkb) := quiet_pure
  have hquiet : takesWindow net s id tsk seg = false → Keeps id SameWindow NoText s s1 →
      Moves id tsk (if takesWindow net s id tsk seg then seg.wnd else tsk.sndWnd) s s1 := by
    intro htake hk
    simp only [htake, Bool.false_eq_true, if_false]
    exact Moves.of_keeps h hk
  have hfirst : Quiet id (modifySk net.env id (synsentSyn seg)) :=
    quiet_modifySk id fun _ => ⟨rfl, rfl, fun h => h⟩
  rw [tcpSynsent, bind_run (getSk_run h)] at hrun
  split_ifs at hrun with hbad hrst hack hsyn hacked
  · exact hquiet (by simp [takesWindow, hs, hbad]) (((quiet_tcpSendReset seg).bind fun _ => hfree) _ _ _ hrun)
  · exact hquiet (by simp [takesWindow, hs, hrst]) (((quiet_close id).bind fun _ => hfree) _ _ _ hrun)
  · exact hquiet (by simp [takesWindow, hs, hrst]) (hfree _ _ _ hrun)
  · have htake : takesWindow net s id tsk seg = true := by
      simp only [Bool.not_eq_true] at hbad hrst
      simp [takesWindow, hs, hbad, hrst, hsyn, hacked]
    simp only [htake, if_true]
    obtain ⟨⟨⟩, s2, hset, hrest⟩ := bind_inv hrun
    obtain ⟨⟨⟩, s3, hupd, hend⟩ := bind_inv hrest
    have hm : Moves id tsk seg.wnd s s3 :=
      Moves.set h (hfirst _ _ _ hset) hupd fun _ => ⟨rfl, rfl, nofun⟩
    have hwake : ∀ b : Bool, Quiet id (wakeUp b : Prog Local Unit) :=
      fun b => .of_touches (keeps_wakeUp b)
    exact hm.keeps (((quiet_tcpSendAck id seg).bind fun _ => (quiet_getSk id).bind fun t =>
      (hwake t.waitConnect).bind fun _ => hfree) _ _ _ hend)
  · refine hquiet (by simp [takesWindow, hs, hacked]) ?_
    have hrecv : Quiet id (modifySk net.env id (fun t => { t with state := .synRecv })) :=
      quiet_modifySk id fun _ => ⟨rfl, rfl, nofun⟩
    have hsend : Quiet id (tcpSendSynack net.env id seg) :=
      .of_answers (keeps_tcpSendSynack blind_touches.dst id seg)
    exact (hfirst.bind fun _ => hrecv.bind fun _ => hsend) _ _ _ hrun
  · simp only [Bool.not_eq_true] at hsyn
    exact hquiet (by simp [takesWindow, hs, hsyn]) (hfree _ _ _ hrun)

lemma tcpProcess_moves (h : s.sock id = some tsk) (hl : tsk.state ≠ .listen)
    (hrun : tcpProcess net.env pkb seg (some id) s = .ok ((), s1)) :
    Moves id tsk (if takesWindow net s id tsk seg then seg.wnd else tsk.sndWnd) s s1 := by
  rw [tcpProcess, bind_run (getSk_run h)] at hrun
  cases hs : tsk.state <;> simp only [hs] at hrun hl
  case closed =>
    cases hrun
    simp only [takesWindow, hs, Bool.false_eq_true, if_false]
    exact Moves.of_keeps h (Keeps.refl s)
  case listen => exact absurd rfl hl
  case synSent => exact tcpSynsent_moves h hs hrun
  all_goals exact tcpArrive_moves h (by simp [hs]) hrun

end Arrival

section Safety

variable {edges : List ℕ}

structure Inside (id : ℕ) (s : Local) (edges : List ℕ) : Prop where
  text : ∀ e ∈ s.sent, e.out.data = [] ∨ Below (top edges) e
  credit : ∀ t, s.sock id = some t →
    t.state ≠ .listen ∧ (t.sndWnd = 0 ∨ t.sndNxt.toNat + t.sndWnd.toNat ≤ top edges)
  edges : top edges < 2 ^ 32

lemma Inside.moves {tsk : TcpSock} {wnd : UInt32} {edges' : List ℕ}
    (hi : Inside id s edges) (h : s.sock id = some tsk) (hm : Moves id tsk wnd s s')
    (htop : top edges ≤ top edges') (hlt : top edges' < 2 ^ 32)
    (hwnd : wnd = 0 ∨ tsk.sndNxt.toNat + wnd.toNat ≤ top edges') : Inside id s' edges' := by
  obtain ⟨hsock, new, hsent, hnew⟩ := hm
  refine ⟨fun e he => ?_, fun t ht => ?_, hlt⟩
  · rw [hsent] at he
    rcases List.mem_append.mp he with he | he
    · exact (hi.text e he).imp (fun h => h) (fun hb => le_trans hb htop)
    · exact .inl (hnew e he)
  · obtain ⟨t0, ht0, hw⟩ := hsock t ht
    refine ⟨fun hl => (hi.credit tsk h).1 (hw.listen hl), ?_⟩
    rw [hw.nxt, hw.wnd]
    exact hwnd

lemma Run.inside (h : Run net id Covered s edges) : Inside id s edges := by
  induction h with
  | @start s tsk hs hstate hwnd htext =>
    refine ⟨fun e he => .inl (htext e he), fun t ht => ?_, by decide⟩
    cases Option.mem_unique hs ht
    refine ⟨?_, .inl hwnd⟩
    rcases hstate with hstate | hstate <;> simp [hstate]
  | @update s s' edges tsk seg pkb _ hs htake hok hedge hrun ih =>
    have hm := tcpProcess_moves hs (ih.credit tsk hs).1 hrun
    rw [htake, if_pos rfl] at hm
    have htop : top (edge seg :: edges) = max (edge seg) (top edges) := rfl
    have hlt := ih.edges
    exact ih.moves hs hm (by omega) (by omega) (.inr (htop ▸ hok))
  | @segment s s' edges tsk seg pkb _ hs htake hrun ih =>
    obtain ⟨hl, hcredit⟩ := ih.credit tsk hs
    have hm := tcpProcess_moves hs hl hrun
    rw [htake, if_neg (by simp)] at hm
    exact ih.moves hs hm le_rfl ih.edges hcredit
  | @send s s' edges buf len n _ hrun ih =>
    obtain ⟨⟨hsock, new, hsent, hnew⟩, hbound⟩ :=
      tcpSendText_keeps ih.edges (fun t ht => (ih.credit t ht).2) hrun
    refine ⟨fun e he => ?_, fun t ht => ?_, ih.edges⟩
    · rw [hsent] at he
      rcases List.mem_append.mp he with he | he
      · exact ih.text e he
      · exact .inr (hnew e he)
    · obtain ⟨t0, ht0, hc⟩ := hsock t ht
      exact ⟨hc.state ▸ (ih.credit t0 ht0).1, .inr (hc.credit ▸ hbound t0 ht0)⟩

theorem text_below_edge (h : Run net id Covered s edges) {e : Sent} (he : e ∈ s.sent) {i : ℕ}
    (hi : i < e.out.data.length) : e.out.seq.toNat + i < top edges := by
  rcases h.inside.text e he with hempty | hbelow
  · simp [hempty] at hi
  · simp only [Below] at hbelow
    omega

end Safety

def windowSegment (ack wnd : UInt32) : TcpSegment :=
  { fromPeer 501 ack [] with psh := false, lastseq := 501, wnd := wnd }

def sentByte : Sent where
  saddr := 0x0100000a
  daddr := 0x0200000a
  out := ⟨0x0080, 0x5000, 103, 501, false, false, false, true, true, 4096, [3]⟩

def opened : Local :=
  finalState (tcpProcess online.env (allocPkb 0 0) { synAckSegment with wnd := 2 } (some 0)) dialled

def filled : Local := finalState (tcpSendText online.env 0 [1, 2] 2) opened

def reopened (ack : UInt32) : Local :=
  finalState (tcpProcess online.env (allocPkb 0 0) (windowSegment ack 2) (some 0)) filled

def thirdSent (ack : UInt32) : Local := finalState (tcpSendText online.env 0 [3] 1) (reopened ack)

lemma run_filled {ok : List ℕ → TcpSock → TcpSegment → Prop}
    (hok : ok [] ((dialled.sock 0).getD boundSock) { synAckSegment with wnd := 2 }) :
    Run online 0 ok filled [103] := by
  have h0 : Run online 0 ok dialled [] :=
    .start (sock_of_isSome (by decide +kernel)) (.inl (by decide +kernel)) (by decide +kernel) (by decide +kernel)
  have h1 : Run online 0 ok opened [103] :=
    @Run.update _ _ _ _ _ _ _ { synAckSegment with wnd := 2 } (allocPkb 0 0) h0
      (sock_of_isSome (by decide +kernel)) (by decide +kernel) hok (by decide +kernel)
      (run_of_outcome (by decide +kernel))
  exact h1.send (n := 2) (run_of_outcome (by decide +kernel))

theorem text_below_edge_acked : ∃ s edges, Run online 0 Covered s edges ∧ sentByte ∈ s.sent ∧
    sentByte.out.seq.toNat + 0 < top edges := by
  have h2 : Run online 0 Covered filled [103] := run_filled (by decide +kernel)
  have h3 : Run online 0 Covered (reopened 103) [105, 103] :=
    @Run.update _ _ _ _ _ _ _ (windowSegment 103 2) (allocPkb 0 0) h2
      (sock_of_isSome (by decide +kernel)) (by decide +kernel) (by decide +kernel) (by decide +kernel)
      (run_of_outcome (by decide +kernel))
  have h4 : Run online 0 Covered (thirdSent 103) [105, 103] :=
    @Run.send _ _ _ _ _ _ _ _ 1 h3 (run_of_outcome (by decide +kernel))
  have hmem : sentByte ∈ (thirdSent 103).sent := by decide +kernel
  exact ⟨_, _, h4, hmem, text_below_edge h4 hmem (by decide)⟩

/-- The second offer is a duplicate ACK, which counts from what was sent, not from what arrived. -/
theorem text_beyond_edge : ∃ s edges, Run online 0 (fun _ _ _ => True) s edges ∧
    sentByte ∈ s.sent ∧ ¬ sentByte.out.seq.toNat + 0 < top edges := by
  have h2 : Run online 0 (fun _ _ _ => True) filled [103] := run_filled trivial
  have h3 : Run online 0 (fun _ _ _ => True) (reopened 101) [103, 103] :=
    @Run.update _ _ _ _ _ _ _ (windowSegment 101 2) (allocPkb 0 0) h2
      (sock_of_isSome (by decide +kernel)) (by decide +kernel) trivial (by decide +kernel)
      (run_of_outcome (by decide +kernel))
  have h4 : Run online 0 (fun _ _ _ => True) (thirdSent 101) [103, 103] :=
    @Run.send _ _ _ _ _ _ _ _ 1 h3 (run_of_outcome (by decide +kernel))
  exact ⟨_, _, h4, by decide +kernel, by decide⟩

end Tapip.Tcp.SendWindow
